import Mathlib.Data.List.Basic
import Mathlib.Tactic.SplitIfs
import StatementTable.Files.FileTree

/-!
# Writing files

A file tree is observed place by place: a place holds a file with its content, a directory with
what it allows, something else, or nothing.  A write that succeeds changes this at one place only,
the one to which the path leads afterwards.
-/

namespace StatementTable

/-! ## The end of a path -/

namespace Path

theorem getLast?_intercalate_concat_nil
    {α : Type} (a : α) {parts : List (List α)} (h : parts ≠ []) :
    ([a].intercalate (parts ++ [[]])).getLast? = some a := by
  induction parts with
  | nil => exact absurd rfl h
  | cons part rest ih =>
      rw [List.cons_append]
      by_cases hrest : rest = []
      · subst hrest
        simp [List.intercalate_cons_cons, List.intercalate_singleton]
      · obtain ⟨next, others, hnext⟩ := List.exists_cons_of_ne_nil
          (List.append_ne_nil_of_right_ne_nil rest (List.cons_ne_nil ([] : List α) []))
        have hlast := ih hrest
        rw [hnext] at hlast ⊢
        rw [List.intercalate_cons_cons, List.getLast?_append, hlast]
        rfl

/-- A path without a slash at its end ends in a name. -/
theorem exists_segments_eq_concat
    {path : String} (hne : path ≠ "") (h : path.toList.getLast? ≠ some '/') :
    ∃ initial name, segments path = initial ++ [name] ∧ name ≠ "" := by
  have hjoin : ['/'].intercalate (path.toList.splitOn '/') = path.toList :=
    List.intercalate_splitOn '/'
  obtain ⟨parts, last, hparts⟩ :=
    List.eq_nil_or_concat' (path.toList.splitOn '/') |>.resolve_left (List.splitOn_ne_nil _ _)
  refine ⟨parts.map String.ofList, String.ofList last, ?_, ?_⟩
  · rw [segments, hparts, List.map_append, List.map_singleton]
  · intro hlast
    obtain rfl : last = [] := by simpa using hlast
    rw [hparts] at hjoin
    by_cases hinit : parts = []
    · subst hinit
      exact hne (String.toList_eq_nil_iff.mp hjoin.symm)
    · exact h (hjoin ▸ getLast?_intercalate_concat_nil '/' hinit)

end Path

theorem exists_of_bind_eq_ok
    {ε α β : Type} {x : Except ε α} {f : α → Except ε β} {b : β} (h : (x >>= f) = .ok b) :
    ∃ a, x = .ok a ∧ f a = .ok b := by
  cases x with
  | error e => cases h
  | ok a => exact ⟨a, rfl, h⟩

theorem eq_error_or_of_bind_eq_error
    {ε α β : Type} {x : Except ε α} {f : α → Except ε β} {e : ε} (h : (x >>= f) = .error e) :
    x = .error e ∨ ∃ a, x = .ok a ∧ f a = .error e := by
  cases x with
  | error e' => exact .inl (congrArg _ (Except.error.inj h))
  | ok a => exact .inr ⟨a, rfl, h⟩

theorem lookup_cons_eq_ite
    {α β : Type} [DecidableEq α] (key : α) (value : β) (rest : List (α × β)) (a : α) :
    ((key, value) :: rest).lookup a = if a = key then some value else rest.lookup a := by
  by_cases h : a = key
  · rw [if_pos h, h, List.lookup_cons_self]
  · rw [if_neg h, List.lookup_cons, beq_false_of_ne h]

namespace FileTree

/-! ## What stands at a place -/

/-- What stands at a place, apart from the entries of a directory. -/
inductive Item where
  | file (content : ByteArray)
  | directory (access : Access)
  | special

/-- What a tree is at its root. -/
def item : FileTree → Item
  | .file content => .file content
  | .directory access _ => .directory access
  | .special => .special

/-- What stands at a place given by names from the root. -/
def item? (root : FileTree) (place : List String) : Option Item :=
  (root.find? place).map item

def HasDirectory (root : FileTree) (place : List String) : Prop :=
  ∃ access, root.item? place = some (.directory access)

theorem item?_nil (root : FileTree) : root.item? [] = some root.item := rfl

theorem item?_cons (root : FileTree) (name : String) (names : List String) :
    root.item? (name :: names) = (root.entry? name).bind fun entry => entry.item? names := by
  rw [item?, find?, Option.map_bind]
  rfl

theorem item?_append (root : FileTree) (place names : List String) :
    root.item? (place ++ names) = (root.find? place).bind fun tree => tree.item? names := by
  induction place generalizing root with
  | nil => rfl
  | cons name rest ih =>
      rw [List.cons_append, item?_cons, find?, Option.bind_assoc]
      exact congrArg _ (funext ih)

theorem lookup_putEntry
    (name : String) (tree : FileTree) (entries : List (String × FileTree)) (other : String) :
    (putEntry name tree entries).lookup other =
      if other = name then some tree else entries.lookup other := by
  induction entries with
  | nil =>
      rw [putEntry, lookup_cons_eq_ite]
  | cons entry rest ih =>
      obtain ⟨n, t⟩ := entry
      rw [putEntry]
      by_cases hn : n = name
      · subst hn
        rw [if_pos rfl, lookup_cons_eq_ite, lookup_cons_eq_ite]
        split <;> rfl
      · rw [if_neg hn, lookup_cons_eq_ite, lookup_cons_eq_ite, ih]
        by_cases h : other = n
        · rw [if_pos h, if_neg (h ▸ hn), if_pos h]
        · rw [if_neg h, if_neg h]

theorem item?_put_cons
    (new : FileTree) (access : Access) (entries : List (String × FileTree)) (name : String)
    (names : List String) (n : String) (others : List String) :
    (put new (name :: names) (.directory access entries)).item? (n :: others) =
      if n = name then (put new names ((entries.lookup name).getD empty)).item? others
      else (directory access entries).item? (n :: others) := by
  rw [put, item?_cons, item?_cons, entry?, entry?, lookup_putEntry]
  by_cases h : n = name
  · rw [if_pos h, if_pos h, Option.bind_some]
  · rw [if_neg h, if_neg h]

/-- There is nothing below what is not a directory. -/
theorem item?_append_cons_eq_none
    {root : FileTree} {place : List String} (h : ¬root.HasDirectory place) (name : String)
    (names : List String) : root.item? (place ++ name :: names) = none := by
  rw [item?_append]
  cases hfind : root.find? place with
  | none => rfl
  | some tree =>
      cases tree with
      | file content => rfl
      | directory access entries => exact absurd ⟨access, by rw [item?, hfind]; rfl⟩ h
      | special => rfl

theorem exists_find?_eq_directory
    {root : FileTree} {place : List String} {access : Access}
    (h : root.item? place = some (.directory access)) :
    ∃ entries, root.find? place = some (.directory access entries) := by
  obtain ⟨tree, htree, hitem⟩ := Option.map_eq_some_iff.mp h
  cases tree with
  | file content => cases hitem
  | directory access entries =>
      cases hitem
      exact ⟨entries, htree⟩
  | special => cases hitem

theorem isSome_item?_concat
    {root : FileTree} {place : List String} {access : Access} {entries : List (String × FileTree)}
    (h : root.find? place = some (.directory access entries)) (name : String) :
    (root.item? (place ++ [name])).isSome = (entries.lookup name).isSome := by
  rw [item?_append, h, Option.bind_some, item?_cons, entry?]
  cases entries.lookup name <;> rfl

/-- A file put into a directory, where it replaces no directory, changes one place. -/
theorem item?_put_file
    {root : FileTree} {directory : List String} {name : String} (content : ByteArray)
    (hdirectory : root.HasDirectory directory)
    (hname : ¬root.HasDirectory (directory ++ [name])) (other : List String) :
    (put (.file content) (directory ++ [name]) root).item? other =
      if other = directory ++ [name] then some (.file content) else root.item? other := by
  obtain ⟨access, hdirectory⟩ := hdirectory
  induction directory generalizing root other with
  | nil =>
      obtain ⟨entries, hroot⟩ := exists_find?_eq_directory hdirectory
      obtain rfl := Option.some.inj hroot
      cases other with
      | nil => rfl
      | cons n others =>
          rw [List.nil_append, item?_put_cons, put]
          by_cases hn : n = name
          · subst hn
            rw [if_pos rfl]
            cases others with
            | nil => rw [if_pos rfl, item?_nil, item]
            | cons below others =>
                rw [if_neg (by simp)]
                exact (item?_append_cons_eq_none hname below others).symm
          · rw [if_neg hn, if_neg (by simp [hn])]
  | cons step rest ih =>
      obtain ⟨tree, htree, hrest⟩ := Option.bind_eq_some_iff.mp
        ((item?_cons _ _ _).symm.trans hdirectory)
      cases root with
      | file _ => cases htree
      | special => cases htree
      | directory access entries =>
          rw [ entry?] at htree
          have hbelow (names : List String) :
              item? (.directory access entries) (step :: names) = tree.item? names := by
            rw [item?_cons, entry?, htree, Option.bind_some]
          cases other with
          | nil => rfl
          | cons n others =>
              rw [List.cons_append, item?_put_cons, htree, Option.getD_some]
              by_cases hn : n = step
              · subst hn
                rw [if_pos rfl, hbelow, ih]
                · simp only [List.cons.injEq, true_and]
                · rwa [HasDirectory, List.cons_append, hbelow] at hname
                · exact hrest
              · rw [if_neg hn, if_neg (by simp [hn])]

/-! ## Following a path -/

theorem hasDirectory_of_follow
    {root : FileTree} {place next : List String} {segment : String}
    (h : root.follow place segment = .ok next) : root.HasDirectory place := by
  rw [follow] at h
  split at h
  · cases h
  · next access entries hfind => exact ⟨access, by rw [item?, hfind]; rfl⟩
  · cases h
  · cases h

theorem follow_of_item?_eq_directory
    {root : FileTree} {place : List String} {access : Access}
    (h : root.item? place = some (.directory access)) (segment : String) :
    root.follow place segment =
      if segment = "" then .ok place
      else if !access.search then .error .denied
      else if segment = "." then .ok place
      else if segment = ".." then .ok place.dropLast
      else if nameLimit < segment.utf8ByteSize then .error .tooLong
      else if (root.item? (place ++ [segment])).isSome then .ok (place ++ [segment])
      else .error .missing := by
  obtain ⟨entries, hfind⟩ := exists_find?_eq_directory h
  rw [follow, hfind, isSome_item?_concat hfind]

theorem follow_empty {root : FileTree} {place : List String} (h : root.HasDirectory place) :
    root.follow place "" = .ok place := by
  obtain ⟨access, h⟩ := h
  rw [follow_of_item?_eq_directory h, if_pos rfl]

/-- A way to a directory starts in a directory. -/
theorem hasDirectory_of_foldlM
    {root : FileTree} {segments place next : List String}
    (h : segments.foldlM (follow root) place = .ok next)
    (hnext : root.HasDirectory next) : root.HasDirectory place := by
  cases segments with
  | nil =>
      cases h
      exact hnext
  | cons segment rest =>
      obtain ⟨middle, hmiddle, -⟩ := exists_of_bind_eq_ok (List.foldlM_cons.symm.trans h)
      exact hasDirectory_of_follow hmiddle

/-- On the way to a directory empty segments count for nothing.  Such a segment stays in place, and
fails only where the rest of the way fails as well. -/
theorem foldlM_follow_of_filter
    {root : FileTree} {segments place next : List String} (hnext : root.HasDirectory next)
    (h : (segments.filter fun segment => !segment.isEmpty).foldlM (follow root) place = .ok next) :
    segments.foldlM (follow root) place = .ok next := by
  induction segments generalizing place with
  | nil => exact h
  | cons segment rest ih =>
      rw [List.foldlM_cons]
      by_cases hempty : segment = ""
      · subst hempty
        rw [List.filter_cons_of_neg (by simp)] at h
        rw [follow_empty (hasDirectory_of_foldlM h hnext)]
        exact ih h
      · rw [List.filter_cons_of_pos (by simpa using hempty), List.foldlM_cons] at h
        obtain ⟨middle, hmiddle, hrest⟩ := exists_of_bind_eq_ok h
        rw [hmiddle]
        exact ih hrest

/-! ## The place of a file -/

/-- The place at which a path asks for a file is an entry of a directory that may be searched, and
the path leads to the entry if there is one. -/
structure Asks (root : FileTree) (path : String) (directory : List String) (name : String) :
    Prop where
  searched : ∃ access, root.item? directory = some (.directory access) ∧ access.search = true
  segments : ∃ initial, Path.segments path = initial ++ [name] ∧
    initial.foldlM (follow root) [] = .ok directory
  ne_empty : name ≠ ""
  ne_dot : name ≠ "."
  ne_dots : name ≠ ".."
  shortName : ¬nameLimit < name.utf8ByteSize
  shortPath : ¬pathLimit ≤ path.utf8ByteSize

theorem Asks.hasDirectory
    {root : FileTree} {path name : String} {directory : List String}
    (h : root.Asks path directory name) : root.HasDirectory directory := by
  obtain ⟨access, hitem, -⟩ := h.searched
  exact ⟨access, hitem⟩

theorem searched_of_follow_dot
    {root : FileTree} {place next : List String} (h : root.follow place "." = .ok next) :
    ∃ access, root.item? place = some (.directory access) ∧ access.search = true := by
  obtain ⟨access, hitem⟩ := hasDirectory_of_follow h
  refine ⟨access, hitem, ?_⟩
  rw [follow_of_item?_eq_directory hitem, if_neg (by decide)] at h
  split at h
  · cases h
  · next hsearch => simpa using hsearch

theorem asks_of_filePlace
    {root : FileTree} {path : String} {place : List String} (h : root.filePlace path = .ok place) :
    ∃ directory name, place = directory ++ [name] ∧ root.Asks path directory name := by
  simp only [filePlace] at h
  split at h
  · cases h
  · next hpathLimit =>
    split at h
    · cases h
    · next last hlast =>
      obtain ⟨directory, hdirectory, h⟩ := exists_of_bind_eq_ok h
      obtain ⟨same, hsame, h⟩ := exists_of_bind_eq_ok h
      split_ifs at h with hproper hnameLimit
      cases h
      push Not at hproper
      obtain ⟨hdot, hdots, hslash⟩ := hproper
      have hpath : path ≠ "" := by
        rintro rfl
        cases hlast
      obtain ⟨initial, name, hsegments, hname⟩ := Path.exists_segments_eq_concat hpath hslash
      rw [hsegments, List.filter_append, List.filter_cons_of_pos (by simpa using hname),
        List.filter_nil] at hlast hdirectory
      rw [List.getLast?_concat] at hlast
      rw [List.dropLast_concat] at hdirectory
      obtain rfl : name = last := Option.some.inj hlast
      have hinitial := foldlM_follow_of_filter (hasDirectory_of_follow hsame) hdirectory
      exact ⟨directory, name, rfl, searched_of_follow_dot hsame, ⟨initial, hsegments, hinitial⟩,
        hname, hdot, hdots, hnameLimit, hpathLimit⟩

theorem Asks.resolve_eq
    {root : FileTree} {path name : String} {directory : List String}
    (h : root.Asks path directory name) :
    root.resolve path =
      if (root.item? (directory ++ [name])).isSome then .ok (directory ++ [name])
      else .error .missing := by
  obtain ⟨initial, hsegments, hinitial⟩ := h.segments
  obtain ⟨access, hitem, hsearch⟩ := h.searched
  have hpath : ¬ path.isEmpty := by
    intro hempty
    have hlast : (Path.segments path).getLast? = some name := by
      rw [hsegments, List.getLast?_concat]
    rw [String.isEmpty_iff.mp hempty] at hlast
    exact h.ne_empty (Option.some.inj hlast).symm
  rw [resolve, if_neg hpath, if_neg h.shortPath, hsegments, List.foldlM_append, hinitial]
  change [name].foldlM (follow root) directory = _
  rw [List.foldlM_cons, follow_of_item?_eq_directory hitem, if_neg h.ne_empty,
    if_neg (by simp [hsearch]), if_neg h.ne_dot, if_neg h.ne_dots, if_neg h.shortName]
  split <;> rfl

/-! ## Writing -/

/-- A path leads to a place with the given content, where before there was a file or nothing.  All
other places are as before. -/
structure Overwritten (before : FileTree) (path : String) (content : ByteArray)
    (after : FileTree) (place : List String) : Prop where
  resolve_before : before.resolve path = .ok place ∨ before.resolve path = .error .missing
  item?_before : before.item? place = none ∨ ∃ old, before.item? place = some (.file old)
  resolve_after : after.resolve path = .ok place
  item?_after : after.item? place = some (.file content)
  item?_elsewhere : ∀ other, other ≠ place → after.item? other = before.item? other

section Overwriting

variable {before after : FileTree} {place : List String} {content : ByteArray}
  (hbefore : ¬before.HasDirectory place)
  (hafter : after.item? place = some (.file content))
  (helsewhere : ∀ other, other ≠ place → after.item? other = before.item? other)

include hbefore helsewhere

theorem item?_eq_directory_of_elsewhere
    {directory : List String} {access : Access}
    (h : before.item? directory = some (.directory access)) :
    after.item? directory = some (.directory access) := by
  rw [helsewhere, h]
  rintro rfl
  exact hbefore ⟨access, h⟩

include hafter

/-- A way is still open after a file has been put where no directory was. -/
theorem follow_eq_ok_of_elsewhere
    {directory next : List String} {segment : String}
    (h : before.follow directory segment = .ok next) :
    after.follow directory segment = .ok next := by
  obtain ⟨access, hdirectory⟩ := hasDirectory_of_follow h
  have hentry : (before.item? (directory ++ [segment])).isSome →
      (after.item? (directory ++ [segment])).isSome := by
    intro hsome
    by_cases hplace : directory ++ [segment] = place
    · rw [hplace, hafter]
      rfl
    · rwa [helsewhere _ hplace]
  rw [follow_of_item?_eq_directory hdirectory] at h
  rw [follow_of_item?_eq_directory (item?_eq_directory_of_elsewhere hbefore helsewhere hdirectory)]
  by_cases hsome : (before.item? (directory ++ [segment])).isSome
  · rw [if_pos hsome] at h
    rwa [if_pos (hentry hsome)]
  · rw [if_neg hsome] at h
    split_ifs at h ⊢ <;> assumption

theorem foldlM_follow_eq_ok_of_elsewhere
    {segments directory next : List String}
    (h : segments.foldlM (follow before) directory = .ok next) :
    segments.foldlM (follow after) directory = .ok next := by
  induction segments generalizing directory with
  | nil => exact h
  | cons segment rest ih =>
      rw [List.foldlM_cons] at h ⊢
      obtain ⟨middle, hmiddle, hrest⟩ := exists_of_bind_eq_ok h
      rw [follow_eq_ok_of_elsewhere hbefore hafter helsewhere hmiddle]
      exact ih hrest

theorem Asks.of_elsewhere
    {path name : String} {directory : List String} (h : before.Asks path directory name) :
    after.Asks path directory name where
  searched := by
    obtain ⟨access, hitem, hsearch⟩ := h.searched
    exact ⟨access, item?_eq_directory_of_elsewhere hbefore helsewhere hitem, hsearch⟩
  segments := by
    obtain ⟨initial, hsegments, hinitial⟩ := h.segments
    exact ⟨initial, hsegments,
      foldlM_follow_eq_ok_of_elsewhere hbefore hafter helsewhere hinitial⟩
  ne_empty := h.ne_empty
  ne_dot := h.ne_dot
  ne_dots := h.ne_dots
  shortName := h.shortName
  shortPath := h.shortPath

end Overwriting

/-- What a write finds in its place, if it succeeds. -/
theorem of_write
    {before after : FileTree} {path : String} {content : ByteArray}
    (h : before.write path content = .ok after) :
    ∃ place, before.filePlace path = .ok place ∧ after = put (.file content) place before ∧
      (before.item? place = none ∨ ∃ old, before.item? place = some (.file old)) := by
  obtain ⟨place, hplace, h⟩ := exists_of_bind_eq_ok h
  split at h
  · cases h
  · cases h
  · next old hfind =>
    exact ⟨place, hplace, (Except.ok.inj h).symm, .inr ⟨old, by rw [item?, hfind]; rfl⟩⟩
  · next hfind =>
    exact ⟨place, hplace, (Except.ok.inj h).symm, .inl (by rw [item?, hfind]; rfl)⟩

/-- A write changes the place to which the path leads, and nothing else. -/
theorem exists_overwritten_of_write
    {before after : FileTree} {path : String} {content : ByteArray}
    (h : before.write path content = .ok after) :
    ∃ place, before.Overwritten path content after place := by
  obtain ⟨place, hplace, rfl, hfound⟩ := of_write h
  obtain ⟨directory, name, rfl, hasks⟩ := asks_of_filePlace hplace
  have hbefore : ¬before.HasDirectory (directory ++ [name]) := by
    rintro ⟨access, hitem⟩
    rcases hfound with hnone | ⟨old, hold⟩
    · cases hnone.symm.trans hitem
    · cases hold.symm.trans hitem
  have hput := item?_put_file content hasks.hasDirectory hbefore
  have hafter := (hput _).trans (if_pos rfl)
  have helsewhere : ∀ other, other ≠ directory ++ [name] → _ := fun other hother =>
    (hput other).trans (if_neg hother)
  refine ⟨directory ++ [name], ?_, hfound, ?_, hafter, helsewhere⟩
  · rw [hasks.resolve_eq]
    split
    · exact .inl rfl
    · exact .inr rfl
  · rw [(hasks.of_elsewhere hbefore hafter helsewhere).resolve_eq, hafter]
    rfl

end FileTree

end StatementTable
