import StatementTable.Proofs.FileWrites

/-!
# Paths joined from names

Joining a name to a path adds one component to it, whether or not the path ends in a slash.  So the
paths below a root are told apart by the names joined to the root, and what a joined path leads to,
if it leads anywhere, is the entry of that name in what the path leads to.  Paths are in order as
their lists of components are, and two paths have the same place in this order only if their
components are the same.
-/

namespace StatementTable

namespace Path

/-! ## The order of paths -/

instance : Std.TransCmp Component.compare :=
  inferInstanceAs (Std.TransCmp (compareLex (compareOn Component.rank) (compareOn Component.name)))

instance : Std.LawfulEqCmp Component.compare where
  eq_of_compare := by
    intro a b h
    obtain ⟨hrank, hname⟩ := compareLex_eq_eq.mp h
    have hrank : a.rank = b.rank := Std.LawfulEqCmp.eq_of_compare hrank
    have hname : a.name = b.name := Std.LawfulEqCmp.eq_of_compare hname
    cases a <;> cases b <;> simp_all [Component.rank, Component.name]

instance : Std.TransCmp compare where
  eq_swap := by
    intro a b
    unfold compare
    exact Std.OrientedCmp.eq_swap
  isLE_trans := by
    intro a b c
    unfold compare
    exact Std.TransCmp.isLE_trans

/-- Paths with the same components have the same place in the order, and no others have. -/
theorem compare_eq_eq_iff {a b : String} : compare a b = .eq ↔ components a = components b := by
  unfold compare
  exact Std.LawfulEqCmp.compare_eq_iff_eq

theorem components_ne_of_lt {a b : String} (h : compare a b = .lt) :
    components a ≠ components b := by
  intro heq
  rw [compare_eq_eq_iff.mpr heq] at h
  cases h

/-! ## Joining a name -/

/-- What an entry of a directory may be called. -/
structure IsName (name : String) : Prop where
  ne_empty : name ≠ ""
  ne_dot : name ≠ "."
  ne_dots : name ≠ ".."
  slash_notMem : '/' ∉ name.toList

theorem component?_of_isName {name : String} (h : IsName name) :
    component? name = some (.normal name) := by
  rw [component?, if_neg (not_or.mpr ⟨h.ne_empty, h.ne_dot⟩), if_neg h.ne_dots]

theorem segments_of_notMem {name : String} (h : '/' ∉ name.toList) : segments name = [name] := by
  have hsplit : name.toList.splitOn '/' = [name.toList] := by
    apply List.splitOnP_eq_singleton
    intro c hc
    simpa using fun heq : c = '/' => h (heq ▸ hc)
  rw [segments, hsplit, List.map_singleton, String.ofList_toList]

/-- A slash sets segments apart. -/
theorem segments_append_slash (a b : String) :
    segments (a ++ "/" ++ b) = segments a ++ segments b := by
  have hlist : (a ++ "/" ++ b).toList = a.toList ++ '/' :: b.toList := by simp
  rw [segments, hlist, List.splitOn, List.splitOnP_append_cons _ _ (by simp), List.map_append]
  rfl

/-- The segments of a path, less the empty one behind a slash at its end, are those in front of a
name that is joined to it. -/
theorem exists_segments_join
    {directory : String} (hne : directory ≠ "") :
    ∃ base, base ≠ [] ∧ (segments directory = base ∨ segments directory = base ++ [""]) ∧
      ∀ name, '/' ∉ name.toList → segments (join directory name) = base ++ [name] := by
  have hsegments : ∀ path, segments path ≠ [] :=
    fun path hnil => List.splitOn_ne_nil '/' path.toList (List.map_eq_nil_iff.mp hnil)
  by_cases hslash : directory.toList.getLast? = some '/'
  · obtain ⟨front, hfront⟩ := List.getLast?_eq_some_iff.mp hslash
    have hdirectory : directory = String.ofList front ++ "/" := by
      apply String.toList_inj.mp
      simp [hfront]
    refine ⟨segments (String.ofList front), hsegments _, Or.inr ?_, ?_⟩
    · have happend := segments_append_slash (String.ofList front) ""
      rwa [String.append_empty, ← hdirectory] at happend
    · intro name hname
      have hjoin : join directory name = directory ++ name := by simp [join, hslash]
      rw [hjoin, hdirectory, segments_append_slash, segments_of_notMem hname]
  · refine ⟨segments directory, hsegments _, Or.inl rfl, ?_⟩
    intro name hname
    have hjoin : join directory name = directory ++ "/" ++ name := by
      unfold join
      split
      · case h_1 hnone =>
          exact absurd (String.toList_eq_nil_iff.mp (List.getLast?_eq_none_iff.mp hnone)) hne
      · case h_2 hsome => exact absurd hsome hslash
      · rfl
    rw [hjoin, segments_append_slash, segments_of_notMem hname]

theorem head?_toList_join {directory : String} (hne : directory ≠ "") (name : String) :
    (join directory name).toList.head? = directory.toList.head? := by
  obtain ⟨c, cs, hcons⟩ := List.exists_cons_of_ne_nil (mt String.toList_eq_nil_iff.mp hne)
  unfold join
  split <;> simp_all

theorem join_ne_empty {directory : String} (hne : directory ≠ "") (name : String) :
    join directory name ≠ "" := by
  intro hempty
  have hhead := head?_toList_join hne name
  rw [hempty] at hhead
  exact hne (String.toList_eq_nil_iff.mp (List.head?_eq_none_iff.mp hhead.symm))

/-- What a path starts from is seen from its first character and its first segment. -/
theorem anchor_eq (path : String) :
    anchor path =
      if path.toList.head? = some '/' then [.root]
      else if (segments path).head? = some "." then [.current] else [] := by
  unfold anchor
  split <;> simp_all [List.head?_eq_some_iff]

/-- A name joined to a path is one more component. -/
theorem components_join
    {directory name : String} (hne : directory ≠ "") (hname : IsName name) :
    components (join directory name) = components directory ++ [.normal name] := by
  obtain ⟨base, hbase, hdirectory, hjoin⟩ := exists_segments_join hne
  have hsegments := hjoin name hname.slash_notMem
  have hhead : (segments (join directory name)).head? = (segments directory).head? := by
    rw [hsegments, List.head?_append_of_ne_nil _ hbase]
    rcases hdirectory with hdirectory | hdirectory
    · rw [hdirectory]
    · rw [hdirectory, List.head?_append_of_ne_nil _ hbase]
  have hanchor : anchor (join directory name) = anchor directory := by
    rw [anchor_eq, anchor_eq, head?_toList_join hne, hhead]
  have hparts : (segments directory).filterMap component? = base.filterMap component? := by
    rcases hdirectory with hdirectory | hdirectory
    · rw [hdirectory]
    · rw [hdirectory, List.filterMap_append]
      simp [component?]
  rw [components, components, hanchor, hsegments, List.filterMap_append, ← hparts,
    List.append_assoc]
  simp [component?_of_isName hname]

/-! ## Joining names one after the other -/

/-- The path of what is found below a root by following names. -/
def below (root : String) (names : List String) : String :=
  names.foldl join root

theorem components_below
    {root : String} {names : List String} (hne : root ≠ "") (hnames : ∀ name ∈ names, IsName name) :
    components (below root names) = components root ++ names.map .normal := by
  induction names generalizing root with
  | nil => simp [below]
  | cons name names ih =>
      have hname := hnames name List.mem_cons_self
      have hrest := ih (join_ne_empty hne name) fun n hn => hnames n (List.mem_cons_of_mem name hn)
      rw [components_join hne hname, List.append_assoc] at hrest
      exact hrest

end Path

/-! ## Following joined paths -/

namespace FileTree

variable {files tree : FileTree} {path name : String}

theorem find?_append (root : FileTree) (place names : List String) :
    root.find? (place ++ names) = (root.find? place).bind fun tree => tree.find? names := by
  induction place generalizing root with
  | nil => rfl
  | cons name rest ih =>
      rw [List.cons_append, find?, find?, Option.bind_assoc]
      exact congrArg _ (funext ih)

theorem resolve_eq_ok_iff {place : List String} :
    files.resolve path = .ok place ↔
      path ≠ "" ∧ path.utf8ByteSize < pathLimit ∧
        (Path.segments path).foldlM (follow files) [] = .ok place := by
  rw [resolve]
  split_ifs with hempty hlong
  · simp [String.isEmpty_iff.mp hempty]
  · simp [Nat.not_lt.mpr hlong]
  · simp [String.isEmpty_iff.not.mp hempty, Nat.lt_of_not_le hlong]

theorem utf8ByteSize_le_join (path name : String) :
    path.utf8ByteSize ≤ (Path.join path name).utf8ByteSize := by
  unfold Path.join
  split
  · case h_1 hnone => simp_all
  · simp
  · simp only [String.utf8ByteSize_append]
    omega

/-- A name that is joined to a path is followed from the place to which the path leads. -/
theorem exists_resolve_of_resolve_join
    (hname : Path.IsName name) (hne : path ≠ "") {next : List String}
    (h : files.resolve (Path.join path name) = .ok next) :
    ∃ place, files.resolve path = .ok place ∧ files.follow place name = .ok next := by
  obtain ⟨-, hshort, hfollow⟩ := resolve_eq_ok_iff.mp h
  obtain ⟨base, -, hsegments, hjoin⟩ := Path.exists_segments_join hne
  rw [hjoin name hname.slash_notMem, List.foldlM_append] at hfollow
  obtain ⟨place, hbase, hfollow⟩ := exists_of_bind_eq_ok hfollow
  obtain ⟨_, hnext, hlast⟩ := exists_of_bind_eq_ok (List.foldlM_cons.symm.trans hfollow)
  cases hlast
  have hpath := Nat.lt_of_le_of_lt (utf8ByteSize_le_join path name) hshort
  refine ⟨place, resolve_eq_ok_iff.mpr ⟨hne, hpath, ?_⟩, hnext⟩
  rcases hsegments with hsegments | hsegments
  · rwa [hsegments]
  · rw [hsegments, List.foldlM_append, hbase]
    change [""].foldlM (follow files) place = _
    rw [List.foldlM_cons, follow_empty (hasDirectory_of_follow hnext)]
    rfl

/-- A name is followed to the entry of that name. -/
theorem eq_of_follow_eq_ok
    (hname : Path.IsName name) {place next : List String}
    (h : files.follow place name = .ok next) :
    next = place ++ [name] ∧ (files.item? (place ++ [name])).isSome := by
  obtain ⟨access, hitem⟩ := hasDirectory_of_follow h
  rw [follow_of_item?_eq_directory hitem, if_neg hname.ne_empty] at h
  split_ifs at h with _ hdot hdots _ hsome
  · exact absurd hdot hname.ne_dot
  · exact absurd hdots hname.ne_dots
  · exact ⟨(Except.ok.inj h).symm, hsome⟩

theorem lookup?_eq_some_iff :
    files.lookup? path = some tree ↔
      ∃ place, files.resolve path = .ok place ∧ files.find? place = some tree := by
  unfold lookup?
  cases files.resolve path <;> simp

theorem ne_empty_of_lookup? (h : files.lookup? path = some tree) : path ≠ "" := by
  obtain ⟨place, hplace, -⟩ := lookup?_eq_some_iff.mp h
  exact (resolve_eq_ok_iff.mp hplace).1

/-- What a joined path leads to is an entry of what the path leads to. -/
theorem exists_entry_of_lookup?_join
    (hname : Path.IsName name) (hne : path ≠ "")
    (h : files.lookup? (Path.join path name) = some tree) :
    ∃ folder, files.lookup? path = some folder ∧ folder.entry? name = some tree := by
  obtain ⟨next, hnext, htree⟩ := lookup?_eq_some_iff.mp h
  obtain ⟨place, hplace, hfollow⟩ := exists_resolve_of_resolve_join hname hne hnext
  obtain ⟨rfl, -⟩ := eq_of_follow_eq_ok hname hfollow
  rw [find?_append] at htree
  obtain ⟨folder, hfolder, hentry⟩ := Option.bind_eq_some_iff.mp htree
  refine ⟨folder, lookup?_eq_some_iff.mpr ⟨place, hplace, hfolder⟩, ?_⟩
  simpa [find?] using hentry

end FileTree

end StatementTable
