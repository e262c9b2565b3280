import Mathlib.Logic.Relation
import StatementTable.Proofs.SortedPaths

/-!
# The tree files of a folder

A walk from a root enters the folders below it step by step.  It goes by what is seen at each path,
and takes whatever is listed in a folder, is not seen to be a directory and has the extension
`json`.  A folder that cannot be listed ends it.  The tree files come by increasing path, each of
them once.  In which order the directories list their entries does not matter, since the files found
are the same and there is only one way to put them in order.
-/

namespace StatementTable

namespace FileTree

/-! ## Directory trees -/

/-- Every directory gives each of its entries a name of its own. -/
inductive WellFormed : FileTree → Prop where
  | file (content : ByteArray) : WellFormed (.file content)
  | directory {access : Access} {entries : List (String × FileTree)}
      (hnodup : (entries.map Prod.fst).Nodup)
      (hnames : ∀ entry ∈ entries, Path.IsName entry.1)
      (htrees : ∀ entry ∈ entries, WellFormed entry.2) : WellFormed (.directory access entries)
  | special : WellFormed .special

/-- Two trees differ at most in the order in which directories list their entries. -/
inductive Relisted : FileTree → FileTree → Prop where
  | file (content : ByteArray) : Relisted (.file content) (.file content)
  | directory {access : Access} {entries others : List (String × FileTree)}
      (hnames : (entries.map Prod.fst).Perm (others.map Prod.fst))
      (htrees : ∀ name tree other, (name, tree) ∈ entries → (name, other) ∈ others →
        Relisted tree other) :
      Relisted (.directory access entries) (.directory access others)
  | special : Relisted .special .special

variable {files others tree other : FileTree} {root path folder name : String}

theorem lookup_eq_some_iff_mem
    {entries : List (String × FileTree)} (hnodup : (entries.map Prod.fst).Nodup)
    {name : String} :
    entries.lookup name = some tree ↔ (name, tree) ∈ entries := by
  induction entries with
  | nil => simp
  | cons entry entries ih =>
      obtain ⟨first, found⟩ := entry
      rw [List.map_cons, List.nodup_cons] at hnodup
      rw [lookup_cons_eq_ite, List.mem_cons, Prod.mk.injEq]
      by_cases hname : name = first
      · subst hname
        have hnot : (name, tree) ∉ entries :=
          fun hmem => hnodup.1 (List.mem_map.mpr ⟨_, hmem, rfl⟩)
        simp [hnot, eq_comm]
      · rw [if_neg hname, ih hnodup.2]
        simp [hname]

theorem WellFormed.of_find?
    (h : files.WellFormed) {names : List String} (hfind : files.find? names = some tree) :
    tree.WellFormed ∧ ∀ name ∈ names, Path.IsName name := by
  induction names generalizing files with
  | nil =>
      cases hfind
      exact ⟨h, by simp⟩
  | cons name names ih =>
      obtain ⟨entry, hentry, hnext⟩ := Option.bind_eq_some_iff.mp hfind
      cases h with
      | file content => cases hentry
      | directory hnodup hnames htrees =>
          have hmem := (lookup_eq_some_iff_mem hnodup).mp hentry
          obtain ⟨htree, hrest⟩ := ih (htrees _ hmem) hnext
          exact ⟨htree, List.forall_mem_cons.mpr ⟨hnames _ hmem, hrest⟩⟩
      | special => cases hentry

theorem WellFormed.of_lookup?
    (h : files.WellFormed) (hlookup : files.lookup? path = some tree) : tree.WellFormed := by
  obtain ⟨place, -, hfind⟩ := lookup?_eq_some_iff.mp hlookup
  exact (h.of_find? hfind).1

/-! ## What is seen at paths -/

def itemAt? (files : FileTree) (path : String) : Option Item :=
  (files.lookup? path).map item

def IsFile (files : FileTree) (path : String) : Prop :=
  ∃ content, files.itemAt? path = some (.file content)

def IsFolder (files : FileTree) (path : String) : Prop :=
  ∃ access, files.itemAt? path = some (.directory access)

/-- The directory at a path has an entry of the given name. -/
def Lists (files : FileTree) (folder name : String) : Prop :=
  ∃ place, files.resolve folder = .ok place ∧ (files.item? (place ++ [name])).isSome = true

/-- From a folder a walk steps into an entry that is seen to be a directory and does not have a
name that is passed over. -/
def StepsInto (files : FileTree) (folder next : String) : Prop :=
  ∃ name, files.Lists folder name ∧ name ∉ skippedNames ∧ next = Path.join folder name ∧
    files.IsFolder next

/-- A walk from the folder at a root enters a folder. -/
def Enters (files : FileTree) (root folder : String) : Prop :=
  files.IsFolder root ∧ Relation.ReflTransGen files.StepsInto root folder

/-- The path is that of an entry of a folder that a walk from a root enters. -/
def Encounters (files : FileTree) (root path : String) : Prop :=
  ∃ folder name, files.Enters root folder ∧ files.Lists folder name ∧
    path = Path.join folder name

/-- A walk enters a folder that cannot be listed. -/
def EntersClosed (files : FileTree) (root folder : String) : Prop :=
  files.Enters root folder ∧
    ∃ access, files.itemAt? folder = some (.directory access) ∧ access.list = false

/-- Why a walk from a root fails. -/
def Refuses (files : FileTree) (root : String) (failure : Failure) : Prop :=
  (files.itemAt? root = some .special ∧ failure = Sight.listFailure root .notDirectory) ∨
    ∃ folder, files.EntersClosed root folder ∧ failure = Sight.listFailure folder .denied

theorem isFolder_iff :
    files.IsFolder path ↔
      ∃ access entries, files.lookup? path = some (.directory access entries) := by
  unfold IsFolder itemAt?
  constructor
  · rintro ⟨access, h⟩
    obtain ⟨tree, htree, hitem⟩ := Option.map_eq_some_iff.mp h
    cases tree with
    | file content => cases hitem
    | directory access entries => exact ⟨access, entries, htree⟩
    | special => cases hitem
  · rintro ⟨access, entries, h⟩
    exact ⟨access, by rw [h]; rfl⟩

theorem IsFolder.exists_eq_directory
    (h : files.IsFolder path) (hpath : files.lookup? path = some tree) :
    ∃ access entries, tree = .directory access entries := by
  obtain ⟨access, entries, hfolder⟩ := isFolder_iff.mp h
  exact ⟨access, entries, Option.some.inj (hpath.symm.trans hfolder)⟩

theorem IsFolder.ne_empty (h : files.IsFolder path) : path ≠ "" := by
  obtain ⟨access, entries, hpath⟩ := isFolder_iff.mp h
  exact ne_empty_of_lookup? hpath

theorem lists_iff
    {access : Access} {entries : List (String × FileTree)}
    (h : files.lookup? folder = some (.directory access entries)) :
    files.Lists folder name ↔ ∃ tree, (name, tree) ∈ entries := by
  obtain ⟨place, hplace, hfind⟩ := lookup?_eq_some_iff.mp h
  have hsome : (entries.lookup name).isSome = true ↔ ∃ tree, (name, tree) ∈ entries := by
    rw [List.lookup_isSome_iff]
    simp
  rw [← hsome, ← isSome_item?_concat hfind, Lists, hplace]
  simp

theorem Lists.isName (hfiles : files.WellFormed) (h : files.Lists folder name) :
    Path.IsName name := by
  obtain ⟨place, -, hitem⟩ := h
  obtain ⟨item, hitem⟩ := Option.isSome_iff_exists.mp hitem
  obtain ⟨tree, hfind, -⟩ := Option.map_eq_some_iff.mp hitem
  exact (hfiles.of_find? hfind).2 name (by simp)

/-- What is listed in a directory and can be looked up is the entry of the directory. -/
theorem lookup?_join_of_mem
    (hfiles : files.WellFormed) {access : Access} {entries : List (String × FileTree)}
    (hpath : files.lookup? path = some (.directory access entries))
    (hmem : (name, tree) ∈ entries) (h : files.lookup? (Path.join path name) = some other) :
    other = tree := by
  cases hfiles.of_lookup? hpath with
  | directory hnodup hnames htrees =>
      obtain ⟨found, hfound, hentry⟩ :=
        exists_entry_of_lookup?_join (hnames _ hmem) (ne_empty_of_lookup? hpath) h
      obtain rfl := Option.some.inj (hpath.symm.trans hfound)
      rw [ entry?, (lookup_eq_some_iff_mem hnodup).mpr hmem] at hentry
      exact (Option.some.inj hentry).symm

/-- A folder that is listed in a directory is the entry of the directory. -/
theorem lookup?_join_of_isFolder
    (hfiles : files.WellFormed) {access : Access} {entries : List (String × FileTree)}
    (hpath : files.lookup? path = some (.directory access entries))
    (hmem : (name, tree) ∈ entries) (h : files.IsFolder (Path.join path name)) :
    files.lookup? (Path.join path name) = some tree := by
  obtain ⟨_, _, hentry⟩ := isFolder_iff.mp h
  rw [hentry, lookup?_join_of_mem hfiles hpath hmem hentry]

theorem Enters.refl (h : files.IsFolder root) : files.Enters root root :=
  ⟨h, .refl⟩

/-- A walk enters its root and what it enters after a first step. -/
theorem enters_iff (h : files.IsFolder root) :
    files.Enters root folder ↔
      folder = root ∨ ∃ next, files.StepsInto root next ∧ files.Enters next folder := by
  rw [Enters, Relation.ReflTransGen.cases_head_iff]
  constructor
  · rintro ⟨-, rfl | ⟨next, hnext, hrest⟩⟩
    · exact .inl rfl
    · have ⟨_, _, _, _, hfolder⟩ := hnext
      exact .inr ⟨next, hnext, hfolder, hrest⟩
  · rintro (rfl | ⟨next, hnext, -, hrest⟩)
    · exact ⟨h, .inl rfl⟩
    · exact ⟨h, .inr ⟨next, hnext, hrest⟩⟩

theorem encounters_iff (h : files.IsFolder root) :
    files.Encounters root path ↔
      (∃ name, files.Lists root name ∧ path = Path.join root name) ∨
        ∃ next, files.StepsInto root next ∧ files.Encounters next path := by
  constructor
  · rintro ⟨folder, name, henters, hlists, hpath⟩
    obtain rfl | ⟨next, hnext, henters⟩ := (enters_iff h).mp henters
    · exact .inl ⟨name, hlists, hpath⟩
    · exact .inr ⟨next, hnext, folder, name, henters, hlists, hpath⟩
  · rintro (⟨name, hlists, hpath⟩ | ⟨next, hnext, folder, name, henters, hlists, hpath⟩)
    · exact ⟨root, name, .refl h, hlists, hpath⟩
    · exact ⟨folder, name, (enters_iff h).mpr (.inr ⟨next, hnext, henters⟩), hlists, hpath⟩

theorem EntersClosed.of_stepsInto
    {next : String} (h : files.IsFolder root) (hnext : files.StepsInto root next)
    (hclosed : files.EntersClosed next folder) : files.EntersClosed root folder :=
  ⟨(enters_iff h).mpr (.inr ⟨next, hnext, hclosed.1⟩), hclosed.2⟩

theorem Lists.exists_below
    (hfiles : files.WellFormed) (h : files.Lists folder name)
    (hfolder : ∃ names, (∀ name ∈ names, Path.IsName name) ∧ folder = Path.below root names) :
    ∃ names, (∀ name ∈ names, Path.IsName name) ∧
      Path.join folder name = Path.below root names := by
  obtain ⟨names, hnames, rfl⟩ := hfolder
  refine ⟨names ++ [name], ?_, by simp [Path.below]⟩
  exact List.forall_mem_append.mpr ⟨hnames, by simpa using h.isName hfiles⟩

theorem Enters.exists_below (hfiles : files.WellFormed) (h : files.Enters root folder) :
    ∃ names, (∀ name ∈ names, Path.IsName name) ∧ folder = Path.below root names := by
  induction h.2 with
  | refl => exact ⟨[], by simp, rfl⟩
  | tail hsteps hlast ih =>
      obtain ⟨name, hlists, -, rfl, -⟩ := hlast
      exact hlists.exists_below hfiles (ih ⟨h.1, hsteps⟩)

theorem Encounters.exists_below (hfiles : files.WellFormed) (h : files.Encounters root path) :
    ∃ names, (∀ name ∈ names, Path.IsName name) ∧ path = Path.below root names := by
  obtain ⟨folder, name, henters, hlists, rfl⟩ := h
  exact hlists.exists_below hfiles (henters.exists_below hfiles)

/-! ## What a walk sees -/

theorem entrySights_eq (files : FileTree) (path : String) (entries : List (String × FileTree)) :
    entrySights files path entries = entries.map fun entry =>
      (entry.1, if (files.lookup? (Path.join path entry.1)).isSome then
        files.sight (Path.join path entry.1) entry.2 else .nothing) := by
  induction entries with
  | nil => rfl
  | cons entry entries ih => rw [entrySights, ih, List.map_cons]

/-- In a folder that can be listed a walk sees what it would see at the paths of the entries. -/
theorem look_of_directory
    (hfiles : files.WellFormed) {access : Access} {entries : List (String × FileTree)}
    (hpath : files.lookup? path = some (.directory access entries)) :
    files.look path =
      if access.list then
        .folder (entries.map fun entry => (entry.1, files.look (Path.join path entry.1)))
      else .closed .denied := by
  have hentries : entrySights files path entries =
      entries.map fun entry => (entry.1, files.look (Path.join path entry.1)) := by
    rw [entrySights_eq]
    apply List.map_congr_left
    rintro ⟨name, tree⟩ hmem
    rw [look]
    cases hentry : files.lookup? (Path.join path name) with
    | none => rfl
    | some found =>
        obtain rfl := lookup?_join_of_mem hfiles hpath hmem hentry
        rfl
  rw [look, hpath]
  simp only [sight, hentries]

theorem isDirectory_look : (files.look path).isDirectory = true ↔ files.IsFolder path := by
  rw [isFolder_iff, look]
  cases files.lookup? path with
  | none => simp [Sight.isDirectory]
  | some tree =>
      cases tree with
      | file content => simp [sight, Sight.isDirectory]
      | directory access entries =>
          simp only [sight]
          split <;> simp [Sight.isDirectory]
      | special => simp [sight, Sight.isDirectory]

end FileTree

namespace Sight

/-- What a walk finds at an entry of the directory at a path. -/
def visit (path : String) (entry : String × Sight) : Except Failure (List String) :=
  if entry.2.isDirectory then entry.2.walk (Path.join path entry.1)
  else .ok (treeFile (Path.join path entry.1))

variable {path : String} {entries : List (String × Sight)}

theorem walkEntries_cons (path : String) (entry : String × Sight)
    (entries : List (String × Sight)) :
    walkEntries path (entry :: entries) = (do
      let first ← visit path entry
      return first ++ (← walkEntries path entries)) := by
  rw [walkEntries, visit]
  split <;> rfl

/-- A folder with all its entries is walked as each of them is. -/
theorem mem_iff_of_walkEntries
    {found : List String} (h : walkEntries path entries = .ok found) :
    (∀ entry ∈ entries, ∃ part, visit path entry = .ok part) ∧
      ∀ p, p ∈ found ↔ ∃ entry ∈ entries, ∃ part, visit path entry = .ok part ∧ p ∈ part := by
  induction entries generalizing found with
  | nil =>
      cases h
      simp
  | cons entry entries ih =>
      rw [walkEntries_cons] at h
      obtain ⟨first, hfirst, h⟩ := exists_of_bind_eq_ok h
      obtain ⟨rest, hrest, h⟩ := exists_of_bind_eq_ok h
      cases h
      obtain ⟨hall, hmem⟩ := ih hrest
      refine ⟨List.forall_mem_cons.mpr ⟨⟨first, hfirst⟩, hall⟩, ?_⟩
      intro p
      simp [hfirst, hmem]

theorem exists_visit_of_walkEntries
    {failure : Failure} (h : walkEntries path entries = .error failure) :
    ∃ entry ∈ entries, visit path entry = .error failure := by
  induction entries with
  | nil => cases h
  | cons entry entries ih =>
      rw [walkEntries_cons] at h
      obtain hfirst | ⟨first, -, h⟩ := eq_error_or_of_bind_eq_error h
      · exact ⟨entry, by simp, hfirst⟩
      · obtain hrest | ⟨rest, -, h⟩ := eq_error_or_of_bind_eq_error h
        · obtain ⟨other, hother, hvisit⟩ := ih hrest
          exact ⟨other, List.mem_cons_of_mem entry hother, hvisit⟩
        · cases h

end Sight

theorem mem_treeFile_iff {path other : String} :
    other ∈ treeFile path ↔ other = path ∧ EndsInTreeFileName other := by
  unfold treeFile
  split
  · case isTrue h => simp +contextual [isTreeFile_iff.mp h]
  · case isFalse h =>
      simp only [List.not_mem_nil, false_iff]
      rintro ⟨rfl, hname⟩
      exact h (isTreeFile_iff.mpr hname)

namespace FileTree

variable {files others tree other : FileTree} {root path folder name : String}

/-! ## Which files are found -/

theorem walk_look_of_skipped (h : EndsInSkippedName root) :
    (files.look root).walk root = .ok [] := by
  rw [Sight.walk.eq_def, if_pos (isSkipped_iff.mpr h)]

theorem walk_look_of_missing (h : files.lookup? root = none) :
    (files.look root).walk root = .ok [] := by
  rw [Sight.walk.eq_def, look, h, ite_self]

theorem walk_look_of_file
    (hroot : ¬EndsInSkippedName root) {content : ByteArray}
    (h : files.lookup? root = some (.file content)) :
    (files.look root).walk root = .ok (treeFile root) := by
  rw [Sight.walk.eq_def, if_neg (mt isSkipped_iff.mp hroot), look, h]
  simp only [sight]

theorem walk_look_of_special
    (hroot : ¬EndsInSkippedName root) (h : files.lookup? root = some .special) :
    (files.look root).walk root = .error (Sight.listFailure root .notDirectory) := by
  rw [Sight.walk.eq_def, if_neg (mt isSkipped_iff.mp hroot), look, h]
  simp only [sight]

theorem walk_look_of_directory
    (hfiles : files.WellFormed) (hroot : ¬EndsInSkippedName root) {access : Access}
    {entries : List (String × FileTree)}
    (h : files.lookup? root = some (.directory access entries)) :
    (files.look root).walk root =
      if access.list then
        Sight.walkEntries root
          (entries.map fun entry => (entry.1, files.look (Path.join root entry.1)))
      else .error (Sight.listFailure root .denied) := by
  rw [Sight.walk.eq_def, if_neg (mt isSkipped_iff.mp hroot), look_of_directory hfiles h]
  cases access.list <;> rfl

theorem visit_look_of_isFolder
    (hentry : files.IsFolder (Path.join root name)) :
    Sight.visit root (name, files.look (Path.join root name)) =
      (files.look (Path.join root name)).walk (Path.join root name) :=
  if_pos (isDirectory_look.mpr hentry)

theorem visit_look_of_not_isFolder
    (hentry : ¬files.IsFolder (Path.join root name)) :
    Sight.visit root (name, files.look (Path.join root name)) =
      .ok (treeFile (Path.join root name)) :=
  if_neg (mt isDirectory_look.mp hentry)

/-- What a walk from the folder at a root finds if it comes to an end. -/
structure Found (files : FileTree) (root : String) (found : List String) : Prop where
  not_entersClosed : ∀ folder, ¬files.EntersClosed root folder
  mem_iff : ∀ path, path ∈ found ↔
    EndsInTreeFileName path ∧ files.Encounters root path ∧ ¬files.IsFolder path

/-- What a walk from the folder at a root finds at the entry of a name. -/
structure FoundAt (files : FileTree) (root name : String) (part : List String) : Prop where
  not_entersClosed : name ∉ skippedNames → files.IsFolder (Path.join root name) →
    ∀ folder, ¬files.EntersClosed (Path.join root name) folder
  mem_iff : ∀ path, path ∈ part ↔
    EndsInTreeFileName path ∧ ¬files.IsFolder path ∧
      (path = Path.join root name ∨ name ∉ skippedNames ∧ files.IsFolder (Path.join root name) ∧
        files.Encounters (Path.join root name) path)

/-- An entry that is seen to be a directory is passed over or walked, any other is taken by its
name. -/
theorem foundAt_of_visit
    (hne : root ≠ "") (hname : Path.IsName name) {part : List String}
    (hwalk : files.IsFolder (Path.join root name) → ¬EndsInSkippedName (Path.join root name) →
      (files.look (Path.join root name)).walk (Path.join root name) = .ok part →
        files.Found (Path.join root name) part)
    (h : Sight.visit root (name, files.look (Path.join root name)) = .ok part) :
    files.FoundAt root name part := by
  by_cases hfolder : files.IsFolder (Path.join root name)
  · rw [visit_look_of_isFolder hfolder] at h
    by_cases hskipped : EndsInSkippedName (Path.join root name)
    · have hskippedName := (endsInSkippedName_join hne hname).mp hskipped
      obtain rfl := Except.ok.inj ((walk_look_of_skipped hskipped).symm.trans h)
      refine ⟨fun hopen => absurd hskippedName hopen, ?_⟩
      intro path
      simp only [List.not_mem_nil, false_iff]
      rintro ⟨-, hpath, rfl | ⟨hopen, -⟩⟩
      · exact hpath hfolder
      · exact hopen hskippedName
    · have hopen := mt (endsInSkippedName_join hne hname).mpr hskipped
      obtain ⟨hclosed, hmem⟩ := hwalk hfolder hskipped h
      refine ⟨fun _ _ => hclosed, ?_⟩
      intro path
      rw [hmem]
      constructor
      · rintro ⟨hend, hencounters, hpath⟩
        exact ⟨hend, hpath, .inr ⟨hopen, hfolder, hencounters⟩⟩
      · rintro ⟨hend, hpath, rfl | ⟨-, -, hencounters⟩⟩
        · exact absurd hfolder hpath
        · exact ⟨hend, hencounters, hpath⟩
  · rw [visit_look_of_not_isFolder hfolder] at h
    obtain rfl := Except.ok.inj h
    refine ⟨fun _ h => absurd h hfolder, ?_⟩
    intro path
    rw [mem_treeFile_iff]
    constructor
    · rintro ⟨rfl, hend⟩
      exact ⟨hend, hfolder, .inl rfl⟩
    · rintro ⟨hend, -, rfl | ⟨-, h, -⟩⟩
      · exact ⟨rfl, hend⟩
      · exact absurd h hfolder

/-- What is found at the entries of a folder that can be listed is found in the folder. -/
theorem found_of_foundAt
    {access : Access} {entries : List (String × FileTree)} {found : List String}
    (hroot : files.lookup? root = some (.directory access entries)) (hlist : access.list = true)
    (hparts : ∀ entry ∈ entries, ∃ part, files.FoundAt root entry.1 part ∧
      ∀ path ∈ part, path ∈ found)
    (hfound : ∀ path ∈ found, ∃ entry ∈ entries, ∃ part, files.FoundAt root entry.1 part ∧
      path ∈ part) :
    files.Found root found := by
  have hfolder : files.IsFolder root := isFolder_iff.mpr ⟨access, entries, hroot⟩
  have hlisted : ∀ name, files.Lists root name → ∃ part, files.FoundAt root name part ∧
      ∀ path ∈ part, path ∈ found := by
    intro name hlists
    obtain ⟨tree, hmem⟩ := (lists_iff hroot).mp hlists
    exact hparts (name, tree) hmem
  constructor
  · rintro folder ⟨henters, hclosed⟩
    obtain rfl | ⟨next, ⟨name, hlists, hopen, rfl, hnext⟩, henters⟩ :=
      (enters_iff hfolder).mp henters
    · obtain ⟨access', hitem, hclosed⟩ := hclosed
      rw [itemAt?, hroot] at hitem
      cases hitem
      rw [hlist] at hclosed
      cases hclosed
    · obtain ⟨part, hpart, -⟩ := hlisted name hlists
      exact hpart.not_entersClosed hopen hnext folder ⟨henters, hclosed⟩
  · intro path
    constructor
    · intro hpath
      obtain ⟨⟨name, tree⟩, hmem, part, hpart, hpath⟩ := hfound path hpath
      have hlists : files.Lists root name := (lists_iff hroot).mpr ⟨tree, hmem⟩
      obtain ⟨hend, hfile, hway⟩ := (hpart.mem_iff path).mp hpath
      refine ⟨hend, (encounters_iff hfolder).mpr ?_, hfile⟩
      rcases hway with hway | ⟨hopen, hnext, hway⟩
      · exact .inl ⟨name, hlists, hway⟩
      · exact .inr ⟨_, ⟨name, hlists, hopen, rfl, hnext⟩, hway⟩
    · rintro ⟨hend, hencounters, hfile⟩
      obtain ⟨name, hlists, rfl⟩ | ⟨_, ⟨name, hlists, hopen, rfl, hnext⟩, hencounters⟩ :=
        (encounters_iff hfolder).mp hencounters
      · obtain ⟨part, hpart, hsub⟩ := hlisted name hlists
        exact hsub _ ((hpart.mem_iff _).mpr ⟨hend, hfile, .inl rfl⟩)
      · obtain ⟨part, hpart, hsub⟩ := hlisted name hlists
        exact hsub _ ((hpart.mem_iff _).mpr ⟨hend, hfile, .inr ⟨hopen, hnext, hencounters⟩⟩)

theorem found_of_walk
    (hfiles : files.WellFormed) (htree : tree.WellFormed) (hroot : files.lookup? root = some tree)
    (hfolder : files.IsFolder root) (hskipped : ¬EndsInSkippedName root) {found : List String}
    (h : (files.look root).walk root = .ok found) : files.Found root found := by
  induction htree generalizing root found with
  | file | special =>
      obtain ⟨_, _, htree⟩ := hfolder.exists_eq_directory hroot
      cases htree
  | @directory access entries hnodup hnames htrees ih =>
      rw [walk_look_of_directory hfiles hskipped hroot] at h
      split at h
      · case isTrue hlist =>
          obtain ⟨hvisited, hmem⟩ := Sight.mem_iff_of_walkEntries h
          simp only [List.forall_mem_map] at hvisited
          have hparts : ∀ entry ∈ entries, ∀ part,
              Sight.visit root (entry.1, files.look (Path.join root entry.1)) = .ok part →
                files.FoundAt root entry.1 part := by
            intro entry hentry part hvisit
            apply foundAt_of_visit hfolder.ne_empty (hnames entry hentry) _ hvisit
            intro hnext hopen hwalk
            have hlookup := lookup?_join_of_isFolder hfiles hroot hentry hnext
            exact ih entry hentry hlookup hnext hopen hwalk
          apply found_of_foundAt hroot hlist
          · intro entry hentry
            obtain ⟨part, hvisit⟩ := hvisited entry hentry
            refine ⟨part, hparts entry hentry part hvisit, ?_⟩
            intro path hpath
            exact (hmem path).mpr ⟨_, List.mem_map.mpr ⟨entry, hentry, rfl⟩, part, hvisit, hpath⟩
          · intro path hpath
            obtain ⟨_, hseen, part, hvisit, hpath⟩ := (hmem path).mp hpath
            obtain ⟨entry, hentry, rfl⟩ := List.mem_map.mp hseen
            exact ⟨entry, hentry, part, hparts entry hentry part hvisit, hpath⟩
      · cases h

/-- A walk that fails has entered a folder that cannot be listed. -/
theorem exists_entersClosed_of_walk
    (hfiles : files.WellFormed) (htree : tree.WellFormed) (hroot : files.lookup? root = some tree)
    (hfolder : files.IsFolder root) (hskipped : ¬EndsInSkippedName root) {failure : Failure}
    (h : (files.look root).walk root = .error failure) :
    ∃ folder, files.EntersClosed root folder ∧ failure = Sight.listFailure folder .denied := by
  induction htree generalizing root with
  | file | special =>
      obtain ⟨_, _, htree⟩ := hfolder.exists_eq_directory hroot
      cases htree
  | @directory access entries hnodup hnames htrees ih =>
      rw [walk_look_of_directory hfiles hskipped hroot] at h
      split at h
      · obtain ⟨_, hseen, hvisit⟩ := Sight.exists_visit_of_walkEntries h
        obtain ⟨⟨name, tree⟩, hentry, rfl⟩ := List.mem_map.mp hseen
        by_cases hnext : files.IsFolder (Path.join root name)
        · rw [visit_look_of_isFolder hnext] at hvisit
          by_cases hopen : EndsInSkippedName (Path.join root name)
          · rw [walk_look_of_skipped hopen] at hvisit
            cases hvisit
          · have hlookup := lookup?_join_of_isFolder hfiles hroot hentry hnext
            obtain ⟨folder, hclosed, hfailure⟩ := ih _ hentry hlookup hnext hopen hvisit
            have hname := mt (endsInSkippedName_join hfolder.ne_empty (hnames _ hentry)).mpr hopen
            have hlists := (lists_iff hroot).mpr ⟨tree, hentry⟩
            exact ⟨folder, hclosed.of_stepsInto hfolder ⟨name, hlists, hname, rfl, hnext⟩, hfailure⟩
        · rw [visit_look_of_not_isFolder hnext] at hvisit
          cases hvisit
      · case isFalse hlist =>
          obtain rfl := Except.error.inj h
          refine ⟨root, ⟨.refl hfolder, access, ?_, by simpa using hlist⟩, rfl⟩
          rw [itemAt?, hroot]
          rfl

/-! ## Collecting -/

theorem not_encounters_of_not_isFolder (h : ¬files.IsFolder root) (path : String) :
    ¬files.Encounters root path := by
  rintro ⟨folder, name, henters, -⟩
  exact h henters.1

/-- What is found by a walk that comes to an end, whatever the root leads to. -/
theorem mem_iff_of_walk
    (hfiles : files.WellFormed) {found : List String}
    (h : (files.look root).walk root = .ok found) :
    path ∈ found ↔
      ¬EndsInSkippedName root ∧ EndsInTreeFileName path ∧
        (path = root ∧ files.IsFile root ∨
          files.Encounters root path ∧ ¬files.IsFolder path) := by
  by_cases hskipped : EndsInSkippedName root
  · rw [walk_look_of_skipped hskipped] at h
    cases h
    simp [hskipped]
  · by_cases hfolder : files.IsFolder root
    · obtain ⟨access, entries, hroot⟩ := isFolder_iff.mp hfolder
      have hfound := found_of_walk hfiles (hfiles.of_lookup? hroot) hroot hfolder hskipped h
      have hfile : ¬files.IsFile root := by
        rintro ⟨content, hcontent⟩
        rw [itemAt?, hroot] at hcontent
        cases hcontent
      rw [hfound.mem_iff]
      simp [hskipped, hfile]
    · have hencounters := not_encounters_of_not_isFolder hfolder
      cases hroot : files.lookup? root with
      | none =>
          rw [walk_look_of_missing hroot] at h
          cases h
          simp [IsFile, itemAt?, hroot, hencounters]
      | some tree =>
          cases tree with
          | file content =>
              rw [walk_look_of_file hskipped hroot] at h
              obtain rfl := Except.ok.inj h
              rw [mem_treeFile_iff]
              simp [IsFile, itemAt?, hroot, item, hencounters, hskipped, and_comm]
          | directory access entries => exact absurd (isFolder_iff.mpr ⟨_, _, hroot⟩) hfolder
          | special =>
              rw [walk_look_of_special hskipped hroot] at h
              cases h

theorem refuses_of_walk
    (hfiles : files.WellFormed) {failure : Failure}
    (h : (files.look root).walk root = .error failure) :
    ¬EndsInSkippedName root ∧ files.Refuses root failure := by
  by_cases hskipped : EndsInSkippedName root
  · rw [walk_look_of_skipped hskipped] at h
    cases h
  · refine ⟨hskipped, ?_⟩
    by_cases hfolder : files.IsFolder root
    · obtain ⟨access, entries, hroot⟩ := isFolder_iff.mp hfolder
      exact .inr
        (exists_entersClosed_of_walk hfiles (hfiles.of_lookup? hroot) hroot hfolder hskipped h)
    · cases hroot : files.lookup? root with
      | none =>
          rw [walk_look_of_missing hroot] at h
          cases h
      | some tree =>
          cases tree with
          | file content =>
              rw [walk_look_of_file hskipped hroot] at h
              cases h
          | directory access entries => exact absurd (isFolder_iff.mpr ⟨_, _, hroot⟩) hfolder
          | special =>
              rw [walk_look_of_special hskipped hroot] at h
              refine .inl ⟨?_, (Except.error.inj h).symm⟩
              rw [itemAt?, hroot]
              rfl

theorem exists_walk_eq_error
    (hfiles : files.WellFormed) (hskipped : ¬EndsInSkippedName root) {failure : Failure}
    (h : files.Refuses root failure) :
    ∃ reason, (files.look root).walk root = .error reason := by
  cases hwalk : (files.look root).walk root with
  | error reason => exact ⟨reason, rfl⟩
  | ok found =>
      rcases h with ⟨hspecial, -⟩ | ⟨folder, hclosed, -⟩
      · obtain ⟨tree, htree, hitem⟩ := Option.map_eq_some_iff.mp hspecial
        cases tree with
        | file content => cases hitem
        | directory access entries => cases hitem
        | special =>
            rw [walk_look_of_special hskipped htree] at hwalk
            cases hwalk
      · have hfolder := hclosed.1.1
        obtain ⟨access, entries, hroot⟩ := isFolder_iff.mp hfolder
        have hfound := found_of_walk hfiles (hfiles.of_lookup? hroot) hroot hfolder hskipped hwalk
        exact absurd hclosed (hfound.not_entersClosed folder)

theorem collect_eq_ok_iff {paths : List String} :
    files.collect root = .ok paths ↔
      ∃ found, (files.look root).walk root = .ok found ∧ sortPaths found = paths := by
  unfold collect collectFrom
  cases (files.look root).walk root <;> simp [Except.map]

theorem collect_eq_error_iff {failure : Failure} :
    files.collect root = .error failure ↔ (files.look root).walk root = .error failure := by
  unfold collect collectFrom
  cases (files.look root).walk root <;> simp [Except.map]

/-- The path of what is found is known from its components. -/
theorem eq_of_mem_of_compare_eq
    (hfiles : files.WellFormed) {found : List String}
    (h : (files.look root).walk root = .ok found) :
    ∀ a ∈ found, ∀ b ∈ found, Path.compare a b = .eq → a = b := by
  have hbelow : ∀ path ∈ found, root ≠ "" ∧ ∃ names, (∀ name ∈ names, Path.IsName name) ∧
      path = Path.below root names := by
    intro path hpath
    obtain ⟨-, -, ⟨rfl, content, hfile⟩ | ⟨hencounters, -⟩⟩ := (mem_iff_of_walk hfiles h).mp hpath
    · obtain ⟨tree, htree, -⟩ := Option.map_eq_some_iff.mp hfile
      exact ⟨ne_empty_of_lookup? htree, [], by simp, rfl⟩
    · have ⟨_, _, henters, _⟩ := hencounters
      exact ⟨henters.1.ne_empty, hencounters.exists_below hfiles⟩
  intro a ha b hb hcompare
  obtain ⟨hne, names₁, hnames₁, rfl⟩ := hbelow a ha
  obtain ⟨-, names₂, hnames₂, rfl⟩ := hbelow b hb
  have hcomponents := Path.compare_eq_eq_iff.mp hcompare
  rw [Path.components_below hne hnames₁, Path.components_below hne hnames₂] at hcomponents
  have hnormal : Function.Injective Path.Component.normal := fun _ _ => Path.Component.normal.inj
  rw [List.map_injective_iff.mpr hnormal (List.append_cancel_left hcomponents)]

theorem pairwise_of_collect {paths : List String} (h : files.collect root = .ok paths) :
    paths.Pairwise fun a b => Path.compare a b = .lt := by
  obtain ⟨found, -, rfl⟩ := collect_eq_ok_iff.mp h
  exact pairwise_sortPaths found

theorem mem_iff_of_collect
    (hfiles : files.WellFormed) {paths : List String} (h : files.collect root = .ok paths) :
    path ∈ paths ↔
      ¬EndsInSkippedName root ∧ EndsInTreeFileName path ∧
        (path = root ∧ files.IsFile root ∨
          files.Encounters root path ∧ ¬files.IsFolder path) := by
  obtain ⟨found, hwalk, rfl⟩ := collect_eq_ok_iff.mp h
  rw [mem_sortPaths_iff (eq_of_mem_of_compare_eq hfiles hwalk), mem_iff_of_walk hfiles hwalk]

/-! ## The order in which entries are listed -/

theorem exists_mem_of_perm_names
    {entries others : List (String × FileTree)}
    (h : (entries.map Prod.fst).Perm (others.map Prod.fst)) {name : String}
    (hmem : (name, tree) ∈ entries) : ∃ other, (name, other) ∈ others := by
  have hname := h.mem_iff.mp (List.mem_map.mpr ⟨_, hmem, rfl⟩)
  simpa using hname

theorem Relisted.wellFormed (h : tree.Relisted other) (htree : tree.WellFormed) :
    other.WellFormed := by
  induction h with
  | file content => exact .file content
  | directory hperm hrelisted ih =>
      cases htree with
      | directory hnodup hnames htrees =>
          refine .directory (hperm.nodup_iff.mp hnodup) ?_ ?_
          · rintro ⟨name, other⟩ hother
            obtain ⟨tree, hmem⟩ := exists_mem_of_perm_names hperm.symm hother
            exact hnames (name, tree) hmem
          · rintro ⟨name, other⟩ hother
            obtain ⟨tree, hmem⟩ := exists_mem_of_perm_names hperm.symm hother
            exact ih name tree other hmem hother (htrees _ hmem)
  | special => exact .special

/-- The same stands at every place, however the entries are listed. -/
theorem Relisted.item?_eq
    (h : tree.Relisted other) (htree : tree.WellFormed) (names : List String) :
    tree.item? names = other.item? names := by
  induction h generalizing names with
  | file content => rfl
  | special => rfl
  | @directory access entries others hperm hrelisted ih =>
      cases names with
      | nil => rfl
      | cons name names =>
          cases htree with
          | directory hnodup hnames htrees =>
              have hothers := hperm.nodup_iff.mp hnodup
              rw [item?_cons, item?_cons, entry?, entry?]
              cases hentry : entries.lookup name with
              | none =>
                  cases hother : others.lookup name with
                  | none => rfl
                  | some other =>
                      have hmem := (lookup_eq_some_iff_mem hothers).mp hother
                      obtain ⟨tree, htree⟩ := exists_mem_of_perm_names hperm.symm hmem
                      cases hentry.symm.trans ((lookup_eq_some_iff_mem hnodup).mpr htree)
              | some tree =>
                  have hmem := (lookup_eq_some_iff_mem hnodup).mp hentry
                  obtain ⟨other, hother⟩ := exists_mem_of_perm_names hperm hmem
                  rw [(lookup_eq_some_iff_mem hothers).mpr hother]
                  exact ih name tree other hmem hother (htrees _ hmem) names

theorem follow_of_item?_eq_none {place : List String} (h : files.item? place = none)
    (segment : String) : files.follow place segment = .error .missing := by
  rw [follow, Option.map_eq_none_iff.mp h]

theorem follow_of_item?_ne_directory
    {place : List String} {found : Item} (h : files.item? place = some found)
    (hfound : ∀ access, found ≠ .directory access) (segment : String) :
    files.follow place segment = .error .notDirectory := by
  obtain ⟨tree, htree, rfl⟩ := Option.map_eq_some_iff.mp h
  cases tree with
  | file content => rw [follow, htree]
  | directory access entries => exact absurd rfl (hfound access)
  | special => rw [follow, htree]

/-- How a path is followed depends on what stands at the places on its way. -/
theorem resolve_eq_of_item?_eq (h : ∀ place, files.item? place = others.item? place) :
    files.resolve = others.resolve := by
  have hfollow : files.follow = others.follow := by
    funext place segment
    cases hitem : files.item? place with
    | none =>
        rw [follow_of_item?_eq_none hitem, follow_of_item?_eq_none ((h place).symm.trans hitem)]
    | some found =>
        have hother := (h place).symm.trans hitem
        cases found with
        | directory access =>
            rw [follow_of_item?_eq_directory hitem, follow_of_item?_eq_directory hother, h]
        | file content =>
            rw [follow_of_item?_ne_directory hitem (by simp),
              follow_of_item?_ne_directory hother (by simp)]
        | special =>
            rw [follow_of_item?_ne_directory hitem (by simp),
              follow_of_item?_ne_directory hother (by simp)]
  funext path
  rw [resolve, resolve, hfollow]

theorem itemAt?_eq_bind (files : FileTree) (path : String) :
    files.itemAt? path = (files.resolve path).toOption.bind files.item? := by
  rw [itemAt?, lookup?]
  cases files.resolve path <;> rfl

theorem itemAt?_eq_of_item?_eq (h : ∀ place, files.item? place = others.item? place) :
    files.itemAt? = others.itemAt? := by
  funext path
  rw [itemAt?_eq_bind, itemAt?_eq_bind, resolve_eq_of_item?_eq h, funext h]

theorem lists_eq_of_item?_eq (h : ∀ place, files.item? place = others.item? place) :
    files.Lists = others.Lists := by
  funext folder name
  rw [Lists, Lists, resolve_eq_of_item?_eq h, funext h]

/-- Trees in which the same is seen at every path give the same tree files. -/
theorem collect_eq_ok_of_item?_eq
    (h : ∀ place, files.item? place = others.item? place) (hfiles : files.WellFormed)
    (hothers : others.WellFormed) {paths : List String}
    (hcollect : files.collect root = .ok paths) : others.collect root = .ok paths := by
  have hitem := itemAt?_eq_of_item?_eq h
  have hlists := lists_eq_of_item?_eq h
  have hfolder : files.IsFolder = others.IsFolder := by
    funext path
    rw [IsFolder, IsFolder, hitem]
  have hsteps : files.StepsInto = others.StepsInto := by
    funext folder next
    rw [StepsInto, StepsInto, hlists, hfolder]
  have henters : files.Enters = others.Enters := by
    funext root folder
    rw [Enters, Enters, hfolder, hsteps]
  cases hother : others.collect root with
  | error failure =>
      obtain ⟨hskipped, hrefuses⟩ := refuses_of_walk hothers (collect_eq_error_iff.mp hother)
      unfold Refuses EntersClosed at hrefuses
      rw [← hitem, ← henters] at hrefuses
      obtain ⟨reason, hreason⟩ := exists_walk_eq_error hfiles hskipped hrefuses
      cases hcollect.symm.trans (collect_eq_error_iff.mpr hreason)
  | ok paths' =>
      apply congrArg Except.ok
      apply eq_of_pairwise_of_mem_iff (pairwise_of_collect hother) (pairwise_of_collect hcollect)
      intro path
      rw [mem_iff_of_collect hothers hother, mem_iff_of_collect hfiles hcollect]
      simp only [IsFile, Encounters, hitem, hlists, hfolder, henters]

/-- The tree files at or below a path come by increasing path, no two with the same components.
They are the root itself, if it is a file with the extension of tree files, and below a root that
is a folder every entry with this extension that is not seen to be a directory, in a folder that is
entered from the root without passing a skipped one.  The root itself is not skipped.  Instead of
tree files there is a failure exactly if the root is neither a file nor a folder, or a folder that
is entered cannot be listed.  A root that does not exist has no tree files, and they do not depend
on how directories list their entries. -/
theorem collect_finds_tree_files (hfiles : files.WellFormed) (root : String) :
    (∀ paths, files.collect root = .ok paths →
      paths.Pairwise (fun a b => Path.compare a b = .lt) ∧
        (paths.map Path.components).Nodup ∧
        ∀ path, path ∈ paths ↔
          ¬EndsInSkippedName root ∧ EndsInTreeFileName path ∧
            (path = root ∧ files.IsFile root ∨
              files.Encounters root path ∧ ¬files.IsFolder path)) ∧
      (∀ failure, files.collect root = .error failure →
        ¬EndsInSkippedName root ∧ files.Refuses root failure) ∧
      (∀ failure, ¬EndsInSkippedName root → files.Refuses root failure →
        ∃ reason, files.collect root = .error reason) ∧
      (files.lookup? root = none → files.collect root = .ok []) ∧
      ∀ others, files.Relisted others → ∀ paths,
        others.collect root = .ok paths ↔ files.collect root = .ok paths := by
  refine ⟨?_, ?_, ?_, ?_, ?_⟩
  · intro paths hpaths
    have hsorted := pairwise_of_collect hpaths
    refine ⟨hsorted, List.pairwise_map.mpr (hsorted.imp Path.components_ne_of_lt), ?_⟩
    intro path
    exact mem_iff_of_collect hfiles hpaths
  · intro failure hfailure
    exact refuses_of_walk hfiles (collect_eq_error_iff.mp hfailure)
  · intro failure hskipped hrefuses
    obtain ⟨reason, hreason⟩ := exists_walk_eq_error hfiles hskipped hrefuses
    exact ⟨reason, collect_eq_error_iff.mpr hreason⟩
  · intro hnone
    exact collect_eq_ok_iff.mpr
      ⟨[], walk_look_of_missing hnone, by simp [sortPaths, dropRepeats]⟩
  · intro others hothers paths
    have hitem := hothers.item?_eq hfiles
    have hwellFormed := hothers.wellFormed hfiles
    constructor
    · exact collect_eq_ok_of_item?_eq (fun place => (hitem place).symm) hwellFormed hfiles
    · exact collect_eq_ok_of_item?_eq hitem hfiles hwellFormed

/-- A folder with a socket, a file whose name goes on after that of a folder, and a skipped
folder. -/
def mixedFolder : FileTree :=
  .directory {} [("a-b.json", .file ByteArray.empty), ("p.json", .special),
    ("node_modules", .directory {} [("m.json", .file ByteArray.empty)]),
    ("a", .directory {} [(".json", .file ByteArray.empty), ("d.json", .directory {} []),
      ("x.json", .file ByteArray.empty)])]

def mixedFolderRelisted : FileTree :=
  .directory {} [("a", .directory {} [("x.json", .file ByteArray.empty),
      ("d.json", .directory {} []), (".json", .file ByteArray.empty)]),
    ("p.json", .special), ("a-b.json", .file ByteArray.empty),
    ("node_modules", .directory {} [("m.json", .file ByteArray.empty)])]

theorem wellFormed_mixedFolder : mixedFolder.WellFormed := by
  have hname : ∀ name ∈ ["a-b.json", "p.json", "node_modules", "m.json", "a", ".json", "d.json",
      "x.json"], Path.IsName name := by
    intro name hname
    constructor <;> revert name <;> decide
  have hempty : WellFormed (.directory {} []) := .directory (by simp) (by simp) (by simp)
  refine .directory (by decide) (by simp_all) ?_
  simp only [List.forall_mem_cons]
  refine ⟨.file _, .special, .directory (by decide) (by simp_all) ?_,
    .directory (by decide) (by simp_all) ?_, by simp⟩
  · simp [WellFormed.file]
  · simp [WellFormed.file, hempty]

theorem relisted_mixedFolder : mixedFolder.Relisted mixedFolderRelisted := by
  have hempty : Relisted (.directory {} []) (.directory {} []) := .directory (by simp) (by simp)
  refine .directory (by decide) ?_
  intro name tree other htree hother
  simp only [List.mem_cons, Prod.mk.injEq, List.not_mem_nil, or_false] at htree
  rcases htree with ⟨rfl, rfl⟩ | ⟨rfl, rfl⟩ | ⟨rfl, rfl⟩ | ⟨rfl, rfl⟩
  · obtain rfl : other = _ := by simpa using hother
    exact .file _
  · obtain rfl : other = _ := by simpa using hother
    exact .special
  · obtain rfl : other = _ := by simpa using hother
    exact .directory (by decide) (by simp +contextual [Relisted.file])
  · obtain rfl : other = _ := by simpa using hother
    exact .directory (by decide) (by simp +contextual [or_imp, Relisted.file, hempty])

theorem collect_mixedFolder :
    mixedFolder.collect "." = .ok ["./a/x.json", "./a-b.json", "./p.json"] := by
  have hwalk : (mixedFolder.look ".").walk "." =
      .ok ["./a-b.json", "./p.json", "./a/x.json"] := rfl
  refine collect_eq_ok_iff.mpr ⟨_, hwalk, ?_⟩
  apply eq_of_pairwise_of_mem_iff (pairwise_sortPaths _) (by decide +kernel)
  intro path
  rw [mem_sortPaths_iff (by decide +kernel)]
  simp only [List.mem_cons, List.not_mem_nil, or_comm, or_left_comm]

/-- A folder in which there is one that cannot be listed. -/
def lockedFolder : FileTree :=
  .directory {} [("locked", .directory { list := false } [])]

theorem wellFormed_lockedFolder : lockedFolder.WellFormed := by
  have hname : Path.IsName "locked" := by
    constructor <;> decide
  refine .directory (by decide) (by simpa using hname) ?_
  simpa using WellFormed.directory (by simp) (by simp) (by simp)

theorem collect_finds_tree_files_mixedFolder :
    mixedFolder.WellFormed ∧ mixedFolder.Relisted mixedFolderRelisted ∧
      mixedFolder.collect "." = .ok ["./a/x.json", "./a-b.json", "./p.json"] ∧
      mixedFolderRelisted.collect "." = .ok ["./a/x.json", "./a-b.json", "./p.json"] ∧
      mixedFolder.Encounters "." "./p.json" ∧ ¬mixedFolder.IsFolder "./p.json" ∧
      lockedFolder.WellFormed ∧
      lockedFolder.collect "." = .error (Sight.listFailure "./locked" .denied) ∧
      lockedFolder.Refuses "." (Sight.listFailure "./locked" .denied) := by
  obtain ⟨hfound, -, -, -, hrelisted⟩ := collect_finds_tree_files wellFormed_mixedFolder "."
  obtain ⟨-, -, hmem⟩ := hfound _ collect_mixedFolder
  obtain ⟨-, -, ⟨hroot, -⟩ | ⟨hsocket, hfolder⟩⟩ := (hmem "./p.json").mp (by simp)
  · exact absurd hroot (by decide)
  · have herror : lockedFolder.collect "." = .error (Sight.listFailure "./locked" .denied) := rfl
    obtain ⟨-, hfails, -⟩ := collect_finds_tree_files wellFormed_lockedFolder "."
    exact ⟨wellFormed_mixedFolder, relisted_mixedFolder, collect_mixedFolder,
      (hrelisted _ relisted_mixedFolder _).mpr collect_mixedFolder, hsocket, hfolder,
      wellFormed_lockedFolder, herror, (hfails _ herror).2⟩

/-! ## What is listed without being a file -/

/-- A path that stays where it starts. -/
def dots : Nat → String
  | 0 => ""
  | n + 1 => "./" ++ dots n

theorem utf8ByteSize_dots (n : Nat) : (dots n).utf8ByteSize = 2 * n := by
  induction n with
  | zero => rfl
  | succ n ih =>
      have hdot : "./".utf8ByteSize = 2 := rfl
      rw [dots, String.utf8ByteSize_append, ih, hdot]
      omega

theorem segments_dots (n : Nat) : Path.segments (dots n) = List.replicate n "." ++ [""] := by
  induction n with
  | zero => rfl
  | succ n ih =>
      have hdot : Path.segments "." = ["."] := Path.segments_of_notMem (by decide)
      have hsplit := Path.segments_append_slash "." (dots n)
      rw [hdot, ih] at hsplit
      exact hsplit

theorem components_dots (n : Nat) : Path.components (dots (n + 1)) = [.current] := by
  have hparts : (List.replicate n ".").filterMap Path.component? = [] := by
    apply List.filterMap_eq_nil_iff.mpr
    intro segment hsegment
    rw [List.eq_of_mem_replicate hsegment]
    rfl
  have hhead : (dots (n + 1)).toList.head? = some '.' := by
    rw [dots, String.toList_append]
    rfl
  rw [Path.components, Path.anchor_eq, hhead, segments_dots, List.replicate_succ]
  simp [hparts, Path.component?]

theorem join_dots (n : Nat) (name : String) :
    Path.join (dots (n + 1)) name = dots (n + 1) ++ name := by
  have hlast : (dots (n + 1)).toList.getLast? = some '/' := by
    induction n with
    | zero => rfl
    | succ n ih =>
        rw [dots, String.toList_append, List.getLast?_append, ih]
        rfl
  rw [Path.join, hlast]
  rfl

theorem lookup?_dots
    (entries : List (String × FileTree)) {n : Nat} (h : 2 * (n + 1) < pathLimit) :
    lookup? (.directory {} entries) (dots (n + 1)) = some (.directory {} entries) := by
  have hstay : ∀ count, (List.replicate count ".").foldlM (follow (.directory {} entries)) [] =
      .ok [] := by
    intro count
    induction count with
    | zero => rfl
    | succ count ih => exact ih
  have hne : dots (n + 1) ≠ "" := by
    intro hempty
    have hsize := utf8ByteSize_dots (n + 1)
    rw [hempty] at hsize
    cases hsize
  have hresolve : resolve (.directory {} entries) (dots (n + 1)) = .ok [] := by
    refine resolve_eq_ok_iff.mpr ⟨hne, by rwa [utf8ByteSize_dots], ?_⟩
    rw [segments_dots, List.foldlM_append, hstay]
    rfl
  exact lookup?_eq_some_iff.mpr ⟨[], hresolve, rfl⟩

/-- An entry whose path is too long is taken by its name, whatever it is. -/
theorem collect_dots
    (tree : FileTree) {n : Nat} (hshort : 2 * (n + 1) < pathLimit) (hname : Path.IsName name)
    (hlong : pathLimit ≤ 2 * (n + 1) + name.utf8ByteSize)
    (htreeFile : Path.nameExtension? name = some "json") :
    collect (.directory {} [(name, tree)]) (dots (n + 1)) = .ok [dots (n + 1) ++ name] := by
  have hroot := lookup?_dots [(name, tree)] hshort
  have hne := ne_empty_of_lookup? hroot
  have hentry : lookup? (.directory {} [(name, tree)]) (dots (n + 1) ++ name) = none := by
    rw [lookup?, resolve, if_neg, if_pos]
    · rwa [String.utf8ByteSize_append, utf8ByteSize_dots]
    · simp [hne]
  have hskipped : isSkipped (dots (n + 1)) = false := by
    rw [isSkipped, Path.lastName?, components_dots]
    rfl
  have hfile : isTreeFile (dots (n + 1) ++ name) = true := by
    rw [isTreeFile, Path.extension?, Path.lastName?, ← join_dots, Path.components_join hne hname]
    simpa using htreeFile
  have hwalk : (look (.directory {} [(name, tree)]) (dots (n + 1))).walk (dots (n + 1)) =
      .ok [dots (n + 1) ++ name] := by
    rw [Sight.walk.eq_def, hskipped, look, hroot]
    simp [sight, entrySights, join_dots, hentry, Sight.walkEntries, Sight.isDirectory, treeFile,
      hfile]
    rfl
  exact collect_eq_ok_iff.mpr ⟨_, hwalk, by simp [sortPaths, dropRepeats, dropRepeatsAfter]⟩

/-- The name of a tree file with so many letters in front of its extension. -/
def letters (n : Nat) : String :=
  String.ofList (List.replicate n 'x') ++ "." ++ "json"

theorem toList_letters (n : Nat) :
    (letters n).toList = List.replicate n 'x' ++ ['.', 'j', 's', 'o', 'n'] := by
  simp [letters]

theorem utf8ByteSize_letters (n : Nat) : (letters n).utf8ByteSize = n + 5 := by
  have hstem : (String.ofList (List.replicate n 'x')).utf8ByteSize = n := by
    induction n with
    | zero => rfl
    | succ n ih =>
        have hletter : (String.singleton 'x').utf8ByteSize = 1 := rfl
        rw [List.replicate_succ, String.ofList_cons, String.utf8ByteSize_append, ih, hletter,
          Nat.add_comm]
  rw [letters, String.utf8ByteSize_append, String.utf8ByteSize_append, hstem]
  rfl

theorem isName_letters (n : Nat) : Path.IsName (letters n) := by
  have hlength : (letters n).toList.length = n + 5 := by simp [toList_letters]
  have hne : ∀ name : String, name.toList.length < 5 → letters n ≠ name := by
    rintro name hname rfl
    omega
  refine ⟨hne _ (by decide), hne _ (by decide), hne _ (by decide), ?_⟩
  simp [toList_letters]

theorem nameExtension?_letters (n : Nat) : Path.nameExtension? (letters (n + 1)) = some "json" := by
  apply Path.nameExtension?_append
  · simp [List.replicate_succ]
  · decide

/-- A socket is listed as a tree file and refused as a root, and so is a folder listed that is out
of reach because of the length of its path. -/
theorem collect_lists_socket_and_folder :
    let sockets : FileTree := .directory {} [("d", .directory {} [("pipe.json", .special)])]
    let folders : FileTree := .directory {} [(letters 240, .directory {} [])]
    sockets.collect "d" = .ok ["d/pipe.json"] ∧ sockets.itemAt? "d/pipe.json" = some .special ∧
      sockets.collect "d/pipe.json" =
        .error (Sight.listFailure "d/pipe.json" .notDirectory) ∧
      folders.collect (dots 1950) = .ok [dots 1950 ++ letters 240] ∧
      folders.item? [letters 240] = some (.directory {}) := by
  refine ⟨?_, rfl, rfl, ?_, ?_⟩
  · exact collect_eq_ok_iff.mpr ⟨["d/pipe.json"], rfl, by simp [sortPaths, dropRepeats,
      dropRepeatsAfter]⟩
  · apply collect_dots _ (by decide) (isName_letters 240) _ (nameExtension?_letters 239)
    rw [utf8ByteSize_letters]
    decide
  · rw [item?_cons, entry?, List.lookup_cons_self]
    rfl

end FileTree

end StatementTable
