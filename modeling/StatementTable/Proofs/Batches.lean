import Mathlib.Data.List.FinRange
import Mathlib.Data.List.Forall2
import Mathlib.Tactic.Choose
import StatementTable.Batch
import StatementTable.Proofs.FileWrites
import StatementTable.Proofs.FlattenRequests
import StatementTable.Proofs.ReplyLines

/-!
# Batches as a whole

A batch has the tables of all its files, in the order of the files, or the failure of one of the
files, on whatever schedule they are taken up.  Its run changes one file and only if it succeeds.
-/

namespace StatementTable

theorem FlattenOptions.flatten_eq_ok_iff
    {options : FlattenOptions} {statements : List Node} {rows : List Row} :
    options.flatten statements = .ok rows ↔
      rows = StatementTable.flatten statements ∧
        (options.strict = true → unsupportedLines statements = []) := by
  unfold FlattenOptions.flatten
  cases options.strict <;> cases unsupportedLines statements <;> simp [eq_comm]

theorem FlattenOptions.flatten_eq_error_iff
    {options : FlattenOptions} {statements : List Node} {line : UInt64} :
    options.flatten statements = .error line ↔
      options.strict = true ∧ ∃ lines, unsupportedLines statements = line :: lines := by
  unfold FlattenOptions.flatten
  cases options.strict <;> cases unsupportedLines statements <;> simp

theorem Program.exists_of_flatten_eq_error
    {options : FlattenOptions} {program : Program} {failure : Failure}
    (h : program.flatten options = .error failure) :
    ∃ line, options.flatten program.body = .error line ∧
      failure = .ofCause (.unsupported line) := by
  rw [Program.flatten] at h
  split at h
  · cases h
  · next line hline => exact ⟨line, hline, (Except.error.inj h).symm⟩

theorem Program.ofText_eq_ok_iff {text : String} {program : Program} :
    Program.ofText text = .ok program ↔
      ∃ v, Json.parse text = some v ∧ Program.ofValue v = .ok program := by
  unfold Program.ofText
  cases Json.parse text <;> simp

namespace Batch

/-! ## One file -/

/-- The file at a path holds a program. -/
def Holds (read : FileReader) (path : String) (program : Program) : Prop :=
  ∃ text v, read path = .ok text.toUTF8 ∧ Json.parse text = some v ∧
    Program.ofValue v = .ok program

/-- The table of a file names its path and has the rows of its program.  A strict reading allows
no unsupported nodes. -/
structure Yields (options : FlattenOptions) (read : FileReader) (path : String) (table : Table) :
    Prop where
  source : table.source = path
  rows : ∃ program, Holds read path program ∧ table.rows = flatten program.body ∧
    (options.strict = true → unsupportedLines program.body = [])

/-- Why there is no table of a file. -/
inductive FailsWith (options : FlattenOptions) (read : FileReader) (path : String) :
    Failure → Prop
  | unreadable {error : FileError} (h : read path = .error error) :
      FailsWith options read path ⟨[.reading path], .file error⟩
  | notText {content : ByteArray} (h : read path = .ok content)
      (htext : ∀ text : String, text.toUTF8 ≠ content) :
      FailsWith options read path ⟨[.reading path], .file .notText⟩
  | malformed {text : String} (h : read path = .ok text.toUTF8) (hparse : Json.parse text = none) :
      FailsWith options read path ⟨[.parsing path, .treeText], .malformed⟩
  | misshapen {text : String} {v : Json.Value} {failure : Failure}
      (h : read path = .ok text.toUTF8) (hparse : Json.parse text = some v)
      (hvalue : Program.ofValue v = .error failure) :
      FailsWith options read path (failure.within (.parsing path))
  | unsupported {program : Program} {line : UInt64} {lines : List UInt64}
      (h : Holds read path program) (hstrict : options.strict = true)
      (hlines : unsupportedLines program.body = line :: lines) :
      FailsWith options read path ⟨[.flattening path], .unsupported line⟩

section File

variable {options : FlattenOptions} {read : FileReader} {path : String}

theorem loadText_eq_ok_iff {text : String} :
    loadText read path = .ok text ↔ read path = .ok text.toUTF8 := by
  constructor
  · intro h
    obtain ⟨content, hread, h⟩ := exists_of_bind_eq_ok h
    split at h
    · next found hfound =>
      obtain rfl := Except.ok.inj h
      rw [hread, Text.fromUTF8?_eq_some_iff.mp hfound]
    · cases h
  · intro h
    simp only [loadText, h, bind, Except.bind, Text.fromUTF8?_eq_some_iff.mpr rfl]

theorem failsWith_of_loadText {error : FileError} (h : loadText read path = .error error) :
    FailsWith options read path ⟨[.reading path], .file error⟩ := by
  obtain hread | ⟨content, hread, h⟩ := eq_error_or_of_bind_eq_error h
  · exact .unreadable hread
  · split at h
    · cases h
    · next hnone =>
      obtain rfl := Except.error.inj h
      refine .notText hread ?_
      intro text htext
      rw [Text.fromUTF8?_eq_some_iff.mpr htext] at hnone
      cases hnone

theorem load_eq_ok_iff {program : Program} :
    load read path = .ok program ↔ Holds read path program := by
  have hmap (text : String) :
      (Program.ofText text).mapError (Failure.within (.parsing path)) = .ok program ↔
        Program.ofText text = .ok program := by
    cases Program.ofText text <;> simp [Except.mapError]
  unfold load Holds
  cases htext : loadText read path with
  | error error =>
      simp only [← loadText_eq_ok_iff, htext]
      simp
  | ok text =>
      simp only [← loadText_eq_ok_iff, htext, hmap, Program.ofText_eq_ok_iff]
      simp

theorem failsWith_of_load {failure : Failure} (h : load read path = .error failure) :
    FailsWith options read path failure := by
  rw [load] at h
  split at h
  · next error htext =>
    obtain rfl := Except.error.inj h
    exact failsWith_of_loadText htext
  · next text htext =>
    have hread := loadText_eq_ok_iff.mp htext
    cases hparse : Json.parse text with
    | none =>
        simp only [Program.ofText, hparse, Except.mapError] at h
        obtain rfl := Except.error.inj h
        exact .malformed hread hparse
    | some v =>
        simp only [Program.ofText, hparse] at h
        cases hvalue : Program.ofValue v with
        | ok program =>
            rw [hvalue] at h
            cases h
        | error reason =>
            rw [hvalue] at h
            obtain rfl := Except.error.inj h
            exact .misshapen hread hparse hvalue

/-- A file has a table exactly if it holds a program that may be flattened. -/
theorem table_eq_ok_iff {t : Table} :
    table options read path = .ok t ↔ Yields options read path t := by
  constructor
  · intro h
    obtain ⟨program, hload, h⟩ := exists_of_bind_eq_ok h
    split at h
    · next flattening hflatten =>
      obtain rfl := Except.ok.inj h
      obtain ⟨hrows, hlines⟩ :=
        FlattenOptions.flatten_eq_ok_iff.mp (Program.flatten_eq_ok_iff.mp hflatten).1
      exact ⟨rfl, program, load_eq_ok_iff.mp hload, hrows, hlines⟩
    · cases h
  · rintro ⟨hsource, program, hprogram, hrows, hlines⟩
    have hflatten : program.flatten options = .ok ⟨t.rows, unsupportedLines program.body⟩ :=
      Program.flatten_eq_ok_iff.mpr ⟨FlattenOptions.flatten_eq_ok_iff.mpr ⟨hrows, hlines⟩, rfl⟩
    obtain rfl := hsource
    simp only [table, load_eq_ok_iff.mpr hprogram, bind, Except.bind, hflatten]

/-- A file without a table fails for one of the reasons. -/
theorem failsWith_of_table {failure : Failure} (h : table options read path = .error failure) :
    FailsWith options read path failure := by
  obtain hload | ⟨program, hload, h⟩ := eq_error_or_of_bind_eq_error h
  · exact failsWith_of_load hload
  · split at h
    · cases h
    · next reason hflatten =>
      obtain rfl := Except.error.inj h
      obtain ⟨line, hline, rfl⟩ := Program.exists_of_flatten_eq_error hflatten
      obtain ⟨hstrict, lines, hlines⟩ := FlattenOptions.flatten_eq_error_iff.mp hline
      exact .unsupported (load_eq_ok_iff.mp hload) hstrict hlines

end File

/-! ## All files -/

section Files

variable {options : FlattenOptions} {read : FileReader} {paths : List String}
  {done done' : List (Fin paths.length × Table)}

/-- The table of an input is among those that are done. -/
def Finds (options : FlattenOptions) (read : FileReader) (paths : List String)
    (done : List (Fin paths.length × Table)) (i : Fin paths.length) : Prop :=
  ∃ t, done.lookup i = some t ∧ Yields options read (paths.get i) t

theorem finds_of_takeUp
    {i : Fin paths.length} (h : takeUp options read paths done i = .ok done') :
    Finds options read paths done' i ∧
      ∀ j, Finds options read paths done j → Finds options read paths done' j := by
  obtain ⟨t, ht, h⟩ := exists_of_bind_eq_ok h
  obtain rfl := Except.ok.inj h
  have hyields := table_eq_ok_iff.mp ht
  constructor
  · exact ⟨t, List.lookup_cons_self, hyields⟩
  · rintro j ⟨t', hlookup, hyields'⟩
    by_cases hj : j = i
    · subst hj
      exact ⟨t, List.lookup_cons_self, hyields⟩
    · exact ⟨t', by rwa [lookup_cons_eq_ite, if_neg hj], hyields'⟩

theorem table_eq_error_of_takeUp
    {i : Fin paths.length} {failure : Failure}
    (h : takeUp options read paths done i = .error failure) :
    table options read (paths.get i) = .error failure := by
  obtain htable | ⟨t, -, h⟩ := eq_error_or_of_bind_eq_error h
  · exact htable
  · cases h

/-- What is done stays done, and in the end every input of the order is. -/
theorem finds_of_foldlM
    {order : List (Fin paths.length)}
    (h : order.foldlM (takeUp options read paths) done = .ok done') :
    (∀ i ∈ order, Finds options read paths done' i) ∧
      ∀ j, Finds options read paths done j → Finds options read paths done' j := by
  induction order generalizing done with
  | nil =>
      obtain rfl := Except.ok.inj h
      exact ⟨fun _ hi => absurd hi List.not_mem_nil, fun _ hj => hj⟩
  | cons i rest ih =>
      obtain ⟨middle, hmiddle, hrest⟩ := exists_of_bind_eq_ok (List.foldlM_cons.symm.trans h)
      obtain ⟨hself, hkept⟩ := finds_of_takeUp hmiddle
      obtain ⟨hall, hkept'⟩ := ih hrest
      constructor
      · intro j hj
        rcases List.mem_cons.mp hj with rfl | hj
        · exact hkept' j hself
        · exact hall j hj
      · intro j hj
        exact hkept' j (hkept j hj)

/-- The work ends early only with the failure of an input of the order. -/
theorem exists_table_eq_error_of_foldlM
    {order : List (Fin paths.length)} {failure : Failure}
    (h : order.foldlM (takeUp options read paths) done = .error failure) :
    ∃ i ∈ order, table options read (paths.get i) = .error failure := by
  induction order generalizing done with
  | nil => cases h
  | cons i rest ih =>
      obtain hstep | ⟨middle, -, hrest⟩ :=
        eq_error_or_of_bind_eq_error (List.foldlM_cons.symm.trans h)
      · exact ⟨i, List.mem_cons_self, table_eq_error_of_takeUp hstep⟩
      · obtain ⟨j, hj, hfailure⟩ := ih hrest
        exact ⟨j, List.mem_cons_of_mem i hj, hfailure⟩

theorem Schedule.mem_order {count : Nat} (schedule : Schedule count) (i : Fin count) :
    i ∈ schedule.order :=
  schedule.perm.mem_iff.mpr (List.mem_finRange i)

/-- Tables that are found for all inputs come in the order of the inputs. -/
theorem forall₂_filterMap_lookup (h : ∀ i, Finds options read paths done i) :
    List.Forall₂ (Yields options read) paths
      ((List.finRange paths.length).filterMap fun i => done.lookup i) := by
  choose found hlookup hyields using h
  have htables : ((List.finRange paths.length).filterMap fun i => done.lookup i) =
      (List.finRange paths.length).map found := by
    rw [← List.filterMap_eq_map]
    exact List.filterMap_congr fun i _ => hlookup i
  have hpairs : List.Forall₂ (Yields options read) ((List.finRange paths.length).map paths.get)
      ((List.finRange paths.length).map found) := by
    rw [List.forall₂_map_left_iff, List.forall₂_map_right_iff, List.forall₂_same]
    intro i _
    exact hyields i
  rwa [List.map_get_finRange, ← htables] at hpairs

theorem forall₂_of_tablesOn
    {schedule : Schedule paths.length} {tables : List Table}
    (h : tablesOn options read paths schedule = .ok tables) :
    List.Forall₂ (Yields options read) paths tables := by
  obtain ⟨done, hdone, h⟩ := exists_of_bind_eq_ok h
  obtain rfl := Except.ok.inj h
  exact forall₂_filterMap_lookup fun i => (finds_of_foldlM hdone).1 i (schedule.mem_order i)

theorem exists_table_eq_error_of_tablesOn
    {schedule : Schedule paths.length} {failure : Failure}
    (h : tablesOn options read paths schedule = .error failure) :
    ∃ path ∈ paths, table options read path = .error failure := by
  obtain hdone | ⟨done, -, h⟩ := eq_error_or_of_bind_eq_error h
  · obtain ⟨i, -, hi⟩ := exists_table_eq_error_of_foldlM hdone
    exact ⟨paths.get i, List.get_mem paths i, hi⟩
  · cases h

end Files

/-! ## Runs -/

/-- What is done to a file tree, which is there after a failure as well. -/
abbrev FileAction := ExceptT Failure (StateM FileTree)

section Runs

/-- How a run ends that has all tables. -/
inductive EndsWith (root : FileTree) (report : String) :
    Option String → Except Failure String × FileTree → Prop
  | unsaved : EndsWith root report none (.ok report, root)
  | saved {path : String} {after : FileTree} {place : List String}
      (hwrite : root.write path report.toUTF8 = .ok after)
      (h : root.Overwritten path report.toUTF8 after place) :
      EndsWith root report (some path) (.ok report, after)
  | refused {path : String} {error : FileError}
      (hwrite : root.write path report.toUTF8 = .error error) :
      EndsWith root report (some path) (.error (writeFailure path error), root)

variable {options : FlattenOptions} {format : Format} {root : FileTree} {paths : List String}
  {schedule : Schedule paths.length} {output : Option String}

/-- What is done to the tree first decides what is done next. -/
theorem run_lift_bind
    {α β : Type} (action : StateM FileTree α) (next : α → FileAction β) (root : FileTree) :
    ((liftM action : FileAction α) >>= next).run.run root =
      (next (action.run root).1).run.run (action.run root).2 :=
  rfl

theorem run_save_of_ok
    {after : FileTree} {path report : String} (h : root.write path report.toUTF8 = .ok after) :
    (save path report : FileAction Unit).run.run root = (.ok (), after) := by
  have hwrite : (FileSystem.write path report.toUTF8 :
      StateM FileTree (Except FileError Unit)).run root = (.ok (), after) := by
    simp only [FileSystem.write, StateT.run_bind, StateT.run_get, pure_bind, h]
    rfl
  rw [save, run_lift_bind, hwrite]
  rfl

theorem run_save_of_error
    {error : FileError} {path report : String}
    (h : root.write path report.toUTF8 = .error error) :
    (save path report : FileAction Unit).run.run root =
      (.error (writeFailure path error), root) := by
  have hwrite : (FileSystem.write path report.toUTF8 :
      StateM FileTree (Except FileError Unit)).run root = (.error error, root) := by
    simp only [FileSystem.write, StateT.run_bind, StateT.run_get, pure_bind, h]
    rfl
  rw [save, run_lift_bind, hwrite]
  rfl

theorem endsWith_deliver
    (format : Format) (tables : List Table) (output : Option String) (root : FileTree) :
    EndsWith root (Report.render format tables) output
      ((deliver format tables output : FileAction String).run.run root) := by
  cases output with
  | none => exact .unsaved
  | some path =>
      rw [deliver, ExceptT.run_bind, StateT.run_bind]
      cases hwrite : root.write path (Report.render format tables).toUTF8 with
      | error error =>
          rw [run_save_of_error hwrite]
          exact .refused hwrite
      | ok after =>
          rw [run_save_of_ok hwrite]
          obtain ⟨place, hplace⟩ := FileTree.exists_overwritten_of_write hwrite
          exact .saved hwrite hplace

theorem run_runOn :
    (runOn options format paths schedule output : FileAction String).run.run root =
      (ofExcept (tablesOn options root.read paths schedule) >>= fun tables =>
        deliver format tables output : FileAction String).run.run root := by
  rw [runOn, run_lift_bind]
  rfl

theorem run_runOn_of_ok
    {tables : List Table} (h : tablesOn options root.read paths schedule = .ok tables) :
    (runOn options format paths schedule output : FileAction String).run.run root =
      (deliver format tables output : FileAction String).run.run root := by
  rw [run_runOn, h]
  rfl

theorem run_runOn_of_error
    {failure : Failure} (h : tablesOn options root.read paths schedule = .error failure) :
    (runOn options format paths schedule output : FileAction String).run.run root =
      (.error failure, root) := by
  rw [run_runOn, h]
  rfl

theorem endsWith_runOn
    {tables : List Table} (h : tablesOn options root.read paths schedule = .ok tables) :
    EndsWith root (Report.render format tables) output
      ((runOn options format paths schedule output : FileAction String).run.run root) := by
  rw [run_runOn_of_ok h]
  exact endsWith_deliver format tables output root

section EndsWith

variable {report : String} {outcome : Except Failure String × FileTree}

theorem EndsWith.eq_of_error
    {failure : Failure} (h : EndsWith root report output outcome)
    (hfailure : outcome.1 = .error failure) : outcome.2 = root := by
  cases h with
  | unsaved => rfl
  | saved => cases hfailure
  | refused => rfl

theorem EndsWith.overwritten_of_ne
    (h : EndsWith root report output outcome) (hne : outcome.2 ≠ root) :
    ∃ path place, output = some path ∧ outcome.1 = .ok report ∧
      root.Overwritten path report.toUTF8 outcome.2 place := by
  cases h with
  | unsaved => exact absurd rfl hne
  | saved _ hplace => exact ⟨_, _, rfl, rfl, hplace⟩
  | refused => exact absurd rfl hne

theorem EndsWith.overwritten_of_write
    {path : String} {after : FileTree} (h : EndsWith root report (some path) outcome)
    (hwrite : root.write path report.toUTF8 = .ok after) :
    outcome = (.ok report, after) ∧ ∃ place, root.Overwritten path report.toUTF8 after place := by
  cases h with
  | saved hsaved hplace =>
      obtain rfl := Except.ok.inj (hsaved.symm.trans hwrite)
      exact ⟨rfl, _, hplace⟩
  | refused hrefused => cases hrefused.symm.trans hwrite

end EndsWith

end Runs

/-- Every input has a table. -/
def Succeeds (options : FlattenOptions) (read : FileReader) (paths : List String) : Prop :=
  ∀ path ∈ paths, ∃ t, Yields options read path t

section Outcomes

variable {options : FlattenOptions} {root : FileTree} {paths : List String}

theorem Succeeds.exists_endsWith
    (h : Succeeds options root.read paths) (format : Format) (schedule : Schedule paths.length)
    (output : Option String) :
    ∃ tables, tablesOn options root.read paths schedule = .ok tables ∧
      List.Forall₂ (Yields options root.read) paths tables ∧
      EndsWith root (Report.render format tables) output
        ((runOn options format paths schedule output : FileAction String).run.run root) := by
  cases htables : tablesOn options root.read paths schedule with
  | ok tables => exact ⟨tables, rfl, forall₂_of_tablesOn htables, endsWith_runOn htables⟩
  | error failure =>
      obtain ⟨path, hpath, hfailure⟩ := exists_table_eq_error_of_tablesOn htables
      obtain ⟨t, ht⟩ := h path hpath
      rw [table_eq_ok_iff.mpr ht] at hfailure
      cases hfailure

theorem exists_failsWith_of_not_succeeds
    (h : ¬ Succeeds options root.read paths) (format : Format) (schedule : Schedule paths.length)
    (output : Option String) :
    ∃ path ∈ paths, ∃ failure, FailsWith options root.read path failure ∧
      tablesOn options root.read paths schedule = .error failure ∧
      (runOn options format paths schedule output : FileAction String).run.run root =
        (.error failure, root) := by
  cases htables : tablesOn options root.read paths schedule with
  | error failure =>
      obtain ⟨path, hpath, hfailure⟩ := exists_table_eq_error_of_tablesOn htables
      exact ⟨path, hpath, failure, failsWith_of_table hfailure, rfl, run_runOn_of_error htables⟩
  | ok tables =>
      refine absurd ?_ h
      intro path hpath
      obtain ⟨hlength, hyields⟩ := List.forall₂_iff_get.mp (forall₂_of_tablesOn htables)
      obtain ⟨i, rfl⟩ := List.mem_iff_get.mp hpath
      exact ⟨_, hyields i i.isLt (hlength ▸ i.isLt)⟩

end Outcomes

/-- On every schedule a batch gives the tables of all its files in the order of the files, or else
the failure of one of them.  Its run leaves all files alone unless there are all tables and the
report can be written.  It then changes nothing but the output, which holds the report, also if the
output is one of the inputs. -/
theorem runOn_all_or_nothing
    (options : FlattenOptions) (format : Format) (root : FileTree) (paths : List String)
    (schedule : Schedule paths.length) (output : Option String) :
    let outcome := (runOn options format paths schedule output : FileAction String).run.run root
    (Succeeds options root.read paths →
      ∃ tables, tablesOn options root.read paths schedule = .ok tables ∧
        List.Forall₂ (Yields options root.read) paths tables ∧
        EndsWith root (Report.render format tables) output outcome) ∧
    (¬ Succeeds options root.read paths →
      ∃ path ∈ paths, ∃ failure, FailsWith options root.read path failure ∧
        tablesOn options root.read paths schedule = .error failure ∧
        outcome = (.error failure, root)) ∧
    (∀ failure, outcome.1 = .error failure → outcome.2 = root) ∧
    (outcome.2 ≠ root →
      Succeeds options root.read paths ∧
        ∃ path report place, output = some path ∧ outcome.1 = .ok report ∧
          root.Overwritten path report.toUTF8 outcome.2 place) ∧
    (∀ tables, tablesOn options root.read paths schedule = .ok tables →
      ∀ path ∈ paths, output = some path →
        ∀ after, root.write path (Report.render format tables).toUTF8 = .ok after →
          outcome = (.ok (Report.render format tables), after) ∧
            ∃ place, root.Overwritten path (Report.render format tables).toUTF8 after place) := by
  intro outcome
  have hall (h : Succeeds options root.read paths) := h.exists_endsWith format schedule output
  have hnone (h : ¬ Succeeds options root.read paths) :=
    exists_failsWith_of_not_succeeds h format schedule output
  refine ⟨hall, hnone, ?_, ?_, ?_⟩
  · intro failure hfailure
    by_cases h : Succeeds options root.read paths
    · obtain ⟨tables, -, -, hends⟩ := hall h
      exact hends.eq_of_error hfailure
    · obtain ⟨path, -, reason, -, -, hend⟩ := hnone h
      exact congrArg Prod.snd hend
  · intro hchanged
    by_cases h : Succeeds options root.read paths
    · obtain ⟨tables, -, -, hends⟩ := hall h
      obtain ⟨path, place, houtput, hreport, hplace⟩ := hends.overwritten_of_ne hchanged
      exact ⟨h, path, _, place, houtput, hreport, hplace⟩
    · obtain ⟨path, -, reason, -, -, hend⟩ := hnone h
      exact absurd (congrArg Prod.snd hend) hchanged
  · intro tables htables path _ houtput after hwrite
    subst houtput
    exact (endsWith_runOn htables).overwritten_of_write hwrite

/-- The text of a program with one statement. -/
def returnText : String :=
  "[\x7b\"loc\":\x7b\"start\":\x7b\"column\":2,\"line\":4\x7d\x7d,\"type\":\"ReturnStatement\"\x7d]"

def returnMembers : Json.Members :=
  [("loc", .object [("start", .object [("column", .ofUInt64 2), ("line", .ofUInt64 4)])]),
    ("type", .string "ReturnStatement")]

/-- A folder with an empty program and a program of one statement. -/
def twoPrograms : FileTree :=
  .directory {} [("empty.json", .file "[]".toUTF8), ("return.json", .file returnText.toUTF8)]

/-- The last of three inputs before the others. -/
def lastFirst : Schedule 3 :=
  ⟨[2, 0, 1], by decide⟩

theorem yields_empty :
    Yields { strict := true } twoPrograms.read "empty.json" ⟨"empty.json", []⟩ := by
  refine ⟨rfl, ⟨[]⟩, ⟨"[]", .array [], rfl, rfl, ?_⟩, rfl, fun _ => rfl⟩
  simp [Program.ofValue, Decode.nodeList]

theorem yields_return :
    Yields { strict := true } twoPrograms.read "return.json"
      ⟨"return.json", flatten [.returnStatement ⟨4, 2⟩ none]⟩ := by
  have hencoded : (Node.returnStatement ⟨4, 2⟩ none).EncodedBy (.object returnMembers) := by
    refine .object rfl rfl ⟨_, _, rfl, rfl, rfl, rfl⟩ ?_
    intro key field hfield
    obtain ⟨rfl, rfl⟩ := Prod.mk.inj (List.mem_singleton.mp hfield)
    exact .absent
  have hdecoded : Decode.nodeList .outer [.object returnMembers] =
      .ok [.returnStatement ⟨4, 2⟩ none] :=
    Decode.nodeList_eq_ok (fun n _ => Decode.node_eq_ok n .outer) (.cons hencoded .nil)
  refine ⟨rfl, ⟨[.returnStatement ⟨4, 2⟩ none]⟩,
    ⟨returnText, .array [.object returnMembers], rfl, rfl, ?_⟩, rfl, fun _ => rfl⟩
  simp only [Program.ofValue, hdecoded]

theorem exists_write_empty (content : ByteArray) :
    ∃ after, twoPrograms.write "empty.json" content = .ok after :=
  ⟨_, rfl⟩

/-- Three inputs, one of them twice, with the report written over one of them, and an input that
is missing. -/
theorem runOn_all_or_nothing_lastFirst :
    let paths := ["return.json", "empty.json", "return.json"]
    let outcome := (runOn { strict := true } .table paths lastFirst (some "empty.json") :
      FileAction String).run.run twoPrograms
    (Succeeds { strict := true } twoPrograms.read paths ∧
      (∃ tables, tablesOn { strict := true } twoPrograms.read paths lastFirst = .ok tables ∧
        List.Forall₂ (Yields { strict := true } twoPrograms.read) paths tables ∧
        EndsWith twoPrograms (Report.render .table tables) (some "empty.json") outcome) ∧
      ∃ report place, outcome.1 = .ok report ∧
        twoPrograms.Overwritten "empty.json" report.toUTF8 outcome.2 place) ∧
    (¬ Succeeds { strict := true } twoPrograms.read ["empty.json", "missing.json"] ∧
      ∃ path ∈ ["empty.json", "missing.json"], ∃ failure,
        FailsWith { strict := true } twoPrograms.read path failure ∧
        (runOn { strict := true } .table ["empty.json", "missing.json"] (.inOrder 2)
          (some "empty.json") : FileAction String).run.run twoPrograms =
            (.error failure, twoPrograms)) := by
  intro paths outcome
  have hsucceeds : Succeeds { strict := true } twoPrograms.read paths := by
    intro path hpath
    simp only [paths, List.mem_cons, List.not_mem_nil, or_false] at hpath
    rcases hpath with rfl | rfl | rfl
    · exact ⟨_, yields_return⟩
    · exact ⟨_, yields_empty⟩
    · exact ⟨_, yields_return⟩
  have hfails : ¬ Succeeds { strict := true } twoPrograms.read ["empty.json", "missing.json"] := by
    intro h
    obtain ⟨t, -, program, ⟨text, v, hread, -⟩, -⟩ := h "missing.json" (by simp)
    cases hread
  have hpair := runOn_all_or_nothing { strict := true } .table twoPrograms
    ["empty.json", "missing.json"] (.inOrder 2) (some "empty.json")
  obtain ⟨path, hpath, failure, hfailure, -, hend⟩ := hpair.2.1 hfails
  have hthree := runOn_all_or_nothing { strict := true } .table twoPrograms paths lastFirst
    (some "empty.json")
  have hall := hthree.1 hsucceeds
  obtain ⟨tables, htables, -⟩ := hall
  obtain ⟨after, hafter⟩ := exists_write_empty (Report.render .table tables).toUTF8
  obtain ⟨houtcome, place, hplace⟩ :=
    hthree.2.2.2.2 tables htables "empty.json" (by simp [paths]) rfl after hafter
  have hsaved : ∃ report place, outcome.1 = .ok report ∧
      twoPrograms.Overwritten "empty.json" report.toUTF8 outcome.2 place := by
    refine ⟨_, place, congrArg Prod.fst houtcome, ?_⟩
    rw [show outcome.2 = after from congrArg Prod.snd houtcome]
    exact hplace
  exact ⟨⟨hsucceeds, hthree.1 hsucceeds, hsaved⟩, hfails, path, hpath, failure, hfailure, hend⟩

end Batch

end StatementTable
