import StatementTable.Files.Collect
import StatementTable.Proofs.JoinedPaths

/-!
# Paths of tree files in order

Whether a path is passed over, and whether it is that of a tree file, is seen from the name at its
end.  Paths in order increase strictly, so that they are known from which paths they are.
-/

namespace StatementTable

/-! ## Names and extensions -/

namespace Path

theorem nameExtension?_append
    {stem ending : String} (hstem : stem ≠ "") (hdot : '.' ∉ ending.toList) :
    nameExtension? (stem ++ "." ++ ending) = some ending := by
  have hreverse : (stem ++ "." ++ ending).toList.reverse =
      ending.toList.reverse ++ '.' :: stem.toList.reverse := by simp
  have hending : ∀ c ∈ ending.toList.reverse, (c != '.') = true := by
    intro c hc
    simpa using fun heq : c = '.' => hdot (heq ▸ List.mem_reverse.mp hc)
  obtain ⟨c, cs, hcons⟩ : ∃ c cs, stem.toList.reverse = c :: cs :=
    List.exists_cons_of_ne_nil (by simpa using hstem)
  simp only [nameExtension?]
  rw [hreverse, List.dropWhile_append_of_pos hending, List.takeWhile_append_of_pos hending, hcons]
  simp

/-- What stands before an extension and its dot is not empty. -/
theorem exists_stem_of_nameExtension?
    {name ending : String} (h : nameExtension? name = some ending) :
    ∃ stem, stem ≠ "" ∧ name = stem ++ "." ++ ending := by
  simp only [nameExtension?] at h
  split at h
  · cases h
  · cases h
  · case h_3 hnil hsingle =>
      have hsplit : name.toList.reverse.takeWhile (· != '.') ++
          name.toList.reverse.dropWhile (· != '.') = name.toList.reverse :=
        List.takeWhile_append_dropWhile
      obtain ⟨dot, stem, hdrop⟩ := List.exists_cons_of_ne_nil hnil
      have hdot : dot = '.' := by
        have := List.head?_dropWhile_not (· != '.') name.toList.reverse
        simpa [hdrop] using this
      have hending : name.toList.reverse.takeWhile (· != '.') = ending.toList.reverse := by
        rw [← Option.some.inj h]
        simp
      rw [hdrop, hending, hdot] at hsplit
      refine ⟨String.ofList stem.reverse, ?_, ?_⟩
      · intro hempty
        apply hsingle dot
        simpa [hdrop] using hempty
      · apply String.toList_inj.mp
        rw [← List.reverse_inj, ← hsplit]
        simp

theorem lastName?_eq_some_iff {path name : String} :
    lastName? path = some name ↔ (components path).getLast? = some (.normal name) := by
  unfold lastName?
  split <;> simp_all

end Path

/-- The path ends in the name of a folder that is passed over. -/
def EndsInSkippedName (path : String) : Prop :=
  ∃ name ∈ skippedNames, (Path.components path).getLast? = some (.normal name)

/-- The path ends in a name with the extension of tree files. -/
def EndsInTreeFileName (path : String) : Prop :=
  ∃ stem, stem ≠ "" ∧ (Path.components path).getLast? = some (.normal (stem ++ ".json"))

theorem isSkipped_iff {path : String} : isSkipped path = true ↔ EndsInSkippedName path := by
  simp only [EndsInSkippedName, ← Path.lastName?_eq_some_iff, isSkipped]
  cases Path.lastName? path with
  | none => simp
  | some name => simp

theorem isTreeFile_iff {path : String} : isTreeFile path = true ↔ EndsInTreeFileName path := by
  simp only [isTreeFile, beq_iff_eq, Path.extension?, Option.bind_eq_some_iff,
    Path.lastName?_eq_some_iff]
  constructor
  · rintro ⟨name, hlast, hextension⟩
    obtain ⟨stem, hstem, rfl⟩ := Path.exists_stem_of_nameExtension? hextension
    rw [String.append_assoc] at hlast
    exact ⟨stem, hstem, hlast⟩
  · rintro ⟨stem, hstem, hlast⟩
    have hextension := Path.nameExtension?_append hstem (show '.' ∉ "json".toList by decide)
    rw [String.append_assoc] at hextension
    exact ⟨stem ++ ".json", hlast, hextension⟩

theorem endsInSkippedName_join
    {directory name : String} (hne : directory ≠ "") (hname : Path.IsName name) :
    EndsInSkippedName (Path.join directory name) ↔ name ∈ skippedNames := by
  simp [EndsInSkippedName, Path.components_join hne hname]

/-! ## Paths in order -/

section Order

variable {path : String} {paths : List String}

theorem pairwise_dropRepeatsAfter
    (h : (path :: paths).Pairwise fun a b => (Path.compare a b).isLE = true) :
    (path :: dropRepeatsAfter path paths).Pairwise fun a b => Path.compare a b = .lt := by
  fun_induction dropRepeatsAfter path paths with
  | case1 path => exact List.pairwise_singleton _ _
  | case2 path next rest heq ih =>
      exact ih (h.sublist (.cons_cons path (List.sublist_cons_self next rest)))
  | case3 path next rest hne ih =>
      obtain ⟨hpath, hrest⟩ := List.pairwise_cons.mp h
      have hlt : Path.compare path next = .lt :=
        (Ordering.isLE_iff_eq_lt_or_eq_eq.mp (hpath next List.mem_cons_self)).resolve_right hne
      have hnext := ih hrest
      refine List.pairwise_cons.mpr ⟨?_, hnext⟩
      intro other hother
      rcases List.mem_cons.mp hother with rfl | hother
      · exact hlt
      · exact Std.TransCmp.lt_trans hlt (List.rel_of_pairwise_cons hnext hother)

/-- Only paths that have the components of another one are left out. -/
theorem mem_dropRepeatsAfter_iff
    (h : ∀ a ∈ path :: paths, ∀ b ∈ path :: paths, Path.compare a b = .eq → a = b)
    (other : String) :
    other ∈ path :: dropRepeatsAfter path paths ↔ other ∈ path :: paths := by
  fun_induction dropRepeatsAfter path paths with
  | case1 path => rfl
  | case2 path next rest heq ih =>
      obtain rfl : path = next := h path (by simp) next (by simp) heq
      rw [ih fun a ha b hb => h a (List.mem_cons_of_mem _ ha) b (List.mem_cons_of_mem _ hb)]
      simp
  | case3 path next rest hne ih =>
      have hrest := ih fun a ha b hb =>
        h a (List.mem_cons_of_mem path ha) b (List.mem_cons_of_mem path hb)
      exact List.mem_cons.trans ((or_congr_right hrest).trans List.mem_cons.symm)

theorem pairwise_mergeSort (paths : List String) :
    (paths.mergeSort fun a b => (Path.compare a b).isLE).Pairwise
      fun a b => (Path.compare a b).isLE = true := by
  apply List.pairwise_mergeSort
  · intro a b c
    exact Std.TransCmp.isLE_trans
  · intro a b
    have hswap : Path.compare b a = (Path.compare a b).swap := Std.OrientedCmp.eq_swap
    rw [hswap]
    cases Path.compare a b <;> rfl

/-- Paths in order increase strictly. -/
theorem pairwise_sortPaths (paths : List String) :
    (sortPaths paths).Pairwise fun a b => Path.compare a b = .lt := by
  have hsorted := pairwise_mergeSort paths
  unfold sortPaths
  cases hpaths : paths.mergeSort fun a b => (Path.compare a b).isLE with
  | nil => exact List.Pairwise.nil
  | cons path rest => exact pairwise_dropRepeatsAfter (hpaths ▸ hsorted)

theorem mem_sortPaths_iff
    (h : ∀ a ∈ paths, ∀ b ∈ paths, Path.compare a b = .eq → a = b) :
    path ∈ sortPaths paths ↔ path ∈ paths := by
  have hmem : ∀ a, a ∈ paths.mergeSort (fun a b => (Path.compare a b).isLE) ↔ a ∈ paths :=
    fun a => List.mem_mergeSort
  rw [← hmem]
  simp only [← hmem] at h
  unfold sortPaths
  cases hsorted : paths.mergeSort fun a b => (Path.compare a b).isLE with
  | nil => rfl
  | cons first rest => exact mem_dropRepeatsAfter_iff (hsorted ▸ h) path

/-- Paths that increase strictly are known from which paths they are. -/
theorem eq_of_pairwise_of_mem_iff
    {paths₁ paths₂ : List String} (h₁ : paths₁.Pairwise fun a b => Path.compare a b = .lt)
    (h₂ : paths₂.Pairwise fun a b => Path.compare a b = .lt)
    (h : ∀ path, path ∈ paths₁ ↔ path ∈ paths₂) : paths₁ = paths₂ := by
  have hnodup : ∀ paths : List String,
      paths.Pairwise (fun a b => Path.compare a b = .lt) → paths.Nodup := by
    intro paths hpaths
    exact hpaths.imp fun hlt heq => Path.components_ne_of_lt hlt (congrArg _ heq)
  have hperm := (List.perm_ext_iff_of_nodup (hnodup _ h₁) (hnodup _ h₂)).mpr h
  apply hperm.eq_of_pairwise _ h₁ h₂
  intro a b _ _ hab hba
  exact absurd rfl (Path.components_ne_of_lt (Std.TransCmp.lt_trans hab hba))

end Order

end StatementTable
