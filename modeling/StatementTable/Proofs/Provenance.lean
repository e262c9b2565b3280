import Mathlib.Data.List.Forall2
import Mathlib.Data.List.Sort
import StatementTable.Proofs.Slots

/-!
# Where rows come from

Every row comes from a node of the tree, and the nodes of successive rows are met in this order by
the walk.  The argument keeps track of indices into one fixed walk: a node whose walk is found at
some index has rows that come from nodes between this index and the end of its walk.
-/

namespace StatementTable

/-- The node visited at index `i` is the `else` branch of an `if` statement that was visited
before: it comes right after the test and the consequent of that statement. -/
def IsAlternateAt (visited : List Node) (i : Nat) : Prop :=
  ∃ j start test consequent alternate,
    visited[j]? = some (.ifStatement start test consequent (some alternate)) ∧
      visited[i]? = some alternate ∧
      i = j + 1 + test.walk.length + consequent.walk.length

/-- The node visited at index `i` is one that a row can come from. -/
def Originates (visited : List Node) (i : Nat) (row : Row) : Prop :=
  ∃ n, visited[i]? = some n ∧ row.line = n.line ∧
    (n.kind ∈ row.label.sources ∨ row.label = .elseBranch ∧ IsAlternateAt visited i)

/-- Rows come from nodes visited at the indices from `first` on and before `last`, in the order of
the visit.  Several rows may come from one node. -/
def Traced (visited : List Node) (first last : Nat) (rows : List Row) : Prop :=
  ∃ indices : List Nat,
    indices.Pairwise (· ≤ ·) ∧ (∀ i ∈ indices, first ≤ i ∧ i < last) ∧
      List.Forall₂ (Originates visited) indices rows

/-- A run of nodes is visited from index `i` on. -/
def VisitedAt (visited : List Node) (i : Nat) (run : List Node) : Prop :=
  run <+: visited.drop i

section Indices

variable {visited : List Node} {i j first middle last : Nat} {rows rows₁ rows₂ : List Row}

/-! ## Runs of visited nodes -/

theorem VisitedAt.head
    {n : Node} {run : List Node} (h : VisitedAt visited i (n :: run)) :
    visited[i]? = some n := by
  obtain ⟨rest, hrest⟩ := h
  have hzero : (visited.drop i)[0]? = some n := by simp [← hrest]
  simpa using hzero

theorem VisitedAt.append
    {run₁ run₂ : List Node} (h : VisitedAt visited i (run₁ ++ run₂)) :
    VisitedAt visited i run₁ ∧ VisitedAt visited (i + run₁.length) run₂ := by
  obtain ⟨rest, hrest⟩ := h
  have hdrop : visited.drop (i + run₁.length) = run₂ ++ rest := by
    rw [← List.drop_drop, ← hrest]
    simp
  exact ⟨⟨run₂ ++ rest, by simp [← hrest]⟩, ⟨rest, hdrop.symm⟩⟩

/-! ## Traces -/

theorem Traced.nil : Traced visited first last [] :=
  ⟨[], List.Pairwise.nil, by simp, List.Forall₂.nil⟩

theorem Traced.mono
    (h : Traced visited first last rows) (hfirst : i ≤ first) (hlast : last ≤ j) :
    Traced visited i j rows := by
  obtain ⟨indices, hsorted, hbounds, horigins⟩ := h
  refine ⟨indices, hsorted, ?_, horigins⟩
  intro k hk
  have hk := hbounds k hk
  omega

theorem Traced.append
    (h₁ : Traced visited first middle rows₁) (h₂ : Traced visited middle last rows₂)
    (hfirst : first ≤ middle) (hlast : middle ≤ last) :
    Traced visited first last (rows₁ ++ rows₂) := by
  obtain ⟨indices₁, hsorted₁, hbounds₁, horigins₁⟩ := h₁
  obtain ⟨indices₂, hsorted₂, hbounds₂, horigins₂⟩ := h₂
  refine ⟨indices₁ ++ indices₂, ?_, ?_, List.rel_append horigins₁ horigins₂⟩
  · rw [List.pairwise_append]
    refine ⟨hsorted₁, hsorted₂, ?_⟩
    intro a ha b hb
    have ha := hbounds₁ a ha
    have hb := hbounds₂ b hb
    omega
  · intro k hk
    rcases List.mem_append.mp hk with hk | hk
    · have hk := hbounds₁ k hk
      omega
    · have hk := hbounds₂ k hk
      omega

/-- Rows that all come from one node are traced to it. -/
theorem Traced.of_forall (h : ∀ row ∈ rows, Originates visited i row) :
    Traced visited i (i + 1) rows := by
  refine ⟨List.replicate rows.length i, ?_, ?_, ?_⟩
  · exact List.pairwise_replicate.mpr (Or.inr (Nat.le_refl i))
  · intro k hk
    have hk := List.eq_of_mem_replicate hk
    omega
  · rw [List.forall₂_iff_get]
    refine ⟨by simp, ?_⟩
    intro k hk hk'
    simpa using h _ (List.get_mem rows ⟨k, hk'⟩)

theorem Traced.cons
    {row : Row} (hrow : Originates visited i row) (hlast : i < last)
    (h : Traced visited i last rows) : Traced visited i last (row :: rows) := by
  obtain ⟨indices, hsorted, hbounds, horigins⟩ := h
  refine ⟨i :: indices, ?_, ?_, List.Forall₂.cons hrow horigins⟩
  · rw [List.pairwise_cons]
    exact ⟨fun k hk => (hbounds k hk).1, hsorted⟩
  · intro k hk
    rcases List.mem_cons.mp hk with rfl | hk
    · exact ⟨Nat.le_refl k, hlast⟩
    · exact hbounds k hk

/-- Relabelling an `if` row as an `else if` row keeps its origin. -/
theorem Originates.relabel_elseIf
    {row : Row} (h : Originates visited i row) (hlabel : row.label = .ifStatement) :
    Originates visited i (row.relabel .elseIf) := by
  obtain ⟨n, hn, hline, hsource⟩ := h
  refine ⟨n, hn, hline, Or.inl ?_⟩
  rw [hlabel] at hsource
  simpa [Row.relabel, Label.sources] using hsource

/-- The rows of an `else` branch come from the branch, since an added `else` row comes from its
first node. -/
theorem Traced.elseRows
    {n : Node} (h : Traced visited i last rows) (hlast : i < last)
    (hn : visited[i]? = some n) (halternate : IsAlternateAt visited i) :
    Traced visited i last (elseRows n.line rows) := by
  obtain ⟨head, tail, rfl, hlabel, heq⟩ | ⟨-, heq⟩ := elseRows_cases n.line rows
  · obtain ⟨indices, hsorted, hbounds, horigins⟩ := h
    rw [heq]
    cases horigins with
    | cons hhead htail =>
        exact ⟨_, hsorted, hbounds, List.Forall₂.cons (hhead.relabel_elseIf hlabel) htail⟩
  · rw [heq]
    exact Traced.cons ⟨n, hn, rfl, Or.inr ⟨rfl, halternate⟩⟩ hlast h

/-- If the rows of every node of a list are traced to its walk, so are those of the list. -/
theorem Traced.flatMap
    {rowsOf : Node → List Row} {nodes : List Node}
    (hnodes : ∀ n ∈ nodes, ∀ i, VisitedAt visited i n.walk →
      Traced visited i (i + n.walk.length) (rowsOf n))
    (hvisited : VisitedAt visited i (nodes.flatMap Node.walk)) :
    Traced visited i (i + (nodes.flatMap Node.walk).length) (nodes.flatMap rowsOf) := by
  induction nodes generalizing i with
  | nil => exact Traced.nil
  | cons n nodes ih =>
      rw [List.flatMap_cons] at hvisited ⊢
      rw [List.flatMap_cons, List.length_append]
      obtain ⟨hvisitedHead, hvisitedTail⟩ := hvisited.append
      have hhead := hnodes n List.mem_cons_self i hvisitedHead
      have htail := ih (fun m hm => hnodes m (List.mem_cons_of_mem n hm)) hvisitedTail
      rw [Nat.add_assoc] at htail
      exact hhead.append htail (by omega) (by omega)

theorem Originates.line_eq
    {row : Row} {k : Fin visited.length} (h : Originates visited k row) :
    row.line = visited[k].line := by
  obtain ⟨n, hn, hline, -⟩ := h
  obtain ⟨_, rfl⟩ := List.getElem?_eq_some_iff.mp hn
  exact hline

/-- The indices that rows are traced to, as a map. -/
theorem Traced.exists_monotone (h : Traced visited 0 visited.length rows) :
    ∃ origin : Fin rows.length → Fin visited.length,
      Monotone origin ∧ ∀ i, Originates visited (origin i) rows[i] := by
  obtain ⟨indices, hsorted, hbounds, horigins⟩ := h
  rw [List.forall₂_iff_get] at horigins
  obtain ⟨hlength, horigins⟩ := horigins
  refine ⟨fun i => ⟨indices.get (i.cast hlength.symm), ?_⟩, ?_, ?_⟩
  · exact (hbounds _ (List.get_mem indices _)).2
  · intro i j hij
    exact hsorted.sortedLE.monotone_get hij
  · intro i
    exact horigins i _ i.isLt

theorem line_le_of_le
    (hlines : (visited.map Node.line).Pairwise (· ≤ ·))
    {a b : Fin visited.length} (hab : a ≤ b) :
    visited[a].line ≤ visited[b].line := by
  rcases hab.eq_or_lt with rfl | hlt
  · exact UInt64.le_refl _
  · simpa using List.pairwise_iff_getElem.mp hlines a b (by simp) (by simp) hlt

end Indices

/-! ## The rows of a tree -/

namespace Node

theorem visited_of_visitedAt_walk
    {visited : List Node} {n : Node} {i : Nat} (hvisited : VisitedAt visited i n.walk) :
    visited[i]? = some n := by
  rw [walk_eq] at hvisited
  exact hvisited.head

/-- The rows of an `else` branch come from the nodes of the branch, which is visited after the
rest of the `if` statement. -/
theorem traced_alternate
    {visited : List Node} {n : Node} {i j : Nat} (hn : visited[i]? = some n)
    (hj : j = i + ((n :: n.operands.flatMap walk) ++
      (n.inRole .statement).flatMap walk).length)
    (hvisited : VisitedAt visited j ((n.inRole .alternate).flatMap walk))
    (ih : ∀ c ∈ n.inRole .alternate, ∀ i, VisitedAt visited i c.walk →
      Traced visited i (i + c.walk.length) (c.rowsWith .skip)) :
    Traced visited j (j + ((n.inRole .alternate).flatMap walk).length)
      ((n.inRole .alternate).flatMap (elseRowsWith .skip)) := by
  rcases inRole_alternate_cases n with hnone | ⟨start, test, consequent, alternate, rfl⟩
  · rw [hnone]
    exact Traced.nil
  · have hrole : (ifStatement start test consequent (some alternate)).inRole .alternate =
        [alternate] := by
      simp [inRole, slots]
    rw [hrole, List.flatMap_singleton] at hvisited ⊢
    have halternate : visited[j]? = some alternate := visited_of_visitedAt_walk hvisited
    have hindex : j = i + 1 + test.walk.length + consequent.walk.length := by
      rw [hj]
      simp [inRole, slots]
      omega
    have hlength : j < j + alternate.walk.length := by
      rw [walk_eq]
      simp
    rw [List.flatMap_singleton]
    exact (ih alternate (by simp [hrole]) j hvisited).elseRows hlength halternate
      ⟨i, start, test, consequent, alternate, hn, halternate, hindex⟩

/-- The rows of a node come from the nodes of its walk, wherever it is visited. -/
theorem traced_rows (visited : List Node) (n : Node) :
    ∀ i, VisitedAt visited i n.walk →
      Traced visited i (i + n.walk.length) (n.rowsWith .skip) := by
  induction n using children_induction with
  | node n ih =>
      intro i hvisited
      have hn : visited[i]? = some n := visited_of_visitedAt_walk hvisited
      have hown : Traced visited i (i + 1) (n.ownRowsWith .skip) :=
        Traced.of_forall fun row hrow => by
          obtain ⟨hline, hkind, -⟩ := source_of_mem_ownRows hrow
          exact ⟨n, hn, hline, Or.inl hkind⟩
      rw [walk_eq_append] at hvisited
      obtain ⟨hvisited, hvisitedAlternate⟩ := hvisited.append
      obtain ⟨-, hvisitedStatement⟩ := hvisited.append
      have hstatement := Traced.flatMap
        (fun c hc => ih c (mem_children_of_mem_inRole hc)) hvisitedStatement
      have halternate := traced_alternate hn rfl hvisitedAlternate
        (fun c hc => ih c (mem_children_of_mem_inRole hc))
      have hlength : n.walk.length =
          ((n :: n.operands.flatMap walk) ++ (n.inRole .statement).flatMap walk).length +
            ((n.inRole .alternate).flatMap walk).length := by
        rw [walk_eq_append, List.length_append]
      rw [List.length_append] at halternate hlength
      rw [rowsWith_eq, hlength]
      have hbody := (hown.mono (Nat.le_refl i) (by simp)).append hstatement
        (Nat.le_add_right _ _) (Nat.le_add_right _ _)
      have hall := hbody.append (halternate.mono (Nat.add_assoc _ _ _).le (Nat.le_refl _))
        (by omega) (by omega)
      exact hall.mono (Nat.le_refl i) (Nat.add_assoc _ _ _).le

end Node

/-- Rows come from nodes in the order of the source text: the nodes they come from are met by the
walk in the same order, with the same lines.  So the lines of the rows never go back where those
of the nodes never do. -/
theorem flatten_follows_walk (statements : List Node) :
    let visited := statements.flatMap Node.walk
    let rows := flatten statements
    (∃ origin : Fin rows.length → Fin visited.length,
      Monotone origin ∧ ∀ i, Originates visited (origin i) rows[i]) ∧
    ((visited.map Node.line).Pairwise (· ≤ ·) → (rows.map Row.line).Pairwise (· ≤ ·)) := by
  intro visited rows
  have htraced : Traced visited 0 visited.length rows := by
    have hflatMap := Traced.flatMap (fun n _ => Node.traced_rows visited n)
      (i := 0) (List.prefix_refl visited)
    rw [← flattenWith_eq, Nat.zero_add] at hflatMap
    exact hflatMap
  obtain ⟨origin, hmono, horigin⟩ := htraced.exists_monotone
  refine ⟨⟨origin, hmono, horigin⟩, ?_⟩
  intro hlines
  rw [List.pairwise_iff_getElem]
  intro i j hi hj hij
  rw [List.length_map] at hi hj
  have hi : rows[i].line = visited[origin ⟨i, hi⟩].line := (horigin ⟨i, hi⟩).line_eq
  have hj : rows[j].line = visited[origin ⟨j, hj⟩].line := (horigin ⟨j, hj⟩).line_eq
  rw [List.getElem_map, List.getElem_map, hi, hj]
  exact line_le_of_le hlines (hmono (Fin.mk_le_mk.mpr (Nat.le_of_lt hij)))

/-- The statement `if (x) a++; else if (y) {} else b++`, on three lines. -/
def elseIfChain : Node :=
  .ifStatement ⟨1, 0⟩ (.identifier ⟨1, 4⟩ "x")
    (.update ⟨1, 7⟩ "++" (.identifier ⟨1, 7⟩ "a") false)
    (some (.ifStatement ⟨2, 5⟩ (.identifier ⟨2, 9⟩ "y") (.block ⟨2, 12⟩ [])
      (some (.update ⟨3, 5⟩ "++" (.identifier ⟨3, 5⟩ "b") false))))

theorem flatten_follows_walk_elseIfChain :
    (([elseIfChain].flatMap Node.walk).map Node.line).Pairwise (· ≤ ·) ∧
      ((flatten [elseIfChain]).map Row.line).Pairwise (· ≤ ·) := by
  have hlines : (([elseIfChain].flatMap Node.walk).map Node.line).Pairwise (· ≤ ·) := by
    decide
  exact ⟨hlines, (flatten_follows_walk [elseIfChain]).2 hlines⟩

end StatementTable
