import Mathlib.Data.List.Pairwise
import StatementTable.Proofs.Slots

/-!
# Addresses of nodes

The address of a node is the list of child numbers on the way down to it.  Comparing addresses as
words puts a node before the nodes within it and these in the order of the source text.  A walk
meets the nodes of a tree by increasing address, and it meets the node at every address.
-/

namespace StatementTable

namespace Node

/-- The node at an address within a node. -/
def descendant? (n : Node) : List Nat → Option Node
  | [] => some n
  | i :: address => n.children[i]?.bind fun c => c.descendant? address

end Node

/-- The node at an address within a list of nodes. -/
def nodeAt? (nodes : List Node) : List Nat → Option Node
  | [] => none
  | i :: address => nodes[i]?.bind fun n => n.descendant? address

/-- The nodes are those that a lookup finds, by increasing address. -/
structure Enumerates
    (lookup : List Nat → Option Node) (addresses : List (List Nat)) (nodes : List Node) :
    Prop where
  sorted : addresses.Pairwise (· < ·)
  mem_iff : ∀ address, address ∈ addresses ↔ (lookup address).isSome
  map_eq : addresses.map lookup = nodes.map some

/-- The address in a list after one more node is put in front. -/
def shift (address : List Nat) : List Nat :=
  address.modifyHead (· + 1)

theorem nodeAt?_shift (n : Node) (nodes : List Node) (address : List Nat) :
    nodeAt? (n :: nodes) (shift address) = nodeAt? nodes address := by
  cases address with
  | nil => rfl
  | cons i address => simp [shift, nodeAt?]

theorem shift_lt_shift {address₁ address₂ : List Nat} (h : address₁ < address₂) :
    shift address₁ < shift address₂ := by
  cases address₁ with
  | nil =>
      cases address₂ with
      | nil => exact h
      | cons j address₂ => exact List.nil_lt_cons _ _
  | cons i address₁ =>
      cases address₂ with
      | nil => exact absurd h (List.not_lt_nil _)
      | cons j address₂ => simpa [shift, List.cons_lt_cons_iff] using h

theorem nil_notMem_of_enumerates_nodeAt?
    {nodes visited : List Node} {addresses : List (List Nat)}
    (h : Enumerates (nodeAt? nodes) addresses visited) : [] ∉ addresses := by
  rw [h.mem_iff]
  simp [nodeAt?]

namespace Enumerates

/-- The nodes of a list of trees, given those of the first tree and of the others. -/
theorem cons
    {n : Node} {nodes : List Node} {addresses₁ addresses₂ : List (List Nat)}
    {nodes₁ nodes₂ : List Node} (h₁ : Enumerates n.descendant? addresses₁ nodes₁)
    (h₂ : Enumerates (nodeAt? nodes) addresses₂ nodes₂) :
    Enumerates (nodeAt? (n :: nodes))
      (addresses₁.map (0 :: ·) ++ addresses₂.map shift) (nodes₁ ++ nodes₂) where
  sorted := by
    rw [List.pairwise_append, List.pairwise_map, List.pairwise_map]
    refine ⟨?_, h₂.sorted.imp shift_lt_shift, ?_⟩
    · exact h₁.sorted.imp fun hlt => List.cons_lt_cons_iff.mpr (Or.inr ⟨rfl, hlt⟩)
    · intro a ha b hb
      obtain ⟨a, -, rfl⟩ := List.mem_map.mp ha
      obtain ⟨b, hmem, rfl⟩ := List.mem_map.mp hb
      cases b with
      | nil => exact absurd hmem (nil_notMem_of_enumerates_nodeAt? h₂)
      | cons j b => exact List.cons_lt_cons_iff.mpr (Or.inl (Nat.succ_pos j))
  mem_iff := by
    intro address
    rw [List.mem_append, List.mem_map, List.mem_map]
    constructor
    · rintro (⟨a, ha, rfl⟩ | ⟨b, hb, rfl⟩)
      · simpa [nodeAt?] using (h₁.mem_iff a).mp ha
      · rw [nodeAt?_shift]
        exact (h₂.mem_iff b).mp hb
    · intro hsome
      match address with
      | [] => simp [nodeAt?] at hsome
      | 0 :: a => exact Or.inl ⟨a, (h₁.mem_iff a).mpr (by simpa [nodeAt?] using hsome), rfl⟩
      | (i + 1) :: b =>
          refine Or.inr ⟨i :: b, (h₂.mem_iff _).mpr ?_, rfl⟩
          rw [← nodeAt?_shift n]
          exact hsome
  map_eq := by
    have hfirst : (addresses₁.map (0 :: ·)).map (nodeAt? (n :: nodes)) =
        addresses₁.map n.descendant? := by
      simp [nodeAt?, Function.comp_def]
    have hrest : (addresses₂.map shift).map (nodeAt? (n :: nodes)) =
        addresses₂.map (nodeAt? nodes) := by
      simp [nodeAt?_shift, Function.comp_def]
    rw [List.map_append, List.map_append, hfirst, hrest, h₁.map_eq, h₂.map_eq]

/-- The nodes of a tree, given those of its children. -/
theorem node
    {n : Node} {addresses : List (List Nat)} {visited : List Node}
    (h : Enumerates (nodeAt? n.children) addresses visited) :
    Enumerates n.descendant? ([] :: addresses) (n :: visited) where
  sorted := by
    rw [List.pairwise_cons]
    refine ⟨?_, h.sorted⟩
    intro address haddress
    cases address with
    | nil => exact absurd haddress (nil_notMem_of_enumerates_nodeAt? h)
    | cons i address => exact List.nil_lt_cons i address
  mem_iff := by
    intro address
    cases address with
    | nil => simp [Node.descendant?]
    | cons i address => simpa [Node.descendant?, nodeAt?] using h.mem_iff (i :: address)
  map_eq := by
    have hmap : addresses.map n.descendant? = addresses.map (nodeAt? n.children) := by
      apply List.map_congr_left
      intro address haddress
      cases address with
      | nil => exact absurd haddress (nil_notMem_of_enumerates_nodeAt? h)
      | cons i address => rfl
    rw [List.map_cons, List.map_cons, hmap, h.map_eq, Node.descendant?]

section Lookup

variable {lookup : List Nat → Option Node} {addresses : List (List Nat)} {visited : List Node}

/-- The nodes enumerated are those found at some address. -/
theorem mem_visited_iff
    (h : Enumerates lookup addresses visited) {n : Node} :
    n ∈ visited ↔ ∃ address, lookup address = some n := by
  have hvisited : n ∈ visited ↔ some n ∈ addresses.map lookup := by simp [h.map_eq]
  rw [hvisited, List.mem_map]
  constructor
  · rintro ⟨address, -, haddress⟩
    exact ⟨address, haddress⟩
  · rintro ⟨address, haddress⟩
    exact ⟨address, (h.mem_iff address).mpr (by simp [haddress]), haddress⟩

/-- Among the nodes with a property, the one that is enumerated first has the least address. -/
theorem exists_least_of_find?
    (h : Enumerates lookup addresses visited) {p : Node → Bool} {n : Node}
    (hfind : visited.find? p = some n) :
    ∃ address, lookup address = some n ∧
      ∀ earlier < address, ∀ m, lookup earlier = some m → p m = false := by
  obtain ⟨-, before, after, rfl, hbefore⟩ := List.find?_eq_some_iff_append.mp hfind
  have hmap := h.map_eq
  rw [List.map_append, List.map_cons] at hmap
  obtain ⟨front, back, rfl, hfront, hback⟩ := List.map_eq_append_iff.mp hmap
  obtain ⟨address, rest, rfl, hlookup, -⟩ := List.map_eq_cons_iff.mp hback
  refine ⟨address, hlookup, ?_⟩
  intro earlier hearlier m hm
  have hsorted := List.pairwise_append.mp h.sorted
  have hmem : earlier ∈ front := by
    have hall : earlier ∈ front ++ address :: rest := (h.mem_iff earlier).mpr (by simp [hm])
    rcases List.mem_append.mp hall with hmem | hmem
    · exact hmem
    · rcases List.mem_cons.mp hmem with rfl | hmem
      · exact absurd hearlier (List.lt_irrefl _)
      · have hlater := List.rel_of_pairwise_cons hsorted.2.1 hmem
        exact absurd (List.lt_trans hearlier hlater) (List.lt_irrefl _)
  have hmbefore : some m ∈ before.map some := by
    rw [← hfront, ← hm]
    exact List.mem_map_of_mem hmem
  have hmbefore : m ∈ before := by simpa using hmbefore
  simpa using hbefore m hmbefore

end Lookup

end Enumerates

/-- A walk through a list of trees meets the node at every address, by increasing address. -/
theorem exists_enumerates_flatMap
    {nodes : List Node}
    (h : ∀ n ∈ nodes, ∃ addresses, Enumerates n.descendant? addresses n.walk) :
    ∃ addresses, Enumerates (nodeAt? nodes) addresses (nodes.flatMap Node.walk) := by
  induction nodes with
  | nil =>
      refine ⟨[], List.Pairwise.nil, ?_, rfl⟩
      intro address
      cases address <;> simp [nodeAt?]
  | cons n nodes ih =>
      obtain ⟨addresses₁, h₁⟩ := h n List.mem_cons_self
      obtain ⟨addresses₂, h₂⟩ := ih fun m hm => h m (List.mem_cons_of_mem n hm)
      exact ⟨_, h₁.cons h₂⟩

/-- A walk meets the node at every address, by increasing address. -/
theorem Node.exists_enumerates_walk (n : Node) :
    ∃ addresses, Enumerates n.descendant? addresses n.walk := by
  induction n using Node.children_induction with
  | node n ih =>
      obtain ⟨addresses, h⟩ := exists_enumerates_flatMap ih
      rw [Node.walk_eq]
      exact ⟨_, h.node⟩

end StatementTable
