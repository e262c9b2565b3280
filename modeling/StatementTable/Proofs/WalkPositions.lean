import StatementTable.Proofs.Addresses

/-!
# The positions that a walk visits

A walk hands out nodes, and two nodes of a tree may be equal.  To tell which of them is visited,
every node is handed out together with its address, the numbers of the children on the way down to
it.  Children are numbered in the order of the source text, and a child that is absent takes no
number.  The addresses met on a walk are all addresses of the tree, by increasing address, so that
no node is left out and none is visited twice.
-/

namespace StatementTable

namespace Node

/-- Visits within a child, as seen from its parent. -/
def within (i : Nat) (visits : List (List Nat × Node)) : List (List Nat × Node) :=
  visits.map fun visit => (i :: visit.1, visit.2)

mutual

/-- The nodes visited on a walk, each with its address. -/
def visits : Node → List (List Nat × Node)
  | n@(.expressionStatement _ expression) => ([], n) :: within 0 (visits expression)
  | n@(.functionDeclaration _ id params body) =>
    ([], n) :: optionVisits 0 id ++ listVisits id.toList.length params ++
      within (id.toList.length + params.length) (visits body)
  | n@(.variableDeclaration _ declarations) => ([], n) :: declaratorVisits 0 declarations
  | n@(.whileStatement _ test body) => ([], n) :: within 0 (visits test) ++ within 1 (visits body)
  | n@(.ifStatement _ test consequent alternate) =>
    ([], n) :: within 0 (visits test) ++ within 1 (visits consequent) ++ optionVisits 2 alternate
  | n@(.returnStatement _ argument) => ([], n) :: optionVisits 0 argument
  | n@(.binary _ _ left right) => ([], n) :: within 0 (visits left) ++ within 1 (visits right)
  | n@(.unary _ _ argument) => ([], n) :: within 0 (visits argument)
  | n@(.update _ _ argument _) => ([], n) :: within 0 (visits argument)
  | n@(.block _ body) => ([], n) :: listVisits 0 body
  | n@(.member _ object property) =>
    ([], n) :: within 0 (visits object) ++ within 1 (visits property)
  | n@(.forStatement _ init test step body) =>
    ([], n) :: optionVisits 0 init ++ optionVisits init.toList.length test ++
      optionVisits (init.toList.length + test.toList.length) step ++
      within (init.toList.length + test.toList.length + step.toList.length) (visits body)
  | n@(.identifier _ _) => [([], n)]
  | n@(.literal _ _) => [([], n)]
  | n@(.assignment _ _ left right) =>
    ([], n) :: within 0 (visits left) ++ within 1 (visits right)
  | n@(.unsupported _) => [([], n)]

/-- The nodes visited in a child with the given number, if it is there. -/
def optionVisits (i : Nat) : Option Node → List (List Nat × Node)
  | none => []
  | some n => within i (visits n)

/-- The nodes visited in children that are numbered from the given number on. -/
def listVisits (i : Nat) : List Node → List (List Nat × Node)
  | [] => []
  | n :: ns => within i (visits n) ++ listVisits (i + 1) ns

/-- The nodes visited in declarators whose parts are numbered from the given number on. -/
def declaratorVisits (i : Nat) : List Declarator → List (List Nat × Node)
  | [] => []
  | .mk id init :: rest =>
    within i (visits id) ++ optionVisits (i + 1) init ++
      declaratorVisits (i + 1 + init.toList.length) rest

end

mutual

def nodeCount : Node → Nat
  | .expressionStatement _ expression => nodeCount expression + 1
  | .functionDeclaration _ id params body =>
    optionNodeCount id + listNodeCount params + nodeCount body + 1
  | .variableDeclaration _ declarations => declaratorNodeCount declarations + 1
  | .whileStatement _ test body => nodeCount test + nodeCount body + 1
  | .ifStatement _ test consequent alternate =>
    nodeCount test + nodeCount consequent + optionNodeCount alternate + 1
  | .returnStatement _ argument => optionNodeCount argument + 1
  | .binary _ _ left right => nodeCount left + nodeCount right + 1
  | .unary _ _ argument => nodeCount argument + 1
  | .update _ _ argument _ => nodeCount argument + 1
  | .block _ body => listNodeCount body + 1
  | .member _ object property => nodeCount object + nodeCount property + 1
  | .forStatement _ init test step body =>
    optionNodeCount init + optionNodeCount test + optionNodeCount step + nodeCount body + 1
  | .assignment _ _ left right => nodeCount left + nodeCount right + 1
  | .identifier _ _ | .literal _ _ | .unsupported _ => 1

def optionNodeCount : Option Node → Nat
  | none => 0
  | some n => nodeCount n

def listNodeCount : List Node → Nat
  | [] => 0
  | n :: ns => nodeCount n + listNodeCount ns

def declaratorNodeCount : List Declarator → Nat
  | [] => 0
  | .mk id init :: rest => nodeCount id + optionNodeCount init + declaratorNodeCount rest

end

/-! ## Visits by children -/

theorem optionVisits_eq (i : Nat) (o : Option Node) : optionVisits i o = listVisits i o.toList := by
  cases o <;> simp [optionVisits, listVisits]

theorem listVisits_append (i : Nat) (nodes₁ nodes₂ : List Node) :
    listVisits i (nodes₁ ++ nodes₂) =
      listVisits i nodes₁ ++ listVisits (i + nodes₁.length) nodes₂ := by
  induction nodes₁ generalizing i with
  | nil => rfl
  | cons n nodes₁ ih =>
      simp [listVisits, ih, Nat.add_assoc, Nat.add_comm 1]

theorem declaratorVisits_eq (i : Nat) (declarations : List Declarator) :
    declaratorVisits i declarations = listVisits i (declarations.flatMap Declarator.parts) := by
  induction declarations generalizing i with
  | nil => rfl
  | cons declarator rest ih =>
      obtain ⟨id, init⟩ := declarator
      simp [declaratorVisits, Declarator.parts, listVisits, optionVisits_eq, listVisits_append, ih]

/-- A walk visits a node and then walks through its children, numbered from zero on. -/
theorem visits_eq (n : Node) : n.visits = ([], n) :: listVisits 0 n.children := by
  cases n <;>
    simp [visits, children, slots, optionVisits_eq, declaratorVisits_eq, listVisits,
      listVisits_append, Function.comp_def]

theorem map_snd_listVisits
    {nodes : List Node} (h : ∀ n ∈ nodes, n.visits.map Prod.snd = n.walk) (i : Nat) :
    (listVisits i nodes).map Prod.snd = nodes.flatMap walk := by
  induction nodes generalizing i with
  | nil => rfl
  | cons n nodes ih =>
      have hn : (within i n.visits).map Prod.snd = n.walk := by
        rw [within, List.map_map, ← h n List.mem_cons_self]
        rfl
      rw [listVisits, List.map_append, hn, ih fun m hm => h m (List.mem_cons_of_mem n hm),
        List.flatMap_cons]

/-- Without the addresses, the visits are those of the walk. -/
theorem map_snd_visits (n : Node) : n.visits.map Prod.snd = n.walk := by
  induction n using children_induction with
  | node n ih => rw [visits_eq, walk_eq, List.map_cons, map_snd_listVisits ih]

/-! ## Increasing addresses -/

theorem map_fst_within (i : Nat) (visits : List (List Nat × Node)) :
    (within i visits).map Prod.fst = (visits.map Prod.fst).map (i :: ·) := by
  simp [within]

theorem map_fst_listVisits_succ (i : Nat) (nodes : List Node) :
    (listVisits (i + 1) nodes).map Prod.fst = ((listVisits i nodes).map Prod.fst).map shift := by
  induction nodes generalizing i with
  | nil => rfl
  | cons n nodes ih =>
      have hn : (within (i + 1) n.visits).map Prod.fst =
          ((within i n.visits).map Prod.fst).map shift := by
        simp [within, shift]
      rw [listVisits, listVisits, List.map_append, List.map_append, List.map_append, hn, ih]

/-- The addresses in a list of trees, given those in each tree. -/
theorem enumerates_listVisits
    {nodes : List Node}
    (h : ∀ n ∈ nodes, Enumerates n.descendant? (n.visits.map Prod.fst) n.walk) :
    Enumerates (nodeAt? nodes) ((listVisits 0 nodes).map Prod.fst) (nodes.flatMap walk) := by
  induction nodes with
  | nil =>
      refine ⟨List.Pairwise.nil, ?_, rfl⟩
      intro address
      cases address <;> simp [listVisits, nodeAt?]
  | cons n nodes ih =>
      have hn := h n List.mem_cons_self
      have hnodes := ih fun m hm => h m (List.mem_cons_of_mem n hm)
      rw [listVisits, List.map_append, map_fst_within, map_fst_listVisits_succ, List.flatMap_cons]
      exact hn.cons hnodes

/-- The addresses of the visits are those of the tree, in increasing order. -/
theorem enumerates_visits (n : Node) :
    Enumerates n.descendant? (n.visits.map Prod.fst) n.walk := by
  induction n using children_induction with
  | node n ih =>
      rw [visits_eq, walk_eq, List.map_cons]
      exact (enumerates_listVisits ih).node

/-- A visit is to the node at its address, and every node is visited at its address. -/
theorem mem_visits_iff (n : Node) (address : List Nat) (m : Node) :
    (address, m) ∈ n.visits ↔ n.descendant? address = some m := by
  have henumerates := n.enumerates_visits
  have hmap := henumerates.map_eq
  rw [← map_snd_visits, List.map_map, List.map_map, List.map_inj_left] at hmap
  constructor
  · intro hvisit
    exact hmap (address, m) hvisit
  · intro hm
    have hmem : address ∈ n.visits.map Prod.fst := (henumerates.mem_iff address).mpr (by simp [hm])
    obtain ⟨⟨_, found⟩, hvisit, rfl⟩ := List.mem_map.mp hmem
    obtain rfl : found = m := Option.some.inj ((hmap _ hvisit).symm.trans hm)
    exact hvisit

/-! ## The number of nodes -/

theorem optionNodeCount_eq (o : Option Node) : optionNodeCount o = listNodeCount o.toList := by
  cases o <;> simp [optionNodeCount, listNodeCount]

theorem listNodeCount_append (nodes₁ nodes₂ : List Node) :
    listNodeCount (nodes₁ ++ nodes₂) = listNodeCount nodes₁ + listNodeCount nodes₂ := by
  induction nodes₁ with
  | nil => simp [listNodeCount]
  | cons n nodes₁ ih => simp [listNodeCount, ih, Nat.add_assoc]

theorem declaratorNodeCount_eq (declarations : List Declarator) :
    declaratorNodeCount declarations =
      listNodeCount (declarations.flatMap Declarator.parts) := by
  induction declarations with
  | nil => rfl
  | cons declarator rest ih =>
      obtain ⟨id, init⟩ := declarator
      simp [declaratorNodeCount, Declarator.parts, listNodeCount, optionNodeCount_eq,
        listNodeCount_append, ih, Nat.add_assoc]

theorem nodeCount_eq (n : Node) : n.nodeCount = listNodeCount n.children + 1 := by
  cases n <;>
    simp [nodeCount, children, slots, optionNodeCount_eq, declaratorNodeCount_eq, listNodeCount,
      listNodeCount_append, Function.comp_def, Nat.add_assoc]

theorem length_flatMap_walk
    {nodes : List Node} (h : ∀ n ∈ nodes, n.walk.length = n.nodeCount) :
    (nodes.flatMap walk).length = listNodeCount nodes := by
  induction nodes with
  | nil => rfl
  | cons n nodes ih =>
      rw [List.flatMap_cons, List.length_append, h n List.mem_cons_self,
        ih fun m hm => h m (List.mem_cons_of_mem n hm), listNodeCount]

theorem length_walk (n : Node) : n.walk.length = n.nodeCount := by
  induction n using children_induction with
  | node n ih => rw [walk_eq, List.length_cons, length_flatMap_walk ih, nodeCount_eq]

/-- A walk visits the node at every address, once, by increasing address, where the address of a
node comes before those of the nodes within it.  So it makes as many visits as there are nodes. -/
theorem walk_visits_every_position (n : Node) :
    n.visits.map Prod.snd = n.walk ∧
      (n.visits.map Prod.fst).Pairwise (· < ·) ∧
      (∀ address m, (address, m) ∈ n.visits ↔ n.descendant? address = some m) ∧
      (∀ address, (n.visits.map Prod.fst).count address =
        if (n.descendant? address).isSome then 1 else 0) ∧
      n.walk.length = n.nodeCount := by
  have henumerates := n.enumerates_visits
  refine ⟨n.map_snd_visits, henumerates.sorted, n.mem_visits_iff, ?_, n.length_walk⟩
  intro address
  have hnodup : (n.visits.map Prod.fst).Nodup :=
    henumerates.sorted.imp fun hlt heq => absurd (heq ▸ hlt) (List.lt_irrefl _)
  rw [hnodup.count]
  simp only [henumerates.mem_iff address]

example :
    (forStatement ⟨1, 0⟩ none none
      (some (.update ⟨1, 9⟩ "++" (.identifier ⟨1, 9⟩ "i") false)) (.block ⟨1, 14⟩ [])).visits.map
        Prod.fst = [[], [0], [0, 0], [1]] := by
  rfl

end Node

end StatementTable
