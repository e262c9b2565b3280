import StatementTable.Proofs.Schema
import StatementTable.Proofs.ValueDepth

/-!
# The height of trees

The height of a node is the number of nodes on the longest way down from it.  Every node is decoded
from an object of its own, and the objects of its children are inside that object, be it directly,
in an array or in a declarator.  So a node is at most as high as its value is deep.
-/

namespace StatementTable

open Json (Value Members)

namespace Node

mutual

/-- The number of nodes on the longest way down from a node, which is one if it has no
children. -/
def height : Node → Nat
  | .expressionStatement _ expression => height expression + 1
  | .functionDeclaration _ id params body =>
    max (max (optionHeight id) (listHeight params)) (height body) + 1
  | .variableDeclaration _ declarations => declaratorHeight declarations + 1
  | .whileStatement _ test body => max (height test) (height body) + 1
  | .ifStatement _ test consequent alternate =>
    max (max (height test) (height consequent)) (optionHeight alternate) + 1
  | .returnStatement _ argument => optionHeight argument + 1
  | .binary _ _ left right => max (height left) (height right) + 1
  | .unary _ _ argument => height argument + 1
  | .update _ _ argument _ => height argument + 1
  | .block _ body => listHeight body + 1
  | .member _ object property => max (height object) (height property) + 1
  | .forStatement _ init test step body =>
    max (max (max (optionHeight init) (optionHeight test)) (optionHeight step)) (height body) + 1
  | .assignment _ _ left right => max (height left) (height right) + 1
  | .identifier _ _ | .literal _ _ | .unsupported _ => 1

def optionHeight : Option Node → Nat
  | none => 0
  | some n => height n

def listHeight : List Node → Nat
  | [] => 0
  | n :: ns => max (height n) (listHeight ns)

def declaratorHeight : List Declarator → Nat
  | [] => 0
  | .mk id init :: rest => max (max (height id) (optionHeight init)) (declaratorHeight rest)

end

/-! ## The height by children -/

theorem optionHeight_eq (o : Option Node) : optionHeight o = listHeight o.toList := by
  cases o <;> simp [optionHeight, listHeight]

theorem listHeight_append (nodes₁ nodes₂ : List Node) :
    listHeight (nodes₁ ++ nodes₂) = max (listHeight nodes₁) (listHeight nodes₂) := by
  induction nodes₁ with
  | nil => simp [listHeight]
  | cons n nodes₁ ih => simp [listHeight, ih, Nat.max_assoc]

theorem declaratorHeight_eq (declarations : List Declarator) :
    declaratorHeight declarations = listHeight (declarations.flatMap Declarator.parts) := by
  induction declarations with
  | nil => rfl
  | cons declarator rest ih =>
      obtain ⟨id, init⟩ := declarator
      simp [declaratorHeight, Declarator.parts, listHeight, optionHeight_eq, listHeight_append,
        ih, Nat.max_assoc]

theorem height_eq (n : Node) : n.height = listHeight n.children + 1 := by
  cases n <;>
    simp [height, children, slots, optionHeight_eq, declaratorHeight_eq, listHeight,
      listHeight_append, Function.comp_def, Nat.max_assoc]

theorem listHeight_le_iff {nodes : List Node} {limit : Nat} :
    listHeight nodes ≤ limit ↔ ∀ n ∈ nodes, n.height ≤ limit := by
  induction nodes with
  | nil => simp [listHeight]
  | cons n nodes ih => rw [listHeight, Nat.max_le, ih, List.forall_mem_cons]

/-- A node is higher than its children, and no higher than that requires. -/
theorem height_le_succ_iff {n : Node} {limit : Nat} :
    n.height ≤ limit + 1 ↔ ∀ c ∈ n.children, c.height ≤ limit := by
  rw [height_eq, Nat.add_le_add_iff_right, listHeight_le_iff]

theorem height_pos (n : Node) : 0 < n.height := by
  rw [height_eq]
  exact Nat.succ_pos _

theorem height_lt_of_mem_children {c n : Node} (h : c ∈ n.children) : c.height < n.height := by
  rw [height_eq n]
  exact Nat.lt_succ_of_le (listHeight_le_iff.mp (Nat.le_refl _) c h)

theorem height_le_of_mem_walk {m n : Node} (h : m ∈ n.walk) : m.height ≤ n.height := by
  induction n using children_induction with
  | node n ih =>
      rw [walk_eq] at h
      rcases List.mem_cons.mp h with rfl | h
      · exact Nat.le_refl _
      · obtain ⟨c, hc, hm⟩ := List.mem_flatMap.mp h
        exact Nat.le_of_lt (Nat.lt_of_le_of_lt (ih c hc hm) (height_lt_of_mem_children hc))

theorem exists_field_of_mem_children {c n : Node} (h : c ∈ n.children) :
    ∃ pair ∈ n.fields, c ∈ pair.2.children := by
  cases n <;>
    simp [children, slots, Function.comp_def] at h <;>
    simp [fields, Field.children, h]

end Node

/-! ## Decoding -/

namespace Decode

/-- The fields of a node are what a reader found when the node was put together. -/
theorem finds_of_assemble_eq_ok
    {read : FieldReader} {start : Position} {kind : Kind} {n : Node}
    (h : assemble read start kind = .ok n) : ∀ pair ∈ n.fields, read.Finds pair.1 pair.2 := by
  cases kind <;>
    simp only [assemble, bind_eq_ok_iff, require_eq_ok_iff, pure_eq_ok, Except.ok.injEq] at h <;>
    grind [Node.fields, FieldReader.Finds]

theorem exists_mem_of_mapM_eq_ok
    {α : Type} {read : Value → Decoded α} {items : List Value} {as : List α}
    (h : items.mapM read = .ok as) {a : α} (ha : a ∈ as) : ∃ v ∈ items, read v = .ok a := by
  induction items generalizing as with
  | nil =>
      obtain rfl : [] = as := Except.ok.inj h
      cases ha
  | cons v items ih =>
      rw [List.mapM_cons] at h
      obtain ⟨first, hfirst, h⟩ := bind_eq_ok_iff.mp h
      obtain ⟨rest, hrest, h⟩ := bind_eq_ok_iff.mp h
      obtain rfl : first :: rest = as := Except.ok.inj h
      rcases List.mem_cons.mp ha with rfl | ha
      · exact ⟨v, List.mem_cons_self, hfirst⟩
      · obtain ⟨w, hw, hread⟩ := ih hrest ha
        exact ⟨w, List.mem_cons_of_mem v hw, hread⟩

theorem exists_value_of_member
    {α : Type} {members : Members} {key : String} {read : Value → Decoded α} {a : α}
    (h : member members key read = .ok (some a)) :
    ∃ v, members.get? key = some v ∧ read v = .ok a := by
  obtain ⟨-, hnone⟩ | ⟨v, found, hv, hread, hsome⟩ := member_eq_ok_iff.mp h
  · cases hnone
  · obtain rfl := Option.some.inj hsome
    exact ⟨v, hv, hread⟩

/-- Nodes that are decoded from values below a given depth are at most as high as these values are
deep. -/
def BoundedBelow (depth : Nat) : Prop :=
  ∀ v : Value, v.depth < depth → ∀ enclosure n, node enclosure v = .ok n → n.height ≤ v.depth

theorem BoundedBelow.mono {depth depth' : Nat} (h : BoundedBelow depth) (hle : depth' ≤ depth) :
    BoundedBelow depth' :=
  fun v hv => h v (Nat.lt_of_lt_of_le hv hle)

section Fields

variable {n : Node} {v : Value}

theorem height_lt_of_nodes
    {enclosure : Enclosure} {ns : List Node} (hbelow : BoundedBelow v.depth)
    (h : nodes enclosure v = .ok ns) (hn : n ∈ ns) : n.height < v.depth := by
  cases v with
  | array items =>
      rw [nodes, nodeList_eq_mapM] at h
      obtain ⟨item, hitem, hnode⟩ := exists_mem_of_mapM_eq_ok h hn
      have hdepth := Value.depth_lt_of_mem_array hitem
      exact Nat.lt_of_le_of_lt (hbelow item hdepth enclosure n hnode) hdepth
  | _ => simp [nodes] at h

theorem node_eq_ok_of_optionalNode (h : optionalNode v = .ok (some n)) :
    node .inner v = .ok n := by
  cases v with
  | null => simp [optionalNode] at h
  | _ =>
      simp only [optionalNode, map_eq_ok_iff] at h
      obtain ⟨m, hm, hsome⟩ := h
      rwa [← Option.some.inj hsome]

theorem height_lt_of_finds_node
    {members : Members} (hbelow : BoundedBelow (Value.object members).depth) {key : String}
    (h : (fieldReader members).Finds key (.node n)) :
    n.height < (Value.object members).depth := by
  obtain ⟨v, hv, hnode⟩ := exists_value_of_member h
  have hdepth := Value.depth_lt_of_get?_eq_some hv
  exact Nat.lt_of_le_of_lt (hbelow v hdepth .inner n hnode) hdepth

theorem height_lt_of_finds_optionalNode
    {members : Members} (hbelow : BoundedBelow (Value.object members).depth) {key : String}
    (h : (fieldReader members).Finds key (.optionalNode (some n))) :
    n.height < (Value.object members).depth := by
  obtain ⟨o, ho, hjoin⟩ := bind_eq_ok_iff.mp h
  obtain rfl : o = some (some n) := Option.join_eq_some_iff.mp (Except.ok.inj hjoin)
  obtain ⟨v, hv, hnode⟩ := exists_value_of_member ho
  have hdepth := Value.depth_lt_of_get?_eq_some hv
  exact Nat.lt_of_le_of_lt (hbelow v hdepth .inner n (node_eq_ok_of_optionalNode hnode)) hdepth

theorem height_lt_of_declarator
    {d : Declarator} (hbelow : BoundedBelow v.depth) (h : declarator v = .ok d)
    (hn : n ∈ d.parts) : n.height < v.depth := by
  obtain ⟨id, init⟩ := d
  cases v with
  | object members =>
      simp only [declarator_object, bind_eq_ok_iff, require_eq_ok_iff, pure_eq_ok,
        Except.ok.injEq, Declarator.mk.injEq] at h
      obtain ⟨_, hid, _, hinit, _, rfl, rfl, rfl⟩ := h
      rcases List.mem_cons.mp hn with rfl | hn
      · exact height_lt_of_finds_node hbelow hid
      · rw [Option.mem_toList.mp hn] at hinit
        exact height_lt_of_finds_optionalNode hbelow hinit
  | array items =>
      rcases items with - | ⟨first, - | ⟨second, rest⟩⟩
      · simp [declarator] at h
      · simp [declarator, bind_eq_ok_iff] at h
      · simp only [declarator, bind_eq_ok_iff, pure_eq_ok, Except.ok.injEq,
          Declarator.mk.injEq] at h
        obtain ⟨_, hid, _, hinit, _, -, rfl, rfl⟩ := h
        have hfirst : first.depth < (Value.array (first :: second :: rest)).depth :=
          Value.depth_lt_of_mem_array List.mem_cons_self
        have hsecond : second.depth < (Value.array (first :: second :: rest)).depth :=
          Value.depth_lt_of_mem_array (List.mem_cons_of_mem first List.mem_cons_self)
        rcases List.mem_cons.mp hn with rfl | hn
        · exact Nat.lt_of_le_of_lt (hbelow first hfirst .inner _ hid) hfirst
        · rw [Option.mem_toList.mp hn] at hinit
          exact Nat.lt_of_le_of_lt
            (hbelow second hsecond .inner n (node_eq_ok_of_optionalNode hinit)) hsecond
  | _ => simp [declarator] at h

theorem height_lt_of_declarators
    {ds : List Declarator} (hbelow : BoundedBelow v.depth) (h : declarators v = .ok ds)
    (hn : n ∈ ds.flatMap Declarator.parts) : n.height < v.depth := by
  obtain ⟨d, hd, hn⟩ := List.mem_flatMap.mp hn
  cases v with
  | array items =>
      rw [declarators, declaratorList_eq_mapM] at h
      obtain ⟨item, hitem, hdeclarator⟩ := exists_mem_of_mapM_eq_ok h hd
      have hdepth := Value.depth_lt_of_mem_array hitem
      exact Nat.lt_trans
        (height_lt_of_declarator (hbelow.mono (Nat.le_of_lt hdepth)) hdeclarator hn) hdepth
  | _ => simp [declarators] at h

/-- The nodes in a field of an object are less high than the object is deep. -/
theorem height_lt_of_finds
    {members : Members} (hbelow : BoundedBelow (Value.object members).depth) {key : String}
    {field : Node.Field} (h : (fieldReader members).Finds key field) (hn : n ∈ field.children) :
    n.height < (Value.object members).depth := by
  cases field with
  | node m =>
      obtain rfl := List.mem_singleton.mp hn
      exact height_lt_of_finds_node hbelow h
  | optionalNode o =>
      rw [Option.mem_toList.mp hn] at h
      exact height_lt_of_finds_optionalNode hbelow h
  | nodes ns =>
      obtain ⟨v, hv, hnodes⟩ := exists_value_of_member h
      have hdepth := Value.depth_lt_of_get?_eq_some hv
      have hheight := height_lt_of_nodes (hbelow.mono (Nat.le_of_lt hdepth)) hnodes hn
      exact Nat.lt_trans hheight hdepth
  | declarators ds =>
      obtain ⟨v, hv, hdeclarators⟩ := exists_value_of_member h
      have hdepth := Value.depth_lt_of_get?_eq_some hv
      have hheight := height_lt_of_declarators (hbelow.mono (Nat.le_of_lt hdepth)) hdeclarators hn
      exact Nat.lt_trans hheight hdepth
  | text | flag => cases hn

end Fields

/-- A node is at most as high as the value is deep from which it is decoded. -/
theorem height_le_depth (depth : Nat) : BoundedBelow depth := by
  -- by the depth, since the nodes of a list or a declarator are more than one container below
  induction depth with
  | zero => exact fun v hv => absurd hv (Nat.not_lt_zero _)
  | succ depth ih =>
      intro v hv enclosure n h
      have hbelow : BoundedBelow v.depth := ih.mono (Nat.le_of_lt_succ hv)
      cases v with
      | object members =>
          rw [node_object] at h
          obtain ⟨start, -, h⟩ := bind_eq_ok_iff.mp h
          obtain ⟨kind, -, h⟩ := bind_eq_ok_iff.mp h
          have hchildren : ∀ c ∈ n.children, c.height < (Value.object members).depth := by
            intro c hc
            obtain ⟨pair, hpair, hc⟩ := Node.exists_field_of_mem_children hc
            exact height_lt_of_finds hbelow (finds_of_assemble_eq_ok h pair hpair) hc
          rw [Value.depth] at hchildren ⊢
          exact Node.height_le_succ_iff.mpr fun c hc => Nat.le_of_lt_succ (hchildren c hc)
      | _ => simp [node] at h

end Decode

namespace Program

variable {program : Program} {n : Node}

/-- A program is decoded from an array of its statements, or from an object with such an array as
its body. -/
theorem nodes_of_ofValue {v : Value} (h : ofValue v = .ok program) :
    (∃ items, v = .array items ∧ Decode.nodes .outer v = .ok program.body) ∨
      ∃ (members : Members) (body : Value), v = .object members ∧
        members.get? "body" = some body ∧
        Decode.nodes .outer body = .ok program.body := by
  cases v with
  | array items =>
      refine Or.inl ⟨items, rfl, ?_⟩
      rw [ofValue] at h
      split at h
      · next body hbody =>
        obtain rfl := Except.ok.inj h
        rw [Decode.nodes, hbody]
      · cases h
  | object members =>
      simp only [ofValue] at h
      split at h
      · next decoded hdecoded =>
        obtain rfl := Except.ok.inj h
        simp only [Decode.program, Decode.bind_eq_ok_iff, Decode.require_eq_ok_iff,
          Decode.pure_eq_ok, Except.ok.injEq] at hdecoded
        obtain ⟨_, hmember, body, rfl, rfl⟩ := hdecoded
        obtain ⟨v, hv, hnodes⟩ := Decode.exists_value_of_member hmember
        exact Or.inr ⟨members, v, rfl, hv, hnodes⟩
      · cases h
  | _ => simp [ofValue, Decode.program] at h

/-- The statements of a program that is an object are less high by two than the object is deep:
the object and its body are around them. -/
theorem height_lt_of_ofValue_object
    {members : Members} (h : ofValue (.object members) = .ok program) (hn : n ∈ program.body) :
    n.height + 1 < (Value.object members).depth := by
  obtain ⟨items, hitems, -⟩ | ⟨_, body, hmembers, hbody, hnodes⟩ := nodes_of_ofValue h
  · cases hitems
  · obtain rfl := Value.object.inj hmembers
    have hdepth := Value.depth_lt_of_get?_eq_some hbody
    have hheight := Decode.height_lt_of_nodes (Decode.height_le_depth body.depth) hnodes hn
    omega

/-- The statements of a program are less high than the value is deep from which it is decoded. -/
theorem height_lt_of_ofValue
    {v : Value} (h : ofValue v = .ok program) (hn : n ∈ program.body) : n.height < v.depth := by
  obtain ⟨items, rfl, hnodes⟩ | ⟨members, body, rfl, -, -⟩ := nodes_of_ofValue h
  · exact Decode.height_lt_of_nodes (Decode.height_le_depth _) hnodes hn
  · have hheight := height_lt_of_ofValue_object h hn
    omega

end Program

end StatementTable
