import StatementTable.Proofs.Addresses
import StatementTable.Proofs.Contexts

/-!
# Statements with an open slot

A slot of a node is found by the address of the node and the number of the slot.  Leaving it open
turns a list of statements into frames: the node that has the slot is one, and so is every node
around it.  Every slot can be opened, and then any node can be put into it, while all other slots
keep what they hold.
-/

namespace StatementTable

/-- Of two lists in a row, one holds the item that stands between two parts of the whole. -/
theorem append_eq_append_cons
    {α : Type} {xs ys before after : List α} {y : α}
    (h : xs ++ ys = before ++ y :: after) :
    (∃ rest, xs = before ++ y :: rest ∧ after = rest ++ ys) ∨
      ∃ rest, before = xs ++ rest ∧ ys = rest ++ y :: after := by
  rcases List.append_eq_append_iff.mp h with hright | ⟨rest, hxs, hrest⟩
  · exact Or.inr hright
  · cases rest with
    | nil => exact Or.inr ⟨[], by simp [hxs], by simpa using hrest.symm⟩
    | cons x rest =>
        obtain ⟨rfl, hafter⟩ := List.cons.inj hrest
        exact Or.inl ⟨rest, hxs, hafter⟩

theorem cons_eq_append_cons
    {α : Type} {x y : α} {xs before after : List α} (h : x :: xs = before ++ y :: after) :
    (before = [] ∧ y = x ∧ after = xs) ∨
      ∃ rest, before = x :: rest ∧ xs = rest ++ y :: after := by
  rcases List.cons_eq_append_iff.mp h with ⟨hbefore, hafter⟩ | hrest
  · obtain ⟨hy, hafter⟩ := List.cons.inj hafter
    exact Or.inl ⟨hbefore, hy, hafter⟩
  · exact Or.inr hrest

theorem eq_of_singleton_eq
    {α : Type} {x y : α} {before after : List α} (h : [x] = before ++ y :: after) :
    before = [] ∧ y = x ∧ after = [] := by
  rcases cons_eq_append_cons h with hhere | ⟨rest, -, hnil⟩
  · exact hhere
  · simp at hnil

theorem eq_some_of_toList_eq
    {o : Option Node} {c : Node} {before after : List Node}
    (h : o.toList = before ++ c :: after) : o = some c ∧ before = [] ∧ after = [] := by
  cases o with
  | none => simp at h
  | some n =>
      obtain ⟨hbefore, rfl, hafter⟩ := eq_of_singleton_eq h
      exact ⟨rfl, hbefore, hafter⟩

/-- A part of a list of declarators is a part of one of them. -/
theorem Declarator.split_of_flatMap_parts_eq
    {declarations : List Declarator} {c : Node} {before after : List Node}
    (h : declarations.flatMap parts = before ++ c :: after) :
    ∃ front declarator back left right,
      declarations = front ++ declarator :: back ∧ declarator.parts = left ++ c :: right ∧
        before = front.flatMap parts ++ left ∧ after = right ++ back.flatMap parts := by
  induction declarations generalizing before with
  | nil => simp at h
  | cons declarator rest ih =>
      rw [List.flatMap_cons] at h
      rcases append_eq_append_cons h with ⟨right, hparts, hafter⟩ | ⟨skipped, rfl, hrest⟩
      · exact ⟨[], declarator, rest, before, right, rfl, hparts, rfl, hafter⟩
      · obtain ⟨front, found, back, left, right, rfl, hparts, rfl, hafter⟩ := ih hrest
        exact ⟨declarator :: front, found, back, left, right, rfl, hparts, by simp, hafter⟩

namespace Node

section Slots

variable {c : Node} {role kept : Role} {before after : List (Role × Node)}

theorem split_of_map_eq
    {nodes : List Node} (h : nodes.map (kept, ·) = before ++ (role, c) :: after) :
    ∃ front back, nodes = front ++ c :: back ∧ role = kept ∧
      before = front.map (kept, ·) ∧ after = back.map (kept, ·) := by
  obtain ⟨front, rest, rfl, rfl, hrest⟩ := List.map_eq_append_iff.mp h
  obtain ⟨n, back, rfl, hn, rfl⟩ := List.map_eq_cons_iff.mp hrest
  obtain ⟨rfl, rfl⟩ := Prod.mk.inj hn
  exact ⟨front, back, rfl, rfl, rfl, rfl⟩

theorem eq_some_of_map_toList_eq
    {o : Option Node} (h : o.toList.map (kept, ·) = before ++ (role, c) :: after) :
    o = some c ∧ role = kept ∧ before = [] ∧ after = [] := by
  obtain ⟨front, back, htoList, rfl, rfl, rfl⟩ := split_of_map_eq h
  obtain ⟨rfl, rfl, rfl⟩ := eq_some_of_toList_eq htoList
  exact ⟨rfl, rfl, rfl, rfl⟩

end Slots

namespace Frame

/-- What the open slot of a frame is for. -/
def role : Frame → Role
  | .functionBody _ _ _ | .whileBody _ _ | .consequent _ _ _ | .blockItem _ _ _
  | .forBody _ _ _ _ => .statement
  | .alternate _ _ _ => .alternate
  | .forInit _ _ _ _ => .forInit
  | _ => .expression

/-- The frame is the node with the slot open that stands between the given ones. -/
structure Between
    (frame : Frame) (n c : Node) (role : Role) (before after : List (Role × Node)) : Prop where
  role_eq : frame.role = role
  fill_eq : frame.fill c = n
  slots_fill : ∀ m, (frame.fill m).slots = before ++ (role, m) :: after

end Frame

/-- Every slot of a node can be left open. -/
theorem exists_between
    {n c : Node} {role : Role} {before after : List (Role × Node)}
    (h : n.slots = before ++ (role, c) :: after) :
    ∃ frame : Frame, frame.Between n c role before after := by
  cases n with
  | expressionStatement start expression =>
      obtain ⟨rfl, ⟨⟩, rfl⟩ := eq_of_singleton_eq h
      exact ⟨.expressionStatement start, rfl, rfl, fun _ => rfl⟩
  | functionDeclaration start id params body =>
      rcases append_eq_append_cons h with ⟨rest, hleft, rfl⟩ | ⟨rest, rfl, hbody⟩
      · rcases append_eq_append_cons hleft with ⟨rest, hid, rfl⟩ | ⟨rest, rfl, hparams⟩
        · obtain ⟨rfl, rfl, rfl, rfl⟩ := eq_some_of_map_toList_eq hid
          exact ⟨.functionId start params body, rfl, rfl, fun _ => rfl⟩
        · obtain ⟨front, back, rfl, rfl, rfl, rfl⟩ := split_of_map_eq hparams
          exact ⟨.parameter start id front back body, rfl, rfl,
            fun m => by simp [Frame.fill, slots]⟩
      · obtain ⟨rfl, ⟨⟩, rfl⟩ := eq_of_singleton_eq hbody
        exact ⟨.functionBody start id params, rfl, rfl, fun m => by simp [Frame.fill, slots]⟩
  | variableDeclaration start declarations =>
      obtain ⟨left, right, hparts, rfl, rfl, rfl⟩ := split_of_map_eq h
      obtain ⟨front, ⟨id, init⟩, back, left, right, rfl, hpart, rfl, rfl⟩ :=
        Declarator.split_of_flatMap_parts_eq hparts
      rcases cons_eq_append_cons hpart with ⟨rfl, rfl, rfl⟩ | ⟨rest, rfl, hinit⟩
      · exact ⟨.declaredName start front init back, rfl, rfl,
          fun m => by simp [Frame.fill, slots, Declarator.parts]⟩
      · obtain ⟨rfl, rfl, rfl⟩ := eq_some_of_toList_eq hinit
        exact ⟨.initialValue start front id back, rfl, rfl,
          fun m => by simp [Frame.fill, slots, Declarator.parts]⟩
  | whileStatement start test body =>
      rcases cons_eq_append_cons h with ⟨rfl, ⟨⟩, rfl⟩ | ⟨rest, rfl, hrest⟩
      · exact ⟨.whileTest start body, rfl, rfl, fun _ => rfl⟩
      · obtain ⟨rfl, ⟨⟩, rfl⟩ := eq_of_singleton_eq hrest
        exact ⟨.whileBody start test, rfl, rfl, fun _ => rfl⟩
  | ifStatement start test consequent alternate =>
      rcases cons_eq_append_cons h with ⟨rfl, ⟨⟩, rfl⟩ | ⟨rest, rfl, hrest⟩
      · exact ⟨.ifTest start consequent alternate, rfl, rfl, fun _ => rfl⟩
      · rcases cons_eq_append_cons hrest with ⟨rfl, ⟨⟩, rfl⟩ | ⟨rest, rfl, halternate⟩
        · exact ⟨.consequent start test alternate, rfl, rfl, fun _ => rfl⟩
        · obtain ⟨rfl, rfl, rfl, rfl⟩ := eq_some_of_map_toList_eq halternate
          exact ⟨.alternate start test consequent, rfl, rfl, fun _ => rfl⟩
  | returnStatement start argument =>
      obtain ⟨rfl, rfl, rfl, rfl⟩ := eq_some_of_map_toList_eq h
      exact ⟨.returnArgument start, rfl, rfl, fun _ => rfl⟩
  | binary start operator left right =>
      rcases cons_eq_append_cons h with ⟨rfl, ⟨⟩, rfl⟩ | ⟨rest, rfl, hrest⟩
      · exact ⟨.leftOperand start operator right, rfl, rfl, fun _ => rfl⟩
      · obtain ⟨rfl, ⟨⟩, rfl⟩ := eq_of_singleton_eq hrest
        exact ⟨.rightOperand start operator left, rfl, rfl, fun _ => rfl⟩
  | unary start operator argument =>
      obtain ⟨rfl, ⟨⟩, rfl⟩ := eq_of_singleton_eq h
      exact ⟨.unaryOperand start operator, rfl, rfl, fun _ => rfl⟩
  | update start operator argument leading =>
      obtain ⟨rfl, ⟨⟩, rfl⟩ := eq_of_singleton_eq h
      exact ⟨.updateOperand start operator leading, rfl, rfl, fun _ => rfl⟩
  | block start body =>
      obtain ⟨front, back, rfl, rfl, rfl, rfl⟩ := split_of_map_eq h
      exact ⟨.blockItem start front back, rfl, rfl, fun m => by simp [Frame.fill, slots]⟩
  | member start object property =>
      rcases cons_eq_append_cons h with ⟨rfl, ⟨⟩, rfl⟩ | ⟨rest, rfl, hrest⟩
      · exact ⟨.memberObject start property, rfl, rfl, fun _ => rfl⟩
      · obtain ⟨rfl, ⟨⟩, rfl⟩ := eq_of_singleton_eq hrest
        exact ⟨.memberProperty start object, rfl, rfl, fun _ => rfl⟩
  | forStatement start init test step body =>
      rcases append_eq_append_cons h with ⟨rest, hclauses, rfl⟩ | ⟨rest, rfl, hbody⟩
      · rcases append_eq_append_cons hclauses with ⟨rest, hleft, rfl⟩ | ⟨rest, rfl, hstep⟩
        · rcases append_eq_append_cons hleft with ⟨rest, hinit, rfl⟩ | ⟨rest, rfl, htest⟩
          · obtain ⟨rfl, rfl, rfl, rfl⟩ := eq_some_of_map_toList_eq hinit
            exact ⟨.forInit start test step body, rfl, rfl,
              fun m => by simp [Frame.fill, slots]⟩
          · obtain ⟨rfl, rfl, rfl, rfl⟩ := eq_some_of_map_toList_eq htest
            exact ⟨.forTest start init step body, rfl, rfl,
              fun m => by simp [Frame.fill, slots]⟩
        · obtain ⟨rfl, rfl, rfl, rfl⟩ := eq_some_of_map_toList_eq hstep
          exact ⟨.forStep start init test body, rfl, rfl, fun m => by simp [Frame.fill, slots]⟩
      · obtain ⟨rfl, ⟨⟩, rfl⟩ := eq_of_singleton_eq hbody
        exact ⟨.forBody start init test step, rfl, rfl, fun m => by simp [Frame.fill, slots]⟩
  | assignment start operator left right =>
      rcases cons_eq_append_cons h with ⟨rfl, ⟨⟩, rfl⟩ | ⟨rest, rfl, hrest⟩
      · exact ⟨.assignmentTarget start operator right, rfl, rfl, fun _ => rfl⟩
      · obtain ⟨rfl, ⟨⟩, rfl⟩ := eq_of_singleton_eq hrest
        exact ⟨.assignedValue start operator left, rfl, rfl, fun _ => rfl⟩
  | identifier | literal | unsupported => simp [slots] at h

/-- The slot of a given number can be left open. -/
theorem exists_frame_of_slots
    {n c : Node} {role : Role} {i : Nat} (h : n.slots[i]? = some (role, c)) :
    ∃ frame : Frame, frame.role = role ∧ frame.fill c = n ∧
      ∀ m, (frame.fill m).slots = n.slots.set i (role, m) := by
  obtain ⟨hi, hget⟩ := List.getElem?_eq_some_iff.mp h
  have hsplit : n.slots = n.slots.take i ++ (role, c) :: n.slots.drop (i + 1) := by
    rw [← hget, List.getElem_cons_drop, List.take_append_drop]
  obtain ⟨frame, hframe⟩ := exists_between hsplit
  refine ⟨frame, hframe.role_eq, hframe.fill_eq, ?_⟩
  intro m
  rw [hframe.slots_fill, List.set_eq_take_cons_drop _ hi]

/-- A node within another is reached through frames, the outermost first. -/
theorem exists_frames_of_descendant?
    {n d : Node} {address : List Nat} (h : n.descendant? address = some d) :
    ∃ frames : List Frame, frames.foldr Frame.fill d = n ∧
      ∀ m, (frames.foldr Frame.fill m).descendant? address = some m := by
  induction address generalizing n with
  | nil =>
      obtain rfl := Option.some.inj h
      exact ⟨[], rfl, fun _ => rfl⟩
  | cons i address ih =>
      obtain ⟨c, hchild, hc⟩ := Option.bind_eq_some_iff.mp h
      rw [children, List.getElem?_map, Option.map_eq_some_iff] at hchild
      obtain ⟨⟨role, _⟩, hslot, rfl⟩ := hchild
      obtain ⟨frame, -, rfl, hslots⟩ := exists_frame_of_slots hslot
      obtain ⟨frames, rfl, hframes⟩ := ih hc
      refine ⟨frame :: frames, rfl, ?_⟩
      intro m
      have hi := (List.getElem?_eq_some_iff.mp hslot).1
      -- Not by `simp`: the right side of `hslots` is again the slots of a filled frame.
      rw [List.foldr_cons, descendant?, children, hslots]
      simp [hi, hframes]

end Node

/-- A list of statements in which one slot is left open. -/
structure OpenSlot where
  before : List Node
  /-- The nodes around the one that has the slot, the outermost first. -/
  outer : List Node.Frame
  /-- The node that has the slot. -/
  frame : Node.Frame
  after : List Node

namespace OpenSlot

def fill (slot : OpenSlot) (n : Node) : List Node :=
  slot.before ++ slot.outer.foldr Node.Frame.fill (slot.frame.fill n) :: slot.after

/-- The open slot is that of number `i` of the node at the given address, where it held `c`. -/
structure Opens
    (slot : OpenSlot) (statements : List Node) (address : List Nat) (i : Nat) (c : Node) :
    Prop where
  fill_eq : slot.fill c = statements
  nodeAt?_fill : ∀ m, nodeAt? (slot.fill m) address = some (slot.frame.fill m)
  slots_fill : ∀ m,
    (slot.frame.fill m).slots = (slot.frame.fill c).slots.set i (slot.frame.role, m)

/-- Every slot of every node can be left open. -/
theorem exists_opens
    {statements : List Node} {address : List Nat} {parent c : Node} {role : Role} {i : Nat}
    (hparent : nodeAt? statements address = some parent)
    (hslot : parent.slots[i]? = some (role, c)) :
    ∃ slot : OpenSlot, slot.Opens statements address i c := by
  obtain ⟨frame, rfl, rfl, hslots⟩ := Node.exists_frame_of_slots hslot
  cases address with
  | nil => exact absurd hparent (by simp [nodeAt?])
  | cons j address =>
      obtain ⟨n, hn, hparent⟩ := Option.bind_eq_some_iff.mp hparent
      obtain ⟨outer, rfl, houter⟩ := Node.exists_frames_of_descendant? hparent
      obtain ⟨hj, hget⟩ := List.getElem?_eq_some_iff.mp hn
      refine ⟨⟨statements.take j, outer, frame, statements.drop (j + 1)⟩, ?_, ?_, hslots⟩
      · rw [fill, ← hget, List.getElem_cons_drop, List.take_append_drop]
      · intro m
        have hlength : (statements.take j).length = j := List.length_take_of_le (Nat.le_of_lt hj)
        simp [nodeAt?, fill, hlength, houter]

variable {slot : OpenSlot} {statements : List Node} {address : List Nat} {i : Nat} {c : Node}

theorem Opens.frame_fill_eq
    {parent : Node} (h : slot.Opens statements address i c)
    (hparent : nodeAt? statements address = some parent) :
    slot.frame.fill c = parent := by
  have hfill := h.nodeAt?_fill c
  rw [h.fill_eq, hparent] at hfill
  exact (Option.some.inj hfill).symm

theorem Opens.frame_role_eq
    {role : Role} (h : slot.Opens statements address i c)
    (hslot : (slot.frame.fill c).slots[i]? = some (role, c)) : slot.frame.role = role := by
  have hi := (List.getElem?_eq_some_iff.mp hslot).1
  rw [h.slots_fill c, List.getElem?_set_self hi] at hslot
  exact congrArg Prod.fst (Option.some.inj hslot)

end OpenSlot

end StatementTable
