import StatementTable.Proofs.Schema

/-!
# Which values are programs

A node is an object whose place is left out or well formed, whose type selects a kind and whose
fields hold what the kind expects in them.  A program is an array of nodes or an object that has
such an array as its body.  Exactly these values decode.

The definitions say nothing about the order in which a decoder looks at the members, and a node of
an unsupported kind may hold anything because its kind has no fields.
-/

namespace StatementTable

open Json (Value Members)

namespace Json.Value

/-- A natural number below `2 ^ 64`. -/
def IsNatural (v : Value) : Prop :=
  ∃ n : UInt64, v = .ofUInt64 n

/-- A position: line and column, in an object or an array.  Either member may be left out, and so
may items at the end. -/
def IsPosition : Value → Prop
  | .object members =>
    (∀ v ∈ Members.get? members "line", v.IsNatural) ∧
      ∀ v ∈ Members.get? members "column", v.IsNatural
  | .array items => items.length ≤ 2 ∧ ∀ v ∈ items, v.IsNatural
  | _ => False

/-- A location: the position where a node starts, in an object or an array.  It may be left
out. -/
def IsLocation : Value → Prop
  | .object members => ∀ v ∈ Members.get? members "start", v.IsPosition
  | .array items => items.length ≤ 1 ∧ ∀ v ∈ items, v.IsPosition
  | _ => False

end Json.Value

mutual

inductive Json.Value.IsNode : Value → Prop where
  | object {members : Members} {kind : Kind} (hloc : ∀ v ∈ members.get? "loc", v.IsLocation)
      (hkind : members.Selects kind)
      (hfields : ∀ field ∈ kind.fields, field.2.Admits (members.get? field.1)) :
      Json.Value.IsNode (.object members)

/-- A field may hold a value, or be left out. -/
inductive Shape.Admits : Shape → Option Value → Prop where
  | node {v : Value} (h : v.IsNode) : Shape.node.Admits (some v)
  | absent : Shape.optionalNode.Admits none
  | null : Shape.optionalNode.Admits (some .null)
  | present {v : Value} (h : v.IsNode) : Shape.optionalNode.Admits (some v)
  | nodes {items : List Value} (h : ∀ v ∈ items, v.IsNode) :
      Shape.nodes.Admits (some (.array items))
  | declarators {items : List Value} (h : ∀ v ∈ items, v.IsDeclarator) :
      Shape.declarators.Admits (some (.array items))
  | text (s : String) : Shape.text.Admits (some (.string s))
  | flag (b : Bool) : Shape.flag.Admits (some (.bool b))

/-- A value is a declarator: an object with a name and perhaps an initial value, or an array of
both. -/
inductive Json.Value.IsDeclarator : Value → Prop where
  | object {members : Members} (hid : Shape.node.Admits (members.get? "id"))
      (hinit : Shape.optionalNode.Admits (members.get? "init")) :
      Json.Value.IsDeclarator (.object members)
  | array {id init : Value} (hid : id.IsNode) (hinit : Shape.optionalNode.Admits (some init)) :
      Json.Value.IsDeclarator (.array [id, init])

end

namespace Json.Value

/-- The statements of a document: the items of an array, or of the body of an object. -/
inductive HasStatements : Value → List Value → Prop where
  | array (items : List Value) : HasStatements (.array items) items
  | object {members : Members} {items : List Value}
      (hbody : members.get? "body" = some (.array items)) : HasStatements (.object members) items

def IsProgram (v : Value) : Prop :=
  ∃ items, v.HasStatements items ∧ ∀ w ∈ items, w.IsNode

end Json.Value

/-! ## The definitions, case by case -/

namespace Shape

variable {v : Value}

theorem admits_none_iff {shape : Shape} : shape.Admits none ↔ shape = .optionalNode := by
  constructor
  · intro h
    cases h
    rfl
  · rintro rfl
    exact .absent

theorem admits_node_iff : Shape.node.Admits (some v) ↔ v.IsNode := by
  constructor
  · intro h
    cases h with
    | node h => exact h
  · exact .node

theorem admits_optionalNode_iff :
    Shape.optionalNode.Admits (some v) ↔ v = .null ∨ v.IsNode := by
  constructor
  · intro h
    cases h with
    | null => exact Or.inl rfl
    | present h => exact Or.inr h
  · rintro (rfl | h)
    · exact .null
    · exact .present h

theorem admits_nodes_iff :
    Shape.nodes.Admits (some v) ↔ ∃ items, v = .array items ∧ ∀ w ∈ items, w.IsNode := by
  constructor
  · intro h
    cases h with
    | nodes h => exact ⟨_, rfl, h⟩
  · rintro ⟨items, rfl, h⟩
    exact .nodes h

theorem admits_declarators_iff :
    Shape.declarators.Admits (some v) ↔
      ∃ items, v = .array items ∧ ∀ w ∈ items, w.IsDeclarator := by
  constructor
  · intro h
    cases h with
    | declarators h => exact ⟨_, rfl, h⟩
  · rintro ⟨items, rfl, h⟩
    exact .declarators h

theorem admits_text_iff : Shape.text.Admits (some v) ↔ ∃ s, v = .string s := by
  constructor
  · intro h
    cases h with
    | text s => exact ⟨s, rfl⟩
  · rintro ⟨s, rfl⟩
    exact .text s

theorem admits_flag_iff : Shape.flag.Admits (some v) ↔ ∃ b, v = .bool b := by
  constructor
  · intro h
    cases h with
    | flag b => exact ⟨b, rfl⟩
  · rintro ⟨b, rfl⟩
    exact .flag b

end Shape

namespace Json.Value

theorem isDeclarator_object_iff {members : Members} :
    (Value.object members).IsDeclarator ↔
      Shape.node.Admits (members.get? "id") ∧
        Shape.optionalNode.Admits (members.get? "init") := by
  constructor
  · intro h
    cases h with
    | object hid hinit => exact ⟨hid, hinit⟩
  · rintro ⟨hid, hinit⟩
    exact .object hid hinit

theorem isDeclarator_array_iff {items : List Value} :
    (Value.array items).IsDeclarator ↔
      ∃ id init, items = [id, init] ∧ id.IsNode ∧ Shape.optionalNode.Admits (some init) := by
  constructor
  · intro h
    cases h with
    | array hid hinit => exact ⟨_, _, rfl, hid, hinit⟩
  · rintro ⟨id, init, rfl, hid, hinit⟩
    exact .array hid hinit

theorem isNode_object_iff {members : Members} :
    (Value.object members).IsNode ↔
      (∀ v ∈ members.get? "loc", v.IsLocation) ∧
        ∃ kind, members.Selects kind ∧
          ∀ field ∈ kind.fields, field.2.Admits (members.get? field.1) := by
  constructor
  · intro h
    cases h with
    | object hloc hkind hfields => exact ⟨hloc, _, hkind, hfields⟩
  · rintro ⟨hloc, kind, hkind, hfields⟩
    exact .object hloc hkind hfields

theorem isProgram_array_iff {items : List Value} :
    (Value.array items).IsProgram ↔ ∀ w ∈ items, w.IsNode := by
  constructor
  · rintro ⟨_, hitems, hnodes⟩
    cases hitems with
    | array => exact hnodes
  · intro hnodes
    exact ⟨items, .array items, hnodes⟩

theorem isProgram_object_iff {members : Members} :
    (Value.object members).IsProgram ↔ Shape.nodes.Admits (members.get? "body") := by
  constructor
  · rintro ⟨_, hitems, hnodes⟩
    cases hitems with
    | object hbody => exact hbody ▸ .nodes hnodes
  · intro hbody
    generalize hv : members.get? "body" = v at hbody
    cases hbody with
    | nodes hnodes => exact ⟨_, .object hv, hnodes⟩

end Json.Value

/-! ## What decodes -/

namespace Decode

theorem exists_member_eq_ok_iff
    {α : Type} {members : Members} {key : String} {read : Value → Decoded α} :
    (∃ o, member members key read = .ok o) ↔
      ∀ v ∈ members.get? key, ∃ a, read v = .ok a := by
  simp only [member_eq_ok_iff]
  cases members.get? key with
  | none => simp
  | some v => simp

theorem noMore_eq_ok_iff {enclosure : Enclosure} {fields : Nat} {rest : List Value} {u : Unit} :
    noMore enclosure fields rest = .ok u ↔ rest = [] := by
  cases rest <;> simp [noMore]

theorem exists_natural_eq_ok_iff {v : Value} : (∃ n, natural v = .ok n) ↔ v.IsNatural := by
  cases v with
  | number n => cases n <;> simp [natural, Value.IsNatural, Value.ofUInt64]
  | _ => simp [natural, Value.IsNatural, Value.ofUInt64]

theorem exists_position_eq_ok_iff (enclosure : Enclosure) {v : Value} :
    (∃ p, position enclosure v = .ok p) ↔ v.IsPosition := by
  cases v with
  | object members =>
      simp only [position, Value.IsPosition, ← exists_natural_eq_ok_iff,
        ← exists_member_eq_ok_iff, exists_bind_eq_ok_iff, pure_eq_ok]
      grind
  | array items =>
      rcases items with - | ⟨line, - | ⟨column, - | ⟨extra, rest⟩⟩⟩
      · simp [position, Value.IsPosition]
      · simp [position, Value.IsPosition, exists_bind_eq_ok_iff, exists_natural_eq_ok_iff]
      · simp [position, Value.IsPosition, exists_bind_eq_ok_iff, exists_natural_eq_ok_iff,
          noMore_eq_ok_iff]
      · simp [position, Value.IsPosition, exists_bind_eq_ok_iff, noMore_eq_ok_iff]
  | _ => simp [position, Value.IsPosition]

theorem exists_location_eq_ok_iff (enclosure : Enclosure) {v : Value} :
    (∃ p, location enclosure v = .ok p) ↔ v.IsLocation := by
  cases v with
  | object members =>
      simp only [location, Value.IsLocation, ← exists_position_eq_ok_iff enclosure,
        ← exists_member_eq_ok_iff, exists_bind_eq_ok_iff, pure_eq_ok]
      grind
  | array items =>
      rcases items with - | ⟨start, - | ⟨extra, rest⟩⟩
      · simp [location, Value.IsLocation]
      · simp [location, Value.IsLocation, exists_bind_eq_ok_iff, exists_position_eq_ok_iff,
          noMore_eq_ok_iff]
      · simp [location, Value.IsLocation, exists_bind_eq_ok_iff, noMore_eq_ok_iff]
  | _ => simp [location, Value.IsLocation]

theorem exists_start_eq_ok_iff (enclosure : Enclosure) {members : Members} :
    (∃ p, start enclosure members = .ok p) ↔ ∀ v ∈ members.get? "loc", v.IsLocation := by
  simp only [start, ← exists_location_eq_ok_iff enclosure, ← exists_member_eq_ok_iff,
    exists_bind_eq_ok_iff, pure_eq_ok]
  grind

theorem exists_mapM_eq_ok_iff
    {α : Type} {read : Value → Decoded α} {items : List Value} :
    (∃ as, items.mapM read = .ok as) ↔ ∀ v ∈ items, ∃ a, read v = .ok a := by
  induction items with
  | nil => simp
  | cons v items ih =>
      rw [List.mapM_cons, List.forall_mem_cons, ← ih]
      simp [exists_bind_eq_ok_iff]

theorem exists_optionalNode_eq_ok_iff {v : Value} :
    (∃ o, optionalNode v = .ok o) ↔ v = .null ∨ ∃ n, node .inner v = .ok n := by
  cases v with
  | null => simp [optionalNode]
  | _ => simp [optionalNode, map_eq_ok_iff]

/-- Among the values smaller than a given one, the nodes are those that decode. -/
def DecodesBelow (v : Value) : Prop :=
  ∀ w : Value, sizeOf w < sizeOf v → ∀ enclosure, (∃ n, node enclosure w = .ok n) ↔ w.IsNode

theorem DecodesBelow.mono {v w : Value} (h : DecodesBelow v) (hlt : sizeOf w < sizeOf v) :
    DecodesBelow w :=
  fun u hu => h u (Nat.lt_trans hu hlt)

theorem exists_nodes_eq_ok_iff
    (enclosure : Enclosure) {v : Value} (hbelow : DecodesBelow v) :
    (∃ ns, nodes enclosure v = .ok ns) ↔ Shape.nodes.Admits (some v) := by
  rw [Shape.admits_nodes_iff]
  cases v with
  | array items =>
      simp only [nodes, nodeList_eq_mapM, exists_mapM_eq_ok_iff, Value.array.injEq,
        exists_eq_left']
      exact forall₂_congr fun w hw => hbelow w (Value.sizeOf_lt_of_mem_array hw) enclosure
  | _ => simp [nodes]

section Fields

variable {members : Members} (hbelow : DecodesBelow (.object members)) (key : String)
include hbelow

theorem reads_node_iff_admits :
    (fieldReader members).Reads key .node ↔ Shape.node.Admits (members.get? key) := by
  cases hv : members.get? key with
  | none => simp [FieldReader.Reads, fieldReader, member, hv, Shape.admits_none_iff]
  | some v =>
      simp [FieldReader.Reads, fieldReader, member, hv, map_eq_ok_iff, Shape.admits_node_iff,
        hbelow v (Value.sizeOf_lt_of_get?_eq_some hv)]

theorem reads_optionalNode_iff_admits :
    (fieldReader members).Reads key .optionalNode ↔
      Shape.optionalNode.Admits (members.get? key) := by
  cases hv : members.get? key with
  | none => simp [FieldReader.Reads, fieldReader, member, hv, Shape.admits_none_iff]
  | some v =>
      simp [FieldReader.Reads, fieldReader, member, hv, map_eq_ok_iff, exists_bind_eq_ok_iff,
        exists_optionalNode_eq_ok_iff, Shape.admits_optionalNode_iff,
        hbelow v (Value.sizeOf_lt_of_get?_eq_some hv)]

end Fields

theorem exists_declarator_eq_ok_iff {v : Value} (hbelow : DecodesBelow v) :
    (∃ d, declarator v = .ok d) ↔ v.IsDeclarator := by
  cases v with
  | object members =>
      rw [Value.isDeclarator_object_iff, ← reads_node_iff_admits hbelow,
        ← reads_optionalNode_iff_admits hbelow, declarator_object]
      simp only [FieldReader.Reads, exists_bind_eq_ok_iff, require_eq_ok_iff, pure_eq_ok]
      grind
  | array items =>
      rw [Value.isDeclarator_array_iff]
      rcases items with - | ⟨id, - | ⟨init, - | ⟨extra, rest⟩⟩⟩
      · simp [declarator]
      · simp [declarator, exists_bind_eq_ok_iff]
      · have hid := hbelow id (Value.sizeOf_lt_of_mem_array List.mem_cons_self) .inner
        have hinit := hbelow init
          (Value.sizeOf_lt_of_mem_array (List.mem_cons_of_mem id List.mem_cons_self)) .inner
        simp [declarator, exists_bind_eq_ok_iff, noMore_eq_ok_iff, hid, hinit,
          exists_optionalNode_eq_ok_iff, Shape.admits_optionalNode_iff]
      · simp [declarator, exists_bind_eq_ok_iff, noMore_eq_ok_iff]
  | _ =>
      refine iff_of_false (by simp [declarator]) ?_
      intro h
      cases h

theorem exists_declarators_eq_ok_iff {v : Value} (hbelow : DecodesBelow v) :
    (∃ ds, declarators v = .ok ds) ↔ Shape.declarators.Admits (some v) := by
  rw [Shape.admits_declarators_iff]
  cases v with
  | array items =>
      simp only [declarators, declaratorList_eq_mapM, exists_mapM_eq_ok_iff, Value.array.injEq,
        exists_eq_left']
      exact forall₂_congr fun w hw =>
        exists_declarator_eq_ok_iff (hbelow.mono (Value.sizeOf_lt_of_mem_array hw))
  | _ => simp [declarators]

/-- A field is read exactly if its shape admits what it holds. -/
theorem reads_iff_admits
    {members : Members} (hbelow : DecodesBelow (.object members)) (key : String)
    (shape : Shape) :
    (fieldReader members).Reads key shape ↔ shape.Admits (members.get? key) := by
  cases hv : members.get? key with
  | none =>
      cases shape <;>
        simp [FieldReader.Reads, fieldReader, member, hv, Shape.admits_none_iff]
  | some v =>
      have hcontent := hbelow.mono (Value.sizeOf_lt_of_get?_eq_some hv)
      cases shape with
      | node =>
          rw [← hv]
          exact reads_node_iff_admits hbelow key
      | optionalNode =>
          rw [← hv]
          exact reads_optionalNode_iff_admits hbelow key
      | nodes =>
          simp [FieldReader.Reads, fieldReader, member, hv, map_eq_ok_iff,
            exists_nodes_eq_ok_iff .inner hcontent]
      | declarators =>
          simp [FieldReader.Reads, fieldReader, member, hv, map_eq_ok_iff,
            exists_declarators_eq_ok_iff hcontent]
      | text =>
          cases v <;>
            simp [FieldReader.Reads, fieldReader, member, hv, map_eq_ok_iff, text,
              Shape.admits_text_iff]
      | flag =>
          cases v <;>
            simp [FieldReader.Reads, fieldReader, member, hv, map_eq_ok_iff, flag,
              Shape.admits_flag_iff]

/-- A value in the place of a node decodes exactly if it is a node. -/
theorem exists_node_eq_ok_iff (enclosure : Enclosure) (v : Value) :
    (∃ n, node enclosure v = .ok n) ↔ v.IsNode := by
  have hbelow : DecodesBelow v := fun w _ enclosure => exists_node_eq_ok_iff enclosure w
  cases v with
  | object members =>
      simp only [node_object, exists_bind_eq_ok_iff, kind_eq_ok_iff, exists_assemble_eq_ok_iff,
        reads_iff_admits hbelow, Value.isNode_object_iff, ← exists_start_eq_ok_iff enclosure]
      grind
  | _ =>
      refine iff_of_false (by simp [node]) ?_
      intro h
      cases h
termination_by sizeOf v

theorem exists_program_eq_ok_iff {members : Members} :
    (∃ p, program (.object members) = .ok p) ↔ Shape.nodes.Admits (members.get? "body") := by
  simp only [program, exists_bind_eq_ok_iff, require_eq_ok_iff, pure_eq_ok]
  cases hbody : members.get? "body" with
  | none => simp [member, hbody, Shape.admits_none_iff]
  | some v =>
      have hbelow : DecodesBelow v := fun w _ enclosure => exists_node_eq_ok_iff enclosure w
      simp [member, hbody, map_eq_ok_iff, exists_nodes_eq_ok_iff .outer hbelow]

end Decode

/-- A document decodes exactly if it is a program. -/
theorem exists_ofValue_eq_ok_iff {v : Value} :
    (∃ program, Program.ofValue v = .ok program) ↔ v.IsProgram := by
  cases v with
  | array items =>
      have hlist : (∃ ns, Decode.nodeList .outer items = .ok ns) ↔ ∀ w ∈ items, w.IsNode := by
        simp only [Decode.nodeList_eq_mapM, Decode.exists_mapM_eq_ok_iff,
          Decode.exists_node_eq_ok_iff]
      rw [Value.isProgram_array_iff, ← hlist, Program.ofValue]
      cases Decode.nodeList .outer items <;> simp
  | object members =>
      rw [Value.isProgram_object_iff, ← Decode.exists_program_eq_ok_iff]
      simp only [Program.ofValue]
      cases Decode.program (.object members) <;> simp
  | _ =>
      refine iff_of_false (by simp [Program.ofValue, Decode.program]) ?_
      rintro ⟨items, hitems, -⟩
      cases hitems

end StatementTable
