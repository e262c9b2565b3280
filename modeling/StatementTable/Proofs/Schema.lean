import StatementTable.Proofs.Encoding

/-!
# The fields of each kind of node

The type of a node selects a kind, by name or by number, and the kind says which fields the node
has and what is expected in each of them.  When a node is put together these fields are looked at
and no others, so it depends on them alone whether that succeeds and which node comes out.
-/

namespace StatementTable

open Json (Value Members)

/-- What is expected in a field of a node. -/
inductive Shape where
  | node
  | optionalNode
  | nodes
  | declarators
  | text
  | flag
deriving DecidableEq, Repr

namespace Kind

/-- The fields of the nodes of a kind besides the type and the place. -/
def fields : Kind → List (String × Shape)
  | .expressionStatement => [("expression", .node)]
  | .functionDeclaration => [("id", .optionalNode), ("params", .nodes), ("body", .node)]
  | .variableDeclaration => [("declarations", .declarators)]
  | .whileStatement => [("test", .node), ("body", .node)]
  | .ifStatement => [("test", .node), ("consequent", .node), ("alternate", .optionalNode)]
  | .returnStatement => [("argument", .optionalNode)]
  | .binary | .assignment => [("operator", .text), ("left", .node), ("right", .node)]
  | .unary => [("operator", .text), ("argument", .node)]
  | .update => [("operator", .text), ("argument", .node), ("prefix", .flag)]
  | .block => [("body", .nodes)]
  | .member => [("object", .node), ("property", .node)]
  | .forStatement =>
    [("init", .optionalNode), ("test", .optionalNode), ("update", .optionalNode),
      ("body", .node)]
  | .identifier => [("name", .text)]
  | .literal => [("raw", .text)]
  | .unsupported => []

/-- A kind is selected by a value in the place of a type: by the name or by the number of the
kind.  Every name and number of no kind selects the unsupported nodes. -/
inductive SelectedBy : Kind → Value → Prop where
  | name {kind : Kind} (h : kind ∈ recognised) : SelectedBy kind (.string kind.name)
  | number {kind : Kind} {index : UInt64} (h : recognised[index.toNat]? = some kind) :
      SelectedBy kind (.ofUInt64 index)
  | otherName {name : String} (h : ∀ kind ∈ recognised, kind.name ≠ name) :
      SelectedBy .unsupported (.string name)
  | otherNumber {index : UInt64} (h : recognised.length ≤ index.toNat) :
      SelectedBy .unsupported (.ofUInt64 index)

end Kind

namespace Json.Value

theorem sizeOf_lt_of_mem_array {w : Value} {items : List Value} (hw : w ∈ items) :
    sizeOf w < sizeOf (Value.array items) := by
  have hlt := List.sizeOf_lt_of_mem hw
  rw [array.sizeOf_spec]
  omega

theorem sizeOf_lt_of_get?_eq_some
    {members : Members} {key : String} {v : Value} (h : members.get? key = some v) :
    sizeOf v < sizeOf (Value.object members) :=
  sizeOf_lt_of_mem_object (Members.mem_of_get?_eq_some h)

end Json.Value

/-- The members of a node select a kind by their type. -/
def Json.Members.Selects (members : Members) (kind : Kind) : Prop :=
  ∃ tag, members.get? "type" = some tag ∧ kind.SelectedBy tag

namespace Decode

theorem selectedBy_of_tag_eq_ok {v : Value} {k : Kind} (h : tag v = .ok k) :
    k.SelectedBy v := by
  cases v with
  | string name =>
      obtain rfl := Except.ok.inj h
      rw [Kind.ofName]
      cases hfind : Kind.recognised.find? fun kind => kind.name == name with
      | none =>
          refine .otherName fun kind hkind => ?_
          simpa using List.find?_eq_none.mp hfind kind hkind
      | some kind =>
          obtain rfl : kind.name = name := by simpa using List.find?_some hfind
          exact .name (List.mem_of_find?_eq_some hfind)
  | number n =>
      cases n with
      | natural index =>
          obtain rfl := Except.ok.inj h
          rw [Kind.ofIndex]
          cases hindex : Kind.recognised[index.toNat]? with
          | none => exact .otherNumber (List.getElem?_eq_none_iff.mp hindex)
          | some kind => exact .number hindex
      | negSucc | real => simp [tag] at h
  | _ => simp [tag] at h

theorem tag_eq_ok_of_selectedBy {v : Value} {k : Kind} (h : k.SelectedBy v) :
    tag v = .ok k := by
  cases h with
  | name _ => simp [tag, Kind.ofName_eq_of_isTag k.isTag_name]
  | number hindex => simp [tag, Value.ofUInt64, Kind.ofIndex, hindex]
  | otherName hname =>
      have htag : Kind.unsupported.IsTag _ := hname
      simp [tag, Kind.ofName_eq_of_isTag htag]
  | otherNumber hindex =>
      simp [tag, Value.ofUInt64, Kind.ofIndex, List.getElem?_eq_none hindex]

theorem tag_eq_ok_iff {v : Value} {k : Kind} : tag v = .ok k ↔ k.SelectedBy v :=
  ⟨selectedBy_of_tag_eq_ok, tag_eq_ok_of_selectedBy⟩

theorem bind_eq_ok_iff
    {α β : Type} {x : Decoded α} {next : α → Decoded β} {b : β} :
    (x >>= next) = .ok b ↔ ∃ a, x = .ok a ∧ next a = .ok b := by
  cases x with
  | error e => simp [bind, Except.bind]
  | ok a => simp

theorem exists_bind_eq_ok_iff {α β : Type} {x : Decoded α} {next : α → Decoded β} :
    (∃ b, (x >>= next) = .ok b) ↔ ∃ a, x = .ok a ∧ ∃ b, next a = .ok b := by
  simp only [bind_eq_ok_iff]
  exact ⟨fun ⟨b, a, ha, hb⟩ => ⟨a, ha, b, hb⟩, fun ⟨a, ha, b, hb⟩ => ⟨b, a, ha, hb⟩⟩

theorem map_eq_ok_iff {α β : Type} {x : Decoded α} {f : α → β} {b : β} :
    x.map f = .ok b ↔ ∃ a, x = .ok a ∧ f a = b := by
  cases x <;> simp [Except.map]

theorem require_eq_ok_iff {α : Type} {key : String} {o : Option α} {a : α} :
    require key o = .ok a ↔ o = some a := by
  cases o <;> simp [require]

theorem member_eq_ok_iff
    {α : Type} {members : Members} {key : String} {read : Value → Decoded α} {o : Option α} :
    member members key read = .ok o ↔
      (members.get? key = none ∧ none = o) ∨
        ∃ v a, members.get? key = some v ∧ read v = .ok a ∧ some a = o := by
  rw [member]
  cases members.get? key with
  | none => simp
  | some v => simp [map_eq_ok_iff]

theorem nodeList_eq_mapM (enclosure : Enclosure) (items : List Value) :
    nodeList enclosure items = items.mapM (node enclosure) := by
  induction items with
  | nil => simp [nodeList]
  | cons v items ih => simp [nodeList, ih]

theorem declaratorList_eq_mapM (items : List Value) :
    declaratorList items = items.mapM declarator := by
  induction items with
  | nil => simp [declaratorList]
  | cons v items ih => simp [declaratorList, ih]

/-- The kind that is read is the one that the type selects. -/
theorem kind_eq_ok_iff {members : Members} {k : Kind} :
    kind members = .ok k ↔ members.Selects k := by
  simp only [kind, bind_eq_ok_iff, require_eq_ok_iff, member_eq_ok_iff, tag_eq_ok_iff,
    Members.Selects]
  grind

/-! ## Putting a node together -/

namespace FieldReader

/-- A reader comes to a result for a field. -/
def Reads (read : FieldReader) (key : String) : Shape → Prop
  | .node => ∃ n, read.node key = .ok (some n)
  | .optionalNode => ∃ o, read.optionalNode key = .ok o
  | .nodes => ∃ ns, read.nodes key = .ok (some ns)
  | .declarators => ∃ ds, read.declarators key = .ok (some ds)
  | .text => ∃ s, read.text key = .ok (some s)
  | .flag => ∃ b, read.flag key = .ok (some b)

/-- Two readers treat a field alike. -/
def Agrees (read read' : FieldReader) (key : String) : Shape → Prop
  | .node => read.node key = read'.node key
  | .optionalNode => read.optionalNode key = read'.optionalNode key
  | .nodes => read.nodes key = read'.nodes key
  | .declarators => read.declarators key = read'.declarators key
  | .text => read.text key = read'.text key
  | .flag => read.flag key = read'.flag key

end FieldReader

/-- A node can be put together if all fields of its kind can be read. -/
theorem exists_assemble_eq_ok_iff {read : FieldReader} {start : Position} {kind : Kind} :
    (∃ n, assemble read start kind = .ok n) ↔
      ∀ field ∈ kind.fields, read.Reads field.1 field.2 := by
  cases kind <;>
    simp only [assemble, Kind.fields, FieldReader.Reads, List.forall_mem_cons,
      List.not_mem_nil, false_implies, implies_true, and_true, bind_eq_ok_iff,
      require_eq_ok_iff, pure_eq_ok, Except.ok.injEq] <;>
    grind

/-- Of a reader only the fields of the kind count. -/
theorem assemble_congr
    {read read' : FieldReader} {start : Position} {kind : Kind}
    (h : ∀ field ∈ kind.fields, read.Agrees read' field.1 field.2) :
    assemble read start kind = assemble read' start kind := by
  cases kind <;>
    simp only [Kind.fields, FieldReader.Agrees, List.forall_mem_cons] at h <;>
    simp only [assemble, h]

end Decode

theorem Json.Members.Selects.unique
    {members : Members} {kind kind' : Kind} (h : members.Selects kind)
    (h' : members.Selects kind') : kind = kind' :=
  Except.ok.inj ((Decode.kind_eq_ok_iff.mpr h).symm.trans (Decode.kind_eq_ok_iff.mpr h'))

end StatementTable
