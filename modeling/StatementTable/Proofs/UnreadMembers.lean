import StatementTable.Proofs.Schema

/-!
# Members that are not read

The place of an object in a document decides which of its members are read.  In a node these are
its type, its place and the fields of the kind that its type selects, so that in an unsupported
node only type and place are read.  All other members may be added, removed and changed, in any
number of objects and at any depth: the document still decodes to the same program, or is refused
for the same reason.
-/

namespace StatementTable

open Json (Value Members)

/-- What a value in a document stands for. -/
inductive Place where
  | program
  | node
  | nodes
  | declarator
  | declarators
  | location
  | position
  | scalar
deriving DecidableEq, Repr

/-- The place of what a field holds. -/
def Shape.place : Shape → Place
  | .node | .optionalNode => .node
  | .nodes => .nodes
  | .declarators => .declarators
  | .text | .flag => .scalar

namespace Place

/-- Whether an object is expected, or accepted, in a place. -/
def isObject : Place → Bool
  | .program | .node | .declarator | .location | .position => true
  | .nodes | .declarators | .scalar => false

/-- The member under a key is read from an object, and what it stands for. -/
inductive Reads (members : Members) : Place → String → Place → Prop where
  | body : Reads members .program "body" .nodes
  | type : Reads members .node "type" .scalar
  | loc : Reads members .node "loc" .location
  | field {kind : Kind} {key : String} {shape : Shape} (hkind : members.Selects kind)
      (hfield : (key, shape) ∈ kind.fields) : Reads members .node key shape.place
  | id : Reads members .declarator "id" .node
  | init : Reads members .declarator "init" .node
  | start : Reads members .location "start" .position
  | line : Reads members .position "line" .scalar
  | column : Reads members .position "column" .scalar

/-- The place of an item of an array. -/
def item : Place → Nat → Place
  | .program, _ | .nodes, _ => .node
  | .declarators, _ => .declarator
  | .declarator, 0 | .declarator, 1 => .node
  | .location, 0 => .position
  | _, _ => .scalar

mutual

/-- Two values in the same place differ in members that are not read and in nothing else. -/
inductive Alike : Place → Value → Value → Prop where
  | refl (place : Place) (v : Value) : Alike place v v
  | object {place : Place} {members members' : Members} (hplace : place.isObject = true)
      (hread : ∀ key content, place.Reads members key content →
        FieldAlike content (members.get? key) (members'.get? key)) :
      Alike place (.object members) (.object members')
  | array {place : Place} {items items' : List Value} (hplace : place ≠ .scalar)
      (hitems : ItemsAlike place.item items items') : Alike place (.array items) (.array items')

/-- What two objects hold under a key is alike: it is absent from both or present in both. -/
inductive FieldAlike : Place → Option Value → Option Value → Prop where
  | absent (content : Place) : FieldAlike content none none
  | present {content : Place} {v v' : Value} (h : Alike content v v') :
      FieldAlike content (some v) (some v')

/-- The items of two arrays are alike one by one, given the place of each item. -/
inductive ItemsAlike : (Nat → Place) → List Value → List Value → Prop where
  | nil (item : Nat → Place) : ItemsAlike item [] []
  | cons {item : Nat → Place} {v v' : Value} {rest rest' : List Value}
      (hfirst : Alike (item 0) v v') (hrest : ItemsAlike (fun i => item (i + 1)) rest rest') :
      ItemsAlike item (v :: rest) (v' :: rest')

end

theorem Alike.eq_of_scalar {v v' : Value} (h : Place.scalar.Alike v v') : v = v' := by
  cases h with
  | refl => rfl
  | object hplace => cases hplace
  | array hplace => exact absurd rfl hplace

theorem FieldAlike.eq_of_scalar {o o' : Option Value} (h : FieldAlike .scalar o o') : o = o' := by
  cases h with
  | absent => rfl
  | present h => rw [h.eq_of_scalar]

theorem ItemsAlike.eq_of_scalar
    {items items' : List Value} (h : ItemsAlike (fun _ => .scalar) items items') :
    items = items' := by
  induction items generalizing items' with
  | nil =>
      cases h
      rfl
  | cons v rest ih =>
      cases h with
      | cons hfirst hrest => rw [hfirst.eq_of_scalar, ih hrest]

end Place

/-! ## Decoding alike values -/

namespace Decode

open Place (Alike FieldAlike ItemsAlike)

theorem member_eq_of_alike
    {α : Type} {read : Value → Decoded α} {content : Place} {key : String}
    {members members' : Members}
    (h : FieldAlike content (members.get? key) (members'.get? key))
    (hread : ∀ v v', members.get? key = some v → content.Alike v v' → read v = read v') :
    member members key read = member members' key read := by
  rw [member, member]
  generalize members'.get? key = o' at h
  cases hv : members.get? key with
  | none =>
      rw [hv] at h
      cases h
      rfl
  | some v =>
      rw [hv] at h
      cases h with
      | present h => exact congrArg (Except.map some) (hread v _ hv h)

theorem position_eq_of_alike
    (enclosure : Enclosure) {v v' : Value} (h : Place.position.Alike v v') :
    position enclosure v = position enclosure v' := by
  cases h with
  | refl => rfl
  | object _ hread =>
      have hcolumn := (hread "column" _ .column).eq_of_scalar
      have hline := (hread "line" _ .line).eq_of_scalar
      simp only [position, member, hcolumn, hline]
  | array _ hitems => rw [ItemsAlike.eq_of_scalar hitems]

theorem location_eq_of_alike
    (enclosure : Enclosure) {v v' : Value} (h : Place.location.Alike v v') :
    location enclosure v = location enclosure v' := by
  cases h with
  | refl => rfl
  | object _ hread =>
      have hstart := member_eq_of_alike (hread "start" _ .start) fun _ _ _ =>
        position_eq_of_alike enclosure
      simp only [location, hstart]
  | array _ hitems =>
      cases hitems with
      | nil => rfl
      | cons hfirst hrest =>
          rw [ItemsAlike.eq_of_scalar hrest]
          simp only [location, position_eq_of_alike enclosure hfirst]

theorem start_eq_of_alike
    (enclosure : Enclosure) {members members' : Members}
    (h : FieldAlike .location (members.get? "loc") (members'.get? "loc")) :
    start enclosure members = start enclosure members' := by
  rw [start, start, member_eq_of_alike h fun _ _ _ => location_eq_of_alike enclosure]

/-- Below a given size alike nodes decode alike. -/
def AlikeBelow (v : Value) : Prop :=
  ∀ w w' : Value, sizeOf w < sizeOf v → Place.node.Alike w w' →
    ∀ enclosure, node enclosure w = node enclosure w'

theorem AlikeBelow.mono {v w : Value} (h : AlikeBelow v) (hlt : sizeOf w < sizeOf v) :
    AlikeBelow w :=
  fun u u' hu => h u u' (Nat.lt_trans hu hlt)

theorem mapM_eq_of_alike
    {α : Type} {read : Value → Decoded α} {place : Place} {items items' : List Value}
    (hread : ∀ w ∈ items, ∀ w', place.Alike w w' → read w = read w')
    (h : ItemsAlike (fun _ => place) items items') : items.mapM read = items'.mapM read := by
  induction items generalizing items' with
  | nil =>
      cases h
      rfl
  | cons v rest ih =>
      cases h with
      | cons hfirst hrest =>
          have hv := hread v List.mem_cons_self _ hfirst
          have hrest := ih (fun w hw => hread w (List.mem_cons_of_mem v hw)) hrest
          rw [List.mapM_cons, List.mapM_cons, hv, hrest]

theorem optionalNode_eq_of_alike
    {v v' : Value} (hnode : node .inner v = node .inner v') (h : Place.node.Alike v v') :
    optionalNode v = optionalNode v' := by
  cases h with
  | refl => rfl
  | object => simp only [optionalNode, hnode]
  | array => simp only [optionalNode, hnode]

section Members

variable {members members' : Members} (hbelow : AlikeBelow (.object members)) {key : String}
  (h : FieldAlike .node (members.get? key) (members'.get? key))
include hbelow h

theorem agrees_node_of_alike :
    (fieldReader members).Agrees (fieldReader members') key .node :=
  member_eq_of_alike h fun w w' hw hw' =>
    hbelow w w' (Value.sizeOf_lt_of_get?_eq_some hw) hw' .inner

theorem agrees_optionalNode_of_alike :
    (fieldReader members).Agrees (fieldReader members') key .optionalNode := by
  have hmember : member members key optionalNode = member members' key optionalNode :=
    member_eq_of_alike h fun w w' hw hw' => optionalNode_eq_of_alike
      (hbelow w w' (Value.sizeOf_lt_of_get?_eq_some hw) hw' .inner) hw'
  simp only [FieldReader.Agrees, fieldReader, hmember]

end Members

section Below

variable {v v' : Value} (hbelow : AlikeBelow v)
include hbelow

theorem nodes_eq_of_alike (enclosure : Enclosure) (h : Place.nodes.Alike v v') :
    nodes enclosure v = nodes enclosure v' := by
  cases h with
  | refl => rfl
  | object hplace => cases hplace
  | array _ hitems =>
      rw [nodes, nodes, nodeList_eq_mapM, nodeList_eq_mapM]
      exact mapM_eq_of_alike
        (fun w hw w' hw' => hbelow w w' (Value.sizeOf_lt_of_mem_array hw) hw' enclosure) hitems

theorem declarator_eq_of_alike (h : Place.declarator.Alike v v') :
    declarator v = declarator v' := by
  cases h with
  | refl => rfl
  | object _ hread =>
      have hid := agrees_node_of_alike hbelow (hread "id" _ .id)
      have hinit := agrees_optionalNode_of_alike hbelow (hread "init" _ .init)
      simp only [FieldReader.Agrees] at hid hinit
      rw [declarator_object, declarator_object, hid, hinit]
  | array _ hitems =>
      cases hitems with
      | nil => rfl
      | cons hid hrest =>
          have hid := hbelow _ _ (Value.sizeOf_lt_of_mem_array List.mem_cons_self) hid .inner
          cases hrest with
          | nil => simp only [declarator, hid]
          | cons hinit hrest =>
              have hnode := hbelow _ _ (Value.sizeOf_lt_of_mem_array
                (List.mem_cons_of_mem _ List.mem_cons_self)) hinit .inner
              rw [ItemsAlike.eq_of_scalar hrest]
              simp only [declarator, hid, optionalNode_eq_of_alike hnode hinit]

theorem declarators_eq_of_alike (h : Place.declarators.Alike v v') :
    declarators v = declarators v' := by
  cases h with
  | refl => rfl
  | object hplace => cases hplace
  | array _ hitems =>
      rw [declarators, declarators, declaratorList_eq_mapM, declaratorList_eq_mapM]
      exact mapM_eq_of_alike
        (fun w hw w' => declarator_eq_of_alike (hbelow.mono (Value.sizeOf_lt_of_mem_array hw)))
        hitems

end Below

/-- Alike objects are read alike in a field. -/
theorem agrees_of_alike
    {members members' : Members} (hbelow : AlikeBelow (.object members)) {key : String}
    {shape : Shape} (h : FieldAlike shape.place (members.get? key) (members'.get? key)) :
    (fieldReader members).Agrees (fieldReader members') key shape := by
  have hcontent : ∀ {w}, members.get? key = some w → AlikeBelow w :=
    fun hw => hbelow.mono (Value.sizeOf_lt_of_get?_eq_some hw)
  cases shape with
  | node => exact agrees_node_of_alike hbelow h
  | optionalNode => exact agrees_optionalNode_of_alike hbelow h
  | nodes => exact member_eq_of_alike h fun _ _ hw => nodes_eq_of_alike (hcontent hw) .inner
  | declarators =>
      exact member_eq_of_alike h fun _ _ hw => declarators_eq_of_alike (hcontent hw)
  | text | flag => exact member_eq_of_alike h fun _ _ _ hw => by rw [hw.eq_of_scalar]

/-- Alike nodes decode alike. -/
theorem node_eq_of_alike {v v' : Value} (h : Place.node.Alike v v') (enclosure : Enclosure) :
    node enclosure v = node enclosure v' := by
  have hbelow : AlikeBelow v := fun w w' _ h enclosure => node_eq_of_alike h enclosure
  cases h with
  | refl => rfl
  | @object _ members members' _ hread =>
      have hstart := start_eq_of_alike enclosure (hread "loc" _ .loc)
      have hkind : kind members = kind members' := by
        simp only [kind, member, (hread "type" _ .type).eq_of_scalar]
      rw [node_object, node_object, hstart, ← hkind]
      cases hselected : kind members with
      | error e => rfl
      | ok k =>
          have hfields : ∀ field ∈ k.fields,
              (fieldReader members).Agrees (fieldReader members') field.1 field.2 :=
            fun field hfield => agrees_of_alike hbelow
              (hread field.1 _ (.field (kind_eq_ok_iff.mp hselected) hfield))
          simp only [ok_bind, assemble_congr hfields]
  | array _ hitems => rw [ItemsAlike.eq_of_scalar hitems]
termination_by sizeOf v

theorem program_eq_of_alike
    {members members' : Members}
    (h : FieldAlike .nodes (members.get? "body") (members'.get? "body")) :
    program (.object members) = program (.object members') := by
  have hbody : member members "body" (nodes .outer) = member members' "body" (nodes .outer) :=
    member_eq_of_alike h fun _ _ _ => nodes_eq_of_alike
      (fun _ _ _ h enclosure => node_eq_of_alike h enclosure) .outer
  rw [program, program, hbody]

end Decode

/-- Members that are not read have no influence on decoding: documents that differ in nothing
else decode to the same program or are refused for the same reason. -/
theorem ofValue_eq_of_alike {v v' : Value} (h : Place.program.Alike v v') :
    Program.ofValue v = Program.ofValue v' := by
  cases h with
  | refl => rfl
  | object _ hread =>
      have hprogram := Decode.program_eq_of_alike (hread "body" _ .body)
      simp only [Program.ofValue, hprogram]
  | array _ hitems =>
      have hlist := Decode.mapM_eq_of_alike
        (fun _ _ _ h => Decode.node_eq_of_alike h .outer) hitems
      simp only [Program.ofValue, Decode.nodeList_eq_mapM, hlist]

namespace Place

theorem FieldAlike.refl (content : Place) (o : Option Value) : FieldAlike content o o := by
  cases o with
  | none => exact .absent content
  | some v => exact .present (.refl content v)

/-- Objects that hold the same under every key that is read are alike. -/
theorem Alike.of_get?_eq
    {place : Place} {members members' : Members} (hplace : place.isObject = true)
    (h : ∀ key content, place.Reads members key content →
      members.get? key = members'.get? key) :
    place.Alike (.object members) (.object members') := by
  refine .object hplace fun key content hread => ?_
  rw [← h key content hread]
  exact .refl content _

/-- Nodes of the same type are alike if their places and the fields of their kind are. -/
theorem Alike.node
    {members members' : Members} {kind : Kind} (hkind : members.Selects kind)
    (htype : members.get? "type" = members'.get? "type")
    (hloc : FieldAlike .location (members.get? "loc") (members'.get? "loc"))
    (hfields : ∀ field ∈ kind.fields,
      FieldAlike field.2.place (members.get? field.1) (members'.get? field.1)) :
    Place.node.Alike (.object members) (.object members') := by
  refine .object rfl fun key content hread => ?_
  cases hread with
  | type =>
      rw [← htype]
      exact .refl _ _
  | loc => exact hloc
  | field hkind' hfield =>
      obtain rfl := hkind.unique hkind'
      exact hfields _ hfield

end Place

/-- The declaration of `x` on line 4 and a call, without members that are not read. -/
def bareDeclaration : Value :=
  .object
    [("body", .array
      [.object
        [("declarations", .array
          [.object
            [("id", .object [("name", .string "x"), ("type", .string "Identifier")])]]),
         ("loc", .object [("start", .object [("line", .ofUInt64 4)])]),
         ("type", .string "VariableDeclaration")],
       .object [("type", .string "CallExpression")]])]

/-- The same with further members in every object. -/
def annotatedDeclaration : Value :=
  .object
    [("body", .array
      [.object
        [("declarations", .array
          [.object
            [("id", .object
              [("name", .string "x"), ("range", .array []), ("type", .string "Identifier")]),
             ("type", .string "VariableDeclarator")]]),
         ("kind", .string "let"),
         ("loc", .object
          [("end", .null), ("start", .object [("line", .ofUInt64 4), ("offset", .null)])]),
         ("type", .string "VariableDeclaration")],
       .object
        [("arguments", .array [.null]), ("expression", .bool true),
         ("type", .string "CallExpression")]]),
     ("sourceType", .string "script")]

theorem ofValue_eq_of_alike_annotatedDeclaration :
    Place.program.Alike bareDeclaration annotatedDeclaration ∧
      Program.ofValue bareDeclaration = Program.ofValue annotatedDeclaration := by
  have hother : ∀ kind ∈ Kind.recognised, kind.name ≠ "CallExpression" := by decide
  have halike : Place.program.Alike bareDeclaration annotatedDeclaration := by
    refine .object rfl fun key content hread => ?_
    cases hread
    refine .present (.array (by decide) (.cons ?_ (.cons ?_ (.nil _))))
    · refine .node ⟨_, rfl, @Kind.SelectedBy.name .variableDeclaration (by decide)⟩ rfl
        (.present ?_) ?_
      · refine .object rfl fun key content hread => ?_
        cases hread
        refine .present (.of_get?_eq rfl fun key content hread => ?_)
        cases hread <;> rfl
      · rw [Kind.fields, List.forall_mem_singleton]
        refine .present (.array (by decide) (.cons ?_ (.nil _)))
        refine .object rfl fun key content hread => ?_
        cases hread with
        | id =>
            refine .present (.node ⟨_, rfl, @Kind.SelectedBy.name .identifier (by decide)⟩ rfl
              (.absent _) ?_)
            rw [Kind.fields, List.forall_mem_singleton]
            exact .refl _ _
        | init => exact .absent _
    · exact .node ⟨_, rfl, .otherName hother⟩ rfl (.absent _)
        fun _ hfield => absurd hfield List.not_mem_nil
  exact ⟨halike, ofValue_eq_of_alike halike⟩

end StatementTable
