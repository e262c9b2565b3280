import StatementTable.Proofs.Slots
import StatementTable.Tree.Program

/-!
# Programs and the values that encode them

A node is encoded by an object with its type, its place and the fields of its kind.  What is
absent is left out or null, an unsupported node may have any type that is not the name of a kind,
and members that are not fields do not matter.  A program is encoded by the array of its
statements or by an object that has the array as its body.  Decoding gives back the program of
which a value is an encoding, and every program has one.
-/

namespace StatementTable

open Json (Value Members)

namespace Node

/-- What a field of a node holds. -/
inductive Field where
  | node (n : Node)
  | optionalNode (o : Option Node)
  | nodes (ns : List Node)
  | declarators (ds : List Declarator)
  | text (s : String)
  | flag (b : Bool)

/-- The fields of a node besides its type and its place. -/
def fields : Node → List (String × Field)
  | .expressionStatement _ expression => [("expression", .node expression)]
  | .functionDeclaration _ id params body =>
    [("id", .optionalNode id), ("params", .nodes params), ("body", .node body)]
  | .variableDeclaration _ declarations => [("declarations", .declarators declarations)]
  | .whileStatement _ test body => [("test", .node test), ("body", .node body)]
  | .ifStatement _ test consequent alternate =>
    [("test", .node test), ("consequent", .node consequent),
      ("alternate", .optionalNode alternate)]
  | .returnStatement _ argument => [("argument", .optionalNode argument)]
  | .binary _ operator left right | .assignment _ operator left right =>
    [("operator", .text operator), ("left", .node left), ("right", .node right)]
  | .unary _ operator argument => [("operator", .text operator), ("argument", .node argument)]
  | .update _ operator argument leading =>
    [("operator", .text operator), ("argument", .node argument), ("prefix", .flag leading)]
  | .block _ body => [("body", .nodes body)]
  | .member _ object property => [("object", .node object), ("property", .node property)]
  | .forStatement _ init test step body =>
    [("init", .optionalNode init), ("test", .optionalNode test),
      ("update", .optionalNode step), ("body", .node body)]
  | .identifier _ name => [("name", .text name)]
  | .literal _ raw => [("raw", .text raw)]
  | .unsupported _ => []

def Field.children : Field → List Node
  | .node n => [n]
  | .optionalNode o => o.toList
  | .nodes ns => ns
  | .declarators ds => ds.flatMap Declarator.parts
  | .text _ | .flag _ => []

theorem mem_children_of_mem_fields
    {n c : Node} {key : String} {field : Field} (hfield : (key, field) ∈ n.fields)
    (hc : c ∈ field.children) : c ∈ n.children := by
  cases n <;>
    simp only [fields, List.mem_cons, List.not_mem_nil, or_false, Prod.mk.injEq] at hfield <;>
    grind [children, slots, Field.children]

end Node

/-- The types that an encoded node of a kind may have. -/
def Kind.IsTag (tag : String) : Kind → Prop
  | .unsupported => ∀ kind ∈ Kind.recognised, kind.name ≠ tag
  | kind => kind.name = tag

/-- The members of an object give a place. -/
def Position.EncodedBy (start : Position) (members : Members) : Prop :=
  ∃ location place : Members,
    members.get? "loc" = some (.object location) ∧
    location.get? "start" = some (.object place) ∧
    place.get? "line" = some (.ofUInt64 start.line) ∧
    place.get? "column" = some (.ofUInt64 start.column)

mutual

inductive Node.EncodedBy : Node → Value → Prop where
  | object {n : Node} {members : Members} {tag : String}
      (htag : n.kind.IsTag tag) (htype : members.get? "type" = some (.string tag))
      (hstart : n.start.EncodedBy members)
      (hfields : ∀ key field, (key, field) ∈ n.fields → field.EncodedBy (members.get? key)) :
      n.EncodedBy (.object members)

/-- A field is encoded by a value, or by its absence. -/
inductive Node.Field.EncodedBy : Node.Field → Option Value → Prop where
  | node {n : Node} {v : Value} (h : n.EncodedBy v) : (Node.Field.node n).EncodedBy (some v)
  | absent : (Node.Field.optionalNode none).EncodedBy none
  | null : (Node.Field.optionalNode none).EncodedBy (some .null)
  | present {n : Node} {v : Value} (h : n.EncodedBy v) :
      (Node.Field.optionalNode (some n)).EncodedBy (some v)
  | nodes {ns : List Node} {items : List Value} (h : List.Forall₂ Node.EncodedBy ns items) :
      (Node.Field.nodes ns).EncodedBy (some (.array items))
  | declarators {ds : List Declarator} {items : List Value}
      (h : List.Forall₂ Declarator.EncodedBy ds items) :
      (Node.Field.declarators ds).EncodedBy (some (.array items))
  | text (s : String) : (Node.Field.text s).EncodedBy (some (.string s))
  | flag (b : Bool) : (Node.Field.flag b).EncodedBy (some (.bool b))

inductive Declarator.EncodedBy : Declarator → Value → Prop where
  | object {id : Node} {init : Option Node} {members : Members}
      (hid : (Node.Field.node id).EncodedBy (members.get? "id"))
      (hinit : (Node.Field.optionalNode init).EncodedBy (members.get? "init")) :
      (Declarator.mk id init).EncodedBy (.object members)

end

inductive Program.EncodedBy (program : Program) : Value → Prop where
  | array {items : List Value} (h : List.Forall₂ Node.EncodedBy program.body items) :
      program.EncodedBy (.array items)
  | object {members : Members} {items : List Value}
      (hbody : members.get? "body" = some (.array items))
      (h : List.Forall₂ Node.EncodedBy program.body items) :
      program.EncodedBy (.object members)

/-! ## Decoding an encoded program -/

theorem Kind.ofName_eq_of_isTag
    {kind : Kind} {tag : String} (h : kind.IsTag tag) : Kind.ofName tag = kind := by
  cases kind with
  | unsupported =>
      have hnone : Kind.recognised.find? (fun kind => kind.name == tag) = none :=
        List.find?_eq_none.mpr fun kind hkind => by simpa using h kind hkind
      rw [Kind.ofName, hnone]
      rfl
  | _ =>
      obtain rfl := h
      decide

namespace Decode

@[simp] theorem ok_bind
    {α β : Type} (a : α) (next : α → Decoded β) : (Except.ok a >>= next) = next a :=
  rfl

@[simp] theorem pure_eq_ok {α : Type} (a : α) : (pure a : Decoded α) = .ok a :=
  rfl

@[simp] theorem map_ok
    {α β : Type} (f : α → β) (a : α) : (Except.ok a : Decoded α).map f = .ok (f a) :=
  rfl

/-- How the fields of a node are read from the members of an object. -/
def fieldReader (members : Members) : FieldReader :=
  { node := fun key => member members key (node .inner)
    optionalNode := fun key => do
      return (← member members key optionalNode).join
    nodes := fun key => member members key (nodes .inner)
    declarators := fun key => member members key declarators
    text := fun key => member members key text
    flag := fun key => member members key flag }

theorem node_object (enclosure : Enclosure) (members : Members) :
    node enclosure (.object members) =
      (do
        let start ← start enclosure members
        let kind ← kind members
        assemble (fieldReader members) start kind) := by
  simp only [node, memberWith_eq_member]
  rfl

theorem declarator_object (members : Members) :
    declarator (.object members) =
      (do
        let id ← (fieldReader members).node "id"
        let init ← (fieldReader members).optionalNode "init"
        return .mk (← require "id" id) init) := by
  simp only [declarator, memberWith_eq_member, fieldReader, bind_assoc, pure_bind]

/-- A reader finds a field under a key. -/
def FieldReader.Finds (read : FieldReader) (key : String) : Node.Field → Prop
  | .node n => read.node key = .ok (some n)
  | .optionalNode o => read.optionalNode key = .ok o
  | .nodes ns => read.nodes key = .ok (some ns)
  | .declarators ds => read.declarators key = .ok (some ds)
  | .text s => read.text key = .ok (some s)
  | .flag b => read.flag key = .ok (some b)

/-- A node is put together by a reader that finds its fields. -/
theorem assemble_eq_ok
    {read : FieldReader} {n : Node} (h : ∀ pair ∈ n.fields, read.Finds pair.1 pair.2) :
    assemble read n.start n.kind = .ok n := by
  cases n <;>
    simp only [Node.fields, List.forall_mem_cons, FieldReader.Finds] at h <;>
    simp [Node.start, Node.kind, assemble, require, h]

theorem start_eq_ok
    {place : Position} {members : Members} (h : place.EncodedBy members)
    (enclosure : Enclosure) : start enclosure members = .ok place := by
  obtain ⟨location, start, hlocation, hstart, hline, hcolumn⟩ := h
  simp [Decode.start, member, hlocation, Decode.location, hstart, position, hline, hcolumn,
    natural, Value.ofUInt64]

theorem kind_eq_ok
    {k : Kind} {members : Members} {tag : String} (htag : k.IsTag tag)
    (htype : members.get? "type" = some (.string tag)) : kind members = .ok k := by
  simp [kind, member, htype, Decode.tag, Kind.ofName_eq_of_isTag htag, require]

theorem nodeList_eq_ok
    {enclosure : Enclosure} {ns : List Node} {items : List Value}
    (hdecode : ∀ n ∈ ns, ∀ v, n.EncodedBy v → node enclosure v = .ok n)
    (h : List.Forall₂ Node.EncodedBy ns items) : nodeList enclosure items = .ok ns := by
  induction h with
  | nil => simp [nodeList]
  | cons hnode _ ih =>
      have hfirst := hdecode _ List.mem_cons_self _ hnode
      have hrest := ih fun n hn => hdecode n (List.mem_cons_of_mem _ hn)
      simp [nodeList, hfirst, hrest]

theorem optionalNode_eq_ok
    {n : Node} {v : Value} (h : node .inner v = .ok n) : optionalNode v = .ok (some n) := by
  cases v with
  | null => simp [node] at h
  | _ => simp [optionalNode, h]

section Fields

variable {members : Members} {key : String}

theorem finds_node
    {n : Node} (hdecode : ∀ v, n.EncodedBy v → node .inner v = .ok n)
    (h : (Node.Field.node n).EncodedBy (members.get? key)) :
    (fieldReader members).Finds key (.node n) := by
  generalize hv : members.get? key = v at h
  cases h with
  | node h => simp [FieldReader.Finds, fieldReader, member, hv, hdecode _ h]

theorem finds_optionalNode
    {o : Option Node} (hdecode : ∀ n ∈ o.toList, ∀ v, n.EncodedBy v → node .inner v = .ok n)
    (h : (Node.Field.optionalNode o).EncodedBy (members.get? key)) :
    (fieldReader members).Finds key (.optionalNode o) := by
  generalize hv : members.get? key = v at h
  cases h with
  | absent => simp [FieldReader.Finds, fieldReader, member, hv]
  | null => simp [FieldReader.Finds, fieldReader, member, hv, optionalNode]
  | present h =>
      have hnode := optionalNode_eq_ok (hdecode _ (by simp) _ h)
      simp [FieldReader.Finds, fieldReader, member, hv, hnode]

theorem declarator_eq_ok
    {d : Declarator} {v : Value}
    (hdecode : ∀ n ∈ d.parts, ∀ v, n.EncodedBy v → node .inner v = .ok n)
    (h : d.EncodedBy v) : declarator v = .ok d := by
  cases h with
  | object hid hinit =>
      have hid := finds_node (hdecode _ List.mem_cons_self) hid
      have hinit := finds_optionalNode (fun n hn => hdecode n (List.mem_cons_of_mem _ hn)) hinit
      simp only [FieldReader.Finds] at hid hinit
      simp [declarator_object, hid, hinit, require]

theorem declaratorList_eq_ok
    {ds : List Declarator} {items : List Value}
    (hdecode : ∀ n ∈ ds.flatMap Declarator.parts, ∀ v, n.EncodedBy v → node .inner v = .ok n)
    (h : List.Forall₂ Declarator.EncodedBy ds items) : declaratorList items = .ok ds := by
  induction h with
  | nil => simp [declaratorList]
  | cons hdeclarator _ ih =>
      rw [List.flatMap_cons] at hdecode
      have hfirst := declarator_eq_ok
        (fun n hn => hdecode n (List.mem_append_left _ hn)) hdeclarator
      have hrest := ih fun n hn => hdecode n (List.mem_append_right _ hn)
      simp [declaratorList, hfirst, hrest]

/-- A field is found where it is encoded, provided that its nodes decode. -/
theorem finds_of_encodedBy
    {field : Node.Field}
    (hdecode : ∀ n ∈ field.children, ∀ v, n.EncodedBy v → node .inner v = .ok n)
    (h : field.EncodedBy (members.get? key)) : (fieldReader members).Finds key field := by
  cases field with
  | node n => exact finds_node (hdecode n (by simp [Node.Field.children])) h
  | optionalNode o => exact finds_optionalNode hdecode h
  | nodes ns =>
      generalize hv : members.get? key = v at h
      cases h with
      | nodes h =>
          have hnodes : nodeList .inner _ = .ok ns := nodeList_eq_ok hdecode h
          simp [FieldReader.Finds, fieldReader, member, hv, nodes, hnodes]
  | declarators ds =>
      generalize hv : members.get? key = v at h
      cases h with
      | declarators h =>
          have hdeclarators := declaratorList_eq_ok hdecode h
          simp [FieldReader.Finds, fieldReader, member, hv, declarators, hdeclarators]
  | text s =>
      generalize hv : members.get? key = v at h
      cases h with
      | text => simp [FieldReader.Finds, fieldReader, member, hv, text]
  | flag b =>
      generalize hv : members.get? key = v at h
      cases h with
      | flag => simp [FieldReader.Finds, fieldReader, member, hv, flag]

end Fields

/-- A node is decoded from any value that encodes it. -/
theorem node_eq_ok (n : Node) :
    ∀ enclosure v, n.EncodedBy v → node enclosure v = .ok n := by
  induction n using Node.children_induction with
  | node n ih =>
      intro enclosure v h
      cases h with
      | object htag htype hstart hfields =>
          have hfinds : ∀ pair ∈ n.fields, (fieldReader _).Finds pair.1 pair.2 :=
            fun pair hpair => finds_of_encodedBy
              (fun c hc => ih c (Node.mem_children_of_mem_fields hpair hc) .inner)
              (hfields pair.1 pair.2 hpair)
          rw [node_object, start_eq_ok hstart, kind_eq_ok htag htype]
          exact assemble_eq_ok hfinds

end Decode

/-! ## An encoding of every program -/

def Position.encode (start : Position) : Value :=
  .object
    [("start", .object [("line", .ofUInt64 start.line), ("column", .ofUInt64 start.column)])]

theorem Json.Members.get?_eq_some_of_mem
    {members : Members} {key : String} {v : Value} (hnodup : (members.map Prod.fst).Nodup)
    (h : (key, v) ∈ members) : members.get? key = some v := by
  obtain ⟨before, after, rfl⟩ := List.append_of_mem h
  refine List.lookup_eq_some_iff.mpr ⟨before, after, rfl, ?_⟩
  intro pair hpair
  rw [List.map_append, List.map_cons, List.nodup_append] at hnodup
  have hne := hnodup.2.2 pair.1 (List.mem_map_of_mem hpair) key List.mem_cons_self
  exact bne_iff_ne.mpr hne.symm

theorem Kind.isTag_name (kind : Kind) : kind.IsTag kind.name := by
  cases kind with
  | unsupported =>
      have hne : ∀ kind ∈ Kind.recognised, kind.name ≠ Kind.unsupported.name := by decide
      exact hne
  | _ => rfl

theorem Position.encodedBy_encode
    {start : Position} {members : Members} (h : members.get? "loc" = some start.encode) :
    start.EncodedBy members :=
  ⟨_, _, h, rfl, rfl, rfl⟩

/-- The object of a node of a kind at a place. -/
def Kind.encode (kind : Kind) (start : Position) (members : Members) : Value :=
  .object (("type", .string kind.name) :: ("loc", start.encode) :: members)

namespace Node

mutual

/-- An encoding of a node, in which what is absent is null. -/
def encode : Node → Value
  | .expressionStatement start expression =>
    Kind.expressionStatement.encode start [("expression", encode expression)]
  | .functionDeclaration start id params body =>
    Kind.functionDeclaration.encode start
      [("id", encodeOption id), ("params", .array (encodeList params)), ("body", encode body)]
  | .variableDeclaration start declarations =>
    Kind.variableDeclaration.encode start
      [("declarations", .array (encodeDeclarators declarations))]
  | .whileStatement start test body =>
    Kind.whileStatement.encode start [("test", encode test), ("body", encode body)]
  | .ifStatement start test consequent alternate =>
    Kind.ifStatement.encode start
      [("test", encode test), ("consequent", encode consequent),
        ("alternate", encodeOption alternate)]
  | .returnStatement start argument =>
    Kind.returnStatement.encode start [("argument", encodeOption argument)]
  | .binary start operator left right =>
    Kind.binary.encode start
      [("operator", .string operator), ("left", encode left), ("right", encode right)]
  | .unary start operator argument =>
    Kind.unary.encode start [("operator", .string operator), ("argument", encode argument)]
  | .update start operator argument leading =>
    Kind.update.encode start
      [("operator", .string operator), ("argument", encode argument),
        ("prefix", .bool leading)]
  | .block start body => Kind.block.encode start [("body", .array (encodeList body))]
  | .member start object property =>
    Kind.member.encode start [("object", encode object), ("property", encode property)]
  | .forStatement start init test step body =>
    Kind.forStatement.encode start
      [("init", encodeOption init), ("test", encodeOption test),
        ("update", encodeOption step), ("body", encode body)]
  | .identifier start name => Kind.identifier.encode start [("name", .string name)]
  | .literal start raw => Kind.literal.encode start [("raw", .string raw)]
  | .assignment start operator left right =>
    Kind.assignment.encode start
      [("operator", .string operator), ("left", encode left), ("right", encode right)]
  | .unsupported start => Kind.unsupported.encode start []

def encodeOption : Option Node → Value
  | none => .null
  | some n => encode n

def encodeList : List Node → List Value
  | [] => []
  | n :: ns => encode n :: encodeList ns

def encodeDeclarators : List Declarator → List Value
  | [] => []
  | .mk id init :: ds =>
    .object [("id", encode id), ("init", encodeOption init)] :: encodeDeclarators ds

end

def Field.encode : Field → Value
  | .node n => n.encode
  | .optionalNode o => encodeOption o
  | .nodes ns => .array (encodeList ns)
  | .declarators ds => .array (encodeDeclarators ds)
  | .text s => .string s
  | .flag b => .bool b

theorem encode_eq (n : Node) :
    n.encode =
      n.kind.encode n.start (n.fields.map fun pair => (pair.1, pair.2.encode)) := by
  cases n <;> simp [encode, kind, start, fields, Field.encode]

/-- The keys of the fields of a node are told apart, from each other and from those of its type
and its place. -/
theorem nodup_keys (n : Node) : ("type" :: "loc" :: n.fields.map Prod.fst).Nodup := by
  cases n <;> simp [fields]

theorem encodedBy_encodeOption
    {o : Option Node} (h : ∀ n ∈ o.toList, n.EncodedBy n.encode) :
    (Field.optionalNode o).EncodedBy (some (encodeOption o)) := by
  cases o with
  | none => exact .null
  | some n => exact .present (h n (by simp))

theorem encodedBy_encodeList
    {ns : List Node} (h : ∀ n ∈ ns, n.EncodedBy n.encode) :
    List.Forall₂ Node.EncodedBy ns (encodeList ns) := by
  induction ns with
  | nil => exact .nil
  | cons n ns ih =>
      exact .cons (h n List.mem_cons_self) (ih fun m hm => h m (List.mem_cons_of_mem n hm))

theorem encodedBy_encodeDeclarators
    {ds : List Declarator} (h : ∀ n ∈ ds.flatMap Declarator.parts, n.EncodedBy n.encode) :
    List.Forall₂ Declarator.EncodedBy ds (encodeDeclarators ds) := by
  induction ds with
  | nil => exact .nil
  | cons d ds ih =>
      obtain ⟨id, init⟩ := d
      rw [List.flatMap_cons] at h
      have hfirst : ∀ n ∈ id :: init.toList, n.EncodedBy n.encode :=
        fun n hn => h n (List.mem_append_left _ hn)
      refine .cons (.object ?_ ?_) (ih fun n hn => h n (List.mem_append_right _ hn))
      · exact .node (hfirst id List.mem_cons_self)
      · exact encodedBy_encodeOption fun n hn => hfirst n (List.mem_cons_of_mem id hn)

theorem Field.encodedBy_encode
    {field : Field} (h : ∀ n ∈ field.children, n.EncodedBy n.encode) :
    field.EncodedBy (some field.encode) := by
  cases field with
  | node n => exact .node (h n List.mem_cons_self)
  | optionalNode o => exact encodedBy_encodeOption h
  | nodes ns => exact .nodes (encodedBy_encodeList h)
  | declarators ds => exact .declarators (encodedBy_encodeDeclarators h)
  | text s => exact .text s
  | flag b => exact .flag b

/-- Every node is encoded by its encoding. -/
theorem encodedBy_encode (n : Node) : n.EncodedBy n.encode := by
  induction n using children_induction with
  | node n ih =>
      let members : Members :=
        ("type", .string n.kind.name) :: ("loc", n.start.encode) ::
          n.fields.map fun pair => (pair.1, pair.2.encode)
      have hnodup : (members.map Prod.fst).Nodup := by
        simpa [members, Function.comp_def] using n.nodup_keys
      have hget : ∀ key v, (key, v) ∈ members → members.get? key = some v :=
        fun _ _ => Members.get?_eq_some_of_mem hnodup
      have hobject : n.encode = .object members := n.encode_eq
      rw [hobject]
      refine .object n.kind.isTag_name (hget "type" _ List.mem_cons_self)
        (Position.encodedBy_encode
          (hget "loc" _ (List.mem_cons_of_mem _ List.mem_cons_self))) ?_
      intro key field hfield
      have hmem : (key, field.encode) ∈ members :=
        List.mem_cons_of_mem _ (List.mem_cons_of_mem _
          (List.mem_map_of_mem (f := fun pair => (pair.1, pair.2.encode)) hfield))
      rw [hget key field.encode hmem]
      exact Field.encodedBy_encode fun c hc => ih c (mem_children_of_mem_fields hfield hc)

end Node

/-! ## Decoding undoes encoding -/

/-- A program is decoded from every value that encodes it.  The array of the encoded statements is
one, and so is every object that has the array as its body. -/
theorem ofValue_of_encodedBy (program : Program) :
    (∀ v, program.EncodedBy v → Program.ofValue v = .ok program) ∧
    program.EncodedBy (.array (Node.encodeList program.body)) ∧
    ∀ members : Members, members.get? "body" = some (.array (Node.encodeList program.body)) →
      program.EncodedBy (.object members) := by
  have hencoded : List.Forall₂ Node.EncodedBy program.body (Node.encodeList program.body) :=
    Node.encodedBy_encodeList fun n _ => n.encodedBy_encode
  refine ⟨?_, .array hencoded, fun members hbody => .object hbody hencoded⟩
  have hlist : ∀ items, List.Forall₂ Node.EncodedBy program.body items →
      Decode.nodeList .outer items = .ok program.body :=
    fun items => Decode.nodeList_eq_ok fun n _ => Decode.node_eq_ok n .outer
  intro v hv
  cases hv with
  | array h => simp [Program.ofValue, hlist _ h]
  | object hbody h =>
      simp [Program.ofValue, Decode.program, Decode.member, hbody, Decode.nodes, hlist _ h,
        Decode.require]

/-- The statements `return` and `f(3)`, the second of which is not supported. -/
def returnThenCall : Program :=
  ⟨[.returnStatement ⟨4, 2⟩ none, .unsupported ⟨5, 2⟩]⟩

/-- An encoding without the argument of `return`, with the arguments of the call, and with a
member of the program that is not a field. -/
def returnThenCallValue : Value :=
  .object
    [("sourceType", .string "script"),
     ("body", .array
      [.object [("loc", Position.encode ⟨4, 2⟩), ("type", .string "ReturnStatement")],
       .object
        [("arguments", .array [.ofUInt64 3]), ("loc", Position.encode ⟨5, 2⟩),
         ("type", .string "CallExpression")]])]

theorem ofValue_of_encodedBy_returnThenCall :
    returnThenCall.EncodedBy returnThenCallValue ∧
      Program.ofValue returnThenCallValue = .ok returnThenCall := by
  have hreturn : (Node.returnStatement ⟨4, 2⟩ none).EncodedBy
      (.object [("loc", Position.encode ⟨4, 2⟩), ("type", .string "ReturnStatement")]) := by
    refine .object rfl rfl (Position.encodedBy_encode rfl) ?_
    intro key field hfield
    obtain ⟨rfl, rfl⟩ := Prod.mk.inj (List.mem_singleton.mp hfield)
    exact .absent
  have hcall : (Node.unsupported ⟨5, 2⟩).EncodedBy
      (.object
        [("arguments", .array [.ofUInt64 3]), ("loc", Position.encode ⟨5, 2⟩),
         ("type", .string "CallExpression")]) := by
    have htag : ∀ kind ∈ Kind.recognised, kind.name ≠ "CallExpression" := by decide
    exact .object htag rfl (Position.encodedBy_encode rfl) fun _ _ hfield => nomatch hfield
  have hencoded : returnThenCall.EncodedBy returnThenCallValue :=
    .object rfl (.cons hreturn (.cons hcall .nil))
  exact ⟨hencoded, (ofValue_of_encodedBy returnThenCall).1 _ hencoded⟩

end StatementTable
