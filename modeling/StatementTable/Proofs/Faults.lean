import StatementTable.Proofs.Acceptance

/-!
# Why a value is no program

A document that is no program has a fault in a place that can be named.  Some value in the place
of a node is not an object, has a bad place or type, lacks a required field, or holds something of
the wrong type in a field.  The places of nodes are found by going down from the statements
through the fields of the kinds, so that a fault at any depth counts and nothing in an unsupported
node does.
-/

namespace StatementTable

open Json (Value Members)

namespace Json.Value

/-- A value, unless it is null. -/
def unlessNull : Value → List Value
  | .null => []
  | v => [v]

/-- The values in the places of nodes in a declarator. -/
def declared : Value → List Value
  | .object members =>
    (Members.get? members "id").toList ++
      (Members.get? members "init").toList.flatMap unlessNull
  | .array [id, init] => id :: init.unlessNull
  | _ => []

/-- A value is built like a declarator, whatever stands in the places of its nodes. -/
def IsDeclaratorLike : Value → Prop
  | .object members => Members.get? members "id" ≠ none
  | .array items => items.length = 2
  | _ => False

end Json.Value

namespace Shape

/-- The values in the places of nodes in the content of a field. -/
def held : Shape → Value → List Value
  | .node, v => [v]
  | .optionalNode, v => v.unlessNull
  | .nodes, .array items => items
  | .declarators, .array items => items.flatMap Value.declared
  | _, _ => []

/-- The content of a field is of the right type, whatever stands in the places of its nodes. -/
def Suits : Shape → Value → Prop
  | .node, _ | .optionalNode, _ | .nodes, .array _ | .text, .string _ | .flag, .bool _ => True
  | .declarators, .array items => ∀ d ∈ items, d.IsDeclaratorLike
  | _, _ => False

end Shape

namespace Json.Value

/-- A value in the place of a node has another one in a field of its kind. -/
inductive HasChild : Value → Value → Prop where
  | field {members : Members} {kind : Kind} {key : String} {shape : Shape} {content w : Value}
      (hkind : members.Selects kind) (hfield : (key, shape) ∈ kind.fields)
      (hcontent : members.get? key = some content) (hw : w ∈ shape.held content) :
      HasChild (.object members) w

/-- A value in the place of a node is at fault itself. -/
inductive IsFaulty : Value → Prop where
  | notObject {v : Value} (h : ∀ members, v ≠ .object members) : IsFaulty v
  | place {members : Members} {v : Value} (hv : members.get? "loc" = some v)
      (h : ¬ v.IsLocation) : IsFaulty (.object members)
  | type {members : Members} (h : ∀ kind, ¬ members.Selects kind) : IsFaulty (.object members)
  | missing {members : Members} {kind : Kind} {key : String} {shape : Shape}
      (hkind : members.Selects kind) (hfield : (key, shape) ∈ kind.fields)
      (hrequired : shape ≠ .optionalNode) (h : members.get? key = none) :
      IsFaulty (.object members)
  | content {members : Members} {kind : Kind} {key : String} {shape : Shape} {v : Value}
      (hkind : members.Selects kind) (hfield : (key, shape) ∈ kind.fields)
      (hv : members.get? key = some v) (h : ¬ shape.Suits v) : IsFaulty (.object members)

/-- A value stands in the place of a node in a document: among the statements, or in a field of a
value that does. -/
inductive HasNode (document : Value) : Value → Prop where
  | statement {items : List Value} {w : Value} (hitems : document.HasStatements items)
      (hw : w ∈ items) : HasNode document w
  | child {v w : Value} (hv : HasNode document v) (hw : v.HasChild w) : HasNode document w

end Json.Value

/-! ## Nodes are free of faults -/

theorem Shape.admits_optionalNode_iff_unlessNull {o : Option Value} :
    Shape.optionalNode.Admits o ↔ ∀ w ∈ o.toList.flatMap Value.unlessNull, w.IsNode := by
  cases o with
  | none => simp [admits_none_iff]
  | some v =>
      rw [admits_optionalNode_iff]
      cases v <;> simp [Value.unlessNull]

theorem Json.Value.isDeclarator_iff {v : Value} :
    v.IsDeclarator ↔ v.IsDeclaratorLike ∧ ∀ w ∈ v.declared, w.IsNode := by
  cases v with
  | object members =>
      rw [isDeclarator_object_iff, Shape.admits_optionalNode_iff_unlessNull, declared,
        List.forall_mem_append]
      cases hid : Members.get? members "id" with
      | none => simp [IsDeclaratorLike, hid, Shape.admits_none_iff]
      | some id => simp [IsDeclaratorLike, hid, Shape.admits_node_iff]
  | array items =>
      rw [isDeclarator_array_iff]
      rcases items with - | ⟨id, - | ⟨init, - | ⟨extra, rest⟩⟩⟩ <;>
        simp [IsDeclaratorLike, declared, Shape.admits_optionalNode_iff_unlessNull]
  | _ =>
      refine iff_of_false ?_ (by simp [IsDeclaratorLike])
      intro h
      cases h

namespace Shape

/-- A field admits a content of the right type that has nodes in the places of nodes. -/
theorem admits_some_iff {shape : Shape} {v : Value} :
    shape.Admits (some v) ↔ shape.Suits v ∧ ∀ w ∈ shape.held v, w.IsNode := by
  cases shape with
  | node => simp [admits_node_iff, Suits, held]
  | optionalNode => simp [admits_optionalNode_iff_unlessNull, Suits, held]
  | nodes => cases v <;> simp [admits_nodes_iff, Suits, held]
  | declarators =>
      cases v with
      | array items =>
          simp only [admits_declarators_iff, Suits, held, Value.isDeclarator_iff,
            Value.array.injEq, exists_eq_left', List.forall_mem_flatMap, forall_and]
      | _ => simp [admits_declarators_iff, Suits]
  | text => cases v <;> simp [admits_text_iff, Suits, held]
  | flag => cases v <;> simp [admits_flag_iff, Suits, held]

/-- A required field can neither be left out nor be null. -/
theorem not_admits_of_ne_optionalNode
    {shape : Shape} (h : shape ≠ .optionalNode) :
    ¬ shape.Admits none ∧ ¬ shape.Admits (some .null) := by
  refine ⟨fun hnone => h (admits_none_iff.mp hnone), fun hnull => ?_⟩
  cases hnull with
  | node h => cases h
  | null | present => exact h rfl

end Shape

namespace Json.Value

theorem IsNode.not_isFaulty {v : Value} (h : v.IsNode) : ¬ v.IsFaulty := by
  intro hfaulty
  cases h with
  | object hloc hkind hfields =>
      cases hfaulty with
      | notObject h => exact h _ rfl
      | place hv h => exact h (hloc _ hv)
      | type h => exact h _ hkind
      | missing hkind' hfield hrequired hnone =>
          obtain rfl := hkind.unique hkind'
          have hadmits := hfields _ hfield
          rw [hnone, Shape.admits_none_iff] at hadmits
          exact hrequired hadmits
      | content hkind' hfield hv h =>
          obtain rfl := hkind.unique hkind'
          have hadmits := hfields _ hfield
          rw [hv, Shape.admits_some_iff] at hadmits
          exact h hadmits.1

theorem IsNode.isNode_of_hasChild {v w : Value} (h : v.IsNode) (hw : v.HasChild w) :
    w.IsNode := by
  cases h with
  | object hloc hkind hfields =>
      cases hw with
      | field hkind' hfield hcontent hw =>
          obtain rfl := hkind.unique hkind'
          have hadmits := hfields _ hfield
          rw [hcontent, Shape.admits_some_iff] at hadmits
          exact hadmits.2 w hw

/-- A value is a node if it is not at fault and its children are nodes. -/
theorem isNode_of_not_isFaulty
    {v : Value} (hfaulty : ¬ v.IsFaulty) (hchildren : ∀ w, v.HasChild w → w.IsNode) :
    v.IsNode := by
  cases v with
  | object members =>
      obtain ⟨kind, hkind⟩ : ∃ kind, Members.Selects members kind := by
        by_contra hnone
        exact hfaulty (.type (not_exists.mp hnone))
      refine .object (fun v hv => ?_) hkind ?_
      · by_contra hloc
        exact hfaulty (.place hv hloc)
      · rintro ⟨key, shape⟩ hfield
        cases hv : Members.get? members key with
        | none =>
            rw [Shape.admits_none_iff]
            by_contra hrequired
            exact hfaulty (.missing hkind hfield hrequired hv)
        | some content =>
            rw [Shape.admits_some_iff]
            refine ⟨?_, fun w hw => hchildren w (.field hkind hfield hv hw)⟩
            by_contra hsuits
            exact hfaulty (.content hkind hfield hv hsuits)
  | _ => exact absurd (.notObject (by simp)) hfaulty

/-! ## Finding the fault -/

theorem sizeOf_le_of_mem_unlessNull {v w : Value} (hw : w ∈ v.unlessNull) :
    sizeOf w ≤ sizeOf v := by
  cases v with
  | null => exact absurd hw List.not_mem_nil
  | _ =>
      obtain rfl := List.mem_singleton.mp hw
      exact Nat.le_refl _

theorem sizeOf_lt_of_mem_declared {v w : Value} (hw : w ∈ v.declared) :
    sizeOf w < sizeOf v := by
  cases v with
  | object members =>
      rcases List.mem_append.mp hw with hid | hinit
      · exact sizeOf_lt_of_get?_eq_some (Option.mem_toList.mp hid)
      · obtain ⟨init, hinit, hw⟩ := List.mem_flatMap.mp hinit
        exact Nat.lt_of_le_of_lt (sizeOf_le_of_mem_unlessNull hw)
          (sizeOf_lt_of_get?_eq_some (Option.mem_toList.mp hinit))
  | array items =>
      rcases items with - | ⟨id, - | ⟨init, - | ⟨extra, rest⟩⟩⟩
      · exact absurd hw List.not_mem_nil
      · exact absurd hw List.not_mem_nil
      · rcases List.mem_cons.mp hw with rfl | hw
        · exact sizeOf_lt_of_mem_array List.mem_cons_self
        · exact Nat.lt_of_le_of_lt (sizeOf_le_of_mem_unlessNull hw)
            (sizeOf_lt_of_mem_array (List.mem_cons_of_mem id List.mem_cons_self))
      · exact absurd hw List.not_mem_nil
  | _ => exact absurd hw List.not_mem_nil

theorem sizeOf_le_of_mem_held {shape : Shape} {v w : Value} (hw : w ∈ shape.held v) :
    sizeOf w ≤ sizeOf v := by
  cases shape with
  | node =>
      obtain rfl := List.mem_singleton.mp hw
      exact Nat.le_refl _
  | optionalNode => exact sizeOf_le_of_mem_unlessNull hw
  | nodes =>
      cases v with
      | array items => exact Nat.le_of_lt (sizeOf_lt_of_mem_array hw)
      | _ => exact absurd hw List.not_mem_nil
  | declarators =>
      cases v with
      | array items =>
          obtain ⟨d, hd, hw⟩ := List.mem_flatMap.mp hw
          exact Nat.le_of_lt
            (Nat.lt_trans (sizeOf_lt_of_mem_declared hw) (sizeOf_lt_of_mem_array hd))
      | _ => exact absurd hw List.not_mem_nil
  | text | flag => cases v <;> exact absurd hw List.not_mem_nil

theorem sizeOf_lt_of_hasChild {v w : Value} (hw : v.HasChild w) : sizeOf w < sizeOf v := by
  cases hw with
  | field _ _ hcontent hw =>
      exact Nat.lt_of_le_of_lt (sizeOf_le_of_mem_held hw) (sizeOf_lt_of_get?_eq_some hcontent)

/-- A value that is no node is at fault itself or has a value at fault below it. -/
theorem HasNode.exists_isFaulty
    {document v : Value} (hv : document.HasNode v) (hnode : ¬ v.IsNode) :
    ∃ w, document.HasNode w ∧ w.IsFaulty := by
  by_cases hfaulty : v.IsFaulty
  · exact ⟨v, hv, hfaulty⟩
  · have hchild : ∃ w, v.HasChild w ∧ ¬ w.IsNode := by
      by_contra hnone
      refine hnode (isNode_of_not_isFaulty hfaulty fun w hw => ?_)
      by_contra hnode
      exact hnone ⟨w, hw, hnode⟩
    obtain ⟨w, hw, hnode⟩ := hchild
    have hlt := sizeOf_lt_of_hasChild hw
    exact (hv.child hw).exists_isFaulty hnode
termination_by sizeOf v

theorem HasStatements.unique
    {v : Value} {items items' : List Value} (h : v.HasStatements items)
    (h' : v.HasStatements items') : items = items' := by
  cases h with
  | array =>
      cases h' with
      | array => rfl
  | object hbody =>
      cases h' with
      | object hbody' => simpa using hbody.symm.trans hbody'

/-- In a program every value in the place of a node is a node. -/
theorem IsProgram.isNode_of_hasNode {v w : Value} (h : v.IsProgram) (hw : v.HasNode w) :
    w.IsNode := by
  induction hw with
  | statement hitems hw =>
      obtain ⟨items, hitems', hnodes⟩ := h
      obtain rfl := hitems.unique hitems'
      exact hnodes _ hw
  | child _ hw ih => exact ih.isNode_of_hasChild hw

/-- A document is no program exactly if it has no statements or a value at fault. -/
theorem not_isProgram_iff {v : Value} :
    ¬ v.IsProgram ↔
      (¬ ∃ items, v.HasStatements items) ∨ ∃ w, v.HasNode w ∧ w.IsFaulty := by
  constructor
  · intro hprogram
    by_cases hstatements : ∃ items, v.HasStatements items
    · obtain ⟨items, hitems⟩ := hstatements
      have hw : ∃ w ∈ items, ¬ w.IsNode := by
        by_contra hnone
        refine hprogram ⟨items, hitems, fun w hw => ?_⟩
        by_contra hnode
        exact hnone ⟨w, hw, hnode⟩
      obtain ⟨w, hw, hnode⟩ := hw
      exact Or.inr ((HasNode.statement hitems hw).exists_isFaulty hnode)
    · exact Or.inl hstatements
  · rintro (hnone | ⟨w, hw, hfaulty⟩) hprogram
    · obtain ⟨items, hitems, -⟩ := hprogram
      exact hnone ⟨items, hitems⟩
    · exact (hprogram.isNode_of_hasNode hw).not_isFaulty hfaulty

theorem not_hasChild_of_selects_unsupported
    {members : Members} (h : members.Selects .unsupported) (w : Value) :
    ¬ (Value.object members).HasChild w := by
  intro hw
  cases hw with
  | field hkind hfield =>
      obtain rfl := h.unique hkind
      exact List.not_mem_nil hfield

theorem isFaulty_iff_of_selects_unsupported
    {members : Members} (h : members.Selects .unsupported) :
    (Value.object members).IsFaulty ↔ ∃ v, members.get? "loc" = some v ∧ ¬ v.IsLocation := by
  constructor
  · intro hfaulty
    cases hfaulty with
    | notObject hobject => exact absurd rfl (hobject members)
    | place hv hloc => exact ⟨_, hv, hloc⟩
    | type hkind => exact absurd h (hkind _)
    | missing hkind hfield | content hkind hfield =>
        obtain rfl := h.unique hkind
        exact absurd hfield List.not_mem_nil
  · rintro ⟨v, hv, hloc⟩
    exact .place hv hloc

end Json.Value

theorem exists_ofValue_eq_error_iff {v : Value} :
    (∃ failure, Program.ofValue v = .error failure) ↔ ¬ v.IsProgram := by
  rw [← exists_ofValue_eq_ok_iff]
  cases Program.ofValue v <;> simp

/-- A document decodes exactly if it is a program, and it is refused exactly if it has no
statements or if a value in the place of a node is at fault.  Thus a required field that is
missing, null or ill-typed is an error at every depth.  Of an unsupported node only the place can
be at fault, and nothing below it stands in the place of a node. -/
theorem ofValue_decodes_exactly_programs (v : Value) :
    ((∃ program, Program.ofValue v = .ok program) ↔ v.IsProgram) ∧
    ((∃ failure, Program.ofValue v = .error failure) ↔
      (¬ ∃ items, v.HasStatements items) ∨ ∃ w, v.HasNode w ∧ w.IsFaulty) ∧
    (∀ (members : Members) (kind : Kind) (key : String) (shape : Shape),
      v.HasNode (.object members) → members.Selects kind → (key, shape) ∈ kind.fields →
        shape ≠ .optionalNode →
        (members.get? key = none ∨ members.get? key = some .null ∨
          ¬ shape.Admits (members.get? key)) →
        ∃ failure, Program.ofValue v = .error failure) ∧
    ∀ members : Members, members.Selects .unsupported →
      ((Value.object members).IsFaulty ↔
        ∃ w, members.get? "loc" = some w ∧ ¬ w.IsLocation) ∧
      ∀ w, ¬ (Value.object members).HasChild w := by
  refine ⟨exists_ofValue_eq_ok_iff, exists_ofValue_eq_error_iff.trans Value.not_isProgram_iff,
    ?_, fun members h => ⟨Value.isFaulty_iff_of_selects_unsupported h,
      Value.not_hasChild_of_selects_unsupported h⟩⟩
  intro members kind key shape hnode hkind hfield hrequired hbad
  have hrefused : ¬ shape.Admits (members.get? key) := by
    have hrequired := Shape.not_admits_of_ne_optionalNode hrequired
    rcases hbad with hnone | hnull | hadmits
    · rw [hnone]
      exact hrequired.1
    · rw [hnull]
      exact hrequired.2
    · exact hadmits
  rw [exists_ofValue_eq_error_iff]
  intro hprogram
  obtain ⟨-, kind', hkind', hfields⟩ :=
    Value.isNode_object_iff.mp (hprogram.isNode_of_hasNode hnode)
  obtain rfl := hkind.unique hkind'
  exact hrefused (hfields _ hfield)

/-- A call without its name, with arguments that are no list. -/
def strayCall : Value :=
  .object [("arguments", .null), ("type", .string "CallExpression")]

/-- A loop around the call, without the condition of the loop. -/
def loopWithoutTest : Members :=
  [("body", strayCall), ("type", .string "WhileStatement")]

/-- The members of a loop as a program: the loop stands in a block. -/
def loopInBlock (loop : Members) : Value :=
  .object
    [("body", .array
      [.object [("body", .array [.object loop]), ("type", .string "BlockStatement")]])]

theorem hasNode_loopInBlock (loop : Members) : (loopInBlock loop).HasNode (.object loop) := by
  have hblock : Members.Selects
      [("body", .array [.object loop]), ("type", .string "BlockStatement")] .block :=
    ⟨_, rfl, @Kind.SelectedBy.name .block (by decide)⟩
  have hfield : ("body", Shape.nodes) ∈ Kind.block.fields := by decide
  exact .child (.statement (.object rfl) List.mem_cons_self)
    (.field hblock hfield rfl List.mem_cons_self)

theorem ofValue_decodes_exactly_programs_loopWithoutTest :
    (loopInBlock loopWithoutTest).HasNode (.object loopWithoutTest) ∧
      loopWithoutTest.get? "test" = none ∧
      (∃ failure, Program.ofValue (loopInBlock loopWithoutTest) = .error failure) ∧
      ∃ program,
        Program.ofValue (loopInBlock (("test", strayCall) :: loopWithoutTest)) = .ok program := by
  have hkind : loopWithoutTest.Selects .whileStatement :=
    ⟨_, rfl, @Kind.SelectedBy.name .whileStatement (by decide)⟩
  have hfield : ("test", Shape.node) ∈ Kind.whileStatement.fields := by decide
  refine ⟨hasNode_loopInBlock _, rfl,
    (ofValue_decodes_exactly_programs _).2.2.1 _ _ _ _ (hasNode_loopInBlock _) hkind hfield
      (by decide) (Or.inl rfl),
    (ofValue_decodes_exactly_programs _).1.mpr ?_⟩
  have hcall : strayCall.IsNode := by
    have hother : ∀ kind ∈ Kind.recognised, kind.name ≠ "CallExpression" := by decide
    refine .object (by rintro v ⟨⟩) ⟨_, rfl, .otherName hother⟩ ?_
    exact fun _ hfield => absurd hfield List.not_mem_nil
  have hloop : (Value.object (("test", strayCall) :: loopWithoutTest)).IsNode := by
    refine .object (by rintro v ⟨⟩) ⟨_, rfl, @Kind.SelectedBy.name .whileStatement (by decide)⟩ ?_
    rw [Kind.fields, List.forall_mem_cons, List.forall_mem_singleton]
    exact ⟨.node hcall, .node hcall⟩
  refine ⟨_, .object rfl, ?_⟩
  rw [List.forall_mem_singleton]
  refine .object (by rintro v ⟨⟩) ⟨_, rfl, @Kind.SelectedBy.name .block (by decide)⟩ ?_
  rw [Kind.fields, List.forall_mem_singleton]
  refine .nodes ?_
  rw [List.forall_mem_singleton]
  exact hloop

end StatementTable
