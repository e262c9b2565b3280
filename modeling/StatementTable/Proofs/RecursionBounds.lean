import StatementTable.Proofs.Batches
import StatementTable.Proofs.CallDepth

/-!
# How deep a text can drive the recursion

A text opens at most 127 containers inside one another.  The containers around the statements of a
program take their share of these: the array of the statements alone, or with it the object that
has the array as its body, or with it the request and its parameters.  What is left bounds the
height of the statements, and so the calls inside one another that flattening them takes.  Trees of
negations show that no bound can be lowered.
-/

namespace StatementTable

open Json (Value Members Builder)

/-- The trees of a program are at most so high, and neither walking through a statement nor finding
what it amounts to takes more calls inside one another. -/
structure Program.StaysWithin (program : Program) (limit : Nat) : Prop where
  height_le : ∀ n ∈ Node.walkList program.body, n.height ≤ limit
  walkWithin_eq : ∀ statement ∈ program.body,
    statement.walkWithin limit = some statement.walk
  outcomeWithin_eq : ∀ statement ∈ program.body,
    statement.outcomeWithin limit = some (statement.outcomeWith .skip)

namespace Program

variable {program : Program}

theorem staysWithin_of_height_le
    {limit : Nat} (h : ∀ statement ∈ program.body, statement.height ≤ limit) :
    program.StaysWithin limit where
  height_le := by
    intro n hn
    rw [Node.walkList_eq] at hn
    obtain ⟨statement, hstatement, hn⟩ := List.mem_flatMap.mp hn
    exact Nat.le_trans (Node.height_le_of_mem_walk hn) (h statement hstatement)
  walkWithin_eq := by
    intro statement hstatement
    rw [Node.walkWithin_eq, if_pos (h statement hstatement)]
  outcomeWithin_eq := by
    intro statement hstatement
    exact Node.outcomeWithin_eq_some (h statement hstatement)

/-- The array of the statements is around every statement that is read from a text. -/
theorem staysWithin_of_ofText {text : String} (h : ofText text = .ok program) :
    program.StaysWithin 126 := by
  obtain ⟨v, hparse, hvalue⟩ := ofText_eq_ok_iff.mp h
  apply staysWithin_of_height_le
  intro statement hstatement
  have hdepth : v.depth ≤ 127 := Json.depth_le_of_parse hparse
  have hheight := height_lt_of_ofValue hvalue hstatement
  omega

/-- In the text of an object, the object is around the array of the statements. -/
theorem staysWithin_of_parse_object
    {text : String} {members : Members} (hparse : Json.parse text = some (.object members))
    (h : ofText text = .ok program) : program.StaysWithin 125 := by
  have hvalue : ofValue (.object members) = .ok program := by
    rwa [ofText, hparse] at h
  apply staysWithin_of_height_le
  intro statement hstatement
  have hdepth : (Value.object members).depth ≤ 127 := Json.depth_le_of_parse hparse
  have hheight := height_lt_of_ofValue_object hvalue hstatement
  omega

end Program

/-! ## Requests -/

namespace Service

/-- A request to flatten carries a program, and says how strictly to flatten it. -/
structure Request.Carries (request : Request) (program : Program) (options : FlattenOptions) :
    Prop where
  command_eq : request.command = "FLATTEN"
  decodes : ∃ params value, request.params = some params ∧
    Decode.parameters params = .ok (value, options) ∧ Program.ofValue value = .ok program

theorem depth_lt_of_parameters
    {params value : Value} {options : FlattenOptions}
    (h : Decode.parameters params = .ok (value, options)) : value.depth < params.depth := by
  cases params with
  | object members =>
      simp only [Decode.parameters, Decode.bind_eq_ok_iff, Decode.require_eq_ok_iff,
        Decode.pure_eq_ok, Except.ok.injEq, Prod.mk.injEq] at h
      obtain ⟨_, hprogram, _, rfl, _, -, rfl, -⟩ := h
      obtain ⟨v, hv, hread⟩ := Decode.exists_value_of_member hprogram
      obtain rfl := Except.ok.inj hread
      exact Value.depth_lt_of_get?_eq_some hv
  | _ => simp [Decode.parameters] at h

/-- The request and its parameters are around every program that a request carries. -/
theorem Request.Carries.staysWithin
    {line : String} {request : Request} {program : Program} {options : FlattenOptions}
    (h : request.Carries program options) (hread : Request.read line = some request) :
    program.StaysWithin 124 := by
  obtain ⟨params, value, hparams, hparameters, hvalue⟩ := h.decodes
  apply Program.staysWithin_of_height_le
  intro statement hstatement
  have hdepth : params.depth < 127 := depth_lt_of_read hread hparams
  have hinside := depth_lt_of_parameters hparameters
  have hheight := Program.height_lt_of_ofValue hvalue hstatement
  omega

/-- A request to flatten that is answered carries a program, and the answer is what flattening the
program gives. -/
theorem exists_carries_of_execute
    {line : String} {request : Request} {reply : Reply} (hread : Request.read line = some request)
    (hcommand : request.command = "FLATTEN") (h : execute line = .ok reply) :
    ∃ program options flattening, request.Carries program options ∧
      program.flatten options = .ok flattening ∧ reply.data = flattening.toValue := by
  have hflatten : Service.flatten request.params = .ok reply.data := by
    simp only [execute, hread, Request.execute, hcommand] at h
    cases hdata : Service.flatten request.params with
    | error failure => simp [hdata, Except.map] at h
    | ok data =>
        simp only [hdata, Except.map, Except.ok.injEq] at h
        rw [← h]
  unfold Service.flatten at hflatten
  split at hflatten
  · cases hflatten
  · next params hparams =>
    split at hflatten
    · cases hflatten
    · next value options hparameters =>
      obtain ⟨program, hprogram, hflatten⟩ := exists_of_bind_eq_ok hflatten
      obtain ⟨flattening, hrows, hdata⟩ := exists_of_bind_eq_ok hflatten
      exact ⟨program, options, flattening,
        ⟨hcommand, params, value, hparams, hparameters, hprogram⟩, hrows,
        (Except.ok.inj hdata).symm⟩

/-! ## Trees as high as the bounds allow -/

/-- The request to flatten a printed value carries the value, if it is at most 125 deep. -/
theorem read_flattenRequest_compact
    {v : Value} (hplain : v.Plain 125) (hordered : v.Ordered) (strict : Bool) :
    Request.read (flattenRequest v.compact strict) =
      some { command := "FLATTEN", params := some (flattenParams v strict) } := by
  have hscan : Json.scan v.compact = some v.tokens := by
    rw [Json.scan, Value.compact, String.toList_ofList, Value.scanChars_write hplain]
  have hlimited : Builder.build (some 125) v.tokens = some v := by
    rw [Builder.build, Builder.start, Value.foldlM_tokens hplain (by simp),
      Value.sorted_eq_self hordered]
    rfl
  have hbuild := Builder.build_none_of_build hlimited
  have hdepth : Json.nesting 0 v.tokens ≤ 125 := by
    rw [Builder.build_some hbuild] at hlimited
    split_ifs at hlimited with hdepth
    exact hdepth
  rw [read_flattenRequest hscan hbuild, if_pos hdepth]

/-- A name that is negated so many times. -/
def negations : Nat → Node
  | 0 => .identifier ⟨0, 0⟩ "x"
  | count + 1 => .unary ⟨0, 0⟩ "-" (negations count)

/-- The members of the value of a negation, in which the place is left out. -/
def negationMembers (argument : Value) : Members :=
  [("argument", argument), ("operator", .string "-"), ("type", .string "UnaryExpression")]

/-- A value of a name that is negated so many times.  It is as deep as the tree is high. -/
def negationsValue : Nat → Value
  | 0 => .object [("name", .string "x"), ("type", .string "Identifier")]
  | count + 1 => .object (negationMembers (negationsValue count))

theorem height_negations (count : Nat) : (negations count).height = count + 1 := by
  induction count with
  | zero => rfl
  | succ count ih => rw [negations, Node.height, ih]

theorem node_negationsValue (count : Nat) (enclosure : Enclosure) :
    Decode.node enclosure (negationsValue count) = .ok (negations count) := by
  induction count generalizing enclosure with
  | zero =>
      rw [negationsValue, Decode.node_object]
      rfl
  | succ count ih =>
      have hstart : Decode.start enclosure (negationMembers (negationsValue count)) =
          .ok ⟨0, 0⟩ := rfl
      have hkind : Decode.kind (negationMembers (negationsValue count)) = .ok .unary := rfl
      have hargument : (Decode.fieldReader (negationMembers (negationsValue count))).node
          "argument" = .ok (some (negations count)) := by
        change (Decode.node .inner (negationsValue count)).map some = _
        rw [ih]
        rfl
      have hfields : ∀ pair ∈ (negations (count + 1)).fields,
          (Decode.fieldReader (negationMembers (negationsValue count))).Finds pair.1 pair.2 := by
        intro pair hpair
        rcases List.mem_cons.mp hpair with rfl | hpair
        · rfl
        · obtain rfl := List.mem_singleton.mp hpair
          exact hargument
      rw [negationsValue, Decode.node_object, hstart, hkind]
      exact Decode.assemble_eq_ok hfields

theorem plain_negationsValue (count : Nat) : (negationsValue count).Plain (count + 1) := by
  induction count with
  | zero => exact .object (by simp [Value.Plain.string])
  | succ count ih => exact .object (by simp [negationMembers, ih, Value.Plain.string])

theorem ordered_negationsValue (count : Nat) : (negationsValue count).Ordered := by
  induction count with
  | zero =>
      have hkeys : ["name".toList, "type".toList].Pairwise (· < ·) := by decide
      exact .object hkeys (by simp [Value.Ordered.string])
  | succ count ih =>
      have hkeys : ["argument".toList, "operator".toList, "type".toList].Pairwise (· < ·) := by
        decide
      exact .object hkeys (by simp [negationMembers, ih, Value.Ordered.string])

/-- The array of one statement, a name that is negated so many times. -/
def negationsArray (count : Nat) : Value :=
  .array [negationsValue count]

/-- The object that has this array as its body. -/
def negationsObject (count : Nat) : Value :=
  .object [("body", negationsArray count)]

section Negations

variable (count : Nat)

theorem ofValue_negationsArray :
    Program.ofValue (negationsArray count) = .ok ⟨[negations count]⟩ := by
  simp [negationsArray, Program.ofValue, Decode.nodeList, node_negationsValue]

theorem ofValue_negationsObject :
    Program.ofValue (negationsObject count) = .ok ⟨[negations count]⟩ := by
  simp [negationsObject, negationsArray, Program.ofValue, Decode.program, Decode.member,
    Members.get?, Decode.nodes, Decode.nodeList, node_negationsValue, Decode.require]

theorem plain_negationsArray : (negationsArray count).Plain (count + 2) :=
  .array (by simp [plain_negationsValue])

theorem ordered_negationsArray : (negationsArray count).Ordered :=
  .array (by simp [ordered_negationsValue])

/-- An array of negations that fills the limit of a text. -/
theorem ofText_negationsArray (h : count + 2 = Json.nestingLimit) :
    Program.ofText (negationsArray count).compact = .ok ⟨[negations count]⟩ := by
  have hparse : Json.parse (negationsArray count).compact = some (negationsArray count) :=
    Value.parse_compact (h ▸ plain_negationsArray count) (ordered_negationsArray count)
  simp only [Program.ofText, hparse, ofValue_negationsArray]

/-- An object with negations in its body that fills the limit of a text. -/
theorem parse_negationsObject (h : count + 3 = Json.nestingLimit) :
    Json.parse (negationsObject count).compact = some (negationsObject count) := by
  have hkeys : ["body".toList].Pairwise (· < ·) := by decide
  have hplain : (negationsObject count).Plain (count + 3) :=
    .object (by simp [plain_negationsArray])
  exact Value.parse_compact (h ▸ hplain) (.object hkeys (by simp [ordered_negationsArray]))

theorem ofText_negationsObject (h : count + 3 = Json.nestingLimit) :
    Program.ofText (negationsObject count).compact = .ok ⟨[negations count]⟩ := by
  simp only [Program.ofText, parse_negationsObject count h, ofValue_negationsObject]

theorem carries_negations :
    Request.Carries
      { command := "FLATTEN", params := some (flattenParams (negationsArray count) false) }
      ⟨[negations count]⟩ { strict := false } :=
  ⟨rfl, _, _, rfl, parameters_flattenParams _ false, ofValue_negationsArray count⟩

/-- A request to flatten negations that fills the limit of a text. -/
theorem read_negations (h : count + 2 = 125) :
    Request.read (flattenRequest (negationsArray count).compact false) =
      some
        { command := "FLATTEN", params := some (flattenParams (negationsArray count) false) } :=
  read_flattenRequest_compact (h ▸ plain_negationsArray count) (ordered_negationsArray count) false

theorem exists_execute_negations (h : count + 2 = 125) :
    ∃ reply, execute (flattenRequest (negationsArray count).compact false) = .ok reply := by
  simp [execute, read_negations count h, Request.execute, flatten_flattenParams,
    ofValue_negationsArray, Program.flatten, FlattenOptions.flatten, Except.map, Bind.bind,
    Except.bind]

end Negations

/-! ## The bounds -/

/-- No text drives the recursion deeper than this.  The trees of a program are at most 126 nodes
high if the program is read from a text, 125 if the text is an object, and 124 if the program is
carried by a request, as it is by every request to flatten that is answered.  To walk through the
statements and to find what they amount to takes no more calls inside one another. -/
theorem text_bounds_recursion :
    (∀ text program, Program.ofText text = .ok program → program.StaysWithin 126) ∧
    (∀ text program members, Json.parse text = some (.object members) →
      Program.ofText text = .ok program → program.StaysWithin 125) ∧
    ∀ line request, Request.read line = some request → request.command = "FLATTEN" →
      (∀ program options, request.Carries program options → program.StaysWithin 124) ∧
      ∀ reply, execute line = .ok reply →
        ∃ program options flattening, request.Carries program options ∧
          program.flatten options = .ok flattening ∧ reply.data = flattening.toValue := by
  refine ⟨fun _ _ => Program.staysWithin_of_ofText,
    fun _ _ _ => Program.staysWithin_of_parse_object, ?_⟩
  intro line request hread hcommand
  exact ⟨fun program options hcarries => hcarries.staysWithin hread,
    fun reply => exists_carries_of_execute hread hcommand⟩

/-- The three bounds are reached: by the text of an array, by the text of an object, and by a
request that is answered. -/
theorem text_bounds_recursion_negations :
    (Program.ofText (negationsArray 125).compact = .ok ⟨[negations 125]⟩ ∧
      (negations 125).height = 126 ∧ Program.StaysWithin ⟨[negations 125]⟩ 126) ∧
    (Json.parse (negationsObject 124).compact = some (negationsObject 124) ∧
      Program.ofText (negationsObject 124).compact = .ok ⟨[negations 124]⟩ ∧
      (negations 124).height = 125 ∧ Program.StaysWithin ⟨[negations 124]⟩ 125) ∧
    ∃ request reply,
      Request.read (flattenRequest (negationsArray 123).compact false) = some request ∧
      request.command = "FLATTEN" ∧
      execute (flattenRequest (negationsArray 123).compact false) = .ok reply ∧
      request.Carries ⟨[negations 123]⟩ { strict := false } ∧
      (negations 123).height = 124 ∧ Program.StaysWithin ⟨[negations 123]⟩ 124 := by
  obtain ⟨harray, hobject, hrequest⟩ := text_bounds_recursion
  have hfirst := ofText_negationsArray 125 rfl
  have hsecond := ofText_negationsObject 124 rfl
  have hparse := parse_negationsObject 124 rfl
  have hread := read_negations 123 rfl
  obtain ⟨reply, hreply⟩ := exists_execute_negations 123 rfl
  refine ⟨⟨hfirst, height_negations 125, harray _ _ hfirst⟩,
    ⟨hparse, hsecond, height_negations 124, hobject _ _ _ hparse hsecond⟩, ?_⟩
  exact ⟨_, reply, hread, rfl, hreply, carries_negations 123, height_negations 123,
    (hrequest _ _ hread rfl).1 _ _ (carries_negations 123)⟩

end Service

end StatementTable
