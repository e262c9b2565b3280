import StatementTable.Proofs.Nesting
import StatementTable.Proofs.RowValues
import StatementTable.Proofs.Scanning

/-!
# Requests to flatten a text

A request to flatten carries the text of a program inside two objects.  The service answers it
with what comes from reading and flattening the text by itself, failures included, as long as the
text leaves room for the two objects within the limit of nesting.  A text that fills the limit, or
all but one container of it, is read by itself but not inside a request.
-/

namespace StatementTable

open Json (Value Token Frame Builder Members Scanner)

namespace Service

/-- A request to flatten up to its text. -/
def requestHead : String :=
  "\x7b\"command\":\"FLATTEN\",\"params\":\x7b\"program\":"

def requestTail (strict : Bool) : String :=
  if strict then ",\"strict\":true\x7d\x7d" else ",\"strict\":false\x7d\x7d"

/-- The line that asks to flatten a text. -/
def flattenRequest (text : String) (strict : Bool) : String :=
  requestHead ++ text ++ requestTail strict

def headTokens : List Token :=
  [.openObject, .string (some "command"), .colon, .string (some "FLATTEN"), .comma,
    .string (some "params"), .colon, .openObject, .string (some "program"), .colon]

def tailTokens (strict : Bool) : List Token :=
  [.comma, .string (some "strict"), .colon, .bool strict, .closeObject, .closeObject]

theorem foldlM_requestHead :
    requestHead.toList.foldlM Scanner.step Scanner.start =
      some ⟨.idle, headTokens.reverse⟩ :=
  rfl

theorem scan_requestTail (strict : Bool) :
    Json.scanChars (requestTail strict).toList = some (tailTokens strict) := by
  cases strict <;> rfl

theorem delimited_requestTail (strict : Bool) : Json.Delimited (requestTail strict).toList := by
  have hhead : (requestTail strict).toList.head? = some ',' := by cases strict <;> rfl
  intro c hc
  obtain rfl : ',' = c := by simpa [hhead] using hc
  decide

/-- The tokens of a request are those of the text with the tokens of the request around them. -/
theorem scan_flattenRequest
    {text : String} {tokens : List Token} (h : Json.scan text = some tokens) (strict : Bool) :
    Json.scan (flattenRequest text strict) =
      some (headTokens ++ (tokens ++ tailTokens strict)) := by
  have hrest : Json.scanChars (text.toList ++ (requestTail strict).toList) =
      some (tokens ++ tailTokens strict) :=
    Json.scanChars_append h (scan_requestTail strict) (delimited_requestTail strict)
  rw [Json.scan, flattenRequest, String.toList_append, String.toList_append, List.append_assoc,
    Json.scanChars_append_of_idle foldlM_requestHead, hrest, Option.map_some]

/-! ## Reading the parameters of a request -/

theorem accept_params (token : Token) : Field.params.accept token = token := by
  cases token <;> rfl

theorem step_value
    {b b' : Builder} {token : Token} (h : b.step Field.params.limit token = some b')
    (hdone : ∀ v, b' ≠ .done v) (draft : Draft) (form : Form) :
    Reading.step (.value draft form .params b) token = some (.value draft form .params b') := by
  simp only [Reading.step, Reading.stepValue, accept_params, h]

theorem step_value_eq_none
    {b : Builder} {token : Token} (h : b.step Field.params.limit token = none)
    (draft : Draft) (form : Form) :
    Reading.step (.value draft form .params b) token = none := by
  simp only [Reading.step, Reading.stepValue, accept_params, h]

theorem onto_cons_ne_done (b : Builder) (frame : Frame) (base : List Frame) (v : Value) :
    b.onto (frame :: base) ≠ .done v := by
  cases b with
  | done w => cases frame <;> exact nofun
  | _ => exact nofun

/-- While a value is read inside the parameters, the reader of a request only passes the tokens
on: a container is open around the value, so no token completes the parameters. -/
theorem foldlM_reading_value
    {tokens : List Token} {b b' : Builder} (h : tokens.foldlM (Builder.step none) b = some b')
    (frame : Frame) (base : List Frame) (hlimit : b.height + (frame :: base).length ≤ 126)
    (draft : Draft) (form : Form) :
    tokens.foldlM Reading.step (.value draft form .params (b.onto (frame :: base))) =
      (tokens.foldlM (Builder.step Field.params.limit) (b.onto (frame :: base))).map
        (.value draft form .params) := by
  induction tokens generalizing b with
  | nil => rfl
  | cons token tokens ih =>
      rw [List.foldlM_cons] at h
      obtain ⟨next, hstep, hrun⟩ := Option.bind_eq_some_iff.mp h
      have hnext : (b.onto (frame :: base)).step Field.params.limit token = _ :=
        (Builder.step_onto hstep hlimit).2
      rw [List.foldlM_cons, List.foldlM_cons]
      by_cases hopen : next.height + (frame :: base).length ≤ 126
      · rw [if_pos hopen] at hnext
        rw [hnext, step_value hnext (onto_cons_ne_done next frame base)]
        exact ih hrun hopen
      · rw [if_neg hopen] at hnext
        rw [hnext, step_value_eq_none hnext]
        rfl

def flattenParams (program : Value) (strict : Bool) : Value :=
  .object [("program", program), ("strict", .bool strict)]

/-- What the reader of a request waits for where the text begins. -/
def atText : Reading :=
  .value { command := some "FLATTEN" } .named .params (.expectValue [.object [] "program"])

theorem foldlM_headTokens : headTokens.foldlM Reading.step .opening = some atText :=
  rfl

theorem foldlM_tailTokens (program : Value) (strict : Bool) :
    (tailTokens strict).foldlM Reading.step
        (.value { command := some "FLATTEN" } .named .params
          (.afterMember [] [("program", program)])) =
      some (.closed
        { command := some "FLATTEN", params := some (flattenParams program strict) }) :=
  rfl

/-- The text of a request is read exactly if it is nested at most 125 deep. -/
theorem foldlM_atText
    {tokens : List Token} {v : Value} (h : Builder.build none tokens = some v) :
    tokens.foldlM Reading.step atText =
      if Json.nesting 0 tokens ≤ 125 then
        some (.value { command := some "FLATTEN" } .named .params
          (.afterMember [] [("program", v)]))
      else none := by
  obtain ⟨b, hrun, hresult⟩ := Option.bind_eq_some_iff.mp h
  obtain rfl : b = .done v := by
    cases b with
    | done w => exact congrArg Builder.done (Option.some.inj hresult)
    | _ => cases hresult
  have hvalue : tokens.foldlM Reading.step atText =
      (tokens.foldlM (Builder.step Field.params.limit)
        (Builder.start.onto [.object [] "program"])).map
          (.value { command := some "FLATTEN" } .named .params) :=
    foldlM_reading_value hrun (.object [] "program") [] (by decide) _ _
  have hlimited : tokens.foldlM (Builder.step Field.params.limit)
      (Builder.start.onto [.object [] "program"]) =
        if Json.nesting 0 tokens + 1 ≤ 126 then some (.afterMember [] [("program", v)])
        else none :=
    Builder.foldlM_step_onto hrun (by decide)
  rw [hvalue, hlimited]
  by_cases hdepth : Json.nesting 0 tokens ≤ 125
  · rw [if_pos hdepth, if_pos (Nat.succ_le_succ hdepth), Option.map_some]
  · rw [if_neg hdepth, if_neg fun h => hdepth (Nat.le_of_succ_le_succ h), Option.map_none]

theorem read_flattenRequest
    {text : String} {tokens : List Token} {v : Value} (hscan : Json.scan text = some tokens)
    (hbuild : Builder.build none tokens = some v) (strict : Bool) :
    Request.read (flattenRequest text strict) =
      if Json.nesting 0 tokens ≤ 125 then
        some { command := "FLATTEN", params := some (flattenParams v strict) }
      else none := by
  rw [Request.read, scan_flattenRequest hscan]
  simp only [Option.bind_eq_bind, Option.bind_some, List.foldlM_append, foldlM_headTokens,
    foldlM_atText hbuild]
  split_ifs
  · simp only [Option.bind_some, foldlM_tailTokens]
    rfl
  · rfl

/-! ## Answering a request to flatten -/

theorem parameters_flattenParams (program : Value) (strict : Bool) :
    Decode.parameters (flattenParams program strict) = .ok (program, { strict := strict }) :=
  rfl

theorem flatten_flattenParams (program : Value) (strict : Bool) :
    Service.flatten (some (flattenParams program strict)) =
      (Program.ofValue program >>= Program.flatten { strict := strict }).map
        Flattening.toValue := by
  simp only [Service.flatten, parameters_flattenParams]
  cases Program.ofValue program with
  | error failure => rfl
  | ok program =>
      change (Program.flatten _ program >>= fun flattening => .ok flattening.toValue) =
        (Program.flatten _ program).map Flattening.toValue
      cases Program.flatten { strict := strict } program <;> rfl

/-- A request to flatten a text comes down to reading and flattening the text by itself, if the
text leaves room for the request around it. -/
theorem execute_flattenRequest
    {text : String} {depth : Nat} (h : Json.textDepth? text = some depth) (strict : Bool) :
    execute (flattenRequest text strict) =
      if depth ≤ 125 then
        (Program.ofText text >>= Program.flatten { strict := strict }).map
          fun flattening => { data := flattening.toValue }
      else .error ⟨[.request], .malformed⟩ := by
  obtain ⟨tokens, v, hscan, hbuild, rfl⟩ := Json.textDepth?_eq_some_iff.mp h
  rw [execute, read_flattenRequest hscan hbuild]
  by_cases hdepth : Json.nesting 0 tokens ≤ 125
  · have hparse : Json.parse text = some v :=
      Json.parse_eq_some_iff.mpr ⟨tokens, hscan, hbuild, Nat.le_trans hdepth (by decide)⟩
    have htext : Program.ofText text = Program.ofValue v := by rw [Program.ofText, hparse]
    rw [if_pos hdepth, if_pos hdepth, htext]
    change (Service.flatten (some (flattenParams v strict))).map _ = _
    rw [flatten_flattenParams]
    cases Program.ofValue v >>= Program.flatten { strict := strict } <;> rfl
  · rw [if_neg hdepth, if_neg hdepth]

end Service

theorem Program.flatten_eq_ok_iff
    {options : FlattenOptions} {program : Program} {flattening : Flattening} :
    program.flatten options = .ok flattening ↔
      options.flatten program.body = .ok flattening.rows ∧
        unsupportedLines program.body = flattening.unsupported := by
  obtain ⟨rows, lines⟩ := flattening
  unfold Program.flatten
  cases options.flatten program.body <;> simp

theorem Program.ofText_bind_flatten_eq_ok_iff
    {options : FlattenOptions} {text : String} {flattening : Flattening} :
    (Program.ofText text >>= Program.flatten options) = .ok flattening ↔
      ∃ program, Program.ofText text = .ok program ∧
        options.flatten program.body = .ok flattening.rows ∧
        unsupportedLines program.body = flattening.unsupported := by
  cases htext : Program.ofText text with
  | error failure => simp [Bind.bind, Except.bind]
  | ok program => simp [Bind.bind, Except.bind, Program.flatten_eq_ok_iff]

namespace Service

/-- A line is answered with what comes from reading and flattening a text. -/
structure AnsweredAs (line text : String) (options : FlattenOptions) : Prop where
  /-- The line is answered without a failure exactly if the text is a program that flattens. -/
  succeeds_iff : (∃ reply, execute line = .ok reply) ↔
    ∃ program rows, Program.ofText text = .ok program ∧
      options.flatten program.body = .ok rows
  /-- The answer holds the rows and the lines passed over, and the service goes on. -/
  holds : ∀ reply program rows, execute line = .ok reply → Program.ofText text = .ok program →
    options.flatten program.body = .ok rows →
      HoldsFlattening reply.data rows (unsupportedLines program.body) ∧ reply.shutdown = false
  /-- The failures are the same, with their contexts and causes. -/
  fails_iff : ∀ failure, execute line = .error failure ↔
    (Program.ofText text >>= Program.flatten options) = .error failure

theorem answeredAs_of_execute_eq
    {line text : String} {options : FlattenOptions}
    (h : execute line = (Program.ofText text >>= Program.flatten options).map
      fun flattening => { data := flattening.toValue }) :
    AnsweredAs line text options := by
  have hok : ∀ program rows, Program.ofText text = .ok program →
      options.flatten program.body = .ok rows →
        execute line = .ok
          { data := Flattening.toValue ⟨rows, unsupportedLines program.body⟩ } := by
    intro program rows htext hrows
    have hresult : (Program.ofText text >>= Program.flatten options) =
        .ok ⟨rows, unsupportedLines program.body⟩ :=
      Program.ofText_bind_flatten_eq_ok_iff.mpr ⟨program, htext, hrows, rfl⟩
    rw [h, hresult]
    rfl
  refine ⟨⟨?_, ?_⟩, ?_, ?_⟩
  · rintro ⟨reply, hreply⟩
    cases hresult : Program.ofText text >>= Program.flatten options with
    | error failure => simp [h, hresult, Except.map] at hreply
    | ok flattening =>
        obtain ⟨program, htext, hrows, -⟩ := Program.ofText_bind_flatten_eq_ok_iff.mp hresult
        exact ⟨program, flattening.rows, htext, hrows⟩
  · rintro ⟨program, rows, htext, hrows⟩
    exact ⟨_, hok program rows htext hrows⟩
  · intro reply program rows hreply htext hrows
    cases (hok program rows htext hrows).symm.trans hreply
    exact ⟨Flattening.holdsFlattening_toValue ⟨rows, _⟩, rfl⟩
  · intro failure
    rw [h]
    cases Program.ofText text >>= Program.flatten options <;> simp [Except.map]

/-- The service and the reader of texts agree on every text.  Inside a request a text may be
nested 125 deep and by itself 127 deep, and between the two bounds only the request is refused. -/
theorem flattenRequest_agrees_with_text (text : String) (strict : Bool) :
    ((∃ v, Json.parse text = some v) ↔ ∃ depth ≤ 127, Json.textDepth? text = some depth) ∧
    (∀ depth ≤ 125, Json.textDepth? text = some depth →
      AnsweredAs (flattenRequest text strict) text { strict := strict }) ∧
    (∀ depth, depth = 126 ∨ depth = 127 → Json.textDepth? text = some depth →
      (∃ v, Json.parse text = some v) ∧
      ∃ failure, execute (flattenRequest text strict) = .error failure ∧
        failure.message = "Invalid JSON format") := by
  refine ⟨Json.exists_parse_iff, ?_, ?_⟩
  · intro depth hdepth htext
    exact answeredAs_of_execute_eq (by rw [execute_flattenRequest htext, if_pos hdepth])
  · intro depth hdepth htext
    have hlimit : depth ≤ 127 := by omega
    refine ⟨Json.exists_parse_iff.mpr ⟨depth, hlimit, htext⟩, ⟨[.request], .malformed⟩, ?_, rfl⟩
    rw [execute_flattenRequest htext, if_neg (by omega)]

/-- Empty arrays inside one another. -/
def nestedArrays (depth : Nat) : String :=
  String.ofList (List.replicate depth '[' ++ List.replicate depth ']')

/-- On either side of the bound of a request: 125 arrays are answered as the text by itself, and
the 126th is one too many only for the request. -/
theorem flattenRequest_agrees_with_text_nestedArrays :
    (Json.textDepth? (nestedArrays 125) = some 125 ∧
      AnsweredAs (flattenRequest (nestedArrays 125) true) (nestedArrays 125) { strict := true }) ∧
    (Json.textDepth? (nestedArrays 126) = some 126 ∧
      (∃ v, Json.parse (nestedArrays 126) = some v) ∧
      ∃ failure, execute (flattenRequest (nestedArrays 126) true) = .error failure ∧
        failure.message = "Invalid JSON format") := by
  have hinside : Json.textDepth? (nestedArrays 125) = some 125 := by
    rw [Json.textDepth?, Json.scan, nestedArrays, String.toList_ofList]
    decide +kernel
  have hbeyond : Json.textDepth? (nestedArrays 126) = some 126 := by
    rw [Json.textDepth?, Json.scan, nestedArrays, String.toList_ofList]
    decide +kernel
  have hanswered := (flattenRequest_agrees_with_text _ true).2.1 125 (by decide) hinside
  have hrefused := (flattenRequest_agrees_with_text _ true).2.2 126 (by decide) hbeyond
  exact ⟨⟨hinside, hanswered⟩, hbeyond, hrefused⟩

end Service

end StatementTable
