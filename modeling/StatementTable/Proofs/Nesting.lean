import Mathlib.Tactic.SplitIfs
import StatementTable.Json.Builder

/-!
# The depth of nesting

The nesting of a text is the largest number of containers that are open at once.  A builder with
a limit reads exactly what a builder without one reads and is not nested deeper.  What is read
inside containers that are open already is read as by itself, with those containers counted.
-/

namespace StatementTable.Json

namespace Token

/-- The number of open containers after a token. -/
def depthAfter (depth : Nat) : Token → Nat
  | .openArray | .openObject => depth + 1
  | .closeArray | .closeObject => depth - 1
  | _ => depth

end Token

/-- The largest number of containers that are open at once while tokens are read, if so many are
open before. -/
def nesting (depth : Nat) : List Token → Nat
  | [] => depth
  | token :: tokens => max depth (nesting (token.depthAfter depth) tokens)

theorem le_nesting (depth : Nat) (tokens : List Token) : depth ≤ nesting depth tokens := by
  cases tokens with
  | nil => exact Nat.le_refl depth
  | cons token tokens => exact Nat.le_max_left _ _

namespace Builder

/-- The number of open containers. -/
def height : Builder → Nat
  | .expectValue stack => stack.length
  | .firstItem stack | .afterItem stack _ | .expectKey stack _ _ | .expectColon stack _ _
  | .afterMember stack _ => stack.length + 1
  | .done _ => 0

/-- The state inside containers that were open before. -/
def onto (base : List Frame) : Builder → Builder
  | .expectValue stack => .expectValue (stack ++ base)
  | .firstItem stack => .firstItem (stack ++ base)
  | .afterItem stack items => .afterItem (stack ++ base) items
  | .expectKey stack members mayEnd => .expectKey (stack ++ base) members mayEnd
  | .expectColon stack members key => .expectColon (stack ++ base) members key
  | .afterMember stack members => .afterMember (stack ++ base) members
  | .done value => complete base value

theorem onto_nil (b : Builder) : b.onto [] = b := by
  cases b <;> simp [onto, complete]

@[simp] theorem height_complete (stack : List Frame) (value : Value) :
    (complete stack value).height = stack.length := by
  cases stack with
  | nil => rfl
  | cons frame stack => cases frame <;> rfl

theorem complete_append (stack base : List Frame) (value : Value) :
    complete (stack ++ base) value = (complete stack value).onto base := by
  cases stack with
  | nil => rfl
  | cons frame stack => cases frame <;> rfl

theorem mayOpen_some_append (limit : Nat) (stack base : List Frame) :
    mayOpen (some limit) (stack ++ base) = decide (stack.length + 1 + base.length ≤ limit) := by
  simp [mayOpen]
  omega

/-- The first token of a value is the whole value, or it opens a container. -/
theorem beginValue_cases
    {stack : List Frame} {token : Token} {b : Builder}
    (h : beginValue none stack token = some b) :
    (∃ value, b = complete stack value ∧ (∀ depth, token.depthAfter depth = depth) ∧
      ∀ limit stack, beginValue limit stack token = some (complete stack value)) ∨
    (token = .openArray ∧ b = .firstItem stack) ∨
    (token = .openObject ∧ b = .expectKey stack [] true) := by
  cases token with
  | null | bool =>
      obtain rfl := Option.some.inj h
      exact Or.inl ⟨_, rfl, fun _ => rfl, fun _ _ => rfl⟩
  | number value =>
      cases value with
      | none => cases h
      | some n =>
          obtain rfl := Option.some.inj h
          exact Or.inl ⟨_, rfl, fun _ => rfl, fun _ _ => rfl⟩
  | string text =>
      cases text with
      | none => cases h
      | some s =>
          obtain rfl := Option.some.inj h
          exact Or.inl ⟨_, rfl, fun _ => rfl, fun _ _ => rfl⟩
  | openArray => exact Or.inr (Or.inl ⟨rfl, (Option.some.inj h).symm⟩)
  | openObject => exact Or.inr (Or.inr ⟨rfl, (Option.some.inj h).symm⟩)
  | closeArray | closeObject | colon | comma => cases h

/-- What the first token of a value does under a limit, given what it does without one. -/
theorem beginValue_onto
    {stack : List Frame} {token : Token} {b : Builder}
    (h : beginValue none stack token = some b) {limit : Nat} {base : List Frame}
    (hlimit : stack.length + base.length ≤ limit) :
    b.height = token.depthAfter stack.length ∧
    beginValue (some limit) (stack ++ base) token =
      if b.height + base.length ≤ limit then some (b.onto base) else none := by
  obtain ⟨value, rfl, hdepth, hbegin⟩ | ⟨rfl, rfl⟩ | ⟨rfl, rfl⟩ := beginValue_cases h
  · rw [height_complete, hdepth, hbegin, if_pos hlimit, complete_append]
    exact ⟨rfl, rfl⟩
  · refine ⟨rfl, ?_⟩
    by_cases hopen : stack.length + 1 + base.length ≤ limit <;>
      simp [height, beginValue, mayOpen_some_append, onto, hopen]
  · refine ⟨rfl, ?_⟩
    by_cases hopen : stack.length + 1 + base.length ≤ limit <;>
      simp [height, beginValue, mayOpen_some_append, onto, hopen]

theorem step_firstItem
    {token : Token} (h : token ≠ .closeArray) (limit : Option Nat) (stack : List Frame) :
    step limit (.firstItem stack) token = beginValue limit (.array [] :: stack) token := by
  cases token with
  | closeArray => exact absurd rfl h
  | _ => rfl

/-- A token that is taken without a limit is taken under a limit, inside containers that were
open before, unless it opens one container too many. -/
theorem step_onto
    {b b' : Builder} {token : Token} (h : step none b token = some b') {limit : Nat}
    {base : List Frame} (hlimit : b.height + base.length ≤ limit) :
    b'.height = token.depthAfter b.height ∧
    step (some limit) (b.onto base) token =
      if b'.height + base.length ≤ limit then some (b'.onto base) else none := by
  revert h
  fun_cases step none b token with
  | case1 stack token => exact fun h => beginValue_onto h hlimit
  | case3 stack token hclose =>
      intro h
      rw [onto, step_firstItem hclose]
      exact beginValue_onto h hlimit
  | case2 stack | case5 stack | case7 stack | case10 stack =>
      rintro ⟨⟩
      rw [height_complete, ← complete_append, if_pos (Nat.le_trans (by simp [height]) hlimit)]
      exact ⟨rfl, rfl⟩
  | case4 | case6 | case8 | case9 =>
      rintro ⟨⟩
      exact ⟨rfl, (if_pos hlimit).symm⟩
  | case11 => exact nofun

/-- Tokens that are read without a limit are read under a limit, inside containers that were open
before, exactly if they are not nested too deep. -/
theorem foldlM_step_onto
    {tokens : List Token} {b b' : Builder} (h : tokens.foldlM (step none) b = some b')
    {limit : Nat} {base : List Frame} (hlimit : b.height + base.length ≤ limit) :
    tokens.foldlM (step (some limit)) (b.onto base) =
      if nesting b.height tokens + base.length ≤ limit then some (b'.onto base) else none := by
  induction tokens generalizing b with
  | nil =>
      obtain rfl := Option.some.inj h
      exact (if_pos hlimit).symm
  | cons token tokens ih =>
      rw [List.foldlM_cons] at h
      obtain ⟨next, hstep, hrun⟩ := Option.bind_eq_some_iff.mp h
      obtain ⟨hheight, hnext⟩ := step_onto hstep hlimit
      have hle := le_nesting next.height tokens
      rw [List.foldlM_cons, hnext, nesting, ← hheight]
      by_cases hopen : next.height + base.length ≤ limit
      · have hiff : max b.height (nesting next.height tokens) + base.length ≤ limit ↔
            nesting next.height tokens + base.length ≤ limit := by omega
        simp only [if_pos hopen, hiff]
        exact ih hrun hopen
      · rw [if_neg hopen, if_neg (by omega)]
        rfl

/-- A builder with a limit reads what a builder without one reads, if it is not nested too deep. -/
theorem build_some
    {tokens : List Token} {v : Value} (h : build none tokens = some v) (limit : Nat) :
    build (some limit) tokens = if nesting 0 tokens ≤ limit then some v else none := by
  obtain ⟨b, hrun, hresult⟩ := Option.bind_eq_some_iff.mp h
  have hlimited : tokens.foldlM (step (some limit)) start =
      if nesting 0 tokens ≤ limit then some b else none := by
    have honto : tokens.foldlM (step (some limit)) (start.onto []) = _ :=
      foldlM_step_onto hrun (Nat.zero_le limit)
    rwa [onto_nil, onto_nil] at honto
  rw [build, hlimited]
  split_ifs
  · exact hresult
  · rfl

theorem beginValue_none_of_beginValue
    {limit : Option Nat} {stack : List Frame} {token : Token} {b : Builder}
    (h : beginValue limit stack token = some b) : beginValue none stack token = some b := by
  revert h
  fun_cases beginValue limit stack token with
  | case6 => exact nofun
  | case8 => exact nofun
  | case9 => exact nofun
  | _ => exact id

theorem step_none_of_step
    {limit : Option Nat} {b b' : Builder} {token : Token} (h : step limit b token = some b') :
    step none b token = some b' := by
  revert h
  fun_cases step limit b token with
  | case1 stack token => exact beginValue_none_of_beginValue
  | case3 stack token hclose =>
      rw [step_firstItem hclose]
      exact beginValue_none_of_beginValue
  | case11 => exact nofun
  | _ => exact id

theorem foldlM_step_none_of_step
    {limit : Option Nat} {tokens : List Token} {b b' : Builder}
    (h : tokens.foldlM (step limit) b = some b') : tokens.foldlM (step none) b = some b' := by
  induction tokens generalizing b with
  | nil => exact h
  | cons token tokens ih =>
      rw [List.foldlM_cons] at h ⊢
      obtain ⟨next, hstep, hrun⟩ := Option.bind_eq_some_iff.mp h
      rw [step_none_of_step hstep]
      exact ih hrun

/-- What a builder reads under a limit it also reads without one. -/
theorem build_none_of_build
    {limit : Option Nat} {tokens : List Token} {v : Value} (h : build limit tokens = some v) :
    build none tokens = some v := by
  obtain ⟨b, hrun, hresult⟩ := Option.bind_eq_some_iff.mp h
  rw [build, foldlM_step_none_of_step hrun]
  exact hresult

end Builder

/-! ## Texts -/

/-- The depth of nesting of a JSON text, whatever the limit, or `none` if the text is not JSON. -/
def textDepth? (text : String) : Option Nat :=
  (scan text).bind fun tokens =>
    (Builder.build none tokens).map fun _ => nesting 0 tokens

theorem textDepth?_eq_some_iff {text : String} {depth : Nat} :
    textDepth? text = some depth ↔
      ∃ tokens v, scan text = some tokens ∧ Builder.build none tokens = some v ∧
        nesting 0 tokens = depth := by
  simp [textDepth?, Option.bind_eq_some_iff, Option.map_eq_some_iff]

/-- A text is read if it is JSON that is not nested too deep. -/
theorem parse_eq_some_iff {text : String} {v : Value} :
    parse text = some v ↔
      ∃ tokens, scan text = some tokens ∧ Builder.build none tokens = some v ∧
        nesting 0 tokens ≤ nestingLimit := by
  rw [parse, Option.bind_eq_some_iff]
  constructor
  · rintro ⟨tokens, hscan, hbuild⟩
    have hnone := Builder.build_none_of_build hbuild
    refine ⟨tokens, hscan, hnone, ?_⟩
    rw [Builder.build_some hnone] at hbuild
    split_ifs at hbuild with hdepth
    exact hdepth
  · rintro ⟨tokens, hscan, hnone, hdepth⟩
    exact ⟨tokens, hscan, by rw [Builder.build_some hnone, if_pos hdepth]⟩

theorem exists_parse_iff {text : String} :
    (∃ v, parse text = some v) ↔ ∃ depth ≤ nestingLimit, textDepth? text = some depth := by
  simp only [parse_eq_some_iff, textDepth?_eq_some_iff]
  constructor
  · rintro ⟨v, tokens, hscan, hbuild, hdepth⟩
    exact ⟨_, hdepth, tokens, v, hscan, hbuild, rfl⟩
  · rintro ⟨_, hdepth, tokens, v, hscan, hbuild, rfl⟩
    exact ⟨v, tokens, hscan, hbuild, hdepth⟩

end StatementTable.Json
