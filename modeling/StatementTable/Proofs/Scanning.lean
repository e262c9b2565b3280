import Mathlib.Tactic.SplitIfs
import StatementTable.Json.Scanner

/-!
# Scanning texts piece by piece

The scanner adds to the tokens it has found and never looks at them again, so a piece of a text
has the same tokens wherever it stands between tokens.  A word or a numeral ends where a
character follows that cannot belong to it.  So the tokens of a text that is put together from
pieces are those of its pieces.
-/

namespace StatementTable.Json

namespace Scanner

/-- A state with earlier tokens. -/
def after (earlier : List Token) (s : Scanner) : Scanner :=
  ⟨s.mode, s.tokens ++ earlier⟩

theorem stepIdle_append (tokens earlier : List Token) (c : Char) :
    stepIdle (tokens ++ earlier) c = (stepIdle tokens c).map (after earlier) := by
  unfold stepIdle
  split_ifs
  · rfl
  · rfl
  · rfl
  · rfl
  · cases Token.ofPunctuation c <;> rfl

/-- A step does not depend on the tokens before it. -/
theorem step_after (earlier : List Token) (s : Scanner) (c : Char) :
    step (s.after earlier) c = (step s c).map (after earlier) := by
  obtain ⟨mode, tokens⟩ := s
  cases mode with
  | idle => exact stepIdle_append tokens earlier c
  | word letters =>
      simp only [step, after]
      split_ifs
      · rfl
      · cases Token.ofWord letters.reverse with
        | none => rfl
        | some token => exact stepIdle_append (token :: tokens) earlier c
  | numeral chars =>
      simp only [step, after]
      split_ifs
      · rfl
      · cases Token.ofNumeral chars.reverse with
        | none => rfl
        | some token => exact stepIdle_append (token :: tokens) earlier c
  | text pieces =>
      simp only [step, after]
      split_ifs <;> rfl
  | escape pieces =>
      simp only [step, after]
      split_ifs
      · rfl
      · cases escaped? c <;> rfl
  | unit pieces count value =>
      simp only [step, after]
      cases hexDigit? c with
      | none => rfl
      | some digit =>
          simp only [Option.map_some]
          split_ifs <;> rfl

theorem foldlM_after (earlier : List Token) (cs : List Char) (s : Scanner) :
    cs.foldlM step (s.after earlier) = (cs.foldlM step s).map (after earlier) := by
  induction cs generalizing s with
  | nil => rfl
  | cons c cs ih =>
      simp only [List.foldlM_cons, step_after]
      cases step s c with
      | none => rfl
      | some s => exact ih s

theorem finish_after (earlier : List Token) (s : Scanner) :
    finish (s.after earlier) = (finish s).map (earlier.reverse ++ ·) := by
  obtain ⟨mode, tokens⟩ := s
  cases mode with
  | idle => simp [finish, after]
  | word letters => cases h : Token.ofWord letters.reverse <;> simp [finish, after, h]
  | numeral chars => cases h : Token.ofNumeral chars.reverse <;> simp [finish, after, h]
  | text | escape | unit => rfl

end Scanner

/-! ## Putting pieces together -/

/-- A character that ends a word or a numeral. -/
def Delimits (c : Char) : Prop :=
  c.isAlpha = false ∧ isNumeral c = false

instance (c : Char) : Decidable (Delimits c) :=
  inferInstanceAs (Decidable (_ ∧ _))

/-- Characters that begin with one that ends a word or a numeral, if there are any. -/
def Delimited (cs : List Char) : Prop :=
  ∀ c ∈ cs.head?, Delimits c

/-- Between tokens, the rest of a text is scanned as a text of its own. -/
theorem foldlM_idle_bind_finish (tokens : List Token) (cs : List Char) :
    (cs.foldlM Scanner.step ⟨.idle, tokens.reverse⟩).bind Scanner.finish =
      (scanChars cs).map (tokens ++ ·) := by
  have hidle : (⟨.idle, tokens.reverse⟩ : Scanner) = Scanner.start.after tokens.reverse := rfl
  rw [hidle, Scanner.foldlM_after, scanChars]
  cases cs.foldlM Scanner.step Scanner.start with
  | none => rfl
  | some s => simp [Scanner.finish_after]

/-- A piece that leaves the scanner between tokens is scanned apart from what follows. -/
theorem scanChars_append_of_idle
    {cs₁ : List Char} {tokens : List Token}
    (h : cs₁.foldlM Scanner.step Scanner.start = some ⟨.idle, tokens.reverse⟩)
    (cs₂ : List Char) :
    scanChars (cs₁ ++ cs₂) = (scanChars cs₂).map (tokens ++ ·) := by
  rw [scanChars, List.foldlM_append, h]
  exact foldlM_idle_bind_finish tokens cs₂

/-- At a character that ends a word or a numeral, what the text would be if it ended there is
settled. -/
theorem Scanner.step_of_finish
    {s : Scanner} {tokens : List Token} (h : s.finish = some tokens) {c : Char}
    (hc : Delimits c) : s.step c = Scanner.step ⟨.idle, tokens.reverse⟩ c := by
  obtain ⟨mode, earlier⟩ := s
  cases mode with
  | idle =>
      obtain rfl : earlier.reverse = tokens := by simpa [finish] using h
      simp [step]
  | word letters =>
      obtain ⟨token, htoken, rfl⟩ := Option.map_eq_some_iff.mp h
      simp [step, hc.1, htoken]
  | numeral chars =>
      obtain ⟨token, htoken, rfl⟩ := Option.map_eq_some_iff.mp h
      simp [step, hc.2, htoken]
  | text | escape | unit => cases h

/-- The tokens of two pieces are those of the first and those of the second, if the second begins
with a character that ends a word or a numeral. -/
theorem scanChars_append
    {cs₁ cs₂ : List Char} {tokens₁ tokens₂ : List Token}
    (h₁ : scanChars cs₁ = some tokens₁) (h₂ : scanChars cs₂ = some tokens₂)
    (hdelimited : Delimited cs₂) : scanChars (cs₁ ++ cs₂) = some (tokens₁ ++ tokens₂) := by
  cases cs₂ with
  | nil =>
      obtain rfl : [] = tokens₂ := by simpa [scanChars, Scanner.finish, Scanner.start] using h₂
      simpa using h₁
  | cons c cs₂ =>
      obtain ⟨s, hrun, hfinish⟩ := Option.bind_eq_some_iff.mp h₁
      have hrest : (c :: cs₂).foldlM Scanner.step s =
          (c :: cs₂).foldlM Scanner.step ⟨.idle, tokens₁.reverse⟩ := by
        rw [List.foldlM_cons, List.foldlM_cons,
          Scanner.step_of_finish hfinish (hdelimited c rfl)]
      rw [scanChars, List.foldlM_append, hrun]
      calc ((c :: cs₂).foldlM Scanner.step s).bind Scanner.finish
          = (scanChars (c :: cs₂)).map (tokens₁ ++ ·) := by
            rw [hrest, foldlM_idle_bind_finish]
        _ = some (tokens₁ ++ tokens₂) := by rw [h₂, Option.map_some]

end StatementTable.Json
