import Mathlib.Data.List.Forall2
import Mathlib.Data.List.TakeWhile
import StatementTable.Json.Printer
import StatementTable.Proofs.Nesting
import StatementTable.Proofs.Scanning

/-!
# Printed values

The text of a value is read back, whatever its layout: its tokens are those of the value, and
they build the value with the members of its objects sorted.  Strings may hold any characters.
The numbers are natural numbers below `2 ^ 64`.
-/

namespace StatementTable.Json

/-! ## Strings -/

theorem hexDigit?_hexDigit : ∀ n < 16, hexDigit? (hexDigit n) = some n := by
  decide

/-- A piece of a string stands for a character by itself. -/
inductive Piece.Spells : Piece → Char → Prop where
  | char (c : Char) : Spells (.char c) c
  | unit {c : Char} (h : c.toNat < 0x20) : Spells (.unit c.toNat) c

theorem Piece.Spells.join_cons
    {piece : Piece} {c : Char} (h : piece.Spells c) (rest : List Piece) :
    Piece.join (piece :: rest) = (Piece.join rest).map (c :: ·) := by
  cases h with
  | char c => rw [Piece.join]
  | unit h =>
      have hhigh : Piece.isHigh c.toNat = false := by simp [Piece.isHigh]; omega
      have hlow : Piece.isLow c.toNat = false := by simp [Piece.isLow]; omega
      cases rest with
      | nil => simp [Piece.join, hhigh, hlow]
      | cons next rest => cases next <;> simp [Piece.join, hhigh, hlow]

theorem Piece.join_of_forall₂
    {pieces : List Piece} {cs : List Char} (h : List.Forall₂ Piece.Spells pieces cs) :
    Piece.join pieces = some cs := by
  induction h with
  | nil => rfl
  | cons hpiece _ ih => rw [hpiece.join_cons, ih, Option.map_some]

/-- The escape of a character adds one piece to a string, which stands for the character. -/
theorem foldlM_escapeChar (c : Char) (pieces : List Piece) (tokens : List Token) :
    ∃ piece, Piece.Spells piece c ∧
      (escapeChar c).foldlM Scanner.step ⟨.text pieces, tokens⟩ =
        some ⟨.text (piece :: pieces), tokens⟩ := by
  fun_cases escapeChar c with
  | case8 c _ _ _ _ _ _ _ hcontrol =>
      refine ⟨.unit c.toNat, .unit hcontrol, ?_⟩
      have hhigh := hexDigit?_hexDigit (c.toNat / 16) (by omega)
      have hlow := hexDigit?_hexDigit (c.toNat % 16) (by omega)
      have hzero : hexDigit? '0' = some 0 := rfl
      simp [Scanner.step, hhigh, hlow, hzero]
      omega
  | case9 c hquote hbackslash _ _ _ _ _ hcontrol =>
      refine ⟨.char c, .char c, ?_⟩
      simp [Scanner.step, hcontrol, show c ≠ '"' from hquote, show c ≠ '\\' from hbackslash]
  | _ => exact ⟨.char _, .char _, rfl⟩

theorem foldlM_flatMap_escapeChar (cs : List Char) (pieces : List Piece) (tokens : List Token) :
    ∃ more, List.Forall₂ Piece.Spells more cs ∧
      (cs.flatMap escapeChar).foldlM Scanner.step ⟨.text pieces, tokens⟩ =
        some ⟨.text (more.reverse ++ pieces), tokens⟩ := by
  induction cs generalizing pieces with
  | nil => exact ⟨[], .nil, rfl⟩
  | cons c cs ih =>
      obtain ⟨piece, hpiece, hstep⟩ := foldlM_escapeChar c pieces tokens
      obtain ⟨more, hmore, hrun⟩ := ih (piece :: pieces)
      refine ⟨piece :: more, .cons hpiece hmore, ?_⟩
      rw [List.flatMap_cons, List.foldlM_append, hstep]
      simpa using hrun

/-- A string that was written is one token with its text. -/
theorem foldlM_writeString (s : String) :
    (writeString s).foldlM Scanner.step Scanner.start =
      some ⟨.idle, [Token.string (some s)].reverse⟩ := by
  obtain ⟨pieces, hpieces, hrun⟩ := foldlM_flatMap_escapeChar s.toList [] []
  have hopen : Scanner.step Scanner.start '"' = some ⟨.text [], []⟩ := rfl
  have hclose : Scanner.step ⟨.text (pieces.reverse ++ []), []⟩ '"' =
      some ⟨.idle, [Token.ofPieces pieces]⟩ := by
    simp [Scanner.step]
  simp only [writeString, List.cons_append, List.foldlM_cons, List.foldlM_append,
    List.foldlM_nil, hopen, hrun, hclose, Option.bind_eq_bind, Option.bind_some,
    Token.ofPieces, Piece.join_of_forall₂ hpieces, Option.map_some, String.ofList_toList]
  rfl

/-! ## Natural numbers -/

theorem Literal.le_foldl (n : Nat) (digits : List Nat) :
    n ≤ digits.foldl (fun n d => n * 10 + d) n := by
  induction digits generalizing n with
  | nil => exact Nat.le_refl n
  | cons d digits ih => exact Nat.le_trans (by omega) (ih (n * 10 + d))

theorem Literal.absorb_eq
    {n : Nat} {digits : List Nat} (h : digits.foldl (fun n d => n * 10 + d) n < UInt64.size) :
    Literal.absorb n digits = (digits.foldl (fun n d => n * 10 + d) n, []) := by
  induction digits generalizing n with
  | nil => rfl
  | cons d digits ih =>
      rw [List.foldl_cons] at h
      rw [Literal.absorb, if_pos (Nat.lt_of_le_of_lt (Literal.le_foldl _ digits) h), ih h,
        List.foldl_cons]

theorem Literal.ofDigits_toDigits (n : Nat) :
    Literal.ofDigits ((Nat.toDigits 10 n).map Literal.digitValue) = n := by
  rw [Literal.ofDigits, List.foldl_map]
  have h := Nat.ofDigitChars_ten_toDigits (n := n)
  rw [Nat.ofDigitChars_eq_foldl] at h
  simpa [Literal.digitValue, Nat.mul_comm] using h

/-- The digits of a positive number do not begin with a zero. -/
theorem head_toDigits_ne {n : Nat} (h : 0 < n) : (Nat.toDigits 10 n).head? ≠ some '0' := by
  induction n using Nat.strongRecOn with
  | ind n ih =>
      by_cases hlt : n < 10
      · rw [Nat.toDigits_of_lt_base hlt]
        have : ∀ m < 10, 0 < m → [Nat.digitChar m].head? ≠ some '0' := by decide
        exact this n hlt h
      · rw [Nat.toDigits_of_base_le (by decide) (Nat.le_of_not_lt hlt), List.head?_append]
        have hne := ih (n / 10) (by omega) (by omega)
        cases hdigits : Nat.toDigits 10 (n / 10) with
        | nil => exact absurd hdigits Nat.toDigits_ne_nil
        | cons c cs => simpa [hdigits] using hne

theorem Literal.digitValue_ne_zero {c : Char} (hdigit : c.isDigit) (h : c ≠ '0') :
    Literal.digitValue c ≠ 0 := by
  intro hzero
  have hle : '0'.toNat ≤ c.toNat := (Char.isDigit_iff_toNat.mp hdigit).1
  exact h (Char.toNat_inj.mp (Nat.le_antisymm (Nat.le_of_sub_eq_zero hzero) hle))

theorem Literal.isWhole_toDigits (n : Nat) :
    Literal.isWhole ((Nat.toDigits 10 n).map Literal.digitValue) = true := by
  cases hdigits : Nat.toDigits 10 n with
  | nil => exact absurd hdigits Nat.toDigits_ne_nil
  | cons c cs =>
      cases cs with
      | nil => rfl
      | cons d cs =>
          have hmem : c ∈ Nat.toDigits 10 n := by simp [hdigits]
          have hdigit : c.isDigit := Nat.isDigit_of_mem_toDigits (by decide) (by decide) hmem
          have hpos : 0 < n := by
            refine Nat.pos_of_ne_zero fun hzero => ?_
            simp [hzero] at hdigits
          have hne : c ≠ '0' := by simpa [hdigits] using head_toDigits_ne hpos
          simpa [Literal.isWhole] using Literal.digitValue_ne_zero hdigit hne

theorem Literal.read_toDigits (n : Nat) :
    Literal.read (Nat.toDigits 10 n) =
      some ⟨false, (Nat.toDigits 10 n).map Literal.digitValue, none, none⟩ := by
  have hdigits : ∀ c ∈ Nat.toDigits 10 n, c.isDigit := fun c hc =>
    Nat.isDigit_of_mem_toDigits (by decide) (by decide) hc
  have hsign : Literal.splitSign (Nat.toDigits 10 n) = (false, Nat.toDigits 10 n) := by
    cases hcs : Nat.toDigits 10 n with
    | nil => rfl
    | cons c cs =>
        have hc : c ≠ '-' := by
          rintro rfl
          exact absurd (hdigits '-' (by simp [hcs])) (by decide)
        simp [Literal.splitSign, hc]
  have hsplit : Literal.splitDigits (Nat.toDigits 10 n) =
      ((Nat.toDigits 10 n).map Literal.digitValue, []) := by
    rw [Literal.splitDigits, List.takeWhile_eq_self_iff.mpr hdigits,
      List.dropWhile_eq_nil_iff.mpr hdigits]
  simp [Literal.read, hsign, hsplit, Literal.isWhole_toDigits, Literal.splitFraction,
    Literal.readExponent]

theorem Literal.value_toDigits (n : UInt64) :
    Literal.value ⟨false, (Nat.toDigits 10 n.toNat).map Literal.digitValue, none, none⟩ =
      some (.natural n) := by
  have hvalue := Literal.ofDigits_toDigits n.toNat
  rw [Literal.ofDigits] at hvalue
  have habsorb : Literal.absorb 0 ((Nat.toDigits 10 n.toNat).map Literal.digitValue) =
      (n.toNat, []) := by
    rw [Literal.absorb_eq (by rw [hvalue]; exact n.toNat_lt_size), hvalue]
  simp [Literal.value, habsorb, Literal.integer]

theorem foldlM_digits
    {cs : List Char} (h : ∀ c ∈ cs, c.isDigit) (chars : List Char) (tokens : List Token) :
    cs.foldlM Scanner.step ⟨.numeral chars, tokens⟩ =
      some ⟨.numeral (cs.reverse ++ chars), tokens⟩ := by
  induction cs generalizing chars with
  | nil => rfl
  | cons c cs ih =>
      have hc : isNumeral c = true := by simp [isNumeral, h c (by simp)]
      have hstep : Scanner.step ⟨.numeral chars, tokens⟩ c =
          some ⟨.numeral (c :: chars), tokens⟩ := by
        simp [Scanner.step, hc]
      rw [List.foldlM_cons, hstep]
      simpa using ih (fun d hd => h d (by simp [hd])) (c :: chars)

theorem scanChars_toDigits (n : UInt64) :
    scanChars (Nat.toDigits 10 n.toNat) = some [.number (some (.natural n))] := by
  have hdigits : ∀ c ∈ Nat.toDigits 10 n.toNat, c.isDigit := fun c hc =>
    Nat.isDigit_of_mem_toDigits (by decide) (by decide) hc
  have htoken : Token.ofNumeral (Nat.toDigits 10 n.toNat) =
      some (.number (some (.natural n))) := by
    rw [Token.ofNumeral, Literal.read_toDigits, Option.map_some, Literal.value_toDigits]
  cases hcs : Nat.toDigits 10 n.toNat with
  | nil => exact absurd hcs Nat.toDigits_ne_nil
  | cons c cs =>
      rw [hcs] at hdigits htoken
      have hc : c.isDigit := hdigits c (by simp)
      have hne : ∀ d : Char, d.isDigit = false → c ≠ d := by
        rintro d hd rfl
        exact absurd hc (by simp [hd])
      have hstart : Scanner.step Scanner.start c = some ⟨.numeral [c], []⟩ := by
        simp [Scanner.start, Scanner.step, Scanner.stepIdle, isSpace, hc, hne ' ' rfl,
          hne '\t' rfl, hne '\n' rfl, hne '\r' rfl, hne '"' rfl]
      rw [scanChars, List.foldlM_cons, hstart]
      change (cs.foldlM Scanner.step ⟨.numeral [c], []⟩).bind Scanner.finish = _
      rw [foldlM_digits (fun d hd => hdigits d (by simp [hd]))]
      simp [Scanner.finish, htoken]

/-! ## Tokens -/

theorem scanChars_punctuation
    {c : Char} {token : Token} (h : Token.ofPunctuation c = some token) (cs : List Char) :
    scanChars (c :: cs) = (scanChars cs).map (token :: ·) := by
  have hstep : [c].foldlM Scanner.step Scanner.start = some ⟨.idle, [token].reverse⟩ := by
    revert h
    fun_cases Token.ofPunctuation c with
    | case7 => exact nofun
    | _ => rintro ⟨⟩; rfl
  exact scanChars_append_of_idle hstep cs

theorem scanChars_space {c : Char} (h : isSpace c = true) (cs : List Char) :
    scanChars (c :: cs) = scanChars cs := by
  have hstep : [c].foldlM Scanner.step Scanner.start = some ⟨.idle, [].reverse⟩ := by
    simp [Scanner.start, Scanner.step, Scanner.stepIdle, h]
  simpa using scanChars_append_of_idle hstep cs

theorem scanChars_newline (layout : Layout) (depth : Nat) (cs : List Char) :
    scanChars (layout.newline depth ++ cs) = scanChars cs := by
  have hspaces : ∀ n, scanChars (List.replicate n ' ' ++ cs) = scanChars cs := by
    intro n
    induction n with
    | zero => rfl
    | succ n ih => rw [List.replicate_succ, List.cons_append, scanChars_space rfl, ih]
  cases layout with
  | compact => rfl
  | lines indent => rw [Layout.newline, List.cons_append, scanChars_space rfl, hspaces]

theorem scanChars_colon (layout : Layout) (cs : List Char) :
    scanChars (layout.colon ++ cs) = (scanChars cs).map (.colon :: ·) := by
  cases layout with
  | compact => exact scanChars_punctuation rfl cs
  | lines indent =>
      rw [Layout.colon, List.cons_append, scanChars_punctuation rfl, List.cons_append,
        scanChars_space rfl, List.nil_append]

theorem scanChars_writeString (s : String) (cs : List Char) :
    scanChars (writeString s ++ cs) = (scanChars cs).map (.string (some s) :: ·) :=
  scanChars_append_of_idle (foldlM_writeString s) cs

namespace Value

mutual

def tokens : Value → List Token
  | .null => [.null]
  | .bool b => [.bool b]
  | .number n => [.number (some n)]
  | .string s => [.string (some s)]
  | .array [] => [.openArray, .closeArray]
  | .array (item :: items) =>
    .openArray :: tokens item ++ itemTokens items ++ [.closeArray]
  | .object [] => [.openObject, .closeObject]
  | .object ((key, value) :: members) =>
    .openObject :: .string (some key) :: .colon :: tokens value ++ memberTokens members ++
      [.closeObject]

/-- The tokens of the items of an array after the first one. -/
def itemTokens : List Value → List Token
  | [] => []
  | item :: items => .comma :: tokens item ++ itemTokens items

/-- The tokens of the members of an object after the first one. -/
def memberTokens : List (String × Value) → List Token
  | [] => []
  | (key, value) :: members =>
    .comma :: .string (some key) :: .colon :: tokens value ++ memberTokens members

end

/-- The numbers of a value are natural numbers, and at most so many containers are inside one
another. -/
inductive Plain : Nat → Value → Prop where
  | null (depth : Nat) : Plain depth .null
  | bool (depth : Nat) (b : Bool) : Plain depth (.bool b)
  | natural (depth : Nat) (n : UInt64) : Plain depth (.ofUInt64 n)
  | string (depth : Nat) (s : String) : Plain depth (.string s)
  | array {depth : Nat} {items : List Value} (h : ∀ item ∈ items, Plain depth item) :
      Plain (depth + 1) (.array items)
  | object {depth : Nat} {members : Members} (h : ∀ member ∈ members, Plain depth member.2) :
      Plain (depth + 1) (.object members)

variable {layout : Layout}

theorem delimited_newline_append (layout : Layout) (depth : Nat) {cs : List Char}
    (h : Delimited cs) : Delimited (layout.newline depth ++ cs) := by
  cases layout with
  | compact => exact h
  | lines indent =>
      rintro c ⟨⟩
      decide

theorem scanChars_writeItems
    {depth : Nat} {items : List Value}
    (h : ∀ item ∈ items, scanChars (item.write layout depth) = some item.tokens)
    {cs : List Char} {rest : List Token} (hcs : scanChars cs = some rest)
    (hdelimited : Delimited cs) :
    scanChars (writeItems layout depth items ++ cs) = some (itemTokens items ++ rest) ∧
      Delimited (writeItems layout depth items ++ cs) := by
  induction items with
  | nil => simpa [writeItems, itemTokens] using ⟨hcs, hdelimited⟩
  | cons item items ih =>
      obtain ⟨hscan, hrest⟩ := ih fun item hitem => h item (.tail _ hitem)
      have hitem := scanChars_append (h item (.head _)) hscan hrest
      constructor
      · simp only [writeItems, itemTokens, List.cons_append, List.append_assoc]
        rw [scanChars_punctuation rfl, scanChars_newline, hitem, Option.map_some]
      · rintro c ⟨⟩
        decide

theorem scanChars_writeMembers
    {depth : Nat} {members : Members}
    (h : ∀ member ∈ members, scanChars (member.2.write layout depth) = some member.2.tokens)
    {cs : List Char} {rest : List Token} (hcs : scanChars cs = some rest)
    (hdelimited : Delimited cs) :
    scanChars (writeMembers layout depth members ++ cs) = some (memberTokens members ++ rest) ∧
      Delimited (writeMembers layout depth members ++ cs) := by
  induction members with
  | nil => simpa [writeMembers, memberTokens] using ⟨hcs, hdelimited⟩
  | cons member members ih =>
      obtain ⟨key, value⟩ := member
      obtain ⟨hscan, hrest⟩ := ih fun member hmember => h member (.tail _ hmember)
      have hvalue := scanChars_append (h (key, value) (.head _)) hscan hrest
      constructor
      · simp only [writeMembers, memberTokens, List.cons_append, List.append_assoc]
        rw [scanChars_punctuation rfl, scanChars_newline, scanChars_writeString,
          scanChars_colon, hvalue]
        rfl
      · rintro c ⟨⟩
        decide

/-- The text of a value has the tokens of the value, in every layout. -/
theorem scanChars_write {limit : Nat} {v : Value} (h : Plain limit v) (depth : Nat) :
    scanChars (v.write layout depth) = some v.tokens := by
  induction h generalizing depth with
  | null => simp only [write, tokens]; rfl
  | bool _ b => cases b <;> (simp only [write, tokens]; rfl)
  | natural _ n => simpa only [ofUInt64, write, Number.write, tokens] using scanChars_toDigits n
  | string _ s =>
      have hstring : scanChars (writeString s ++ []) = some [.string (some s)] :=
        scanChars_writeString s []
      simpa only [write, tokens, List.append_nil] using hstring
  | @array _ items _ ih =>
      have hclose : scanChars (layout.newline depth ++ [']']) = some [.closeArray] := by
        rw [scanChars_newline]; rfl
      cases items with
      | nil => simp only [write, tokens]; rfl
      | cons item items =>
          obtain ⟨hitems, hdelimited⟩ := scanChars_writeItems
            (fun item hitem => ih item (.tail _ hitem) (depth + 1)) hclose
            (delimited_newline_append layout depth (by rintro c ⟨⟩; decide))
          have hitem := scanChars_append (ih item (.head _) (depth + 1)) hitems hdelimited
          simp only [write, tokens, List.cons_append, List.append_assoc]
          rw [scanChars_punctuation rfl, scanChars_newline, hitem, Option.map_some]
  | @object _ members _ ih =>
      have hclose : scanChars (layout.newline depth ++ ['\x7d']) = some [.closeObject] := by
        rw [scanChars_newline]; rfl
      cases members with
      | nil => simp only [write, tokens]; rfl
      | cons member members =>
          obtain ⟨key, value⟩ := member
          obtain ⟨hmembers, hdelimited⟩ := scanChars_writeMembers
            (fun member hmember => ih member (.tail _ hmember) (depth + 1)) hclose
            (delimited_newline_append layout depth (by rintro c ⟨⟩; decide))
          have hvalue := scanChars_append (ih (key, value) (.head _) (depth + 1)) hmembers
            hdelimited
          simp only [write, tokens, List.cons_append, List.append_assoc]
          rw [scanChars_punctuation rfl, scanChars_newline, scanChars_writeString,
            scanChars_colon, hvalue]
          rfl

/-! ## Values -/

mutual

/-- A value with the members of its objects sorted. -/
def sorted : Value → Value
  | .array items => .array (sortedItems items)
  | .object members => .object (Members.ofList (sortedMembers members))
  | v => v

def sortedItems : List Value → List Value
  | [] => []
  | item :: items => sorted item :: sortedItems items

/-- The members of an object in their order, each with its own members sorted. -/
def sortedMembers : List (String × Value) → List (String × Value)
  | [] => []
  | (key, value) :: members => (key, sorted value) :: sortedMembers members

end

theorem exists_tokens_eq_cons (v : Value) :
    ∃ token rest, v.tokens = token :: rest ∧ token ≠ .closeArray := by
  fun_cases tokens v <;> exact ⟨_, _, rfl, nofun⟩

variable {limit : Option Nat} {stack : List Frame}

theorem foldlM_firstItem (item : Value) :
    item.tokens.foldlM (Builder.step limit) (.firstItem stack) =
      item.tokens.foldlM (Builder.step limit) (.expectValue (.array [] :: stack)) := by
  obtain ⟨token, rest, htokens, hclose⟩ := item.exists_tokens_eq_cons
  rw [htokens, List.foldlM_cons, List.foldlM_cons, Builder.step_firstItem hclose]
  rfl

theorem foldlM_itemTokens
    {items : List Value}
    (h : ∀ item ∈ items, ∀ earlier,
      item.tokens.foldlM (Builder.step limit) (.expectValue (.array earlier :: stack)) =
        some (.afterItem stack (item.sorted :: earlier)))
    (earlier : List Value) :
    (itemTokens items).foldlM (Builder.step limit) (.afterItem stack earlier) =
      some (.afterItem stack ((sortedItems items).reverse ++ earlier)) := by
  induction items generalizing earlier with
  | nil => simp [itemTokens, sortedItems]
  | cons item items ih =>
      have hcomma : Builder.step limit (.afterItem stack earlier) .comma =
          some (.expectValue (.array earlier :: stack)) := rfl
      have hrest := ih (fun item hitem => h item (.tail _ hitem)) (item.sorted :: earlier)
      simp only [itemTokens, List.cons_append, List.foldlM_cons, hcomma, Option.bind_eq_bind,
        Option.bind_some, List.foldlM_append, h item (.head _), hrest]
      simp [sortedItems]

theorem foldlM_memberTokens
    {members : Members}
    (h : ∀ member ∈ members, ∀ earlier,
      member.2.tokens.foldlM (Builder.step limit)
          (.expectValue (.object earlier member.1 :: stack)) =
        some (.afterMember stack (earlier.insert member.1 member.2.sorted)))
    (earlier : Members) :
    (memberTokens members).foldlM (Builder.step limit) (.afterMember stack earlier) =
      some (.afterMember stack ((sortedMembers members).foldl
        (fun sorted member => sorted.insert member.1 member.2) earlier)) := by
  induction members generalizing earlier with
  | nil => simp [memberTokens, sortedMembers]
  | cons member members ih =>
      obtain ⟨key, value⟩ := member
      have hkey : [Token.comma, .string (some key), .colon].foldlM (Builder.step limit)
          (.afterMember stack earlier) = some (.expectValue (.object earlier key :: stack)) := rfl
      have hrest := ih (fun member hmember => h member (.tail _ hmember))
        (earlier.insert key value.sorted)
      have htokens : memberTokens ((key, value) :: members) =
          [.comma, .string (some key), .colon] ++ (value.tokens ++ memberTokens members) := by
        simp [memberTokens]
      rw [htokens, List.foldlM_append, hkey]
      simp only [Option.bind_eq_bind, Option.bind_some, List.foldlM_append,
        h (key, value) (.head _), hrest, sortedMembers, List.foldl_cons]

/-- The tokens of a value build the value with its members sorted. -/
theorem foldlM_tokens
    {depth limit : Nat} {v : Value} (h : Plain depth v) {stack : List Frame}
    (hlimit : stack.length + depth ≤ limit) :
    v.tokens.foldlM (Builder.step (some limit)) (.expectValue stack) =
      some (.complete stack v.sorted) := by
  -- the stack varies, since the items of a container are built with the container on it
  induction h generalizing stack with
  | null | bool | natural | string => simp only [tokens, ofUInt64, sorted]; rfl
  | @array depth items _ ih =>
      have hopen : Builder.step (some limit) (.expectValue stack) .openArray =
          some (.firstItem stack) :=
        if_pos (by simp [Builder.mayOpen]; omega)
      have hitem : ∀ item ∈ items, ∀ earlier, item.tokens.foldlM (Builder.step (some limit))
          (.expectValue (.array earlier :: stack)) =
            some (.afterItem stack (item.sorted :: earlier)) := fun item hitem earlier =>
        ih item hitem (by simp; omega)
      cases items with
      | nil =>
          simp only [tokens, List.foldlM_cons, hopen]
          rfl
      | cons item items =>
          have hclose : ∀ built, Builder.step (some limit) (.afterItem stack built) .closeArray =
              some (.complete stack (.array built.reverse)) := fun _ => rfl
          have hitems := foldlM_itemTokens (fun item h => hitem item (.tail _ h)) [item.sorted]
          simp only [tokens, List.cons_append, List.foldlM_cons, hopen, Option.bind_eq_bind,
            Option.bind_some, List.foldlM_append, foldlM_firstItem, hitem item (.head _), hitems,
            hclose, List.foldlM_nil, sorted, sortedItems]
          simp
  | @object depth members _ ih =>
      have hopen : Builder.step (some limit) (.expectValue stack) .openObject =
          some (.expectKey stack [] true) :=
        if_pos (by simp [Builder.mayOpen]; omega)
      have hmember : ∀ member ∈ members, ∀ earlier,
          member.2.tokens.foldlM (Builder.step (some limit))
              (.expectValue (.object earlier member.1 :: stack)) =
            some (.afterMember stack (earlier.insert member.1 member.2.sorted)) :=
        fun member hmember earlier => ih member hmember (by simp; omega)
      cases members with
      | nil =>
          simp only [tokens, List.foldlM_cons, hopen]
          rfl
      | cons member members =>
          obtain ⟨key, value⟩ := member
          have hkey : [Token.openObject, .string (some key), .colon].foldlM
              (Builder.step (some limit)) (.expectValue stack) =
                some (.expectValue (.object [] key :: stack)) := by
            rw [List.foldlM_cons, hopen]
            rfl
          have hclose : ∀ built, Builder.step (some limit) (.afterMember stack built)
              .closeObject = some (.complete stack (.object built)) := fun _ => rfl
          have hmembers := foldlM_memberTokens (fun member h => hmember member (.tail _ h))
            (Members.insert key value.sorted [])
          have htokens : tokens (.object ((key, value) :: members)) =
              [.openObject, .string (some key), .colon] ++
                (value.tokens ++ (memberTokens members ++ [.closeObject])) := by
            simp [tokens]
          rw [htokens, List.foldlM_append, hkey]
          simp only [Option.bind_eq_bind, Option.bind_some, List.foldlM_append,
            hmember (key, value) (.head _), hmembers, List.foldlM_cons, hclose, List.foldlM_nil,
            sorted, sortedMembers, Members.ofList, List.foldl_cons]
          rfl

/-- The text of a value is read as the value with its members sorted, in every layout. -/
theorem parse_write {v : Value} (h : Plain nestingLimit v) (layout : Layout) :
    parse (String.ofList (v.write layout 0)) = some v.sorted := by
  have hbuild : Builder.build (some nestingLimit) v.tokens = some v.sorted := by
    rw [Builder.build, Builder.start, foldlM_tokens h (by simp)]
    rfl
  rw [parse, scan, String.toList_ofList, scanChars_write h, Option.bind_some, hbuild]

/-! ## Sorted values -/

end Value

/-- Members are in the order of their keys, with one member for each key. -/
def Members.Sorted (members : Members) : Prop :=
  (members.map fun member => member.1.toList).Pairwise (· < ·)

namespace Value

/-- The members of every object are sorted, with one member for each key. -/
inductive Ordered : Value → Prop where
  | null : Ordered .null
  | bool (b : Bool) : Ordered (.bool b)
  | number (n : Number) : Ordered (.number n)
  | string (s : String) : Ordered (.string s)
  | array {items : List Value} (h : ∀ item ∈ items, Ordered item) : Ordered (.array items)
  | object {members : Members} (hkeys : members.Sorted)
      (h : ∀ member ∈ members, Ordered member.2) : Ordered (.object members)

theorem sortedItems_eq {items : List Value} (h : ∀ item ∈ items, item.sorted = item) :
    sortedItems items = items := by
  induction items with
  | nil => simp [sortedItems]
  | cons item items ih =>
      rw [sortedItems, h item (.head _), ih fun item hitem => h item (.tail _ hitem)]

theorem sortedMembers_eq
    {members : Members} (h : ∀ member ∈ members, member.2.sorted = member.2) :
    sortedMembers members = members := by
  induction members with
  | nil => simp [sortedMembers]
  | cons member members ih =>
      obtain ⟨key, value⟩ := member
      rw [sortedMembers, h (key, value) (.head _),
        ih fun member hmember => h member (.tail _ hmember)]

end Value

/-- A member whose key comes after all others is put last. -/
theorem Members.insert_eq_append
    {members : Members} {key : String}
    (h : ∀ member ∈ members, member.1.toList < key.toList) (value : Value) :
    members.insert key value = members ++ [(key, value)] := by
  induction members with
  | nil => rfl
  | cons member members ih =>
      obtain ⟨k, v⟩ := member
      have hlt : k.toList < key.toList := h (k, v) (.head _)
      have hnotlt : ¬ key.toList < k.toList := List.lt_asymm hlt
      have hne : key ≠ k := by
        rintro rfl
        exact List.lt_irrefl _ hlt
      rw [Members.insert, if_neg hnotlt, if_neg hne, ih fun m hm => h m (.tail _ hm)]
      rfl

theorem Members.foldl_insert_eq_append
    {earlier members : Members} (h : Members.Sorted (earlier ++ members)) :
    members.foldl (fun sorted member => sorted.insert member.1 member.2) earlier =
      earlier ++ members := by
  induction members generalizing earlier with
  | nil => simp
  | cons member members ih =>
      have hlast : ∀ m ∈ earlier, m.1.toList < member.1.toList := fun m hm =>
        (List.pairwise_append.mp (List.pairwise_map.mp h)).2.2 m hm member (.head _)
      have happend : earlier ++ member :: members = earlier ++ [member] ++ members := by simp
      rw [List.foldl_cons, Members.insert_eq_append hlast, happend]
      exact ih (happend ▸ h)

/-- Members that are sorted stay as they are. -/
theorem Members.ofList_eq_self {members : Members} (h : members.Sorted) :
    Members.ofList members = members :=
  Members.foldl_insert_eq_append h

theorem Value.sorted_eq_self {v : Value} (h : v.Ordered) : v.sorted = v := by
  induction h with
  | null | bool | number | string => simp only [sorted]
  | array _ ih => rw [sorted, sortedItems_eq ih]
  | object hkeys _ ih => rw [sorted, sortedMembers_eq ih, Members.ofList_eq_self hkeys]

/-- The text of an ordered value is read as the value. -/
theorem Value.parse_compact {v : Value} (hplain : Plain nestingLimit v) (hordered : v.Ordered) :
    parse v.compact = some v := by
  rw [compact, parse_write hplain, sorted_eq_self hordered]

end StatementTable.Json
