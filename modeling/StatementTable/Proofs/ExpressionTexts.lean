import StatementTable.Proofs.Slots

/-!
# Texts of expressions are read back

Parentheses are written only around a binary expression that is an operand of another one.  For
expressions built from names, binary operators and brackets this is enough to tell them apart.  A
reader goes through the text one character at a time and keeps a stack of levels, one for each
parenthesis or bracket that is still open.  On a level stands either one item or two items with an
operator between them, set apart by blanks, so that a level can be closed in one way only.  Where
a node starts, and whether a name is an identifier or a literal, is not written and cannot be
read back.
-/

namespace StatementTable

/-- The characters that give the text of an expression its structure. -/
def isMark (c : Char) : Bool :=
  c == ' ' || c == '(' || c == ')' || c == '[' || c == ']'

/-- Whether a text is not empty and has no marks. -/
def isWord (text : String) : Bool :=
  !text.toList.isEmpty && text.toList.all (!isMark ·)

namespace Node

/-- Whether a node is built from words, binary expressions, and member expressions whose object is
not a binary expression. -/
def isLegible : Node → Bool
  | .identifier _ text | .literal _ text => isWord text
  | .binary _ operator left right => isWord operator && isLegible left && isLegible right
  | .member _ object property => !object.isBinary && isLegible object && isLegible property
  | _ => false

/-- A node without the places of its parts, and with literals as identifiers. -/
def bare : Node → Node
  | .identifier _ text | .literal _ text => .identifier default text
  | .binary _ operator left right => .binary default operator (bare left) (bare right)
  | .member _ object property => .member default (bare object) (bare property)
  | n => n

section Texts

variable (start : Position) (operator text : String) (left right object property : Node)

theorem render_binary :
    (binary start operator left right).render =
      operandText left.isBinary left.render ++ " " ++ operator ++ " " ++
        operandText right.isBinary right.render := by
  rw [render, renderWith]
  rfl

theorem render_member :
    (member start object property).render = object.render ++ "[" ++ property.render ++ "]" := by
  rw [render, renderWith]
  rfl

theorem render_identifier : (identifier start text).render = text := by
  rw [render, renderWith]

theorem render_literal : (literal start text).render = text := by
  rw [render, renderWith]

end Texts

theorem isBinary_bare (n : Node) : n.bare.isBinary = n.isBinary := by
  fun_cases bare n <;> rfl

theorem render_bare (n : Node) : n.bare.render = n.render := by
  fun_induction bare n with
  | case1 start text => rw [render_identifier, render_identifier]
  | case2 start text => rw [render_identifier, render_literal]
  | case3 start operator left right ihleft ihright =>
      rw [render_binary, render_binary, isBinary_bare, isBinary_bare, ihleft, ihright]
  | case4 start object property ihobject ihproperty =>
      rw [render_member, render_member, ihobject, ihproperty]
  | case5 => rfl

end Node

/-! ## The reader -/

namespace ExpressionReader

/-- What has been read since a parenthesis or a bracket was opened. -/
structure Level where
  /-- The items that are followed by a blank.  An operator counts as a name. -/
  items : List Node
  /-- The item that is being read, if it has begun. -/
  current : Option Node

namespace Level

def empty : Level :=
  ⟨[], none⟩

/-- One more letter of a name. -/
def letter? (level : Level) (c : Char) : Option Level :=
  match level.current with
  | none => some { level with current := some (.identifier default (String.singleton c)) }
  | some (.identifier start text) =>
    some { level with current := some (.identifier start (text.push c)) }
  | some _ => none

/-- A blank, which ends an item. -/
def blank? (level : Level) : Option Level :=
  level.current.map fun item => ⟨level.items ++ [item], none⟩

/-- What stands on a level: one item, or two items and an operator. -/
def expression? : Level → Option Node
  | ⟨[], some item⟩ => some item
  | ⟨[left, .identifier _ operator], some right⟩ => some (.binary default operator left right)
  | _ => none

/-- An expression that has been closed.  Behind an item it is the property of a member expression,
and otherwise it is an item by itself. -/
def put (level : Level) (expression : Node) : Level :=
  { level with
    current := some (match level.current with
      | none => expression
      | some object => .member default object expression) }

end Level

/-- Closes the innermost level. -/
def close? : List Level → Option (List Level)
  | level :: around :: outer => level.expression?.map fun n => around.put n :: outer
  | _ => none

def step : List Level → Char → Option (List Level)
  | [], _ => none
  | level :: outer, c =>
    if c = '(' ∨ c = '[' then some (.empty :: level :: outer)
    else if c = ')' ∨ c = ']' then close? (level :: outer)
    else if c = ' ' then level.blank?.map (· :: outer)
    else (level.letter? c).map (· :: outer)

def run (levels : List Level) (text : String) : Option (List Level) :=
  text.toList.foldlM step levels

/-- The expression that a text stands for. -/
def read? (text : String) : Option Node :=
  (run [.empty] text).bind fun
    | [level] => level.expression?
    | _ => none

theorem run_append (levels : List Level) (text₁ text₂ : String) :
    run levels (text₁ ++ text₂) = (run levels text₁).bind (run · text₂) := by
  rw [run, String.toList_append, List.foldlM_append]
  rfl

/-- The text of a node is read as an item. -/
def ReadsAsItem (n : Node) (text : String) : Prop :=
  ∀ items outer,
    run (⟨items, none⟩ :: outer) text = some (⟨items, some n⟩ :: outer)

/-- The text of a node is read as all that stands on a level. -/
def ReadsAsLevel (n : Node) (text : String) : Prop :=
  ∀ outer, ∃ level, run (.empty :: outer) text = some (level :: outer) ∧ level.expression? = some n

theorem ReadsAsItem.readsAsLevel {n : Node} {text : String} (h : ReadsAsItem n text) :
    ReadsAsLevel n text :=
  fun outer => ⟨⟨[], some n⟩, h [] outer, rfl⟩

/-! ## Reading words -/

theorem step_letter
    {c : Char} (hc : isMark c = false) (level : Level) (outer : List Level) :
    step (level :: outer) c = (level.letter? c).map (· :: outer) := by
  simp only [isMark, Bool.or_eq_false_iff, beq_eq_false_iff_ne] at hc
  obtain ⟨⟨⟨⟨hblank, hopen⟩, hclose⟩, hopen'⟩, hclose'⟩ := hc
  rw [step, if_neg (not_or.mpr ⟨hopen, hopen'⟩), if_neg (not_or.mpr ⟨hclose, hclose'⟩),
    if_neg hblank]

theorem foldlM_letters
    {cs : List Char} (hcs : ∀ c ∈ cs, isMark c = false)
    (items : List Node) (text : String) (outer : List Level) :
    cs.foldlM step (⟨items, some (.identifier default text)⟩ :: outer) =
      some (⟨items, some (.identifier default (text ++ String.ofList cs))⟩ :: outer) := by
  induction cs generalizing text with
  | nil => simp
  | cons c cs ih =>
      have hstep : step (⟨items, some (.identifier default text)⟩ :: outer) c =
          some (⟨items, some (.identifier default (text.push c))⟩ :: outer) :=
        step_letter (hcs c (.head _)) _ outer
      have htext : text.push c ++ String.ofList cs = text ++ String.ofList (c :: cs) := by
        apply String.toList_inj.mp
        simp
      rw [List.foldlM_cons, hstep, ← htext]
      exact ih (fun c hc => hcs c (.tail _ hc)) (text.push c)

theorem readsAsItem_word {text : String} (hword : isWord text = true) :
    ReadsAsItem (.identifier default text) text := by
  intro items outer
  obtain ⟨hne, hletters⟩ := Bool.and_eq_true_iff.mp hword
  obtain ⟨c, cs, hcons⟩ : ∃ c cs, text.toList = c :: cs :=
    List.exists_cons_of_ne_nil (by simpa using hne)
  have hmark : ∀ d ∈ c :: cs, isMark d = false := by
    rw [← hcons]
    simpa using hletters
  have hstep : step (⟨items, none⟩ :: outer) c =
      some (⟨items, some (.identifier default (String.singleton c))⟩ :: outer) :=
    step_letter (hmark c (.head _)) _ outer
  have htext : String.singleton c ++ String.ofList cs = text := by
    apply String.toList_inj.mp
    simp [hcons]
  rw [run, hcons, List.foldlM_cons, hstep, ← htext]
  exact foldlM_letters (fun d hd => hmark d (.tail _ hd)) items (String.singleton c) outer

/-! ## Reading expressions -/

theorem run_blank (items : List Node) (item : Node) (outer : List Level) :
    run (⟨items, some item⟩ :: outer) " " = some (⟨items ++ [item], none⟩ :: outer) :=
  rfl

theorem run_open
    {mark : String} (hmark : mark = "(" ∨ mark = "[") (level : Level) (outer : List Level) :
    run (level :: outer) mark = some (.empty :: level :: outer) := by
  rcases hmark with rfl | rfl
  · rfl
  · rfl

theorem run_close
    {mark : String} (hmark : mark = ")" ∨ mark = "]") {level : Level} {n : Node}
    (hlevel : level.expression? = some n) (around : Level) (outer : List Level) :
    run (level :: around :: outer) mark = some (around.put n :: outer) := by
  have hclose : close? (level :: around :: outer) = some (around.put n :: outer) := by
    rw [close?, hlevel, Option.map_some]
  rcases hmark with rfl | rfl
  · exact Option.bind_eq_some_iff.mpr ⟨_, hclose, rfl⟩
  · exact Option.bind_eq_some_iff.mpr ⟨_, hclose, rfl⟩

/-- What stands in parentheses is an item. -/
theorem ReadsAsLevel.parentheses {n : Node} {text : String} (h : ReadsAsLevel n text) :
    ReadsAsItem n ("(" ++ text ++ ")") := by
  intro items outer
  obtain ⟨level, hrun, hlevel⟩ := h (⟨items, none⟩ :: outer)
  rw [run_append, run_append, run_open (Or.inl rfl), Option.bind_some, hrun, Option.bind_some,
    run_close (Or.inl rfl) hlevel]
  rfl

/-- An item with an expression in brackets behind it is an item. -/
theorem ReadsAsItem.brackets
    {object property : Node} {text₁ text₂ : String} (hobject : ReadsAsItem object text₁)
    (hproperty : ReadsAsLevel property text₂) :
    ReadsAsItem (.member default object property) (text₁ ++ "[" ++ text₂ ++ "]") := by
  intro items outer
  obtain ⟨level, hrun, hlevel⟩ := hproperty (⟨items, some object⟩ :: outer)
  rw [run_append, run_append, run_append, hobject, Option.bind_some, run_open (Or.inr rfl),
    Option.bind_some, hrun, Option.bind_some, run_close (Or.inr rfl) hlevel]
  rfl

/-- Two items with an operator between them fill a level. -/
theorem ReadsAsItem.operator
    {left right : Node} {text₁ text₂ operator : String} (hleft : ReadsAsItem left text₁)
    (hword : isWord operator = true) (hright : ReadsAsItem right text₂) :
    ReadsAsLevel (.binary default operator left right)
      (text₁ ++ " " ++ operator ++ " " ++ text₂) := by
  intro outer
  refine ⟨⟨[left, .identifier default operator], some right⟩, ?_, rfl⟩
  rw [run_append, run_append, run_append, run_append, Level.empty, hleft, Option.bind_some,
    run_blank, Option.bind_some, readsAsItem_word hword, Option.bind_some, run_blank,
    Option.bind_some]
  exact hright _ outer

end ExpressionReader

open ExpressionReader

namespace Node

theorem readsAsItem_operandText
    {n : Node} (hitem : n.isBinary = false → ReadsAsItem n.bare n.render)
    (hlevel : ReadsAsLevel n.bare n.render) :
    ReadsAsItem n.bare (operandText n.isBinary n.render) := by
  unfold operandText
  split
  · exact hlevel.parentheses
  · case isFalse hbinary => exact hitem (Bool.eq_false_iff.mpr hbinary)

/-- The text of a node is read back, as an item unless it is a binary expression. -/
theorem reads_render
    {n : Node} (hlegible : n.isLegible = true) :
    (n.isBinary = false → ReadsAsItem n.bare n.render) ∧ ReadsAsLevel n.bare n.render := by
  fun_induction isLegible n with
  | case1 start text =>
      have hitem := readsAsItem_word hlegible
      rw [render_identifier]
      exact ⟨fun _ => hitem, hitem.readsAsLevel⟩
  | case2 start text =>
      have hitem := readsAsItem_word hlegible
      rw [render_literal]
      exact ⟨fun _ => hitem, hitem.readsAsLevel⟩
  | case3 start operator left right ihleft ihright =>
      rw [Bool.and_eq_true_iff, Bool.and_eq_true_iff] at hlegible
      obtain ⟨⟨hword, hleft⟩, hright⟩ := hlegible
      obtain ⟨hleftItem, hleftLevel⟩ := ihleft hleft
      obtain ⟨hrightItem, hrightLevel⟩ := ihright hright
      refine ⟨nofun, ?_⟩
      rw [render_binary]
      exact (readsAsItem_operandText hleftItem hleftLevel).operator hword
        (readsAsItem_operandText hrightItem hrightLevel)
  | case4 start object property ihobject ihproperty =>
      rw [Bool.and_eq_true_iff, Bool.and_eq_true_iff, Bool.not_eq_true'] at hlegible
      obtain ⟨⟨hbinary, hobject⟩, hproperty⟩ := hlegible
      have hitem : ReadsAsItem (member start object property).bare
          (member start object property).render := by
        rw [render_member]
        exact ((ihobject hobject).1 hbinary).brackets (ihproperty hproperty).2
      exact ⟨fun _ => hitem, hitem.readsAsLevel⟩
  | case5 => exact absurd hlegible Bool.false_ne_true

theorem read?_render {n : Node} (hlegible : n.isLegible = true) :
    read? n.render = some n.bare := by
  obtain ⟨level, hrun, hlevel⟩ := (reads_render hlegible).2 []
  rw [read?, hrun, Option.bind_some]
  exact hlevel

/-- Two legible expressions have the same text exactly if they differ at most in the places of
their parts and in which of their names are literals. -/
theorem render_eq_render_iff
    (n m : Node) (hn : n.isLegible = true) (hm : m.isLegible = true) :
    n.render = m.render ↔ n.bare = m.bare := by
  constructor
  · intro htext
    have hread : some n.bare = some m.bare := by
      rw [← read?_render hn, ← read?_render hm, htext]
    exact Option.some.inj hread
  · intro hbare
    rw [← render_bare n, ← render_bare m, hbare]

/-- The expression `a[(i + 1) % n][k] - (b - c)`, starting in the given line, with the given node
for the `1`. -/
def indexedDifference (line : UInt64) (one : Node) : Node :=
  let name (text : String) : Node := .identifier ⟨line, 0⟩ text
  .binary ⟨line, 0⟩ "-"
    (.member ⟨line, 0⟩
      (.member ⟨line, 0⟩ (name "a")
        (.binary ⟨line, 2⟩ "%" (.binary ⟨line, 3⟩ "+" (name "i") one) (name "n")))
      (name "k"))
    (.binary ⟨line, 21⟩ "-" (name "b") (name "c"))

theorem render_eq_render_iff_indexedDifference :
    let n := indexedDifference 1 (.literal ⟨1, 7⟩ "1")
    let m := indexedDifference 8 (.identifier ⟨9, 0⟩ "1")
    n.isLegible = true ∧ m.isLegible = true ∧ n.render = "a[(i + 1) % n][k] - (b - c)" ∧
      n.render = m.render ∧ n.bare = m.bare := by
  intro n m
  have hn : n.isLegible = true := by decide
  have hm : m.isLegible = true := by decide
  have htext : n.render = m.render := rfl
  exact ⟨hn, hm, rfl, htext, (render_eq_render_iff n m hn hm).mp htext⟩

end Node

end StatementTable
