import StatementTable.Proofs.ExpressionTexts
import StatementTable.Proofs.Tokens

/-!
# Parentheses and brackets in the text of an expression

Where names, literals and operators have no brackets of their own, all brackets in the text of an
expression come from its structure.  Parentheses stand around a binary expression exactly if it is
an operand of another binary expression, and brackets around the property of every member
expression.  Each bracket is closed by one of its own kind.  Every other expression in between,
such as an assignment or an update, is written without parentheses, and what is no expression is
not written at all.
-/

namespace StatementTable

def isBracket (c : Char) : Bool :=
  c == '(' || c == ')' || c == '[' || c == ']'

/-- The nodes visited have no parentheses or brackets in their tokens and operators. -/
def BracketFree (visited : List Node) : Prop :=
  ∀ text ∈ tokens visited ++ operators visited, ∀ c ∈ text.toList, isBracket c = false

instance (visited : List Node) : Decidable (BracketFree visited) :=
  decidable_of_iff
    ((tokens visited ++ operators visited).all fun text => text.toList.all fun c => !isBracket c)
    (by simp only [BracketFree, List.all_eq_true, Bool.not_eq_true'])

/-- Texts in which every parenthesis and every bracket is closed by one of its own kind, after all
that was opened in between. -/
inductive WellNested : List Char → Prop where
  | nil : WellNested []
  | letter {c : Char} {rest : List Char} (hc : isBracket c = false) (hrest : WellNested rest) :
      WellNested (c :: rest)
  | parentheses {inner rest : List Char} (hinner : WellNested inner) (hrest : WellNested rest) :
      WellNested ('(' :: inner ++ ')' :: rest)
  | brackets {inner rest : List Char} (hinner : WellNested inner) (hrest : WellNested rest) :
      WellNested ('[' :: inner ++ ']' :: rest)

namespace WellNested

theorem append {cs ds : List Char} (hcs : WellNested cs) (hds : WellNested ds) :
    WellNested (cs ++ ds) := by
  induction hcs with
  | nil => exact hds
  | letter hc _ ih => exact ih.letter hc
  | parentheses hinner _ _ ih =>
      rw [List.append_assoc, List.cons_append]
      exact hinner.parentheses ih
  | brackets hinner _ _ ih =>
      rw [List.append_assoc, List.cons_append]
      exact hinner.brackets ih

theorem of_forall {cs : List Char} (h : ∀ c ∈ cs, isBracket c = false) : WellNested cs := by
  induction cs with
  | nil => exact nil
  | cons c cs ih =>
      have hcs : WellNested cs := ih fun d hd => h d (List.mem_cons_of_mem c hd)
      exact hcs.letter (h c List.mem_cons_self)

end WellNested

/-! ## Counting while texts are put together -/

/-- A well nested text with given numbers of parentheses and brackets. -/
structure Bracketed (parentheses brackets : Nat) (text : String) : Prop where
  wellNested : WellNested text.toList
  count_parenthesis : text.toList.count '(' = parentheses
  count_bracket : text.toList.count '[' = brackets

namespace Bracketed

variable {p b p₁ b₁ p₂ b₂ : Nat} {text text₁ text₂ : String}

theorem of_eq
    (h : Bracketed p₁ b₁ text₁) (htext : text₂ = text₁) (hp : p₂ = p₁) (hb : b₂ = b₁) :
    Bracketed p₂ b₂ text₂ := by
  rw [htext, hp, hb]
  exact h

theorem append (h₁ : Bracketed p₁ b₁ text₁) (h₂ : Bracketed p₂ b₂ text₂) :
    Bracketed (p₁ + p₂) (b₁ + b₂) (text₁ ++ text₂) where
  wellNested := by
    rw [String.toList_append]
    exact h₁.wellNested.append h₂.wellNested
  count_parenthesis := by
    rw [String.toList_append, List.count_append, h₁.count_parenthesis, h₂.count_parenthesis]
  count_bracket := by
    rw [String.toList_append, List.count_append, h₁.count_bracket, h₂.count_bracket]

theorem of_forall (h : ∀ c ∈ text.toList, isBracket c = false) : Bracketed 0 0 text where
  wellNested := WellNested.of_forall h
  count_parenthesis := List.count_eq_zero.mpr fun hmem => absurd (h '(' hmem) (by decide)
  count_bracket := List.count_eq_zero.mpr fun hmem => absurd (h '[' hmem) (by decide)

theorem parentheses (h : Bracketed p b text) : Bracketed (p + 1) b ("(" ++ text ++ ")") := by
  have htext : ("(" ++ text ++ ")").toList = '(' :: text.toList ++ [')'] := by simp
  constructor
  · rw [htext]
    exact h.wellNested.parentheses .nil
  · rw [htext]
    simp [h.count_parenthesis]
  · rw [htext]
    simp [h.count_bracket]

theorem brackets (h : Bracketed p b text) : Bracketed p (b + 1) ("[" ++ text ++ "]") := by
  have htext : ("[" ++ text ++ "]").toList = '[' :: text.toList ++ [']'] := by simp
  constructor
  · rw [htext]
    exact h.wellNested.brackets .nil
  · rw [htext]
    simp [h.count_parenthesis]
  · rw [htext]
    simp [h.count_bracket]

theorem operandText (h : Bracketed p b text) (wrapped : Bool) :
    Bracketed (p + wrapped.toNat) b (operandText wrapped text) := by
  cases wrapped with
  | false => exact h
  | true => exact h.parentheses

theorem updateText
    {operator : String} (h : Bracketed p b text) (hoperator : Bracketed 0 0 operator)
    (leading : Bool) : Bracketed p b (updateText operator text leading) := by
  cases leading with
  | false => exact h.append hoperator
  | true => simpa [StatementTable.updateText] using hoperator.append h

end Bracketed

/-! ## The texts of expressions -/

namespace Node

/-- The nodes that are reached through expressions.  Statements and unsupported nodes are not
written and lead no further. -/
def expressionNodes : Node → List Node
  | n@(.binary _ _ left right) => n :: expressionNodes left ++ expressionNodes right
  | n@(.unary _ _ argument) => n :: expressionNodes argument
  | n@(.update _ _ argument _) => n :: expressionNodes argument
  | n@(.member _ object property) => n :: expressionNodes object ++ expressionNodes property
  | n@(.assignment _ _ left right) => n :: expressionNodes left ++ expressionNodes right
  | n@(.identifier _ _) => [n]
  | n@(.literal _ _) => [n]
  | .expressionStatement _ _ | .functionDeclaration _ _ _ _ | .variableDeclaration _ _
  | .whileStatement _ _ _ | .ifStatement _ _ _ _ | .returnStatement _ _ | .block _ _
  | .forStatement _ _ _ _ _ | .unsupported _ => []

/-- The operands of a binary expression that are binary expressions themselves. -/
def binaryOperands : Node → List Node
  | .binary _ _ left right => [left, right].filter isBinary
  | _ => []

theorem length_binaryOperands
    (start : Position) (operator : String) (left right : Node) :
    (binary start operator left right).binaryOperands.length =
      left.isBinary.toNat + right.isBinary.toNat := by
  cases hleft : left.isBinary <;> cases hright : right.isBinary <;>
    simp [binaryOperands, hleft, hright]

end Node

namespace BracketFree

variable {visited visited₁ visited₂ : List Node} {n : Node}

theorem mono (h : BracketFree visited₂) (hsubset : visited₁ ⊆ visited₂) :
    BracketFree visited₁ := by
  intro text htext
  apply h
  rw [List.mem_append] at htext ⊢
  rcases htext with htoken | hoperator
  · exact Or.inl (List.filterMap_subset _ hsubset htoken)
  · exact Or.inr (List.filterMap_subset _ hsubset hoperator)

theorem of_cons_append (h : BracketFree (n :: visited₁ ++ visited₂)) :
    BracketFree visited₁ ∧ BracketFree visited₂ :=
  ⟨h.mono (by simp), h.mono (by simp)⟩

theorem of_cons (h : BracketFree (n :: visited)) : BracketFree visited :=
  h.mono (List.subset_cons_self n visited)

theorem bracketed_token
    {text : String} (h : BracketFree visited) (hn : n ∈ visited)
    (htoken : n.token? = some text) : Bracketed 0 0 text := by
  apply Bracketed.of_forall
  exact h text (List.mem_append_left _ (List.mem_filterMap.mpr ⟨n, hn, htoken⟩))

theorem bracketed_operator
    {text : String} (h : BracketFree visited) (hn : n ∈ visited)
    (hoperator : n.operator? = some text) : Bracketed 0 0 text := by
  apply Bracketed.of_forall
  exact h text (List.mem_append_right _ (List.mem_filterMap.mpr ⟨n, hn, hoperator⟩))

end BracketFree

namespace Node

section Texts

variable (start : Position) (operator : String) (argument left right : Node)

theorem render_unary : (unary start operator argument).render = operator ++ argument.render := by
  rw [render, renderWith]
  rfl

theorem render_update (leading : Bool) :
    (update start operator argument leading).render =
      updateText operator argument.render leading := by
  rw [render, renderWith]
  rfl

theorem render_assignment :
    (assignment start operator left right).render = left.render ++ operator ++ right.render := by
  rw [render, renderWith]
  rfl

end Texts

/-- A node that is no expression has no text and reaches no node. -/
theorem render_eq_empty {n : Node} (hkind : n.kind ∉ Kind.expressions) :
    n.render = "" ∧ n.expressionNodes = [] := by
  cases n with
  | binary | unary | update | member | identifier | literal | assignment =>
      simp [kind, Kind.expressions] at hkind
  | _ => simp [render, renderWith, Fallback.skip, Outcome.toText, expressionNodes]

/-- The text of a node is well nested, with a pair of parentheses for each binary expression in
another one and a pair of brackets for each member expression. -/
theorem bracketed_render {n : Node} (hfree : BracketFree n.expressionNodes) :
    Bracketed (n.expressionNodes.flatMap binaryOperands).length
      (n.expressionNodes.countP (·.kind = .member)) n.render := by
  fun_induction expressionNodes n with
  | case1 start operator left right ihleft ihright =>
      obtain ⟨hleft, hright⟩ := hfree.of_cons_append
      have hoperator := hfree.bracketed_operator List.mem_cons_self rfl
      have hblank : Bracketed 0 0 " " := .of_forall (by simp [isBracket])
      have hleft := (ihleft hleft).operandText left.isBinary
      have hright := (ihright hright).operandText right.isBinary
      have htext := (((hleft.append hblank).append hoperator).append hblank).append hright
      refine htext.of_eq (render_binary start operator left right) ?_ ?_
      · simp [length_binaryOperands]
        omega
      · simp [kind]
  | case2 start operator argument ih =>
      have hoperator := hfree.bracketed_operator List.mem_cons_self rfl
      have htext := hoperator.append (ih hfree.of_cons)
      exact htext.of_eq (render_unary start operator argument) (by simp [binaryOperands])
        (by simp [kind])
  | case3 start operator argument leading ih =>
      have hoperator := hfree.bracketed_operator List.mem_cons_self rfl
      have htext := (ih hfree.of_cons).updateText hoperator leading
      exact htext.of_eq (render_update start operator argument leading) (by simp [binaryOperands])
        (by simp [kind])
  | case4 start object property ihobject ihproperty =>
      obtain ⟨hobject, hproperty⟩ := hfree.of_cons_append
      have htext := (ihobject hobject).append (ihproperty hproperty).brackets
      refine htext.of_eq ?_ (by simp [binaryOperands]) ?_
      · rw [render_member, String.append_assoc, String.append_assoc, String.append_assoc]
      · simp [kind]
        omega
  | case5 start operator left right ihleft ihright =>
      obtain ⟨hleft, hright⟩ := hfree.of_cons_append
      have hoperator := hfree.bracketed_operator List.mem_cons_self rfl
      have htext := ((ihleft hleft).append hoperator).append (ihright hright)
      exact htext.of_eq (render_assignment start operator left right) (by simp [binaryOperands])
        (by simp [kind])
  | case6 start name =>
      have htoken := hfree.bracketed_token List.mem_cons_self rfl
      exact htoken.of_eq (render_identifier start name) rfl rfl
  | case7 start raw =>
      have htoken := hfree.bracketed_token List.mem_cons_self rfl
      exact htoken.of_eq (render_literal start raw) rfl rfl
  | _ =>
      have hempty : Bracketed 0 0 "" := .of_forall (by simp)
      exact hempty.of_eq (render_eq_empty (by simp [kind, Kind.expressions])).1 rfl rfl

/-- The text of a node whose tokens and operators have no brackets is well nested.  It has as many
parentheses as there are binary expressions that are operands of binary expressions, and as many
brackets as there are member expressions.  What is no expression has no text. -/
theorem render_brackets_exactly (n : Node) (hfree : BracketFree n.expressionNodes) :
    WellNested n.render.toList ∧
      n.render.toList.count '(' = (n.expressionNodes.flatMap binaryOperands).length ∧
      n.render.toList.count '[' = n.expressionNodes.countP (·.kind = .member) ∧
      ∀ m : Node, m.kind ∉ Kind.expressions → m.render = "" ∧ m.expressionNodes = [] := by
  have hrender := bracketed_render hfree
  refine ⟨hrender.wellNested, hrender.count_parenthesis, hrender.count_bracket, ?_⟩
  intro m hkind
  exact render_eq_empty hkind

/-- The expression `(a * b) + -x[i=(c - d) + {(e)}] - f`, in which a block with an expression stands
in the place of an operand. -/
def negatedDifference : Node :=
  let name (text : String) : Node := .identifier ⟨1, 0⟩ text
  let index : Node := .assignment ⟨1, 0⟩ "=" (name "i")
    (.binary ⟨1, 0⟩ "+" (.binary ⟨1, 0⟩ "-" (name "c") (name "d")) (.block ⟨1, 0⟩ [name "(e)"]))
  .binary ⟨1, 0⟩ "+" (.binary ⟨1, 0⟩ "*" (name "a") (name "b"))
    (.unary ⟨1, 0⟩ "-" (.binary ⟨1, 0⟩ "-" (.member ⟨1, 0⟩ (name "x") index) (name "f")))

/-- Of the five binary expressions two are operands of others, and the block is not written. -/
theorem render_brackets_exactly_negatedDifference :
    let n := negatedDifference
    BracketFree n.expressionNodes ∧ n.expressionNodes.countP isBinary = 5 ∧
      n.render = "(a * b) + -x[i=(c - d) + ] - f" ∧ WellNested n.render.toList ∧
      n.render.toList.count '(' = 2 ∧ n.render.toList.count '[' = 1 := by
  intro n
  have hfree : BracketFree n.expressionNodes := by decide
  obtain ⟨hnested, hparentheses, hbrackets, -⟩ := render_brackets_exactly n hfree
  exact ⟨hfree, by decide, rfl, hnested, hparentheses, hbrackets⟩

end Node

end StatementTable
