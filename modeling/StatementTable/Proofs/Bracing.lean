import Mathlib.Logic.Relation
import StatementTable.Proofs.Contexts

/-!
# Braces make no difference to the rows

A block in a list of statements can be replaced by its statements, statements without rows can be
deleted from the list, and the body of a statement can be enclosed in braces.  None of this
changes the rows of a program, wherever and however often it is done.  Doing all of it everywhere
leads to a normal form, in which every body is a block and no list holds a block or a statement
without rows, and which has the rows of the program.
-/

namespace StatementTable

open Relation (ReflTransGen)

/-- Whether a node has no rows in a list of statements, because it is unsupported, an expression
other than an update, or a block without statements. -/
def Node.isSilent : Node → Bool
  | .unsupported _ | .binary _ _ _ _ | .unary _ _ _ | .member _ _ _ | .identifier _ _
  | .literal _ _ | .assignment _ _ _ _ | .block _ [] => true
  | _ => false

/-- One rewrite of a list of statements: a block is replaced by its statements, or a statement
without rows is deleted. -/
inductive Loosens : List Node → List Node → Prop where
  | splice (before : List Node) (start : Position) (body after : List Node) :
      Loosens (before ++ .block start body :: after) (before ++ body ++ after)
  | delete (before : List Node) {n : Node} (hsilent : n.isSilent = true) (after : List Node) :
      Loosens (before ++ n :: after) (before ++ after)

/-- One rewrite in a node: of the statements of a block, of a body that is enclosed in braces on
the same line, or of a node further inside. -/
inductive Node.Rebraces : Node → Node → Prop where
  | list (start : Position) {body body' : List Node} (h : Loosens body body') :
      Rebraces (.block start body) (.block start body')
  | wrap (frame : Node.Frame) (hbody : frame.isBody = true) (n : Node) (start : Position)
      (hline : start.line = n.line) :
      Rebraces (frame.fill n) (frame.fill (.block start [n]))
  | inside (frame : Node.Frame) {n m : Node} (h : Rebraces n m) :
      Rebraces (frame.fill n) (frame.fill m)

/-- One rewrite in a program: of its list of statements, or in one of the statements. -/
inductive Rebraces : List Node → List Node → Prop where
  | list {statements statements' : List Node} (h : Loosens statements statements') :
      Rebraces statements statements'
  | inside (before : List Node) {n m : Node} (h : n.Rebraces m) (after : List Node) :
      Rebraces (before ++ n :: after) (before ++ m :: after)

/-! ## Rewrites keep the rows -/

theorem Node.rows_of_isSilent {n : Node} (h : n.isSilent = true) : n.rowsWith .skip = [] := by
  revert h
  fun_cases isSilent n with
  | case9 => exact nofun
  | _ => intro _; simp only [rowsWith, listRowsWith, Fallback.skip, Outcome.toRows]

theorem Loosens.flatMap_rows {statements statements' : List Node}
    (h : Loosens statements statements') :
    statements.flatMap (Node.rowsWith .skip) = statements'.flatMap (Node.rowsWith .skip) := by
  cases h with
  | splice before start body after =>
      simp only [List.flatMap_append, List.flatMap_cons, Node.rowsWith, Node.listRowsWith_eq,
        List.append_assoc]
  | delete before hsilent after =>
      simp only [List.flatMap_append, List.flatMap_cons, Node.rows_of_isSilent hsilent,
        List.nil_append]

theorem Node.Rebraces.sameRows {n m : Node} (h : n.Rebraces m) : n.SameRows m := by
  induction h with
  | list start h =>
      refine ⟨rfl, ?_, rfl, rfl, rfl, fun _ => rfl⟩
      rw [rowsWith, rowsWith, listRowsWith_eq, listRowsWith_eq, h.flatMap_rows]
  | wrap frame hbody n start hline =>
      apply frame.sameRows_fill_of_isBody hbody hline.symm
      simp only [rowsWith, listRowsWith, List.append_nil]
  | inside frame _ ih => exact frame.sameRows_fill ih

theorem Rebraces.flatten_eq {p q : List Node} (h : Rebraces p q) : flatten p = flatten q := by
  rw [flatten, flatten, flattenWith_eq, flattenWith_eq]
  cases h with
  | list h => exact h.flatMap_rows
  | inside before h after =>
      simp only [List.flatMap_append, List.flatMap_cons, h.sameRows.rows]

theorem flatten_eq_of_rebraces {p q : List Node} (h : ReflTransGen Rebraces p q) :
    flatten p = flatten q := by
  induction h with
  | refl => rfl
  | tail _ hstep ih => exact ih.trans hstep.flatten_eq

/-! ## The normal form -/

namespace Node

/-- What a node amounts to in a list of statements. -/
def unbraced : Node → List Node
  | .block _ body => body
  | n => if n.isSilent then [] else [n]

/-- A node as a body in braces. -/
def enclosed (n : Node) : Node :=
  .block n.start n.unbraced

mutual

/-- A node with all rewrites done inside it. -/
def normalise : Node → Node
  | .expressionStatement start expression => .expressionStatement start (normalise expression)
  | .functionDeclaration start id params body =>
    .functionDeclaration start (normaliseOption id) (normaliseList params)
      (normalise body).enclosed
  | .variableDeclaration start declarations =>
    .variableDeclaration start (normaliseDeclarators declarations)
  | .whileStatement start test body =>
    .whileStatement start (normalise test) (normalise body).enclosed
  | .ifStatement start test consequent alternate =>
    .ifStatement start (normalise test) (normalise consequent).enclosed
      (normaliseBranch alternate)
  | .returnStatement start argument => .returnStatement start (normaliseOption argument)
  | .binary start operator left right =>
    .binary start operator (normalise left) (normalise right)
  | .unary start operator argument => .unary start operator (normalise argument)
  | .update start operator argument leading =>
    .update start operator (normalise argument) leading
  | .block start body => .block start (normaliseStatements body)
  | .member start object property => .member start (normalise object) (normalise property)
  | .forStatement start init test step body =>
    .forStatement start (normaliseOption init) (normaliseOption test) (normaliseOption step)
      (normalise body).enclosed
  | .identifier start name => .identifier start name
  | .literal start raw => .literal start raw
  | .assignment start operator left right =>
    .assignment start operator (normalise left) (normalise right)
  | .unsupported start => .unsupported start

def normaliseOption : Option Node → Option Node
  | none => none
  | some n => some (normalise n)

/-- An `else` branch in braces, with all rewrites done inside it. -/
def normaliseBranch : Option Node → Option Node
  | none => none
  | some n => some (normalise n).enclosed

def normaliseList : List Node → List Node
  | [] => []
  | n :: nodes => normalise n :: normaliseList nodes

/-- A list of statements with all rewrites done. -/
def normaliseStatements : List Node → List Node
  | [] => []
  | n :: nodes => (normalise n).unbraced ++ normaliseStatements nodes

def normaliseDeclarators : List Declarator → List Declarator
  | [] => []
  | .mk id init :: rest => .mk (normalise id) (normaliseOption init) :: normaliseDeclarators rest

end

end Node

def normalise (statements : List Node) : List Node :=
  Node.normaliseStatements statements

namespace Node

theorem normaliseOption_eq (o : Option Node) : normaliseOption o = o.map normalise := by
  cases o <;> simp only [normaliseOption, Option.map_none, Option.map_some]

theorem normaliseBranch_eq (o : Option Node) :
    normaliseBranch o = o.map fun n => n.normalise.enclosed := by
  cases o <;> simp only [normaliseBranch, Option.map_none, Option.map_some]

theorem normaliseList_eq (nodes : List Node) : normaliseList nodes = nodes.map normalise := by
  induction nodes with
  | nil => simp only [normaliseList, List.map_nil]
  | cons n nodes ih => simp only [normaliseList, List.map_cons, ih]

theorem normaliseStatements_eq (nodes : List Node) :
    normaliseStatements nodes = nodes.flatMap fun n => n.normalise.unbraced := by
  induction nodes with
  | nil => simp only [normaliseStatements, List.flatMap_nil]
  | cons n nodes ih => simp only [normaliseStatements, List.flatMap_cons, ih]

/-! ## The normal form is reached by rewrites -/

theorem steps_fill
    {n m : Node} (h : ReflTransGen Rebraces n m) (frame : Node.Frame) :
    ReflTransGen Rebraces (frame.fill n) (frame.fill m) :=
  ReflTransGen.lift frame.fill (fun _ _ hstep => .inside frame hstep) _ _ h

/-- The nodes of a list are rewritten one after the other, each with the others as its frame. -/
theorem steps_map
    (build : List Node → Node) (frame : List Node → List Node → Node.Frame)
    (hframe : ∀ before n after, (frame before after).fill n = build (before ++ n :: after))
    {nodes : List Node} (h : ∀ n ∈ nodes, ReflTransGen Rebraces n n.normalise)
    (before : List Node) :
    ReflTransGen Rebraces (build (before ++ nodes)) (build (before ++ nodes.map normalise)) := by
  induction nodes generalizing before with
  | nil => exact .refl
  | cons n nodes ih =>
      have hfirst := steps_fill (h n (.head _)) (frame before nodes)
      rw [hframe, hframe] at hfirst
      have hrest := ih (fun m hm => h m (.tail _ hm)) (before ++ [n.normalise])
      rw [List.append_assoc, List.append_assoc] at hrest
      exact hfirst.trans hrest

theorem steps_option
    (build : Option Node → Node) (frame : Node.Frame)
    (hframe : ∀ n, frame.fill n = build (some n)) {o : Option Node}
    (h : ∀ n ∈ o.toList, ReflTransGen Rebraces n n.normalise) :
    ReflTransGen Rebraces (build o) (build (normaliseOption o)) := by
  cases o with
  | none => rw [normaliseOption]
  | some n =>
      rw [normaliseOption, ← hframe, ← hframe]
      exact steps_fill (h n (by simp)) frame

theorem steps_declarators
    (start : Position) {declarations : List Declarator}
    (h : ∀ n ∈ declarations.flatMap Declarator.parts, ReflTransGen Rebraces n n.normalise)
    (before : List Declarator) :
    ReflTransGen Rebraces (.variableDeclaration start (before ++ declarations))
      (.variableDeclaration start (before ++ normaliseDeclarators declarations)) := by
  induction declarations generalizing before with
  | nil =>
      rw [normaliseDeclarators]
  | cons declarator rest ih =>
      obtain ⟨id, init⟩ := declarator
      have hid := steps_fill (h id (by simp [Declarator.parts]))
        (.declaredName start before init rest)
      have hinit : ReflTransGen Rebraces
          (.variableDeclaration start (before ++ .mk id.normalise init :: rest))
          (.variableDeclaration start
            (before ++ .mk id.normalise (normaliseOption init) :: rest)) :=
        steps_option (fun init =>
            .variableDeclaration start (before ++ .mk id.normalise init :: rest))
          (.initialValue start before id.normalise rest) (fun _ => rfl)
          fun n hn => h n (List.mem_append_left _ (.tail _ hn))
      have hrest := ih (fun n hn => h n (List.mem_append_right _ hn))
        (before ++ [.mk id.normalise (normaliseOption init)])
      rw [List.append_assoc, List.append_assoc] at hrest
      rw [normaliseDeclarators]
      exact hid.trans (hinit.trans hrest)

end Node

theorem Rebraces.append
    {p q : List Node} (h : Rebraces p q) (before after : List Node) :
    Rebraces (before ++ p ++ after) (before ++ q ++ after) := by
  cases h with
  | list h =>
      cases h with
      | splice left start body right =>
          have hstep := Loosens.splice (before ++ left) start body (right ++ after)
          simp only [List.append_assoc, List.cons_append] at hstep ⊢
          exact .list hstep
      | delete left hsilent right =>
          have hstep := Loosens.delete (before ++ left) hsilent (right ++ after)
          simp only [List.append_assoc, List.cons_append] at hstep ⊢
          exact .list hstep
  | inside left h right =>
      have hstep := Rebraces.inside (before ++ left) h (right ++ after)
      simp only [List.append_assoc, List.cons_append] at hstep ⊢
      exact hstep

theorem steps_append
    {p q : List Node} (h : ReflTransGen Rebraces p q) (before after : List Node) :
    ReflTransGen Rebraces (before ++ p ++ after) (before ++ q ++ after) :=
  ReflTransGen.lift (before ++ · ++ after) (fun _ _ hstep => hstep.append before after) _ _ h

theorem Rebraces.block
    {p q : List Node} (h : Rebraces p q) (start : Position) :
    Node.Rebraces (.block start p) (.block start q) := by
  cases h with
  | list h => exact .list start h
  | inside before h after => exact .inside (.blockItem start before after) h

theorem steps_block
    {p q : List Node} (h : ReflTransGen Rebraces p q) (start : Position) :
    ReflTransGen Node.Rebraces (.block start p) (.block start q) :=
  ReflTransGen.lift (Node.block start) (fun _ _ hstep => hstep.block start) _ _ h

theorem steps_unbraced (n : Node) : ReflTransGen Rebraces [n] n.unbraced := by
  fun_cases Node.unbraced n with
  | case1 start body =>
      have := Loosens.splice [] start body []
      simp only [List.nil_append, List.append_nil] at this
      exact .single (.list this)
  | case2 _ _ hsilent => exact .single (.list (.delete [] hsilent []))
  | case3 => exact .refl

theorem steps_enclosed
    (frame : Node.Frame) (hbody : frame.isBody = true) {n m : Node}
    (h : ReflTransGen Node.Rebraces n m) :
    ReflTransGen Node.Rebraces (frame.fill n) (frame.fill m.enclosed) := by
  have hwrap : Node.Rebraces (frame.fill m) (frame.fill (.block m.start [m])) :=
    .wrap frame hbody m m.start rfl
  have hinside := Node.steps_fill (steps_block (steps_unbraced m) m.start) frame
  exact (Node.steps_fill h frame).trans (.head hwrap hinside)

theorem steps_statements
    {nodes : List Node} (h : ∀ n ∈ nodes, ReflTransGen Node.Rebraces n n.normalise) :
    ReflTransGen Rebraces nodes (Node.normaliseStatements nodes) := by
  induction nodes with
  | nil => rw [Node.normaliseStatements]
  | cons n nodes ih =>
      have hnode : ReflTransGen Rebraces [n] [n.normalise] :=
        ReflTransGen.lift (fun m => [m]) (fun _ _ hstep => .inside [] hstep []) _ _ (h n (.head _))
      have hfirst := steps_append (hnode.trans (steps_unbraced n.normalise)) [] nodes
      have hrest := steps_append (ih fun m hm => h m (.tail _ hm)) n.normalise.unbraced []
      simp only [List.append_nil] at hrest
      rw [Node.normaliseStatements]
      exact hfirst.trans hrest

/-- The normal form of a node is reached by rewriting one place after the other: the slots from
left to right, each in the frame of those already done. -/
theorem Node.steps_normalise (n : Node) : ReflTransGen Rebraces n n.normalise := by
  induction n using children_induction with
  | node n ih =>
      cases n with
      | expressionStatement start expression =>
          rw [normalise]
          exact steps_fill (ih expression (by simp [children, slots])) (.expressionStatement start)
      | functionDeclaration start id params body =>
          have hid := steps_option (fun id => .functionDeclaration start id params body)
            (.functionId start params body) (fun _ => rfl) (o := id)
            fun n hn => ih n (by simp [children, slots, Option.mem_toList.mp hn])
          have hparam : ∀ n ∈ params, ReflTransGen Rebraces n n.normalise :=
            fun n hn => ih n (by simp [children, slots, hn])
          have hparams := steps_map
            (fun params => .functionDeclaration start (normaliseOption id) params body)
            (fun before after => .parameter start (normaliseOption id) before after body)
            (fun _ _ _ => rfl) hparam []
          have hbody := steps_enclosed
            (.functionBody start (normaliseOption id) (params.map normalise)) rfl
            (ih body (by simp [children, slots]))
          rw [normalise, normaliseList_eq]
          exact hid.trans (hparams.trans hbody)
      | variableDeclaration start declarations =>
          rw [normalise]
          have hparts : ∀ n ∈ declarations.flatMap Declarator.parts,
              ReflTransGen Rebraces n n.normalise := by
            intro n hn
            apply ih
            rw [children_eq, operands_variableDeclaration]
            simp [hn]
          exact steps_declarators start hparts []
      | whileStatement start test body =>
          have htest := steps_fill (ih test (by simp [children, slots])) (.whileTest start body)
          have hbody := steps_enclosed (.whileBody start test.normalise) rfl
            (ih body (by simp [children, slots]))
          rw [normalise]
          exact htest.trans hbody
      | ifStatement start test consequent alternate =>
          have htest := steps_fill (ih test (by simp [children, slots]))
            (.ifTest start consequent alternate)
          have hconsequent := steps_enclosed
            (.consequent start test.normalise alternate) rfl
            (ih consequent (by simp [children, slots]))
          rw [normalise]
          refine htest.trans (hconsequent.trans ?_)
          cases alternate with
          | none =>
              rw [normaliseBranch]
              exact .refl
          | some alternate =>
              rw [normaliseBranch]
              exact steps_enclosed
                (.alternate start test.normalise consequent.normalise.enclosed) rfl
                (ih alternate (by simp [children, slots]))
      | returnStatement start argument =>
          rw [normalise]
          exact steps_option (.returnStatement start) (.returnArgument start) (fun _ => rfl)
            fun n hn => ih n (by simp [children, slots, Option.mem_toList.mp hn])
      | binary start operator left right =>
          have hleft := steps_fill (ih left (by simp [children, slots]))
            (.leftOperand start operator right)
          have hright := steps_fill (ih right (by simp [children, slots]))
            (.rightOperand start operator left.normalise)
          rw [normalise]
          exact hleft.trans hright
      | unary start operator argument =>
          rw [normalise]
          exact steps_fill (ih argument (by simp [children, slots])) (.unaryOperand start operator)
      | update start operator argument leading =>
          rw [normalise]
          exact steps_fill (ih argument (by simp [children, slots]))
            (.updateOperand start operator leading)
      | block start body =>
          rw [normalise]
          apply steps_block
          apply steps_statements
          intro n hn
          exact ih n (by simp [children, slots, hn])
      | member start object property =>
          have hobject := steps_fill (ih object (by simp [children, slots]))
            (.memberObject start property)
          have hproperty := steps_fill (ih property (by simp [children, slots]))
            (.memberProperty start object.normalise)
          rw [normalise]
          exact hobject.trans hproperty
      | forStatement start init test step body =>
          have hinit := steps_option (fun init => .forStatement start init test step body)
            (.forInit start test step body) (fun _ => rfl) (o := init)
            fun n hn => ih n (by simp [children, slots, Option.mem_toList.mp hn])
          have htest := steps_option
            (fun test => .forStatement start (normaliseOption init) test step body)
            (.forTest start (normaliseOption init) step body) (fun _ => rfl) (o := test)
            fun n hn => ih n (by simp [children, slots, Option.mem_toList.mp hn])
          have hstep := steps_option
            (fun step =>
              .forStatement start (normaliseOption init) (normaliseOption test) step body)
            (.forStep start (normaliseOption init) (normaliseOption test) body) (fun _ => rfl)
            (o := step) fun n hn => ih n (by simp [children, slots, Option.mem_toList.mp hn])
          have hbody := steps_enclosed
            (.forBody start (normaliseOption init) (normaliseOption test)
              (normaliseOption step)) rfl
            (ih body (by simp [children, slots]))
          rw [normalise]
          exact hinit.trans (htest.trans (hstep.trans hbody))
      | assignment start operator left right =>
          have hleft := steps_fill (ih left (by simp [children, slots]))
            (.assignmentTarget start operator right)
          have hright := steps_fill (ih right (by simp [children, slots]))
            (.assignedValue start operator left.normalise)
          rw [normalise]
          exact hleft.trans hright
      | identifier | literal | unsupported =>
          rw [normalise]

theorem steps_normalise (statements : List Node) :
    ReflTransGen Rebraces statements (normalise statements) :=
  steps_statements fun n _ => n.steps_normalise

/-! ## What is normal about the normal form -/

namespace Node

/-- The statements that a statement governs: the body of a function or of a loop, or the
branches. -/
def bodies : Node → List Node
  | .functionDeclaration _ _ _ body | .whileStatement _ _ body | .forStatement _ _ _ _ body =>
    [body]
  | .ifStatement _ _ consequent alternate => consequent :: alternate.toList
  | _ => []

def items : Node → List Node
  | .block _ body => body
  | _ => []

/-- Whether a node would not stay in a list of statements. -/
def isLoose (n : Node) : Bool :=
  n.kind == .block || n.isSilent

/-- Every body of the node is in braces, and everything in a list of statements has to be
there. -/
structure Tidy (n : Node) : Prop where
  bodies : ∀ body ∈ n.bodies, body.kind = .block
  items : ∀ item ∈ n.items, item.isLoose = false

/-- All nodes within a node are tidy. -/
def TidyWithin (n : Node) : Prop :=
  ∀ m ∈ n.walk, m.Tidy

theorem tidyWithin_iff {n : Node} :
    n.TidyWithin ↔ n.Tidy ∧ ∀ c ∈ n.children, c.TidyWithin := by
  simp only [TidyWithin, walk_eq n, List.mem_cons, List.mem_flatMap, forall_eq_or_imp]
  constructor
  · rintro ⟨hself, hrest⟩
    exact ⟨hself, fun c hc m hm => hrest m ⟨c, hc, hm⟩⟩
  · rintro ⟨hself, hrest⟩
    refine ⟨hself, ?_⟩
    rintro m ⟨c, hc, hm⟩
    exact hrest c hc m hm

theorem tidyWithin_of_mem_unbraced
    {n m : Node} (h : n.TidyWithin) (hm : m ∈ n.unbraced) :
    m.TidyWithin ∧ m.isLoose = false := by
  revert hm
  fun_cases unbraced n with
  | case1 start body =>
      intro hm
      obtain ⟨hself, hchildren⟩ := tidyWithin_iff.mp h
      exact ⟨hchildren m (by simpa [children, slots] using hm), hself.items m hm⟩
  | case2 =>
      intro hm
      exact absurd hm List.not_mem_nil
  | case3 n hblock hsilent =>
      intro hm
      obtain rfl := List.mem_singleton.mp hm
      refine ⟨h, ?_⟩
      have hkind : m.kind ≠ .block := by
        cases m with
        | block start body => exact (hblock start body rfl).elim
        | _ => simp [kind]
      rw [isLoose, Bool.or_eq_false_iff]
      exact ⟨beq_false_of_ne hkind, Bool.eq_false_iff.mpr hsilent⟩

theorem tidyWithin_enclosed {n : Node} (h : n.TidyWithin) : n.enclosed.TidyWithin := by
  apply tidyWithin_iff.mpr
  constructor
  · constructor
    · exact nofun
    · intro item hitem
      exact (tidyWithin_of_mem_unbraced h hitem).2
  · intro c hc
    have hmem : c ∈ n.unbraced := by simpa [enclosed, children, slots] using hc
    exact (tidyWithin_of_mem_unbraced h hmem).1

theorem parts_normaliseDeclarators (declarations : List Declarator) :
    (normaliseDeclarators declarations).flatMap Declarator.parts =
      (declarations.flatMap Declarator.parts).map normalise := by
  induction declarations with
  | nil => simp only [normaliseDeclarators, List.flatMap_nil, List.map_nil]
  | cons declarator rest ih =>
      obtain ⟨id, init⟩ := declarator
      cases init <;>
        simp [normaliseDeclarators, normaliseOption, Declarator.parts, ih]

/-! The children of a node are operands, bodies or items, and each of the three is rewritten in its
own way. -/

theorem children_eq_operands_append (n : Node) :
    n.children = n.operands ++ n.bodies ++ n.items := by
  rw [children_eq]
  cases n <;>
    simp [inRole, slots, bodies, items, List.filter_map, Function.comp_def]

theorem operands_normalise (n : Node) :
    n.normalise.operands = n.operands.map normalise := by
  cases n <;>
    simp [normalise, normaliseOption_eq, normaliseList_eq, parts_normaliseDeclarators, operands,
      slots, List.filter_map, Function.comp_def, Option.toList_map]

theorem bodies_normalise (n : Node) :
    n.normalise.bodies = n.bodies.map fun body => body.normalise.enclosed := by
  cases n <;> simp [normalise, bodies, normaliseBranch_eq, Option.toList_map]

theorem items_normalise (n : Node) :
    n.normalise.items = n.items.flatMap fun item => item.normalise.unbraced := by
  cases n <;> simp [normalise, items, normaliseStatements_eq]

theorem tidyWithin_normalise (n : Node) : n.normalise.TidyWithin := by
  induction n using children_induction with
  | node n ih =>
      rw [children_eq_operands_append] at ih
      have hitem : ∀ item ∈ n.normalise.items, item.TidyWithin ∧ item.isLoose = false := by
        intro item hitem
        rw [items_normalise] at hitem
        obtain ⟨c, hc, hmem⟩ := List.mem_flatMap.mp hitem
        exact tidyWithin_of_mem_unbraced (ih c (List.mem_append_right _ hc)) hmem
      have hbody : ∀ body ∈ n.normalise.bodies, body.TidyWithin ∧ body.kind = .block := by
        intro body hbody
        rw [bodies_normalise] at hbody
        obtain ⟨c, hc, rfl⟩ := List.mem_map.mp hbody
        exact ⟨tidyWithin_enclosed (ih c (by simp [hc])), rfl⟩
      apply tidyWithin_iff.mpr
      refine ⟨⟨fun body h => (hbody body h).2, fun item h => (hitem item h).2⟩, ?_⟩
      intro c hc
      rw [children_eq_operands_append, List.mem_append, List.mem_append] at hc
      rcases hc with (hoperand | hc) | hc
      · rw [operands_normalise] at hoperand
        obtain ⟨c, hc, rfl⟩ := List.mem_map.mp hoperand
        exact ih c (by simp [hc])
      · exact (hbody c hc).1
      · exact (hitem c hc).1

end Node

/-- Nothing in a program is left to rewrite: its list of statements and those of its blocks hold
only what has to be there, and every body is in braces. -/
structure IsNormal (statements : List Node) : Prop where
  top : ∀ n ∈ statements, n.isLoose = false
  within : ∀ n ∈ Node.walkList statements, n.Tidy

theorem isNormal_normalise (statements : List Node) : IsNormal (normalise statements) := by
  have hstatement : ∀ n ∈ normalise statements, n.TidyWithin ∧ n.isLoose = false := by
    intro n hn
    rw [normalise, Node.normaliseStatements_eq] at hn
    obtain ⟨m, -, hn⟩ := List.mem_flatMap.mp hn
    exact Node.tidyWithin_of_mem_unbraced m.tidyWithin_normalise hn
  constructor
  · intro n hn
    exact (hstatement n hn).2
  · intro n hn
    rw [Node.walkList_eq] at hn
    obtain ⟨m, hm, hn⟩ := List.mem_flatMap.mp hn
    exact (hstatement m hm).1 n hn

/-- Rewrites at any places leave the rows of a program as they are.  They lead from the program to
its normal form, which therefore determines the rows. -/
theorem flatten_rebraced (p : List Node) :
    (∀ q, ReflTransGen Rebraces p q → flatten q = flatten p) ∧
    (ReflTransGen Rebraces p (normalise p) ∧ IsNormal (normalise p) ∧
      flatten (normalise p) = flatten p) ∧
    ∀ q, normalise q = normalise p → flatten q = flatten p := by
  have hnormal : ∀ q, flatten (normalise q) = flatten q := fun q =>
    (flatten_eq_of_rebraces (steps_normalise q)).symm
  refine ⟨fun q h => (flatten_eq_of_rebraces h).symm,
    ⟨steps_normalise p, isNormal_normalise p, hnormal p⟩, ?_⟩
  intro q heq
  rw [← hnormal q, ← hnormal p, heq]

/-- An `if` statement in line 1 whose `else` branch is a block in line 2. -/
def ifWithElseBlock (consequent : Node) (branch : List Node) : List Node :=
  [.ifStatement ⟨1, 0⟩ (.identifier ⟨1, 4⟩ "x") consequent (some (.block ⟨2, 5⟩ branch))]

/-- The block of the `else` branch begins with a statement without rows, and the `if` statement
after it stands in a block of its own.  Without both it still makes an `else if` row. -/
theorem flatten_rebraced_ifWithElseBlock :
    let stop := Node.returnStatement ⟨1, 7⟩ none
    let inner := Node.ifStatement ⟨3, 0⟩ (.identifier ⟨3, 4⟩ "y") stop none
    let loose := ifWithElseBlock stop [.unsupported ⟨2, 7⟩, .block ⟨2, 9⟩ [inner]]
    let tight := ifWithElseBlock (.block ⟨1, 0⟩ [stop]) [inner]
    ReflTransGen Rebraces loose tight ∧ flatten tight = flatten loose ∧
      (flatten loose).map Row.label =
        [.ifStatement, .returnStatement, .elseIf, .returnStatement] := by
  intro stop inner loose tight
  have hwrap : Rebraces loose
      (ifWithElseBlock (.block ⟨1, 0⟩ [stop]) [.unsupported ⟨2, 7⟩, .block ⟨2, 9⟩ [inner]]) :=
    .inside [] (.wrap (.consequent ⟨1, 0⟩ _ _) rfl stop ⟨1, 0⟩ rfl) []
  have hdelete : Rebraces
      (ifWithElseBlock (.block ⟨1, 0⟩ [stop]) [.unsupported ⟨2, 7⟩, .block ⟨2, 9⟩ [inner]])
      (ifWithElseBlock (.block ⟨1, 0⟩ [stop]) [.block ⟨2, 9⟩ [inner]]) :=
    .inside [] (.inside (.alternate ⟨1, 0⟩ _ _) (.list ⟨2, 5⟩ (.delete [] rfl _))) []
  have hsplice : Rebraces
      (ifWithElseBlock (.block ⟨1, 0⟩ [stop]) [.block ⟨2, 9⟩ [inner]]) tight :=
    .inside [] (.inside (.alternate ⟨1, 0⟩ _ _) (.list ⟨2, 5⟩ (.splice [] ⟨2, 9⟩ [inner] []))) []
  have hsteps : ReflTransGen Rebraces loose tight :=
    .head hwrap (.head hdelete (.single hsplice))
  exact ⟨hsteps, (flatten_rebraced loose).1 tight hsteps, rfl⟩

end StatementTable
