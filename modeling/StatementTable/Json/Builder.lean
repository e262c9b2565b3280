import StatementTable.Json.Scanner

/-!
# From tokens to values

The builder takes one token at a time and keeps the arrays and objects that are still open on a
stack.  The height of the stack is the depth of nesting, which may be limited: an opening bracket
is refused when as many containers as the limit allows are open already.
-/

namespace StatementTable.Json

/-- A container that is still open while a value inside it is read. -/
inductive Frame where
  /-- An array, with the items before the value in reverse. -/
  | array (items : List Value)
  /-- An object, with the members before the value and the key of the value. -/
  | object (members : Members) (key : String)

/-- What the builder waits for.  Every state but the last holds the stack of open containers,
without the innermost one where the state itself describes it. -/
inductive Builder where
  /-- A value. -/
  | expectValue (stack : List Frame)
  /-- The first item of an array, or its end. -/
  | firstItem (stack : List Frame)
  /-- A comma after an item, or the end of the array. -/
  | afterItem (stack : List Frame) (items : List Value)
  /-- A key, or the end of the object if it may end here. -/
  | expectKey (stack : List Frame) (members : Members) (mayEnd : Bool)
  /-- The colon after a key. -/
  | expectColon (stack : List Frame) (members : Members) (key : String)
  /-- A comma after a member, or the end of the object. -/
  | afterMember (stack : List Frame) (members : Members)
  /-- Nothing: the value is complete. -/
  | done (value : Value)

namespace Builder

def start : Builder := .expectValue []

/-- Hands a complete value to the innermost open container. -/
def complete (stack : List Frame) (value : Value) : Builder :=
  match stack with
  | [] => .done value
  | .array items :: rest => .afterItem rest (value :: items)
  | .object members key :: rest => .afterMember rest (members.insert key value)

/-- Whether one more container may be opened. -/
def mayOpen (limit : Option Nat) (stack : List Frame) : Bool :=
  match limit with
  | none => true
  | some depth => stack.length < depth

/-- Takes the first token of a value. -/
def beginValue (limit : Option Nat) (stack : List Frame) : Token → Option Builder
  | .null => some (complete stack .null)
  | .bool b => some (complete stack (.bool b))
  | .number (some n) => some (complete stack (.number n))
  | .string (some s) => some (complete stack (.string s))
  | .openArray => if mayOpen limit stack then some (.firstItem stack) else none
  | .openObject => if mayOpen limit stack then some (.expectKey stack [] true) else none
  | _ => none

def step (limit : Option Nat) : Builder → Token → Option Builder
  | .expectValue stack, token => beginValue limit stack token
  | .firstItem stack, .closeArray => some (complete stack (.array []))
  | .firstItem stack, token => beginValue limit (.array [] :: stack) token
  | .afterItem stack items, .comma => some (.expectValue (.array items :: stack))
  | .afterItem stack items, .closeArray => some (complete stack (.array items.reverse))
  | .expectKey stack members _, .string (some key) => some (.expectColon stack members key)
  | .expectKey stack members true, .closeObject => some (complete stack (.object members))
  | .expectColon stack members key, .colon => some (.expectValue (.object members key :: stack))
  | .afterMember stack members, .comma => some (.expectKey stack members false)
  | .afterMember stack members, .closeObject => some (complete stack (.object members))
  | _, _ => none

/-- The value, once it is complete. -/
def result? : Builder → Option Value
  | .done value => some value
  | _ => none

/-- The value that a list of tokens spells out. -/
def build (limit : Option Nat) (tokens : List Token) : Option Value :=
  (tokens.foldlM (step limit) start).bind result?

end Builder

/-- The number of containers that may be open at once in a text. -/
def nestingLimit : Nat := 127

def parse (text : String) : Option Value :=
  (scan text).bind (Builder.build (some nestingLimit))

end StatementTable.Json
