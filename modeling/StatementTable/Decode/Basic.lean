import StatementTable.Decode.Error

/-!
# Decoding scalars and members

The readers of this module decode a value that is not a structure, and the members of an object.
A member is first looked up and decoded, and only afterwards a missing member is an error.  Thus
a structure can decode its members in one order and demand them in another.
-/

namespace StatementTable.Decode

open Json (Value Members)

def text : Value → Decoded String
  | .string s => .ok s
  | v => .error (.wrongType v .text)

def flag : Value → Decoded Bool
  | .bool b => .ok b
  | v => .error (.wrongType v .flag)

/-- Reads a natural number below `2 ^ 64`. -/
def natural : Value → Decoded UInt64
  | .number (.natural n) => .ok n
  | .number (.negSucc n) => .error (.negative n)
  | v => .error (.wrongType v .natural)

/-- Reads the member under a key, if there is one. -/
def member {α : Type} (members : Members) (key : String)
    (read : Value → Decoded α) : Decoded (Option α) :=
  match members.get? key with
  | none => .ok none
  | some v => (read v).map some

/-- Reads the member under a key, if there is one.  The reader is told that the value belongs to
the members, on which a recursion can rely. -/
def memberWith {α : Type} (members : Members) (key : String)
    (read : (v : Value) → (key, v) ∈ members → Decoded α) : Decoded (Option α) :=
  match h : members.get? key with
  | none => .ok none
  | some v => (read v (Members.mem_of_get?_eq_some h)).map some

theorem memberWith_eq_member {α : Type}
    (members : Members) (key : String) (read : Value → Decoded α) :
    memberWith members key (fun v _ => read v) = member members key read := by
  unfold memberWith member
  split <;> simp [*]

/-- Insists on a field. -/
def require {α : Type} (key : String) : Option α → Decoded α
  | none => .error (.missingField key)
  | some a => .ok a

/-- Reads an array, up to the first item that does not decode. -/
def sequence {α : Type} (read : Value → Decoded α) : Value → Decoded (List α)
  | .array items => items.mapM read
  | v => .error (.wrongType v .sequence)

/-- Takes the item of the given index off an array that stands for a structure. -/
def item {α : Type} (expected : Expected) (fields index : Nat) (read : Value → Decoded α) :
    List Value → Decoded (α × List Value)
  | [] => .error (.tooShort index expected fields)
  | v :: rest => do
    return (← read v, rest)

/-- Insists that no items are left over in an array that stands for a structure. -/
def noMore (enclosure : Enclosure) (fields : Nat) (rest : List Value) : Decoded Unit :=
  if rest.isEmpty then .ok () else .error (.tooLong enclosure (fields + rest.length) fields)

end StatementTable.Decode
