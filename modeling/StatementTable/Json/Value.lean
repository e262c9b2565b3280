import StatementTable.Number.Decimal

/-!
# JSON values

Numbers keep the distinction that the text makes: a literal without fraction and exponent is an
integer when it fits into 64 bits, and every other literal is a floating-point number.  The
members of an object form an association list.  A reader keeps it sorted by key with one entry
for each key, while a writer is free to choose the order in which members appear.
-/

namespace StatementTable.Json

inductive Number where
  /-- An integer from `0` to `2 ^ 64 - 1`. -/
  | natural (n : UInt64)
  /-- The negative integer `-(n + 1)`. -/
  | negSucc (n : Nat)
  /-- A floating-point number, with its sign. -/
  | real (negative : Bool) (magnitude : Magnitude)
deriving DecidableEq, Repr

inductive Value where
  | null
  | bool (b : Bool)
  | number (n : Number)
  | string (s : String)
  | array (items : List Value)
  | object (members : List (String × Value))
deriving Repr

abbrev Members := List (String × Value)

namespace Members

/-- Puts a member in its place by key, instead of any member of the same key. -/
def insert (key : String) (value : Value) : Members → Members
  | [] => [(key, value)]
  | (k, v) :: rest =>
    if key.toList < k.toList then (key, value) :: (k, v) :: rest
    else if key = k then (key, value) :: rest
    else (k, v) :: insert key value rest

/-- Members sorted by key.  Of several members with the same key the last one counts. -/
def ofList (members : List (String × Value)) : Members :=
  members.foldl (fun sorted member => insert member.1 member.2 sorted) []

def get? (members : Members) (key : String) : Option Value :=
  members.lookup key

theorem mem_of_get?_eq_some
    {members : Members} {key : String} {value : Value}
    (h : members.get? key = some value) : (key, value) ∈ members := by
  obtain ⟨before, after, rfl, -⟩ := List.lookup_eq_some_iff.mp h
  simp

end Members

namespace Value

/-- A natural number as a value. -/
def ofUInt64 (n : UInt64) : Value :=
  .number (.natural n)

theorem sizeOf_lt_of_mem_object
    {members : Members} {key : String} {value : Value} (h : (key, value) ∈ members) :
    sizeOf value < sizeOf (Value.object members) := by
  have := List.sizeOf_lt_of_mem h
  simp only [object.sizeOf_spec, Prod.mk.sizeOf_spec] at this ⊢
  omega

end Value

end StatementTable.Json
