import StatementTable.Decode.Basic

/-!
# Decoding rows and tables

A row and a table are objects with all their fields, or arrays of exactly these fields.  A label
is its wording, or an object whose only key is the wording and whose value is null.
-/

namespace StatementTable.Decode

open Json (Value)

def labelText (text : String) : Decoded Label :=
  match Label.ofText? text with
  | some label => .ok label
  | none => .error (.unknownLabel text)

/-- Reads a value that carries nothing. -/
def unit : Value → Decoded Unit
  | .null => .ok ()
  | v => .error (.wrongType v .unit)

def label : Value → Decoded Label
  | .string text => labelText text
  | .object [(text, v)] => do
    let label ← labelText text
    unit v
    return label
  | .object _ => .error .notSingleMember
  | v => .error (.wrongType v .label)

def row : Value → Decoded Row
  | .object members => do
    let condition ← member members "condition" text
    let line ← member members "line" natural
    let name ← member members "name" text
    let label ← member members "type" label
    let value ← member members "value" text
    return {
      line := ← require "line" line
      label := ← require "type" label
      name := ← require "name" name
      condition := ← require "condition" condition
      value := ← require "value" value }
  | .array items => do
    let (line, items) ← item .row 5 0 natural items
    let (label, items) ← item .row 5 1 label items
    let (name, items) ← item .row 5 2 text items
    let (condition, items) ← item .row 5 3 text items
    let (value, items) ← item .row 5 4 text items
    noMore .outer 5 items
    return { line, label, name, condition, value }
  | v => .error (.wrongType v .row)

def table : Value → Decoded Table
  | .object members => do
    let rows ← member members "rows" (sequence row)
    let source ← member members "source" text
    return { source := ← require "source" source, rows := ← require "rows" rows }
  | .array items => do
    let (source, items) ← item .table 2 0 text items
    let (rows, items) ← item .table 2 1 (sequence row) items
    noMore .outer 2 items
    return { source, rows }
  | v => .error (.wrongType v .table)

def tables : Value → Decoded (List Table) :=
  sequence table

end StatementTable.Decode
