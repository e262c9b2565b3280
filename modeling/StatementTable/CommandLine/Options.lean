import StatementTable.Report

/-!
# Options of the command line

An option is given by its name, or by a letter if it has one, and takes a value, `--strict`
excepted.  A value follows its option as the next argument, or is attached to it.  Inputs and
folders may be given any number of times, and everything else once.
-/

namespace StatementTable.CommandLine

inductive OptionName where
  | input
  | folder
  | output
  | format
  | strict
  | jobs
  | serve
deriving DecidableEq, Repr

namespace OptionName

def ofName? : String → Option OptionName
  | "input" => some .input
  | "folder" => some .folder
  | "output" => some .output
  | "format" => some .format
  | "strict" => some .strict
  | "jobs" => some .jobs
  | "serve" => some .serve
  | _ => none

def ofLetter? : Char → Option OptionName
  | 'i' => some .input
  | 'd' => some .folder
  | 'o' => some .output
  | 'f' => some .format
  | _ => none

end OptionName

/-- What the command line asks for. -/
structure Options where
  inputs : List String := []
  folders : List String := []
  output : Option String := none
  format : Option Format := none
  strict : Bool := false
  jobs : Option UInt64 := none
  serve : Option UInt16 := none

/-- The number that a list of digits denotes. -/
def digits? (cs : List Char) : Option Nat :=
  if cs.isEmpty || !cs.all Char.isDigit then none
  else some (cs.foldl (fun n c => n * 10 + (c.toNat - '0'.toNat)) 0)

/-- A natural number, with or without a plus sign. -/
def natural? (s : String) : Option Nat :=
  match s.toList with
  | '+' :: cs => digits? cs
  | cs => digits? cs

/-- An integer, with or without a sign. -/
def integer? (s : String) : Option Int :=
  match s.toList with
  | '-' :: cs => (digits? cs).map fun n => -(n : Int)
  | _ => (natural? s).map Int.ofNat

/-- A number of workers: a natural number of 64 bits. -/
def jobs? (s : String) : Option UInt64 :=
  (natural? s).bind fun n => if n < UInt64.size then some (UInt64.ofNat n) else none

/-- The number of a socket: an integer of 16 bits that is not negative. -/
def socket? (s : String) : Option UInt16 :=
  (integer? s).bind fun n =>
    if 0 ≤ n ∧ n < UInt16.size then some (UInt16.ofNat n.toNat) else none

def format? : String → Option Format
  | "table" => some .table
  | "json" => some .json
  | _ => none

namespace Options

/-- Notes the value of an option, unless it is not a value of the option or the option has one
already. -/
def set (options : Options) (name : OptionName) (value : String) : Option Options :=
  match name with
  | .input =>
    if value.isEmpty then none else some { options with inputs := options.inputs ++ [value] }
  | .folder =>
    if value.isEmpty then none else some { options with folders := options.folders ++ [value] }
  | .output =>
    if options.output.isSome then none else some { options with output := some value }
  | .format =>
    if options.format.isSome then none
    else (format? value).map fun format => { options with format := some format }
  | .jobs =>
    if options.jobs.isSome then none
    else (jobs? value).map fun jobs => { options with jobs := some jobs }
  | .serve =>
    if options.serve.isSome then none
    else (socket? value).map fun socket => { options with serve := some socket }
  | .strict => none

def setStrict (options : Options) : Option Options :=
  if options.strict then none else some { options with strict := true }

end Options

inductive Argument where
  /-- Two dashes, after which no option follows. -/
  | dashes
  /-- An option, with the value that is attached to it. -/
  | option (name : OptionName) (value : Option String)
  /-- Anything else. -/
  | other

namespace Argument

/-- The argument that begins with two dashes and goes on with the given characters. -/
def long (cs : List Char) : Argument :=
  let name := String.ofList (cs.takeWhile (· != '='))
  let value := match cs.dropWhile (· != '=') with
    | [] => none
    | _ :: value => some (String.ofList value)
  match OptionName.ofName? name with
  | some name => .option name value
  | none => .other

/-- The argument that begins with a dash and a letter. -/
def short (letter : Char) (cs : List Char) : Argument :=
  let value := match cs with
    | [] => none
    | '=' :: value => some (String.ofList value)
    | value => some (String.ofList value)
  match OptionName.ofLetter? letter with
  | some name => .option name value
  | none => .other

def read (s : String) : Argument :=
  match s.toList with
  | ['-', '-'] => .dashes
  | '-' :: '-' :: cs => long cs
  | '-' :: letter :: cs => short letter cs
  | _ => .other

/-- Whether an argument has the form of an option, so that it is not a value. -/
def isOptionLike (s : String) : Bool :=
  match s.toList with
  | '-' :: _ :: _ => true
  | _ => false

end Argument

/-- Reads the arguments that follow the options so far. -/
def parseFrom (options : Options) : List String → Option Options
  | [] => some options
  | argument :: rest =>
    match Argument.read argument with
    | .dashes => if rest.isEmpty then some options else none
    | .option .strict none => options.setStrict.bind fun options => parseFrom options rest
    | .option name (some value) =>
      (options.set name value).bind fun options => parseFrom options rest
    | .option name none =>
      match rest with
      | value :: rest =>
        if Argument.isOptionLike value then none
        else (options.set name value).bind fun options => parseFrom options rest
      | [] => none
    | .other => none

/-- Reads a command line. -/
def parse (arguments : List String) : Option Options :=
  parseFrom {} arguments

end StatementTable.CommandLine
