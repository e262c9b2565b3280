import StatementTable.CommandLine.Run
import StatementTable.Service.Session
import Std.Async.TCP

/-!
# The program

The program runs the command line on the files of the machine and the sessions on its connections.
What it does about them is decided elsewhere.
-/

namespace StatementTable.Main

open Std.Async Std.Net

/-- The number and the words of an error of the machine. -/
def errorDetails : IO.Error → Option (UInt32 × String)
  | .otherError code details | .resourceBusy code details | .resourceVanished code details
  | .unsupportedOperation code details | .hardwareFault code details
  | .unsatisfiedConstraints code details | .illegalOperation code details
  | .protocolError code details | .timeExpired code details | .alreadyExists _ code details
  | .interrupted _ code details | .noFileOrDirectory _ code details
  | .invalidArgument _ code details | .permissionDenied _ code details
  | .resourceExhausted _ code details | .inappropriateType _ code details
  | .noSuchThing _ code details => some (code, details)
  | .unexpectedEof | .userError _ => none

/-- What an error of the machine says about a file.  Some numbers of errors are given with the sign
changed. -/
def fileError (error : IO.Error) : FileError :=
  match errorDetails error with
  | none => .other (toString error)
  | some (code, details) =>
    let number := min code (0 - code)
    match number with
    | 2 => .missing
    | 6 => .noDevice
    | 13 => .denied
    | 20 => .notDirectory
    | 21 => .isDirectory
    | 36 => .tooLong
    | _ => .other (details ++ " (os error " ++ toString number ++ ")")

/-- Runs an action on a file and notes its error. -/
def attempt {α : Type} (action : IO α) : IO (Except FileError α) := do
  try
    return .ok (← action)
  catch error =>
    return .error (fileError error)

/-- What is seen at a path.  The entries of a folder that is passed over are not asked for. -/
partial def survey (path : String) : IO Sight := do
  let file := (IO.FS.DirEntry.mk path "").root
  match ← attempt file.metadata with
  | .error _ => return .nothing
  | .ok metadata =>
    match metadata.type with
    | .file => return .file
    | .dir =>
      if isSkipped path then return .folder []
      match ← attempt file.readDir with
      | .error error => return .closed error
      | .ok entries =>
        return .folder (← entries.toList.mapM fun entry =>
          return (entry.fileName, ← survey (Path.join path entry.fileName)))
    | _ => return .special

/-- Writes a file, and waits for the machine to have it. -/
def writeFile (path : String) (content : ByteArray) : IO Unit := do
  let file ← IO.FS.Handle.mk path .write
  file.write content
  file.flush

instance : FileSystem IO where
  look := survey
  readAll paths := do
    let contents ← paths.mapM fun (path : String) =>
      return (path, ← attempt (IO.FS.readBinFile path))
    return fun path => (contents.lookup path).getD (.error .missing)
  write path content := attempt (writeFile path content)

/-- Answers the complete lines of a connection.  The result tells whether to go on with it. -/
def answerLines (client : TCP.Socket.Client) (stopped : IO.Promise Unit) :
    List (List UInt8) → Async Bool
  | [] => return true
  | line :: rest => do
    match Service.react line with
    | .ignore => answerLines client stopped rest
    | .hangUp => return false
    | .answer reply =>
      client.send ⟨(Service.replyLine reply).toArray⟩
      answerLines client stopped rest
    | .stop reply =>
      client.send ⟨(Service.replyLine reply).toArray⟩
      stopped.resolve ()
      return false

/-- Answers a connection.  The bytes after the last newline wait for the rest of their line. -/
partial def converse (client : TCP.Socket.Client) (stopped : IO.Promise Unit)
    (pending : List UInt8) : Async Unit := do
  match ← client.recv? 65536 with
  | none => let _ ← answerLines client stopped (Service.splitLines pending)
  | some chunk =>
    let lines := Service.splitLines (pending ++ chunk.toList)
    let (complete, rest) := lines.partition fun line => line.getLast? == some Service.newline
    if ← answerLines client stopped complete then
      converse client stopped rest.flatten

/-- Accepts connections, each of which is answered on its own. -/
partial def acceptAll (server : TCP.Socket.Server) (stopped : IO.Promise Unit) :
    Async Unit := do
  let client ← server.accept
  background (converse client stopped [])
  acceptAll server stopped

/-- Serves on the socket of the given number until the service is stopped. -/
def serve (socket : UInt16) : IO CommandLine.Exit := do
  let server ← TCP.Socket.Server.mk
  server.bind (.v4 ⟨.ofParts 127 0 0 1, socket⟩)
  server.listen 128
  let stopped ← IO.Promise.new
  Async.block do
    background (acceptAll server stopped)
    await stopped
  return .finished none ""

def run (arguments : List String) : IO UInt32 := do
  let exit ← CommandLine.run serve arguments
  IO.print exit.stdout
  unless exit.stderr.isEmpty do
    IO.eprintln exit.stderr
  return exit.code.toUInt32

end StatementTable.Main

def main (arguments : List String) : IO UInt32 :=
  StatementTable.Main.run arguments
