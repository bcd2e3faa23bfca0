import MiniScheme.CommandLine.Run
import Std.Time.DateTime.Timestamp

/-!
# The command

The outer layer of the command: the host that reads and writes files, reads lines and the clock,
and prints.  What is read, written and printed is decided by the functions that run on it.
-/

namespace MiniScheme.Computer

open CommandLine

/-- A bound on the depth of evaluation that no computer reaches. -/
def fuel : Nat :=
  0x1000000000000000

/-- The time in milliseconds. -/
def now : IO Int64 := do
  return Int64.ofInt (← Std.Time.Timestamp.now).toMillisecondsSinceUnixEpoch.val

/-- An error of the host as an error of a file; some codes come with a minus sign. -/
def fileError : IO.Error → FileError
  | .noFileOrDirectory _ _ _ => .noSuchFile
  | .inappropriateType _ code details =>
    if code = 20 || code = -20 then .notFolder
    else if code = 21 || code = -21 then .isFolder
    else .other details
  | .resourceExhausted _ code details =>
    if code = 28 || code = -28 then .noSpace else .other details
  | error => .other (toString error)

/-- What an action on files gives, or why it fails. -/
def attempt {α : Type} (action : IO α) : IO (Except FileError α) := do
  try
    return .ok (← action)
  catch error => return .error (fileError error)

/-- Read the text of a file. -/
def readText (path : String) : IO (Except FileError String) := do
  match ← attempt (IO.FS.readBinFile path) with
  | .error error => return .error error
  | .ok bytes =>
    match Content.ofBytes bytes with
    | .text text => return .ok text
    | .binary _ => return .error .notText

/-- Show a text at once. -/
def say (text : String) : IO Unit := do
  IO.print text
  (← IO.getStdout).flush

/-- Take lines at the console until there are no more or one asks to quit.  The time of a line is
that at which it is entered. -/
partial def serve (interactive : Bool) (console : Console) : IO Unit := do
  if interactive then say console.buffer.prompt
  let line ← (← IO.getStdin).getLine
  match Lines.ofText line with
  | [] => return
  | line :: _ =>
    let (reply, console) := (console.atTime (← now)).enter line
    say reply.shown
    IO.eprint reply.reported
    if reply.goesOn then serve interactive console

/-- The computer as the host of a command. -/
def host : Host IO where
  File := IO.FS.Handle
  read := readText
  create path := attempt (IO.FS.Handle.mk path .write)
  fill file text := attempt do
    file.putStr text
    file.flush
  print := say
  report := IO.eprint
  serve session := do
    serve (← (← IO.getStdin).isTty) (Console.ofSession session)

end MiniScheme.Computer

/-- Run the command with its arguments. -/
def main (arguments : List String) : IO UInt32 := do
  let session := MiniScheme.Session.new MiniScheme.Computer.fuel (← MiniScheme.Computer.now)
  return (← MiniScheme.Computer.host.runCommand arguments session).toUInt32
