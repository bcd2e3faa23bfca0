import MiniScheme.Console.EntryBuffer
import MiniScheme.Session

/-!
# The console

The console takes lines, runs each entry that they finish, and answers with the text of its
value or with its errors.  A line that asks to quit is obeyed only where an entry may begin.
-/

namespace MiniScheme

/-- What a line at the console leads to: text to show, text to report, and whether more lines
are wanted. -/
structure Reply where
  shown : String
  reported : String
  goesOn : Bool
deriving DecidableEq

namespace Reply

/-- No answer. -/
def silent : Reply :=
  ⟨"", "", true⟩

/-- The end of the console. -/
def quit : Reply :=
  ⟨"", "", false⟩

end Reply

/-- The unfinished entry and the session that entries are run in. -/
structure Console where
  buffer : EntryBuffer
  session : Session

namespace Console

/-- The console of a session. -/
def ofSession (session : Session) : Console :=
  ⟨.empty, session⟩

/-- Whether a line asks to quit. -/
def asksToQuit (line : String) : Bool :=
  Blank.trim line.toList = ":quit".toList

/-- The console with another clock. -/
def atTime (console : Console) (clock : Clock) : Console :=
  { console with session := console.session.atTime clock }

/-- Run a finished entry. -/
def runEntry (console : Console) (source : String) : Reply × Console :=
  let (result, printed, session) := console.session.runSource source
  let console := { console with session }
  match result with
  | .ok value => (⟨printed ++ value.text ++ "\n", "", true⟩, console)
  | .error message => (⟨printed, message ++ "\n", true⟩, console)

/-- Take a line. -/
def enter (console : Console) (line : String) : Reply × Console :=
  if console.buffer.isEmpty && asksToQuit line then (.quit, console)
  else
    let (entry, buffer) := console.buffer.push line
    let console := { console with buffer }
    match entry with
    | none => (.silent, console)
    | some source => console.runEntry source

/-- Take lines up to the one that asks to quit: all that is shown, and all that is reported. -/
def enterAll (console : Console) : List String → String × String
  | [] => ("", "")
  | line :: lines =>
    let (reply, console) := console.enter line
    if reply.goesOn then
      let (shown, reported) := console.enterAll lines
      (reply.shown ++ shown, reply.reported ++ reported)
    else (reply.shown, reply.reported)

end Console

end MiniScheme
