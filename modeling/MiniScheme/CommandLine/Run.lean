import MiniScheme.CommandLine.Directory
import MiniScheme.CommandLine.Options
import MiniScheme.Console.Basic
import MiniScheme.Script.Compiler
import MiniScheme.Text.Lines

/-!
# Running a command

A command runs or compiles its file, if it names one, and then takes lines at the console, if
it names none or asks for it.  A failure at the file ends it.  What a command does is written once,
over a host that reads and writes files, shows and reports.  The program runs on the host that the
computer is; over a file system, a command is a function of the files, the lines that it is given
and a session.  The log that a verbose command keeps is left out: what is reported are errors.

Main results:

- Theorem `FileSystem.run_runOptions`: what a command does with its file, over a file system.
-/

namespace MiniScheme.CommandLine

/-- The version of the command. -/
def versionText : String :=
  "ssi 0.1.0\n"

/-- How the command is used. -/
def helpText : String :=
  "ssi 0.1.0\n" ++
  "A small Scheme interpreter\n" ++
  "\n" ++
  "USAGE:\n" ++
  "    ssi [OPTIONS] [FILE]\n" ++
  "\n" ++
  "ARGS:\n" ++
  "    <FILE>    Source file to run or compile\n" ++
  "\n" ++
  "OPTIONS:\n" ++
  "        --compile            Compile FILE to JavaScript instead of running it\n" ++
  "    -h, --help               Print help information\n" ++
  "    -o, --output <OUTPUT>    Output path for --compile (defaults to FILE with a .js extension)\n" ++
  "        --prelude            Prepend JavaScript definitions of the primitives to compiled " ++
  "output\n" ++
  "        --repl               Start the interactive loop, after running FILE if one is given\n" ++
  "    -v, --verbose            Raise the log level (-v info, -vv debug, -vvv trace)\n" ++
  "    -V, --version            Print version information\n"

/-! ## Compiling -/

/-- Why a file is not compiled. -/
inductive CompileError
  | unreadable (error : FileError)
  | malformed (errors : List SyntaxError)
  | unsupported (reason : Script.Unsupported)

/-- The error in words. -/
def CompileError.message : CompileError → String
  | unreadable error => error.message
  | malformed errors => SyntaxError.messages errors
  | unsupported reason => reason.message

/-- The script of a source. -/
def compileSource (prelude : Bool) (source : String) : Except CompileError String := do
  let program ← (parse source).mapError .malformed
  ((Script.Compiler.new prelude).compile program).1.mapError .unsupported

/-- The path that the script of a file is written to: the output, or the file with another
extension. -/
def outputPath (options : Options) (path : String) : String :=
  options.output.getD (Path.withExtension path "js")

/-! ## The work on a file -/

/-- What comes of the work on a file: a failure, a session in which the file was run, or a
script to be written. -/
inductive FileWork
  | failed (shown message : String)
  | ran (shown : String) (session : Session)
  | compiled (path code : String)

/-- Compile a file, given what reading it gives. -/
def compileFile (options : Options) (path : String) (source : Except FileError String) :
    FileWork :=
  match source.mapError .unreadable >>= compileSource options.prelude with
  | .ok code => .compiled (outputPath options path) code
  | .error error => .failed "" error.message

/-- Run a file, given what reading it gives. -/
def runFile (source : Except FileError String) (session : Session) : FileWork :=
  match source with
  | .error error => .failed "" error.message
  | .ok source =>
    match session.runSource source with
    | (.ok _, printed, session) => .ran printed session
    | (.error message, printed, _) => .failed printed message

/-- Do what a command asks for with its file, given what reading it gives. -/
def workOnFile (options : Options) (path : String) (source : Except FileError String)
    (session : Session) : FileWork :=
  if options.compile then compileFile options path source else runFile source session

/-- Whether a command takes lines at the console. -/
def Options.wantsConsole (options : Options) : Bool :=
  options.repl || options.file.isNone

/-! ## Hosts -/

/-- What a command needs of the computer that it runs on: files, two places for text, and someone
who enters lines at the console. -/
structure Host (m : Type → Type) where
  File : Type
  /-- The text of the file at a path. -/
  read : String → m (Except FileError String)
  /-- Open a file at a path for a new text. -/
  create : String → m (Except FileError File)
  /-- Write a text to an open file. -/
  fill : File → String → m (Except FileError Unit)
  print : String → m Unit
  report : String → m Unit
  /-- Take lines at the console in a session. -/
  serve : Session → m Unit

namespace Host

variable {m : Type → Type} [Monad m]

/-- Write a text to the file at a path: open it, which makes or empties it, and fill it. -/
def write (host : Host m) (path text : String) : m (Except FileError Unit) := do
  match ← host.create path with
  | .error error => return .error error
  | .ok file => host.fill file text

/-- End with a failure. -/
def fail (host : Host m) (shown message : String) : m Nat := do
  host.print shown
  host.report (message ++ "\n")
  return 1

/-- Go on after the work on the file has succeeded. -/
def goOn (host : Host m) (options : Options) (session : Session) : m Nat := do
  if options.wantsConsole then host.serve session
  return 0

/-- Run a command with its options; the answer is the exit code. -/
def runOptions (host : Host m) (options : Options) (session : Session) : m Nat := do
  match options.file with
  | none => host.goOn options session
  | some path =>
    match workOnFile options path (← host.read path) session with
    | .failed shown message => host.fail shown message
    | .ran shown session => do
      host.print shown
      host.goOn options session
    | .compiled target code => do
      match ← host.write target code with
      | .error error => host.fail "" error.message
      | .ok () => host.goOn options session

/-- Run a command with its arguments; the answer is the exit code. -/
def runCommand (host : Host m) (arguments : List String) (session : Session) : m Nat := do
  match Request.ofArguments arguments with
  | .version =>
    host.print versionText
    return 0
  | .help =>
    host.print helpText
    return 0
  | .misuse => return 2
  | .run options => host.runOptions options session

end Host

/-! ## Commands over a file system -/

/-- All that a command can act on: the files, the text that is entered at the console, and what has
been shown and reported. -/
structure World (Files : Type) where
  files : Files
  input : String
  shown : String
  reported : String

namespace FileSystem

variable {Files : Type}

/-- The host that has its files from a file system. -/
def host (system : FileSystem Files) : Host (StateM (World Files)) where
  File := system.File
  read path := fun world => (system.read world.files path, world)
  create path := fun world =>
    let (opened, files) := system.create world.files path
    (opened, { world with files })
  fill file text := fun world =>
    let (filled, files) := system.fill world.files file text
    (filled, { world with files })
  print text := fun world => ((), { world with shown := world.shown ++ text })
  report text := fun world => ((), { world with reported := world.reported ++ text })
  serve session := fun world =>
    let (answers, reports) := (Console.ofSession session).enterAll (Lines.ofText world.input)
    ((), { world with shown := world.shown ++ answers, reported := world.reported ++ reports })

variable (system : FileSystem Files) (world : World Files)

/-- A failure shows and reports what it is given, and changes no file. -/
theorem run_fail (shown message : String) :
    (system.host.fail shown message).run world =
      (1, { world with
        shown := world.shown ++ shown
        reported := world.reported ++ (message ++ "\n") }) :=
  rfl

/-- Nothing more is done after the work on a file if no console is wanted. -/
theorem run_goOn_of_quiet {options : Options} (h : options.wantsConsole = false)
    (session : Session) : (system.host.goOn options session).run world = (0, world) := by
  rw [Host.goOn, h]
  rfl

/-- An action goes on from what the one before it leaves. -/
theorem run_bind_of_eq {α β : Type} {first : StateM (World Files) α}
    {rest : α → StateM (World Files) β} {world after : World Files} {answer : α}
    (h : first.run world = (answer, after)) :
    (first >>= rest).run world = (rest answer).run after := by
  rw [StateT.run_bind, h]
  rfl

/-- A file that cannot be opened is not written. -/
theorem run_write_of_unopened {path : String} {error : FileError} {opened : Files}
    (h : system.create world.files path = (.error error, opened)) (text : String) :
    (system.host.write path text).run world = (.error error, { world with files := opened }) := by
  have hcreate : (system.host.create path).run world =
      (.error error, { world with files := opened }) := by
    simp [host, StateT.run, h]
  rw [Host.write, run_bind_of_eq hcreate]
  rfl

/-- What becomes of a file that is opened is up to filling it. -/
theorem run_write_of_opened {path : String} {file : system.File} {opened : Files}
    (h : system.create world.files path = (.ok file, opened)) (text : String) :
    (system.host.write path text).run world =
      ((system.fill opened file text).1,
        { world with files := (system.fill opened file text).2 }) := by
  have hcreate : (system.host.create path).run world =
      (.ok file, { world with files := opened }) := by
    simp [host, StateT.run, h]
  rw [Host.write, run_bind_of_eq hcreate]
  rfl

/-- What a command does with its file is up to what reading it gives. -/
theorem run_runOptions {options : Options} {path : String} (h : options.file = some path)
    (session : Session) :
    (system.host.runOptions options session).run world =
      match workOnFile options path (system.read world.files path) session with
      | .failed shown message => (system.host.fail shown message).run world
      | .ran shown session =>
        (system.host.goOn options session).run { world with shown := world.shown ++ shown }
      | .compiled target code =>
        match (system.host.write target code).run world with
        | (.error error, world) => (system.host.fail "" error.message).run world
        | (.ok (), world) => (system.host.goOn options session).run world := by
  have hread : (system.host.read path).run world = (system.read world.files path, world) := rfl
  simp only [Host.runOptions, h]
  rw [run_bind_of_eq hread]
  cases workOnFile options path (system.read world.files path) session with
  | failed => rfl
  | ran => rfl
  | compiled target code =>
    cases hwrite : (system.host.write target code).run world with
    | mk written after =>
      simp only [run_bind_of_eq hwrite, hwrite]
      cases written <;> rfl

end FileSystem

/-! ## Commands in a directory -/

/-- All that comes of a command: the exit code, what it shows and reports, and the directory
after it. -/
structure Outcome where
  exitCode : Nat
  shown : String
  reported : String
  directory : Directory

/-- Run a command in a directory: its arguments, what it is given to read, and a new session. -/
def run (arguments : List String) (directory : Directory) (input : String) (session : Session) :
    Outcome :=
  let (exitCode, world) :=
    (Directory.fileSystem.host.runCommand arguments session).run ⟨directory, input, "", ""⟩
  ⟨exitCode, world.shown, world.reported, world.files⟩

end MiniScheme.CommandLine
