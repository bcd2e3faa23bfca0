/-!
# Command-line options

The arguments of a command are read from left to right.  A wrong argument and a wish for the
version or for help end the reading at once; what the arguments say together is checked at the end.
-/

namespace MiniScheme.CommandLine

/-- What a command asks for. -/
structure Options where
  file : Option String
  repl : Bool
  compile : Bool
  output : Option String
  prelude : Bool
  verbose : Bool
deriving DecidableEq

/-- What the arguments of a command amount to. -/
inductive Request
  | run (options : Options)
  | version
  | help
  | misuse
deriving DecidableEq

/-! ## Mentions -/

/-- The options without a value. -/
inductive Switch
  | repl
  | compile
  | prelude
  | verbose
deriving DecidableEq

/-- What arguments mention; the value of an output may be missing. -/
inductive Mention
  | switch (switch : Switch)
  | output (path : Option String)
  | file (path : String)
deriving DecidableEq

/-- Why the reading of arguments ends early. -/
inductive Interruption
  | version
  | help
  | misuse
deriving DecidableEq

/-- What an argument is by its form. -/
inductive Shape
  /-- Two dashes alone. -/
  | separator
  /-- Two dashes, a name and perhaps a value after an equals sign. -/
  | long (name : List Char) (value : Option (List Char))
  /-- A dash and some letters. -/
  | short (letters : List Char)
  /-- Anything else, also a dash alone. -/
  | plain
deriving DecidableEq

/-- The shape of an argument. -/
def Shape.of : List Char → Shape
  | ['-', '-'] => .separator
  | '-' :: '-' :: text =>
    let name := text.takeWhile (· != '=')
    match text.drop name.length with
    | _ :: value => .long name (some value)
    | [] => .long name none
  | ['-'] => .plain
  | '-' :: letters => .short letters
  | _ => .plain

/-- The switch of a long name. -/
def Switch.ofName? (name : List Char) : Option Switch :=
  if name = "repl".toList then some .repl
  else if name = "compile".toList then some .compile
  else if name = "prelude".toList then some .prelude
  else if name = "verbose".toList then some .verbose
  else none

/-- The value that is attached to a letter: what follows it, without an equals sign. -/
def attachedValue : List Char → Option (List Char)
  | [] => none
  | '=' :: value => some value
  | value => some value

/-- What an argument mentions, and whether its last option still lacks a value. -/
abbrev Mentioned :=
  Except Interruption (List Mention × Bool)

/-- An output with its value, if it is attached. -/
def mentionOutput : Option (List Char) → List Mention × Bool
  | some value => ([.output (some (String.ofList value))], false)
  | none => ([], true)

/-- What letters after a single dash mention. -/
def readLetters : List Char → Mentioned
  | [] => .ok ([], false)
  | c :: letters =>
    if c = 'v' then do
      let (mentions, lacking) ← readLetters letters
      return (.switch .verbose :: mentions, lacking)
    else if c = 'o' then .ok (mentionOutput (attachedValue letters))
    else if c = 'V' then .error .version
    else if c = 'h' then .error .help
    else .error .misuse

/-- Why a long name that is none of an option ends the reading. -/
def Interruption.ofName (name : List Char) : Interruption :=
  if name = "version".toList then .version
  else if name = "help".toList then .help
  else .misuse

/-- What a long name mentions. -/
def readLong (name : List Char) (value : Option (List Char)) : Mentioned :=
  if name = "output".toList then .ok (mentionOutput value)
  else
    match value, Switch.ofName? name with
    | none, some switch => .ok ([.switch switch], false)
    | none, none => .error (.ofName name)
    | some _, _ => .error .misuse

/-! ## Reading -/

/-- The mention of an output whose value never came. -/
def unfinished (lacking : Bool) : List Mention :=
  if lacking then [.output none] else []

/-- What plain arguments mention: the one file. -/
def readFiles (fileSeen : Bool) : List String → Except Interruption (List Mention)
  | [] => .ok []
  | path :: paths =>
    if fileSeen then .error .misuse
    else return .file path :: (← readFiles true paths)

/-- What arguments mention, in order, after a file was seen or not, and after an option that
lacks its value or not. -/
def readMentions (fileSeen lacking : Bool) : List String → Except Interruption (List Mention)
  | [] => .ok (unfinished lacking)
  | argument :: arguments =>
    match Shape.of argument.toList with
    | .separator => return unfinished lacking ++ (← readFiles fileSeen arguments)
    | .plain =>
      if lacking then return .output (some argument) :: (← readMentions fileSeen false arguments)
      else if fileSeen then .error .misuse
      else return .file argument :: (← readMentions true false arguments)
    | .long name value => do
      let (mentions, lacks) ← readLong name value
      return unfinished lacking ++ mentions ++ (← readMentions fileSeen lacks arguments)
    | .short letters => do
      let (mentions, lacks) ← readLetters letters
      return unfinished lacking ++ mentions ++ (← readMentions fileSeen lacks arguments)

/-! ## Checking -/

/-- How often a switch is mentioned. -/
def timesMentioned (mentions : List Mention) (switch : Switch) : Nat :=
  mentions.count (.switch switch)

/-- The outputs that are mentioned. -/
def outputs (mentions : List Mention) : List (Option String) :=
  mentions.filterMap fun
    | .output path => some path
    | _ => none

/-- The file that is mentioned. -/
def file? (mentions : List Mention) : Option String :=
  mentions.findSome? fun
    | .file path => some path
    | _ => none

/-- Whether no switch but the one for verbosity is mentioned twice, and at most one output, with
its value. -/
def isProper (mentions : List Mention) : Bool :=
  [Switch.repl, .compile, .prelude].all (fun switch => timesMentioned mentions switch ≤ 1) &&
    (outputs mentions).length ≤ 1 && (outputs mentions).all Option.isSome

/-- The options that are mentioned. -/
def Options.ofMentions (mentions : List Mention) : Options where
  file := file? mentions
  repl := 0 < timesMentioned mentions .repl
  compile := 0 < timesMentioned mentions .compile
  output := (outputs mentions).head?.join
  prelude := 0 < timesMentioned mentions .prelude
  verbose := 0 < timesMentioned mentions .verbose

/-- Whether every option comes with the one that it needs: a compilation with a file, an output
and a prelude with a compilation. -/
def Options.isConsistent (options : Options) : Bool :=
  (!options.compile || options.file.isSome) && (options.output.isNone || options.compile) &&
    (!options.prelude || options.compile)

/-- What a command's arguments amount to. -/
def Request.ofArguments (arguments : List String) : Request :=
  match readMentions false false arguments with
  | .error .version => .version
  | .error .help => .help
  | .error .misuse => .misuse
  | .ok mentions =>
    let options := Options.ofMentions mentions
    if isProper mentions && options.isConsistent then .run options else .misuse

end MiniScheme.CommandLine
