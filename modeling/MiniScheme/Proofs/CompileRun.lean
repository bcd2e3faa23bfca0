import MiniScheme.CommandLine.Run
import MiniScheme.Proofs.ScriptDetermination
import MiniScheme.Proofs.WrittenFiles

/-!
# Compiling a file

A command that compiles its file writes the script of it, or it fails and leaves all files as they
are.  It succeeds exactly if the file can be read, is a program without quoted data, and the script
can be written to its path.  All but one of the things that may stand in the way are found before
anything is written; the one is that a file was opened for the script and then not filled.  This
holds of any file system that keeps to the laws of files.

Main results:

- Theorem `Script.Statement.ofProgram_quoted`: quoted data anywhere in a program, and nothing else
  in one that is read, leave it without a script.
- Theorem `compileRun_ends`: a command that compiles its file has written the script, or reports
  what stood in the way.
- Theorem `runCommand_compile`: arguments that ask for a compilation name a file to compile.
- Theorem `Path.withExtension_dotted`: the path of the script, where none is given.
- Theorem `runOptions_compile_writes_or_keeps`: when it succeeds, and what it has done in either
  case.
- Theorem `compile_not_allOrNothing`: a full disk, and arguments that ask for the version.
-/

namespace MiniScheme

/-! ## Programs with quoted data -/

namespace Script

namespace Term

mutual

/-- With quoted data in it a well-formed expression has no term, and for that reason. -/
theorem ofExpression_quoted : ∀ (expression : Expression), expression.isWellFormed = true →
    expression.isUnquoted = false → ofExpression expression = .error .quotedDatum
  | .literal _, _, hquoted => by cases hquoted
  | .quoted _, _, _ => rfl
  | .conditional predicate consequent alternative, h, hquoted => by
    simp only [Expression.isWellFormed, Bool.and_eq_true] at h
    simp only [Expression.isUnquoted, Bool.and_eq_false_iff] at hquoted
    obtain ⟨⟨hpredicate, hconsequent⟩, halternative⟩ := h
    rw [ofExpression]
    cases htest : predicate.isUnquoted with
    | false => rw [ofExpression_quoted predicate hpredicate htest]; rfl
    | true =>
      obtain ⟨test, hterm, -⟩ := ofExpression_legal predicate hpredicate htest
      rw [hterm]
      cases htrue : consequent.isUnquoted with
      | false => rw [ofExpression_quoted consequent hconsequent htrue]; rfl
      | true =>
        obtain ⟨whenTrue, hterm, -⟩ := ofExpression_legal consequent hconsequent htrue
        have hfalse : alternative.isUnquoted = false := by simpa [htest, htrue] using hquoted
        rw [hterm, ofExpression_quoted alternative halternative hfalse]
        rfl
  | .lambda formals body, h, hquoted => by
    simp only [Expression.isWellFormed, Bool.and_eq_true] at h
    rw [ofExpression, ofExpressions_quoted body h.2 hquoted]
    rfl
  | .application head arguments, h, hquoted => by
    simp only [Expression.isWellFormed, Bool.and_eq_true] at h
    simp only [Expression.isUnquoted, Bool.and_eq_false_iff] at hquoted
    rw [ofExpression]
    cases hhead : head.isUnquoted with
    | false => rw [ofExpression_quoted head h.1 hhead]; rfl
    | true =>
      obtain ⟨headTerm, hterm, -⟩ := ofExpression_legal head h.1 hhead
      have harguments : Expression.areUnquoted arguments = false := by simpa [hhead] using hquoted
      rw [hterm, ofExpressions_quoted arguments h.2 harguments]
      rfl

/-- Nor has a row that has such an expression. -/
theorem ofExpressions_quoted : ∀ (row : List Expression), Expression.areWellFormed row = true →
    Expression.areUnquoted row = false → ofExpressions row = .error .quotedDatum
  | [], _, hquoted => by cases hquoted
  | expression :: row, h, hquoted => by
    simp only [Expression.areWellFormed, Bool.and_eq_true] at h
    simp only [Expression.areUnquoted, Bool.and_eq_false_iff] at hquoted
    rw [ofExpressions]
    cases hfirst : expression.isUnquoted with
    | false => rw [ofExpression_quoted expression h.1 hfirst]; rfl
    | true =>
      obtain ⟨term, hterm, -⟩ := ofExpression_legal expression h.1 hfirst
      have hrow : Expression.areUnquoted row = false := by simpa [hfirst] using hquoted
      rw [hterm, ofExpressions_quoted row h.2 hrow]
      rfl

end

end Term

namespace Statement

/-- A well-formed form that quotes is refused for its quoted datum. -/
theorem ofForm_quoted {form : Form} (h : form.isWellFormed = true)
    (hquoted : form.isUnquoted = false) (declared : List String) :
    ofForm declared form = .error .quotedDatum := by
  cases form with
  | definition name value =>
    simp only [Form.isWellFormed, Bool.and_eq_true] at h
    rw [ofForm, Term.ofExpression_quoted value h.2 hquoted]
    rfl
  | expression whole =>
    rw [ofForm, Term.ofExpression_quoted whole h hquoted]
    rfl

/-- With quoted data in it a well-formed program has no statements, however many of its forms have
one. -/
theorem ofProgram_quoted {program : Program} (h : program.isWellFormed = true)
    (hquoted : program.isUnquoted = false) (declared : List String) :
    (ofProgram declared program).1 = .error .quotedDatum := by
  induction program generalizing declared with
  | nil => cases hquoted
  | cons form forms ih =>
    simp only [Program.isWellFormed, List.all_cons, Bool.and_eq_true] at h
    simp only [Program.isUnquoted, List.all_cons, Bool.and_eq_false_iff] at hquoted
    rw [ofProgram]
    cases hform : form.isUnquoted with
    | false => rw [ofForm_quoted h.1 hform]
    | true =>
      obtain ⟨statement, declared', hstatement, -⟩ := ofForm_legal h.1 hform declared
      have hforms : Program.isUnquoted forms = false :=
        hquoted.resolve_left (by simp [hform])
      rw [hstatement]
      simp [ih h.2 hforms, Except.map]

end Statement

/-- A program that is read has a script exactly if it holds no quoted data. -/
theorem compile_cases {source : String} {program : Program} (hparse : parse source = .ok program)
    (compiler : Compiler) :
    (program.isUnquoted = true ∧ ∃ code, (compiler.compile program).1 = .ok code) ∨
      (program.isUnquoted = false ∧ (compiler.compile program).1 = .error .quotedDatum) := by
  have hwell := parse_isWellFormed hparse
  cases hunquoted : program.isUnquoted with
  | true =>
    obtain ⟨statements, hstatements, -⟩ :=
      Statement.ofProgram_legal hwell hunquoted compiler.openingNames
    exact .inl ⟨rfl, _, Compiler.compile_eq hstatements⟩
  | false =>
    have hstatements := Statement.ofProgram_quoted hwell hunquoted compiler.openingNames
    exact .inr ⟨rfl, by simp [Compiler.compile, hstatements, Except.map]⟩

variable {source : String} {program : Program}

/-- A program that has a script holds no quoted data. -/
theorem isUnquoted_of_compile (hparse : parse source = .ok program) {compiler : Compiler}
    {code : String} (hcode : (compiler.compile program).1 = .ok code) :
    program.isUnquoted = true := by
  rcases compile_cases hparse compiler with ⟨hunquoted, -⟩ | ⟨-, herror⟩
  · exact hunquoted
  · rw [hcode] at herror
    cases herror

/-- A program without quoted data has a script. -/
theorem exists_compile (hparse : parse source = .ok program) (hunquoted : program.isUnquoted = true)
    (compiler : Compiler) : ∃ code, (compiler.compile program).1 = .ok code := by
  rcases compile_cases hparse compiler with ⟨-, hcode⟩ | ⟨hquoted, -⟩
  · exact hcode
  · rw [hunquoted] at hquoted
    cases hquoted

end Script

namespace CommandLine

open Script (isUnquoted_of_compile exists_compile)

/-! ## How the compilation of a file ends -/

section

variable {Files : Type} {system : FileSystem Files} {options : Options} {path : String}
  {world : World Files} {session : Session}

/-- What can keep the script of a file from being written, with the words for it and the files
after it. -/
inductive Refusal (system : FileSystem Files) (options : Options) (path : String) (files : Files) :
    String → Files → Prop
  | unreadable {error : FileError} (hread : system.read files path = .error error) :
    Refusal system options path files error.message files
  | malformed {source : String} {errors : List SyntaxError}
    (hread : system.read files path = .ok source) (hparse : parse source = .error errors) :
    Refusal system options path files (SyntaxError.messages errors) files
  | quoted {source : String} {program : Program} (hread : system.read files path = .ok source)
    (hparse : parse source = .ok program) (hquoted : program.isUnquoted = false) :
    Refusal system options path files Script.Unsupported.quotedDatum.message files
  | unopened {source code : String} {program : Program} {error : FileError} {opened : Files}
    (hread : system.read files path = .ok source) (hparse : parse source = .ok program)
    (hcode : ((Script.Compiler.new options.prelude).compile program).1 = .ok code)
    (hcreate : system.create files (outputPath options path) = (.error error, opened)) :
    Refusal system options path files error.message opened

/-- How the writing of a script is cut short, with the file, the words for it and the files after
it: the file could be opened, and then it could not be filled. -/
inductive CutShort (system : FileSystem Files) (options : Options) (path : String)
    (files : Files) : system.File → String → Files → Prop
  | unfilled {source code : String} {program : Program} {file : system.File} {error : FileError}
    {opened filled : Files}
    (hread : system.read files path = .ok source) (hparse : parse source = .ok program)
    (hcode : ((Script.Compiler.new options.prelude).compile program).1 = .ok code)
    (hcreate : system.create files (outputPath options path) = (.ok file, opened))
    (hfill : system.fill opened file code = (.error error, filled)) :
    CutShort system options path files file error.message filled

/-- How a command that compiles its file ends: with the exit code and what it leaves. -/
inductive CompileEnds (system : FileSystem Files) (options : Options) (path : String)
    (world : World Files) : Nat × World Files → Prop
  | written {source code : String} {program : Program} {file : system.File} {opened filled : Files}
    (hread : system.read world.files path = .ok source) (hparse : parse source = .ok program)
    (hcode : ((Script.Compiler.new options.prelude).compile program).1 = .ok code)
    (hcreate : system.create world.files (outputPath options path) = (.ok file, opened))
    (hfill : system.fill opened file code = (.ok (), filled)) :
    CompileEnds system options path world (0, { world with files := filled })
  | refused {message : String} {files : Files}
    (h : Refusal system options path world.files message files) :
    CompileEnds system options path world
      (1, { world with files, reported := world.reported ++ (message ++ "\n") })
  | cutShort {message : String} {file : system.File} {files : Files}
    (h : CutShort system options path world.files file message files) :
    CompileEnds system options path world
      (1, { world with files, reported := world.reported ++ (message ++ "\n") })

/-- What is refused cannot be written. -/
theorem Refusal.not_canWrite {message source : String} {program : Program} {files after : Files}
    (h : Refusal system options path files message after)
    (hread : system.read files path = .ok source) (hparse : parse source = .ok program)
    (hunquoted : program.isUnquoted = true) (code : String) :
    ¬system.CanWrite files (outputPath options path) code := by
  rintro ⟨file, opened, filled, hcreate, -⟩
  cases h with
  | unreadable hread' =>
    rw [hread'] at hread
    cases hread
  | malformed hread' hparse' =>
    cases hread'.symm.trans hread
    cases hparse'.symm.trans hparse
  | quoted hread' hparse' hquoted =>
    cases hread'.symm.trans hread
    cases hparse'.symm.trans hparse
    rw [hquoted] at hunquoted
    cases hunquoted
  | unopened hread' hparse' hcode hcreate' => cases hcreate'.symm.trans hcreate

/-- What is refused changes no file. -/
theorem Refusal.content_eq (hlawful : system.Lawful) {message : String} {files after : Files}
    (h : Refusal system options path files message after) (file : system.File) :
    system.content after file = system.content files file := by
  cases h with
  | unreadable => rfl
  | malformed => rfl
  | quoted => rfl
  | unopened hread hparse hcode hcreate => exact hlawful.create_error hcreate file

/-- A script whose writing is cut short cannot be written. -/
theorem CutShort.exists_not_canWrite {message source : String} {program : Program}
    {file : system.File} {files after : Files}
    (h : CutShort system options path files file message after)
    (hread : system.read files path = .ok source) (hparse : parse source = .ok program) :
    ∃ code, ((Script.Compiler.new options.prelude).compile program).1 = .ok code ∧
      ¬system.CanWrite files (outputPath options path) code := by
  obtain ⟨hread', hparse', hcode, hcreate, hfill⟩ := h
  cases hread'.symm.trans hread
  cases hparse'.symm.trans hparse
  refine ⟨_, hcode, ?_⟩
  rintro ⟨file', opened', filled', hcreate', hfill'⟩
  cases hcreate'.symm.trans hcreate
  cases hfill'.symm.trans hfill

/-- When writing is cut short, the path of the script leads to the file that was opened, and all
others are as they were. -/
theorem CutShort.locate_and_content (hlawful : system.Lawful) {message : String}
    {file : system.File} {files after : Files}
    (h : CutShort system options path files file message after) :
    system.locate after (outputPath options path) = some file ∧
      ∀ other ≠ file, system.content after other = system.content files other := by
  obtain ⟨-, -, -, hcreate, hfill⟩ := h
  obtain rfl := congrArg Prod.snd hfill
  exact ⟨hlawful.locate_fill hcreate _, fun other hother => hlawful.content_fill hcreate _ hother⟩

/-- A file whose work has failed is reported, and nothing else happens. -/
theorem run_of_failed {message : String} (hfile : options.file = some path)
    (hwork : workOnFile options path (system.read world.files path) session = .failed "" message) :
    (system.host.runOptions options session).run world =
      (1, { world with reported := world.reported ++ (message ++ "\n") }) := by
  rw [system.run_runOptions world hfile, hwork]
  simp only [FileSystem.run_fail, String.append_empty]

/-- A command whose script is written has succeeded. -/
theorem run_of_written {target code : String} {after : World Files}
    (hfile : options.file = some path) (hquiet : options.wantsConsole = false)
    (hwork : workOnFile options path (system.read world.files path) session =
      .compiled target code)
    (hwrite : (system.host.write target code).run world = (.ok (), after)) :
    (system.host.runOptions options session).run world = (0, after) := by
  rw [system.run_runOptions world hfile, hwork]
  simp only [hwrite]
  exact system.run_goOn_of_quiet after hquiet session

/-- A script that cannot be written is reported, and nothing else happens. -/
theorem run_of_unwritten {target code : String} {error : FileError} {after : World Files}
    (hfile : options.file = some path)
    (hwork : workOnFile options path (system.read world.files path) session =
      .compiled target code)
    (hwrite : (system.host.write target code).run world = (.error error, after)) :
    (system.host.runOptions options session).run world =
      (1, { after with reported := after.reported ++ (error.message ++ "\n") }) := by
  rw [system.run_runOptions world hfile, hwork]
  simp only [hwrite, FileSystem.run_fail, String.append_empty]

/-- A file that is compiled leaves a script to be written, or what is wrong with it. -/
theorem workOnFile_compile (hcompile : options.compile = true) (source : Except FileError String)
    (path : String) (session : Session) :
    workOnFile options path source session =
      match source.mapError .unreadable >>= compileSource options.prelude with
      | .ok code => .compiled (outputPath options path) code
      | .error error => .failed "" error.message := by
  rw [workOnFile, hcompile, if_pos rfl]
  rfl

/-- A file that is read leaves its script, or what is wrong with its source. -/
theorem workOnFile_of_read (hcompile : options.compile = true) {source : String}
    (hread : system.read world.files path = .ok source) (session : Session) :
    workOnFile options path (system.read world.files path) session =
      match compileSource options.prelude source with
      | .ok code => .compiled (outputPath options path) code
      | .error error => .failed "" error.message := by
  rw [workOnFile_compile hcompile, hread]
  rfl

/-- A text that is no program has no script. -/
theorem compileSource_malformed (withPrelude : Bool) {source : String} {errors : List SyntaxError}
    (hparse : parse source = .error errors) :
    compileSource withPrelude source = .error (.malformed errors) := by
  rw [compileSource, hparse]
  rfl

/-- The script of a text that is a program is what a new compiler makes of it. -/
theorem compileSource_of_parse (withPrelude : Bool) {source : String} {program : Program}
    (hparse : parse source = .ok program) :
    compileSource withPrelude source =
      ((Script.Compiler.new withPrelude).compile program).1.mapError .unsupported := by
  rw [compileSource, hparse]
  rfl

/-- A command that has a script to write ends with it written, refused or cut short. -/
theorem compileRun_ends_of_script {source code : String} {program : Program}
    (hfile : options.file = some path) (hquiet : options.wantsConsole = false)
    (hread : system.read world.files path = .ok source) (hparse : parse source = .ok program)
    (hcode : ((Script.Compiler.new options.prelude).compile program).1 = .ok code)
    (hwork : workOnFile options path (system.read world.files path) session =
      .compiled (outputPath options path) code) :
    CompileEnds system options path world ((system.host.runOptions options session).run world) := by
  rcases hcreate : system.create world.files (outputPath options path) with ⟨created, opened⟩
  cases created with
  | error error =>
    have hwrite := system.run_write_of_unopened world hcreate code
    rw [run_of_unwritten hfile hwork hwrite]
    exact .refused (.unopened hread hparse hcode hcreate)
  | ok file =>
    have hwrite := system.run_write_of_opened world hcreate code
    rcases hfill : system.fill opened file code with ⟨filled, after⟩
    rw [hfill] at hwrite
    cases filled with
    | error error =>
      rw [run_of_unwritten hfile hwork hwrite]
      exact .cutShort (.unfilled hread hparse hcode hcreate hfill)
    | ok =>
      rw [run_of_written hfile hquiet hwork hwrite]
      exact .written hread hparse hcode hcreate hfill

/-- A command that compiles its file ends in one of the ways above. -/
theorem compileRun_ends (hfile : options.file = some path) (hcompile : options.compile = true)
    (hrepl : options.repl = false) (world : World Files) (session : Session) :
    CompileEnds system options path world ((system.host.runOptions options session).run world) := by
  have hquiet : options.wantsConsole = false := by simp [Options.wantsConsole, hrepl, hfile]
  cases hread : system.read world.files path with
  | error error =>
    have hwork := workOnFile_compile hcompile (system.read world.files path) path session
    rw [run_of_failed hfile (by rw [hwork, hread]; rfl)]
    exact .refused (.unreadable hread)
  | ok source =>
    have hwork := workOnFile_of_read hcompile hread session
    cases hparse : parse source with
    | error errors =>
      rw [compileSource_malformed options.prelude hparse] at hwork
      rw [run_of_failed hfile hwork]
      exact .refused (.malformed hread hparse)
    | ok program =>
      rw [compileSource_of_parse options.prelude hparse] at hwork
      rcases Script.compile_cases hparse (.new options.prelude) with
        ⟨-, code, hcode⟩ | ⟨hquoted, hcode⟩
      · rw [hcode] at hwork
        exact compileRun_ends_of_script hfile hquiet hread hparse hcode hwork
      · rw [hcode] at hwork
        rw [run_of_failed hfile hwork]
        exact .refused (.quoted hread hparse hquoted)

/-- No session has a part in the compilation of a file. -/
theorem runOptions_compile_session (hfile : options.file = some path)
    (hcompile : options.compile = true) (hrepl : options.repl = false) (world : World Files)
    (session session' : Session) :
    (system.host.runOptions options session').run world =
      (system.host.runOptions options session).run world := by
  have hquiet : options.wantsConsole = false := by simp [Options.wantsConsole, hrepl, hfile]
  have hgoOn : ∀ world, (system.host.goOn options session').run world =
      (system.host.goOn options session).run world := by
    intro world
    rw [system.run_goOn_of_quiet world hquiet, system.run_goOn_of_quiet world hquiet]
  simp only [system.run_runOptions world hfile, workOnFile_compile hcompile, hgoOn]

end

/-- Arguments that ask for a compilation name a file, and the command does what they say on any
host. -/
theorem runCommand_compile {m : Type → Type} [Monad m] (host : Host m) {arguments : List String}
    {options : Options} (hrequest : Request.ofArguments arguments = .run options)
    (hcompile : options.compile = true) (session : Session) :
    (∃ path, options.file = some path) ∧
      host.runCommand arguments session = host.runOptions options session := by
  refine ⟨?_, by rw [Host.runCommand, hrequest]⟩
  simp only [Request.ofArguments] at hrequest
  split at hrequest
  next => cases hrequest
  next => cases hrequest
  next => cases hrequest
  next mentions _ =>
    split at hrequest
    next hproper =>
      cases hrequest
      simp only [Options.isConsistent, hcompile, Bool.and_eq_true, Bool.not_true,
        Bool.false_or] at hproper
      exact Option.isSome_iff_exists.1 hproper.2.1.1
    next => cases hrequest

/-! ## The path of the script -/

/-- The extension of a file's name is replaced: what follows its last dot, in a name that has more
than dots in front of it. -/
theorem Path.withExtension_dotted {folder stem ending : List Char}
    (hfolder : folder = [] ∨ folder.getLast? = some '/') (hstem : '/' ∉ stem)
    (hslash : '/' ∉ ending) (hdot : '.' ∉ ending) (hnonempty : stem ≠ []) (hname : stem ≠ ['.'])
    (extension : String) :
    withExtension (String.ofList (folder ++ stem ++ '.' :: ending)) extension =
      String.ofList (folder ++ stem ++ ['.']) ++ extension := by
  have hreversed : (folder ++ stem ++ '.' :: ending).reverse =
      ending.reverse ++ '.' :: stem.reverse ++ folder.reverse := by
    simp
  have hfront : Stops (· ≠ '/') folder.reverse := by
    rcases hfolder with rfl | hfolder
    · exact stops_nil _
    · intro c hc
      rw [List.head?_reverse, hfolder] at hc
      cases hc
      rfl
  have htake : (ending.reverse ++ '.' :: stem.reverse ++ folder.reverse).takeWhile (· ≠ '/') =
      ending.reverse ++ '.' :: stem.reverse := by
    refine takeWhile_append_stops (fun c hc => ?_) hfront
    simp only [List.mem_append, List.mem_reverse, List.mem_cons] at hc
    rcases hc with hc | rfl | hc
    · simpa using fun h : c = '/' => hslash (h ▸ hc)
    · decide
    · simpa using fun h : c = '/' => hstem (h ▸ hc)
  have hcurrent : (ending.reverse ++ '.' :: stem.reverse).takeWhile (· ≠ '.') = ending.reverse := by
    refine takeWhile_append_stops (fun c hc => ?_) (stops_cons.2 (by decide))
    simpa using fun h : c = '.' => hdot (h ▸ List.mem_reverse.1 hc)
  simp only [withExtension, String.toList_ofList, hreversed, htake, hcurrent]
  rw [List.append_assoc, List.drop_left, List.drop_left]
  cases hlast : stem.reverse with
  | nil => exact absurd (List.reverse_eq_nil_iff.1 hlast) hnonempty
  | cons c rest =>
    obtain rfl : stem = rest.reverse ++ [c] := by
      rw [← stem.reverse_reverse, hlast, List.reverse_cons]
    split
    next heq =>
      cases heq
      exact absurd rfl hname
    next => simp
    next _ h => exact absurd rfl (h c rest)

/-! ## All or nothing -/

/-- A command that compiles a file and does not go on at the console succeeds exactly if the file
can be read as text, is accepted as a program, holds no quoted data, and the script can be written
to its path.  Then this path leads to a file that holds exactly the script, and all other files are
as they were.  Otherwise the exit code is one and what stood in the way is reported; all files are
as they were, except that a file which could be opened for the script and not be filled with it is
left as that leaves it.  In either case nothing is shown, and neither a session nor the lines at
the console matter. -/
theorem runOptions_compile_writes_or_keeps {Files : Type} {system : FileSystem Files}
    (hlawful : system.Lawful) {options : Options} {path : String}
    (hfile : options.file = some path) (hcompile : options.compile = true)
    (hrepl : options.repl = false) (world : World Files) (session : Session) :
    let target := outputPath options path
    let exitCode := ((system.host.runOptions options session).run world).1
    let after := ((system.host.runOptions options session).run world).2
    (exitCode = 0 ↔ ∃ source program, system.read world.files path = .ok source ∧
      parse source = .ok program ∧ program.isUnquoted = true ∧
      ∀ code, ((Script.Compiler.new options.prelude).compile program).1 = .ok code →
        system.CanWrite world.files target code) ∧
    (exitCode = 0 → ∃ source program code file, system.read world.files path = .ok source ∧
      parse source = .ok program ∧
      ((Script.Compiler.new options.prelude).compile program).1 = .ok code ∧
      system.locate after.files target = some file ∧
      system.content after.files file = some (.text code) ∧
      ∀ other ≠ file, system.content after.files other = system.content world.files other) ∧
    (exitCode ≠ 0 → exitCode = 1 ∧ ∃ message,
      after.reported = world.reported ++ (message ++ "\n") ∧
      ((Refusal system options path world.files message after.files ∧
          ∀ file, system.content after.files file = system.content world.files file) ∨
        ∃ file, CutShort system options path world.files file message after.files ∧
          system.locate after.files target = some file ∧
          ∀ other ≠ file, system.content after.files other = system.content world.files other)) ∧
    after.shown = world.shown ∧ after.input = world.input ∧
    ∀ session', (system.host.runOptions options session').run world = (exitCode, after) := by
  intro target exitCode after
  have hends : CompileEnds system options path world (exitCode, after) :=
    compileRun_ends hfile hcompile hrepl world session
  have hsession : ∀ session', (system.host.runOptions options session').run world =
      (exitCode, after) :=
    fun session' => runOptions_compile_session hfile hcompile hrepl world session session'
  clear_value exitCode after
  cases hends with
  | written hread hparse hcode hcreate hfill =>
    have hunquoted := isUnquoted_of_compile hparse hcode
    obtain rfl := congrArg Prod.snd hfill
    refine ⟨iff_of_true rfl ⟨_, _, hread, hparse, hunquoted, fun code hcode' => ?_⟩,
      fun _ => ⟨_, _, _, _, hread, hparse, hcode, hlawful.locate_fill hcreate _,
        hlawful.fill_text (hlawful.create_empty hcreate) hfill,
        fun other hother => hlawful.content_fill hcreate _ hother⟩,
      fun h => absurd rfl h, rfl, rfl, hsession⟩
    cases hcode'.symm.trans hcode
    exact ⟨_, _, _, hcreate, hfill⟩
  | refused h =>
    refine ⟨iff_of_false (by nofun) ?_, nofun,
      fun _ => ⟨rfl, _, rfl, .inl ⟨h, h.content_eq hlawful⟩⟩, rfl, rfl, hsession⟩
    rintro ⟨source, program, hread, hparse, hunquoted, hwrite⟩
    obtain ⟨code, hcode⟩ := exists_compile hparse hunquoted (.new options.prelude)
    exact h.not_canWrite hread hparse hunquoted code (hwrite code hcode)
  | cutShort h =>
    obtain ⟨hlocate, hothers⟩ := h.locate_and_content hlawful
    refine ⟨iff_of_false (by nofun) ?_, nofun,
      fun _ => ⟨rfl, _, rfl, .inr ⟨_, h, hlocate, hothers⟩⟩, rfl, rfl, hsession⟩
    rintro ⟨source, program, hread, hparse, -, hwrite⟩
    obtain ⟨code, hcode, hnot⟩ := h.exists_not_canWrite hread hparse
    exact hnot (hwrite code hcode)

/-- An older file in the place of the script is replaced, and the one beside it is kept. -/
theorem runOptions_compile_writes_or_keeps_older :
    let options : Options := ⟨some "a.scm", false, true, some "out//b.js", false, false⟩
    let directory := Directory.ofFiles [("a.scm", .text "(define x 1) x"),
      ("out/b.js", .text "older"), ("out/c.js", .text "other")]
    let answer := (Directory.fileSystem.host.runOptions options (Session.new 0 0)).run
      ⟨directory, "", "", ""⟩
    Directory.fileSystem.Lawful ∧ answer.1 = 0 ∧
      answer.2.files.files.lookup ["out", "b.js"] = some (.text "let x = 1;\nx;\n") ∧
      answer.2.files.files.lookup ["out", "c.js"] = some (.text "other") := by
  intro options directory answer
  obtain ⟨hiff, hwritten, -⟩ := runOptions_compile_writes_or_keeps Directory.fileSystem_lawful
    (show options.file = some "a.scm" from rfl) rfl rfl ⟨directory, "", "", ""⟩ (Session.new 0 0)
  have hread : directory.read "a.scm" = .ok "(define x 1) x" := by decide +kernel
  have hparse : parse "(define x 1) x" = .ok (readSource "(define x 1) x").1 :=
    (parse_eq_ok_iff _ _).2 (Prod.ext rfl (by decide +kernel))
  have hcreate : Directory.fileSystem.create directory (outputPath options "a.scm") =
      (.ok ["out", "b.js"], directory.insert ["out", "b.js"] (.text "")) := by
    have hplace : directory.writable (outputPath options "a.scm") = .ok ["out", "b.js"] := by
      decide +kernel
    simp [Directory.fileSystem, hplace]
  have hcode : answer.1 = 0 :=
    hiff.2 ⟨_, _, hread, hparse, by decide +kernel, fun code _ => ⟨_, _, _, hcreate, rfl⟩⟩
  obtain ⟨source, program, code, place, hread', hparse', hscript, hlocate, hresult, helsewhere⟩ :=
    hwritten hcode
  cases hread.symm.trans hread'
  cases hparse.symm.trans hparse'
  have htext : code = "let x = 1;\nx;\n" := by
    have hknown : ((Script.Compiler.new false).compile (readSource "(define x 1) x").1).1 =
        .ok "let x = 1;\nx;\n" := by decide +kernel
    exact Except.ok.inj (hscript.symm.trans hknown)
  have hplace : place = ["out", "b.js"] := by
    have hknown : answer.2.files.fileAt "out//b.js" = some ["out", "b.js"] := by decide +kernel
    exact Option.some.inj (hlocate.symm.trans hknown)
  have hother : ["out", "c.js"] ≠ ["out", "b.js"] := by decide
  subst htext hplace
  exact ⟨Directory.fileSystem_lawful, hcode, hresult, helsewhere ["out", "c.js"] hother⟩

/-- Two ways in which it is not all or nothing: the version is shown before the file is looked for,
and where no space is left the older file in the place of the script is emptied. -/
theorem compile_not_allOrNothing :
    let versionRun := run ["--compile", "p.ss", "-V"] (Directory.ofFiles []) "" (Session.new 0 0)
    let options : Options := ⟨some "a.scm", false, true, some "b.js", false, false⟩
    let directory := Directory.ofFiles [("a.scm", .text "1"), ("b.js", .text "older")]
    let answer := (Directory.fileSystem.full.host.runOptions options (Session.new 0 0)).run
      ⟨directory, "", "", ""⟩
    ((Directory.ofFiles []).read "p.ss" = .error .noSuchFile ∧
      versionRun.exitCode = 0 ∧ versionRun.shown = versionText) ∧
    Directory.fileSystem.full.Lawful ∧ answer.1 = 1 ∧
      answer.2.reported = "No space left on device (os error 28)\n" ∧
      directory.read "b.js" = .ok "older" ∧ answer.2.files.read "b.js" = .ok "" := by
  intro versionRun options directory answer
  have hversion : (Directory.ofFiles []).read "p.ss" = .error .noSuchFile ∧
      versionRun.exitCode = 0 ∧ versionRun.shown = versionText := by decide +kernel
  have hfull : answer.1 = 1 ∧ answer.2.reported = "No space left on device (os error 28)\n" ∧
      directory.read "b.js" = .ok "older" ∧ answer.2.files.read "b.js" = .ok "" := by
    decide +kernel
  exact ⟨hversion, Directory.fileSystem_lawful.full, hfull⟩

end CommandLine

end MiniScheme
