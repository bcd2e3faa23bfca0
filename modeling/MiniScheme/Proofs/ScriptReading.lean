import MiniScheme.Proofs.ScriptPieces

/-!
# Reading scripts

A machine with a stack reads scripts piece by piece.  A term may turn out to be the head of a
call, and that may be one again, so that the machine keeps a term that has ended until the next
piece tells what it is part of.  What stands around the term is on the stack, the innermost
first.

Main results:

- Theorem `Term.run_pieces`: over the pieces of a term the machine comes to the end of that term,
  whatever the term stands in.
- Theorem `readScript_lines`: a script of legal statements is read as these statements.
-/

namespace MiniScheme.Script

/-! ## The machine -/

/-- What has been read of the statement or term that a term is directly part of. -/
inductive Frame
  | evaluate
  | declare (name : String)
  | assign (name : String)
  | test
  | whenTrue (test : Term)
  | whenFalse (test whenTrue : Term)
  | step (parameters : List String) (steps : List Term)
  | result (parameters : List String) (steps : List Term)
  | argument (head : Term) (before : List Term)

/-- What the next piece is to be. -/
inductive Place
  /-- The first piece of a statement. -/
  | statement
  /-- The name that is declared. -/
  | declared
  /-- The sign between a declared name and its value. -/
  | equals (name : String)
  /-- The first piece of a term. -/
  | term
  /-- What follows the parenthesis that a conditional or a function begins with. -/
  | group
  /-- The parenthesis before the parameters. -/
  | parameters
  /-- A parameter, or the parenthesis that closes an empty row of them. -/
  | parameter (before : List String)
  /-- What follows a parameter. -/
  | parameterEnd (before : List String)
  /-- The brace before the steps of a function. -/
  | body (parameters : List String)
  /-- The first piece of a step, or the word before the result. -/
  | step (parameters : List String) (before : List Term)
  /-- The brace after the result. -/
  | resultEnd (function : Term)
  /-- The parenthesis after that brace. -/
  | functionEnd (function : Term)
  /-- The first piece of an argument, or the parenthesis that closes an empty row of them. -/
  | argument (head : Term)
  /-- What follows a term. -/
  | after (term : Term)

/-- The statements that have been read, what stands around the current term, and what is to
follow. -/
structure Reader where
  statements : List Statement
  frames : List Frame
  place : Place

/-- The term that a word is. -/
def Term.ofWord? (text : List Char) : Option Term :=
  if text = "true".toList then some (.boolean true)
  else if text = "false".toList then some (.boolean false)
  else if text = "null".toList then some .null
  else if text.all CharClass.isDigit then some (.number (Int64.ofNat (decimalValue text)))
  else if String.ofList text ∈ Name.reserved then none
  else some (.name (String.ofList text))

namespace Reader

/-- The machine after the first piece of a term. -/
def beginTerm (reader : Reader) : Piece → Option Reader
  | .word text => (Term.ofWord? text).map fun term => { reader with place := .after term }
  | .string text => some { reader with place := .after (.string text) }
  | .mark c => if c = '(' then some { reader with place := .group } else none

/-- The machine after the first piece of a term that is part of something new. -/
def enter (reader : Reader) (frame : Frame) (piece : Piece) : Option Reader :=
  beginTerm { reader with frames := frame :: reader.frames } piece

/-- The machine after a mark that follows a term. -/
def endTerm (reader : Reader) (term : Term) (c : Char) : Option Reader :=
  match c, reader.frames with
  | '(', _ => some { reader with place := .argument term }
  | '?', .test :: frames => some ⟨reader.statements, .whenTrue term :: frames, .term⟩
  | ':', .whenTrue test :: frames =>
    some ⟨reader.statements, .whenFalse test term :: frames, .term⟩
  | ')', .whenFalse test whenTrue :: frames =>
    some ⟨reader.statements, frames, .after (.conditional test whenTrue term)⟩
  | ';', .step parameters steps :: frames =>
    some ⟨reader.statements, frames, .step parameters (steps ++ [term])⟩
  | ';', .result parameters steps :: frames =>
    some ⟨reader.statements, frames, .resultEnd (.function parameters steps term)⟩
  | ',', .argument head before :: frames =>
    some ⟨reader.statements, .argument head (before ++ [term]) :: frames, .term⟩
  | ')', .argument head before :: frames =>
    some ⟨reader.statements, frames, .after (.call head (before ++ [term]))⟩
  | '=', .evaluate :: frames =>
    match term with
    | .name name => some ⟨reader.statements, .assign name :: frames, .term⟩
    | _ => none
  | ';', .evaluate :: frames => some ⟨reader.statements ++ [.evaluate term], frames, .statement⟩
  | ';', .declare name :: frames =>
    some ⟨reader.statements ++ [.declare name term], frames, .statement⟩
  | ';', .assign name :: frames =>
    some ⟨reader.statements ++ [.assign name term], frames, .statement⟩
  | _, _ => none

/-- The machine after a piece, if the piece can stand there. -/
def step (reader : Reader) (piece : Piece) : Option Reader :=
  match reader.place with
  | .statement =>
    if piece = .word "let".toList then some { reader with place := .declared }
    else reader.enter .evaluate piece
  | .declared =>
    match piece with
    | .word text => some { reader with place := .equals (String.ofList text) }
    | _ => none
  | .equals name =>
    if piece = .mark '=' then
      some { reader with frames := .declare name :: reader.frames, place := .term }
    else none
  | .term => reader.beginTerm piece
  | .group =>
    if piece = .word "function".toList then some { reader with place := .parameters }
    else reader.enter .test piece
  | .parameters => if piece = .mark '(' then some { reader with place := .parameter [] } else none
  | .parameter before =>
    match piece with
    | .word text => some { reader with place := .parameterEnd (before ++ [String.ofList text]) }
    | piece =>
      if piece = .mark ')' ∧ before = [] then some { reader with place := .body before } else none
  | .parameterEnd before =>
    if piece = .mark ',' then some { reader with place := .parameter before }
    else if piece = .mark ')' then some { reader with place := .body before }
    else none
  | .body parameters =>
    if piece = .mark '\x7b' then some { reader with place := .step parameters [] } else none
  | .step parameters before =>
    if piece = .word "return".toList then
      some { reader with frames := .result parameters before :: reader.frames, place := .term }
    else reader.enter (.step parameters before) piece
  | .resultEnd function =>
    if piece = .mark '\x7d' then some { reader with place := .functionEnd function } else none
  | .functionEnd function =>
    if piece = .mark ')' then some { reader with place := .after function } else none
  | .argument head =>
    if piece = .mark ')' then some { reader with place := .after (.call head []) }
    else reader.enter (.argument head []) piece
  | .after term =>
    match piece with
    | .mark c => reader.endTerm term c
    | _ => none

/-- The machine after a row of pieces. -/
def run (reader : Reader) (pieces : List Piece) : Option Reader :=
  pieces.foldlM step reader

/-- A reader takes the first piece and goes on with the others. -/
theorem run_cons (reader : Reader) (piece : Piece) (pieces : List Piece) :
    reader.run (piece :: pieces) = (reader.step piece).bind fun reader => reader.run pieces :=
  rfl

/-- A piece that leads on is followed by the pieces after it. -/
theorem run_of_step {reader reader' : Reader} {piece : Piece} (h : reader.step piece = some reader')
    (pieces : List Piece) : reader.run (piece :: pieces) = reader'.run pieces := by
  rw [run_cons, h, Option.bind_some]

end Reader

/-- The statements that a script is read as, if it is one. -/
def readScript (text : String) : Option (List Statement) :=
  match Reader.run ⟨[], [], .statement⟩ (cut text.toList) with
  | some ⟨statements, [], .statement⟩ => some statements
  | _ => none

/-! ## Words -/

namespace Term

/-- The words of the booleans are read back as them. -/
theorem ofWord?_boolean (b : Bool) :
    ofWord? (if b then "true" else "false").toList = some (.boolean b) := by
  cases b <;> rfl

/-- A legal name is read as a name. -/
theorem ofWord?_name {name : String} (h : Name.IsLegal name) :
    ofWord? name.toList = some (.name name) := by
  have hfree : ∀ word ∈ Name.reserved, name.toList ≠ word.toList := by
    rintro word hword heq
    exact h.free (String.toList_inj.1 heq ▸ hword)
  have hdigit : ¬ name.toList.all CharClass.isDigit = true := by
    obtain ⟨c, hc, hdigit⟩ := h.begins
    intro hall
    rw [List.all_eq_true.1 hall c (List.mem_of_mem_head? hc)] at hdigit
    cases hdigit
  unfold ofWord?
  rw [if_neg (hfree "true" (by decide)), if_neg (hfree "false" (by decide)),
    if_neg (hfree "null" (by decide)), if_neg hdigit, String.ofList_toList, if_neg h.free]

/-- A number is told from every word that holds other characters than digits. -/
theorem toList_numberText_ne {n : Int64} (h : 0 ≤ n.toInt) (word : String)
    (hword : word.toList.all CharClass.isDigit = false) :
    (Number.text n).toList ≠ word.toList := by
  intro heq
  rw [← heq, toList_numberText h, List.all_eq_false] at hword
  obtain ⟨c, hc, hdigit⟩ := hword
  exact hdigit (CharClass.isDigit_of_mem_toDigits hc)

/-- The digits of a number are read as the number. -/
theorem ofWord?_number {n : Int64} (h : 0 ≤ n.toInt) :
    ofWord? (Number.text n).toList = some (.number n) := by
  have hall : (Nat.toDigits 10 n.toInt.toNat).all CharClass.isDigit = true :=
    List.all_eq_true.2 fun _ => CharClass.isDigit_of_mem_toDigits
  have hn : Int64.ofNat n.toInt.toNat = n := Int64.ofNat_toNatClampNeg n (Int64.le_iff_toInt_le.2 h)
  have htrue := toList_numberText_ne h "true" (by decide)
  have hfalse := toList_numberText_ne h "false" (by decide)
  have hnull := toList_numberText_ne h "null" (by decide)
  unfold ofWord?
  rw [if_neg htrue, if_neg hfalse, if_neg hnull, toList_numberText h, if_pos hall,
    decimalValue_toDigits, hn]

/-- No legal term begins with a word that has a meaning of its own, or with what closes a row. -/
theorem exists_pieces_eq_cons (term : Term) (h : term.Legal) :
    ∃ piece pieces, term.pieces = piece :: pieces ∧ piece ≠ .word "let".toList ∧
      piece ≠ .word "function".toList ∧ piece ≠ .word "return".toList ∧ piece ≠ .mark ')' := by
  cases term with
  | name spelling =>
    have hfree : ∀ word ∈ Name.reserved, Piece.word spelling.toList ≠ .word word.toList := by
      intro word hword heq
      exact h.free (String.toList_inj.1 (Piece.word.inj heq) ▸ hword)
    exact ⟨_, _, rfl, hfree "let" (by decide), hfree "function" (by decide),
      hfree "return" (by decide), nofun⟩
  | number n =>
    have hdigits : ∀ word : String, word.toList.all CharClass.isDigit = false →
        Piece.word (Number.text n).toList ≠ .word word.toList :=
      fun word hword heq => toList_numberText_ne h word hword (Piece.word.inj heq)
    exact ⟨_, _, rfl, hdigits "let" (by decide), hdigits "function" (by decide),
      hdigits "return" (by decide), nofun⟩
  | boolean b => cases b <;> exact ⟨_, _, rfl, by decide⟩
  | string text => exact ⟨_, _, rfl, by simp⟩
  | null => exact ⟨_, _, rfl, by decide⟩
  | conditional => exact ⟨_, _, rfl, by decide⟩
  | function => exact ⟨_, _, rfl, by decide⟩
  | call head arguments =>
    obtain ⟨piece, pieces, hpieces, hpiece⟩ := exists_pieces_eq_cons head h.1
    exact ⟨piece, _, by rw [Term.pieces, hpieces, List.cons_append], hpiece⟩

/-! ## Runs over terms -/

section Runs

variable {read : List Statement} {frames : List Frame}

/-- Where something else than a term may begin, a term that begins is read as part of what it
is to be part of. -/
theorem run_enter {term : Term} (h : term.Legal) {place : Place} {frame : Frame}
    (hstep : ∀ piece, piece ≠ .word "let".toList → piece ≠ .word "function".toList →
      piece ≠ .word "return".toList → piece ≠ .mark ')' →
        Reader.step ⟨read, frames, place⟩ piece = Reader.enter ⟨read, frames, place⟩ frame piece)
    (rest : List Piece) :
    Reader.run ⟨read, frames, place⟩ (term.pieces ++ rest) =
      Reader.run ⟨read, frame :: frames, .term⟩ (term.pieces ++ rest) := by
  obtain ⟨piece, pieces, hpieces, hlet, hfunction, hreturn, hclose⟩ := exists_pieces_eq_cons term h
  rw [hpieces, List.cons_append, Reader.run_cons, Reader.run_cons,
    hstep piece hlet hfunction hreturn hclose]
  cases piece with
  | word => rfl
  | string => rfl
  | mark => rfl

/-- The names of parameters are read up to the parenthesis that closes them. -/
theorem run_parameters (names : List String) (rest : List Piece) :
    Reader.run ⟨read, frames, .parameter []⟩
        (separated (names.map fun name => [.word name.toList]) ++ .mark ')' :: rest) =
      Reader.run ⟨read, frames, .body names⟩ rest := by
  have hfurther : ∀ (names before : List String) (name : String),
      Reader.run ⟨read, frames, .parameter before⟩
          (separated ((name :: names).map fun name => [.word name.toList]) ++ .mark ')' :: rest) =
        Reader.run ⟨read, frames, .body (before ++ name :: names)⟩ rest := by
    intro names
    induction names with
    | nil =>
      intro before name
      rw [List.map_singleton, separated, List.singleton_append, Reader.run_of_step rfl,
        Reader.run_of_step rfl, String.ofList_toList]
    | cons name' names ih =>
      intro before name
      simp only [List.map_cons] at ih ⊢
      rw [separated, List.append_assoc, List.singleton_append, Reader.run_of_step rfl,
        List.cons_append, Reader.run_of_step rfl, ih, String.ofList_toList, List.append_assoc,
        List.singleton_append]
      exact List.cons_ne_nil _ _
  cases names with
  | nil => exact Reader.run_of_step rfl rest
  | cons name names => exact hfurther names [] name

/-- A row that is separated by commas begins with its first part. -/
theorem exists_separated_cons (pieces : List Piece) (row : List (List Piece)) :
    ∃ tail, separated (pieces :: row) = pieces ++ tail := by
  cases row with
  | nil => exact ⟨[], (List.append_nil _).symm⟩
  | cons => exact ⟨_, by rw [separated]; exact List.cons_ne_nil _ _⟩

mutual

/-- Over the pieces of a term the machine comes to the end of that term, whatever the term
stands in. -/
theorem run_pieces : ∀ (term : Term), term.Legal → ∀ (frames : List Frame) (rest : List Piece),
    Reader.run ⟨read, frames, .term⟩ (term.pieces ++ rest) =
      Reader.run ⟨read, frames, .after term⟩ rest
  | .name spelling, h, frames, rest =>
    Reader.run_of_step (by simp [Reader.step, Reader.beginTerm, ofWord?_name h]) rest
  | .number n, h, frames, rest =>
    Reader.run_of_step (by simp [Reader.step, Reader.beginTerm, ofWord?_number h]) rest
  | .boolean b, _, frames, rest =>
    Reader.run_of_step
      (by simp only [Reader.step, Reader.beginTerm, ofWord?_boolean, Option.map_some]) rest
  | .string text, _, frames, rest => Reader.run_of_step rfl rest
  | .null, _, frames, rest => Reader.run_of_step rfl rest
  | .conditional test whenTrue whenFalse, h, frames, rest => by
    obtain ⟨htest, htrue, hfalse⟩ := h
    have hgroup : ∀ piece, piece ≠ .word "function".toList →
        Reader.step ⟨read, frames, .group⟩ piece =
          Reader.enter ⟨read, frames, .group⟩ .test piece :=
      fun piece hpiece => if_neg hpiece
    rw [Term.pieces, List.cons_append, Reader.run_of_step rfl, List.append_assoc,
      run_enter htest fun piece _ hpiece _ _ => hgroup piece hpiece, run_pieces test htest,
      List.cons_append, Reader.run_of_step rfl, List.append_assoc, run_pieces whenTrue htrue,
      List.cons_append, Reader.run_of_step rfl, List.append_assoc, run_pieces whenFalse hfalse,
      List.singleton_append, Reader.run_of_step rfl]
  | .function parameters steps result, h, frames, rest => by
    obtain ⟨-, hsteps, hresult⟩ := h
    simp only [Term.pieces, List.cons_append, List.append_assoc, List.nil_append]
    rw [Reader.run_of_step rfl, Reader.run_of_step rfl, Reader.run_of_step rfl, run_parameters,
      Reader.run_of_step rfl, run_stepPieces steps hsteps, Reader.run_of_step rfl,
      run_pieces result hresult, Reader.run_of_step rfl, Reader.run_of_step rfl,
      Reader.run_of_step rfl, List.nil_append]
  | .call head arguments, h, frames, rest => by
    rw [Term.pieces, List.append_assoc, run_pieces head h.1, List.cons_append,
      Reader.run_of_step rfl, List.append_assoc, List.singleton_append]
    cases arguments with
    | nil => exact Reader.run_of_step rfl rest
    | cons term terms =>
      have hargument : ∀ piece, piece ≠ .mark ')' →
          Reader.step ⟨read, frames, .argument head⟩ piece =
            Reader.enter ⟨read, frames, .argument head⟩ (.argument head []) piece :=
        fun piece hpiece => if_neg hpiece
      obtain ⟨tail, htail⟩ := exists_separated_cons term.pieces (Term.rowPieces terms)
      show Reader.run ⟨read, frames, .argument head⟩ _ = _
      rw [Term.rowPieces, htail, List.append_assoc,
        run_enter h.2.1 fun piece _ _ _ hpiece => hargument piece hpiece, ← List.append_assoc,
        ← htail, ← Term.rowPieces, run_arguments (term :: terms) h.2 (List.cons_ne_nil _ _),
        List.nil_append]

/-- Over terms with a semicolon after each the machine comes to the next step of a function. -/
theorem run_stepPieces : ∀ (terms : List Term), Term.AllLegal terms →
    ∀ (parameters : List String) (before : List Term) (frames : List Frame) (rest : List Piece),
    Reader.run ⟨read, frames, .step parameters before⟩ (Term.stepPieces terms ++ rest) =
      Reader.run ⟨read, frames, .step parameters (before ++ terms)⟩ rest
  | [], _, parameters, before, frames, rest => by rw [List.append_nil]; rfl
  | term :: terms, h, parameters, before, frames, rest => by
    have hstep : ∀ piece, piece ≠ .word "return".toList →
        Reader.step ⟨read, frames, .step parameters before⟩ piece =
          Reader.enter ⟨read, frames, .step parameters before⟩ (.step parameters before) piece :=
      fun piece hpiece => if_neg hpiece
    rw [Term.stepPieces, List.append_assoc,
      run_enter h.1 fun piece _ _ hpiece _ => hstep piece hpiece, run_pieces term h.1,
      List.cons_append, Reader.run_of_step rfl, run_stepPieces terms h.2, List.append_assoc,
      List.singleton_append]

/-- Over the arguments of a call the machine comes to the end of the call. -/
theorem run_arguments : ∀ (terms : List Term), Term.AllLegal terms → terms ≠ [] →
    ∀ (head : Term) (before : List Term) (frames : List Frame) (rest : List Piece),
    Reader.run ⟨read, .argument head before :: frames, .term⟩
        (separated (Term.rowPieces terms) ++ .mark ')' :: rest) =
      Reader.run ⟨read, frames, .after (.call head (before ++ terms))⟩ rest
  | [], _, hne, _, _, _, _ => absurd rfl hne
  | [term], h, _, head, before, frames, rest => by
    rw [Term.rowPieces, Term.rowPieces, separated, run_pieces term h.1, Reader.run_of_step rfl]
  | term :: term' :: terms, h, _, head, before, frames, rest => by
    rw [Term.rowPieces, Term.rowPieces, separated, List.append_assoc, run_pieces term h.1,
      List.cons_append, Reader.run_of_step rfl, ← Term.rowPieces,
      run_arguments (term' :: terms) h.2 (List.cons_ne_nil _ _), List.append_assoc,
      List.singleton_append]
    exact List.cons_ne_nil _ _

end

end Runs

end Term

/-! ## Runs over scripts -/

/-- Where a statement may begin, a term that begins is a statement or the name in one. -/
theorem Term.run_enter_statement (term : Term) (h : term.Legal) (read : List Statement)
    (rest : List Piece) :
    Reader.run ⟨read, [], .statement⟩ (term.pieces ++ rest) =
      Reader.run ⟨read, [.evaluate], .after term⟩ rest := by
  have hstatement : ∀ piece, piece ≠ .word "let".toList →
      Reader.step ⟨read, [], .statement⟩ piece =
        Reader.enter ⟨read, [], .statement⟩ .evaluate piece :=
    fun piece hpiece => if_neg hpiece
  rw [run_enter h fun piece hpiece _ _ _ => hstatement piece hpiece, run_pieces term h]

/-- Over the pieces of a statement the machine comes to the next one. -/
theorem Statement.run_pieces (statement : Statement) (h : statement.Legal)
    (read : List Statement) (rest : List Piece) :
    Reader.run ⟨read, [], .statement⟩ (statement.pieces ++ rest) =
      Reader.run ⟨read ++ [statement], [], .statement⟩ rest := by
  cases statement with
  | declare name value =>
    simp only [pieces, List.cons_append, List.append_assoc, List.nil_append]
    rw [Reader.run_of_step rfl, Reader.run_of_step rfl, Reader.run_of_step rfl,
      Term.run_pieces value h.2, Reader.run_of_step rfl, String.ofList_toList]
  | assign name value =>
    have hname := Term.run_enter_statement (.name name) h.1 read
    simp only [Term.pieces, List.singleton_append] at hname
    simp only [pieces, List.cons_append, List.append_assoc, List.nil_append]
    rw [hname, Reader.run_of_step rfl, Term.run_pieces value h.2, Reader.run_of_step rfl]
  | evaluate term =>
    rw [pieces, List.append_assoc, Term.run_enter_statement term h, List.singleton_append,
      Reader.run_of_step rfl]

/-- A reader reads statements from their pieces one after the other. -/
theorem run_statements (statements : List Statement)
    (h : ∀ statement ∈ statements, statement.Legal) (read : List Statement) :
    Reader.run ⟨read, [], .statement⟩ (statements.flatMap Statement.pieces) =
      some ⟨read ++ statements, [], .statement⟩ := by
  induction statements generalizing read with
  | nil =>
    rw [List.append_nil]
    rfl
  | cons statement statements ih =>
    obtain ⟨hfirst, hfurther⟩ := List.forall_mem_cons.1 h
    rw [List.flatMap_cons, statement.run_pieces hfirst, ih hfurther, List.append_assoc,
      List.singleton_append]

/-- A script of legal statements is read as these statements. -/
theorem readScript_lines (statements : List Statement)
    (h : ∀ statement ∈ statements, statement.Legal) :
    readScript (lines (statements.map Statement.text)) = some statements := by
  rw [readScript, cut_lines statements h, run_statements statements h, List.nil_append]

/-- Legal statements that are written alike are the same. -/
theorem lines_inj {statements statements' : List Statement}
    (h : ∀ statement ∈ statements, statement.Legal)
    (h' : ∀ statement ∈ statements', statement.Legal) :
    lines (statements.map Statement.text) = lines (statements'.map Statement.text) ↔
      statements = statements' := by
  constructor
  · intro heq
    have hread := readScript_lines statements h
    rw [heq, readScript_lines statements' h'] at hread
    exact (Option.some.inj hread).symm
  · rintro rfl
    rfl

end MiniScheme.Script
