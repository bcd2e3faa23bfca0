import MiniScheme.Proofs.FailedCompilation
import MiniScheme.Proofs.ScriptLines

/-!
# Declarations come first and once

The line of a form depends on the forms in front of it through the names that they define and
nothing else: a definition declares its name if that is new, and assigns to it otherwise.  So the
line that declares a name is the prelude's if the prelude has the name, and that of its first
definition otherwise, and all lines that assign to the name stand behind it.  A compiler without
the prelude carries this through any number of compilations, as if their programs were one.

Main results:

- Theorem `Statement.hasLine_of_ofProgram`: the line of each form of a program.
- Theorem `Form.HasLine.declares_iff`: which forms declare a name, and `Form.HasLine.assigns_iff`:
  which assign to it.
- Theorem `Compiler.results_declare_once`: in the scripts of a new compiler each name is declared
  once, in front of the assignments to it.
-/

namespace MiniScheme

open Script
open Lines (Unbroken)

/-! ## The line of a form -/

/-- Whether a line is written for a form, where some names are known. -/
def Form.HasLine (known : List String) : Form → String → Prop
  | definition name value, line => ∃ term, Term.ofExpression value = .ok term ∧
      line = (if Name.ofIdentifier name.text ∈ known then "" else "let ") ++
        Name.ofIdentifier name.text ++ " = " ++ (term.text ++ ";")
  | expression whole, line => ∃ term, Term.ofExpression whole = .ok term ∧ line = term.text ++ ";"

namespace Form.HasLine

variable {known known' declared after : List String} {form : Form} {line name : String}
variable {statement : Statement}

/-- Which line is written depends on the known names only, not on their order. -/
theorem congr (hnames : SameNames known known') (h : form.HasLine known line) :
    form.HasLine known' line := by
  cases form with
  | definition token value =>
    obtain ⟨term, hterm, rfl⟩ := h
    simp only [hnames (Name.ofIdentifier token.text)]
    exact ⟨term, hterm, rfl⟩
  | expression whole => exact h

/-- The statement of a form is written as its line. -/
theorem of_ofForm (h : Statement.ofForm declared form = .ok (statement, after)) :
    form.HasLine declared statement.text := by
  cases form with
  | definition token value =>
    obtain ⟨term, hterm, heq⟩ := Statement.ofForm_definition.1 h
    refine ⟨term, hterm, ?_⟩
    split at heq
    next hmem =>
      cases heq
      simp [Statement.text, hmem, String.append_assoc]
    next hmem =>
      cases heq
      simp [Statement.text, hmem, String.append_assoc]
  | expression whole =>
    obtain ⟨term, hterm, heq⟩ := Statement.ofForm_expression.1 h
    cases heq
    exact ⟨term, hterm, rfl⟩

/-- The line of a form holds no line break. -/
theorem unbroken (h : form.HasLine known line) : Unbroken line := by
  cases form with
  | definition token value =>
    obtain ⟨term, hterm, rfl⟩ := h
    have hname := (isWord_ofIdentifier token.text).unbroken
    have hterm := Term.unbroken_text value hterm
    simp only [Lines.unbroken_append]
    refine ⟨⟨⟨?_, hname⟩, by decide⟩, hterm, by decide⟩
    split <;> decide
  | expression whole =>
    obtain ⟨term, hterm, rfl⟩ := h
    rw [Lines.unbroken_append]
    exact ⟨Term.unbroken_text whole hterm, by decide⟩

/-- The line of an expression neither declares a name nor assigns to one. -/
theorem unspaced {whole : Expression} (h : (Form.expression whole).HasLine known line) :
    Unspaced line.toList := by
  obtain ⟨term, hterm, rfl⟩ := h
  rw [String.toList_append]
  exact Term.unspaced_text whole hterm (unspaced_cons (rfl : Name.isNameChar ';' = false)
    (by decide) [])

/-- The line of a form declares the name that the form defines, if that is new. -/
theorem declares_iff (h : form.HasLine known line) (hname : IsWord name) :
    Declares name line ↔ form.definedName? = some name ∧ name ∉ known := by
  cases form with
  | definition token value =>
    obtain ⟨term, hterm, rfl⟩ := h
    have hword := isWord_ofIdentifier token.text
    simp only [definedName?, Option.some.injEq]
    split
    next hmem =>
      rw [String.empty_append]
      refine iff_of_false (not_declares_assignment hname hword _) ?_
      rintro ⟨rfl, hnew⟩
      exact hnew hmem
    next hmem =>
      rw [declares_declaration_iff hname hword, eq_comm]
      refine (and_iff_left_of_imp ?_).symm
      rintro rfl
      exact hmem
  | expression whole => simp [h.unspaced.not_declares, definedName?]

/-- The line of a form assigns to the name that the form defines, if that is known. -/
theorem assigns_iff (h : form.HasLine known line) (hname : IsWord name) :
    Assigns name line ↔ form.definedName? = some name ∧ name ∈ known := by
  cases form with
  | definition token value =>
    obtain ⟨term, hterm, rfl⟩ := h
    have hword := isWord_ofIdentifier token.text
    simp only [definedName?, Option.some.injEq]
    split
    next hmem =>
      rw [String.empty_append, assigns_assignment_iff hname hword, eq_comm]
      refine (and_iff_left_of_imp ?_).symm
      rintro rfl
      exact hmem
    next hmem =>
      refine iff_of_false (not_assigns_declaration hname hword _) ?_
      rintro ⟨rfl, hknown⟩
      exact hmem hknown
  | expression whole => simp [h.unspaced.not_assigns hname, definedName?]

end Form.HasLine

namespace Script

/-! ## The lines of a program -/

namespace Statement

variable {declared : List String} {program : Program} {statements : List Statement}

/-- Programs that are compiled one after another have the statements of one. -/
theorem ofProgram_append (h : (ofProgram declared program).1 = .ok statements) (rest : Program) :
    (ofProgram declared (program ++ rest)).1 =
      (ofProgram (ofProgram declared program).2 rest).1.map (statements ++ ·) := by
  induction program generalizing declared statements with
  | nil =>
    cases h
    cases hrest : (ofProgram declared rest).1 <;> simp [ofProgram, hrest, Except.map]
  | cons form forms ih =>
    obtain ⟨statement, after, further, hform, hfurther, rfl⟩ := ofProgram_cons.1 h
    rw [List.cons_append, ofProgram_cons_of_ok hform, ofProgram_cons_of_ok hform, ih hfurther]
    cases (ofProgram (ofProgram after forms).2 rest).1 <;> rfl

/-- There is a statement for each form of a program. -/
theorem length_of_ofProgram (h : (ofProgram declared program).1 = .ok statements) :
    statements.length = program.length := by
  induction program generalizing declared statements with
  | nil =>
    cases h
    rfl
  | cons form forms ih =>
    obtain ⟨statement, after, further, hform, hfurther, rfl⟩ := ofProgram_cons.1 h
    rw [List.length_cons, List.length_cons, ih hfurther]

/-- Each form has a line for which the names of the forms in front of it are known. -/
theorem hasLine_of_ofProgram (h : (ofProgram declared program).1 = .ok statements) {i : Nat}
    {form : Form} (hform : program[i]? = some form) :
    ∃ line, (statements.map text)[i]? = some line ∧
      form.HasLine (declared ++ Program.definedNames (program.take i)) line := by
  induction program generalizing declared statements i with
  | nil => cases hform
  | cons first forms ih =>
    obtain ⟨statement, after, further, hfirst, hfurther, rfl⟩ := ofProgram_cons.1 h
    cases i with
    | zero =>
      cases hform
      refine ⟨_, rfl, ?_⟩
      simpa [Program.definedNames] using Form.HasLine.of_ofForm hfirst
    | succ i =>
      obtain ⟨line, hline, hlast⟩ := ih hfurther hform
      refine ⟨line, hline, hlast.congr fun name => ?_⟩
      rw [List.mem_append, mem_of_ofForm hfirst, List.mem_append, List.take_succ_cons,
        Program.definedNames, Program.definedNames, List.filterMap_cons]
      grind

/-- Each line of the script is that of a form. -/
theorem exists_form_of_ofProgram (h : (ofProgram declared program).1 = .ok statements) {i : Nat}
    {line : String} (hline : (statements.map text)[i]? = some line) :
    ∃ form : Form, program[i]? = some form ∧
      form.HasLine (declared ++ Program.definedNames (program.take i)) line := by
  obtain ⟨hi, -⟩ := List.getElem?_eq_some_iff.1 hline
  rw [List.length_map, length_of_ofProgram h] at hi
  obtain ⟨line', hline', hform⟩ := hasLine_of_ofProgram h (List.getElem?_eq_getElem hi)
  rw [hline] at hline'
  cases hline'
  exact ⟨_, List.getElem?_eq_getElem hi, hform⟩

/-- The statements of a program are written on one line each. -/
theorem unbroken_of_ofProgram (h : (ofProgram declared program).1 = .ok statements) :
    ∀ line ∈ statements.map text, Unbroken line := by
  intro line hline
  obtain ⟨i, hget⟩ := List.mem_iff_getElem?.1 hline
  obtain ⟨form, -, hform⟩ := exists_form_of_ofProgram h hget
  exact hform.unbroken

end Statement

/-! ## Names that are declared once -/

/-- What a list holds has a first place in it. -/
theorem exists_first_mem {α : Type} {list : List α} {item : α} (h : item ∈ list) :
    ∃ place < list.length, list[place]? = some item ∧ item ∉ list.take place := by
  obtain ⟨before, rest, rfl, hnew⟩ := List.eq_append_cons_of_mem h
  exact ⟨before.length, by simp, by simp, by simpa using hnew⟩

/-- Whether a name is declared at one place of some lines only, and all lines that assign to it
stand behind that place. -/
structure DeclaredOnce (name : String) (written : List String) (place : Nat) : Prop where
  declares : ∃ line, written[place]? = some line ∧ Declares name line
  once : ∀ i line, written[i]? = some line → Declares name line → i = place
  first : ∀ i line, written[i]? = some line → Assigns name line → place < i

/-- Whether lines define names: the first line that defines a name declares it, all others assign
to it, and nothing else is declared or assigned to. -/
structure Defines (entries : List (Option String)) (written : List String) : Prop where
  length_eq : written.length = entries.length
  declares_iff : ∀ i line name, written[i]? = some line → IsWord name →
    (Declares name line ↔ entries[i]? = some (some name) ∧ some name ∉ entries.take i)
  assigns_iff : ∀ i line name, written[i]? = some line → IsWord name →
    (Assigns name line ↔ entries[i]? = some (some name) ∧ some name ∈ entries.take i)

namespace Defines

variable {entries : List (Option String)} {written : List String} {name : String} {place : Nat}

/-- Where a name is defined there is a line. -/
theorem exists_line (h : Defines entries written) (hplace : entries[place]? = some (some name)) :
    ∃ line, written[place]? = some line := by
  obtain ⟨hlt, -⟩ := List.getElem?_eq_some_iff.1 hplace
  rw [← h.length_eq] at hlt
  exact ⟨_, List.getElem?_eq_getElem hlt⟩

/-- A name is declared at the first place that defines it. -/
theorem declaredOnce (h : Defines entries written) (hname : IsWord name)
    (hplace : entries[place]? = some (some name)) (hfirst : some name ∉ entries.take place) :
    DeclaredOnce name written place := by
  have hbefore {i j : Nat} (hi : entries[i]? = some (some name)) (hlt : i < j) :
      some name ∈ entries.take j :=
    List.mem_of_getElem? ((List.getElem?_take_of_lt hlt).trans hi)
  constructor
  · obtain ⟨line, hline⟩ := h.exists_line hplace
    exact ⟨line, hline, (h.declares_iff place line name hline hname).2 ⟨hplace, hfirst⟩⟩
  · intro i line hline hdeclares
    obtain ⟨hi, hnew⟩ := (h.declares_iff i line name hline hname).1 hdeclares
    rcases Nat.lt_trichotomy i place with hlt | heq | hlt
    · exact absurd (hbefore hi hlt) hfirst
    · exact heq
    · exact absurd (hbefore hplace hlt) hnew
  · intro i line hline hassigns
    obtain ⟨hi, hold⟩ := (h.assigns_iff i line name hline hname).1 hassigns
    by_contra hle
    exact hfirst ((List.take_prefix_take_left (Nat.le_of_not_lt hle)).subset hold)

/-- Where a name is defined that was defined before, the line assigns to it. -/
theorem exists_assigns (h : Defines entries written) (hname : IsWord name)
    (hplace : entries[place]? = some (some name)) (hold : some name ∈ entries.take place) :
    ∃ line, written[place]? = some line ∧ Assigns name line := by
  obtain ⟨line, hline⟩ := h.exists_line hplace
  exact ⟨line, hline, (h.assigns_iff place line name hline hname).2 ⟨hplace, hold⟩⟩

end Defines

namespace Compiler

/-! ## The lines of an opening -/

/-- A line of the opening declares each name that is known from it. -/
theorem forall₂_opening (prelude : Bool) :
    List.Forall₂ (fun name line => IsWord name ∧ ∃ rest, line = "let " ++ name ++ " = " ++ rest)
      (new prelude).openingNames (new prelude).opening := by
  cases prelude with
  | false => exact .nil
  | true =>
    simp only [openingNames, opening, new, if_true, List.append_nil, preludeNames, preludeLines]
    rw [List.forall₂_map_left_iff, List.forall₂_map_right_iff, List.forall₂_same]
    rintro ⟨identifier, body⟩ -
    exact ⟨isWord_ofIdentifier identifier, body ++ ";", by simp [String.append_assoc]⟩

/-- No name is known twice at the opening. -/
theorem nodup_openingNames (prelude : Bool) : (new prelude).openingNames.Nodup := by
  cases prelude <;> decide +kernel

/-- The lines of the opening have no newlines in them. -/
theorem unbroken_opening (prelude : Bool) : ∀ line ∈ (new prelude).opening, Unbroken line := by
  have hbodies : ∀ pair ∈ preludeBodies, Unbroken pair.2 := by decide +kernel
  cases prelude with
  | false => nofun
  | true =>
    intro line hline
    obtain ⟨⟨identifier, body⟩, hmem, rfl⟩ := List.mem_map.1 hline
    have hname := (isWord_ofIdentifier identifier).unbroken
    simp only [Lines.unbroken_append]
    exact ⟨⟨⟨⟨by decide, hname⟩, by decide⟩, hbodies _ hmem⟩, by decide⟩

/-- A line of the opening declares the name that is known from it, and assigns to none. -/
theorem opening_cases {prelude : Bool} {i : Nat} {line name : String}
    (hline : (new prelude).opening[i]? = some line) (hname : IsWord name) :
    (Declares name line ↔ (new prelude).openingNames[i]? = some name) ∧ ¬ Assigns name line := by
  have hopening := forall₂_opening prelude
  obtain ⟨hi, rfl⟩ := List.getElem?_eq_some_iff.1 hline
  have hi' := hopening.length_eq ▸ hi
  obtain ⟨hword, rest, hrest⟩ := hopening.get hi' hi
  simp only [List.get_eq_getElem] at hrest hword
  rw [hrest, List.getElem?_eq_getElem hi', declares_declaration_iff hname hword,
    Option.some_inj, eq_comm]
  exact ⟨Iff.rfl, not_assigns_declaration hname hword rest⟩

/-- A name that is known at the opening is not known earlier on. -/
theorem not_mem_take_openingNames (prelude : Bool) {i : Nat} {name : String}
    (h : (new prelude).openingNames[i]? = some name) :
    name ∉ (new prelude).openingNames.take i := by
  obtain ⟨hi, rfl⟩ := List.getElem?_eq_some_iff.1 h
  have hdrop : (new prelude).openingNames[i] ∈ (new prelude).openingNames.drop i := by
    rw [List.drop_eq_getElem_cons hi]
    exact List.mem_cons_self
  exact fun hmem =>
    List.disjoint_take_drop (nodup_openingNames prelude) (Nat.le_refl i) hmem hdrop

/-! ## What the lines of a program define -/

/-- What is defined line by line: the names that are known, and then what the forms define. -/
def entries (prelude : Bool) (forms : Program) : List (Option String) :=
  (new prelude).openingNames.map some ++ forms.map Form.definedName?

section

variable {prelude : Bool} {forms : Program} {name : String}

/-- The names that forms define are those of their definitions. -/
theorem mem_definedNames : some name ∈ forms.map Form.definedName? ↔
    name ∈ Program.definedNames forms := by
  simp [Program.definedNames]

/-- At the opening the entries are the names that are known there. -/
theorem getElem?_entries_of_lt {i : Nat} (h : i < (new prelude).openingNames.length) :
    (entries prelude forms)[i]? = some (some name) ↔
      (new prelude).openingNames[i]? = some name := by
  rw [entries, List.getElem?_append_left (by simpa using h)]
  simp

/-- Up to a place in the opening the entries are the names that are known there. -/
theorem mem_take_entries_of_lt {i : Nat} (h : i < (new prelude).openingNames.length) :
    some name ∈ (entries prelude forms).take i ↔ name ∈ (new prelude).openingNames.take i := by
  rw [entries, List.take_append_of_le_length (by simpa using Nat.le_of_lt h), ← List.map_take,
    List.mem_map]
  simp

/-- Behind the opening the entries are what the forms define. -/
theorem getElem?_entries_add (k : Nat) :
    (entries prelude forms)[(new prelude).openingNames.length + k]? =
      forms[k]?.map Form.definedName? := by
  rw [entries, List.getElem?_append_right (by simp)]
  simp

/-- Up to a form the entries are the names of the opening and those that forms before it define. -/
theorem mem_take_entries_add (k : Nat) :
    some name ∈ (entries prelude forms).take ((new prelude).openingNames.length + k) ↔
      name ∈ (new prelude).openingNames ++ Program.definedNames (forms.take k) := by
  have hlength : (new prelude).openingNames.length =
      ((new prelude).openingNames.map some).length := by
    simp
  rw [entries, hlength, List.take_length_add_append, List.mem_append, ← List.map_take,
    mem_definedNames, List.mem_append]
  simp

end

/-- The lines of a program behind the opening define the known names, and then what the forms
define. -/
theorem defines_lines {prelude : Bool} {forms : Program} {statements : List Statement}
    (h : (Statement.ofProgram (new prelude).openingNames forms).1 = .ok statements) :
    Defines (entries prelude forms) ((new prelude).opening ++ statements.map Statement.text) := by
  have hlength := (forall₂_opening prelude).length_eq
  have hlines : ∀ i line name,
      ((new prelude).opening ++ statements.map Statement.text)[i]? = some line → IsWord name →
      (Declares name line ↔ (entries prelude forms)[i]? = some (some name) ∧
        some name ∉ (entries prelude forms).take i) ∧
      (Assigns name line ↔ (entries prelude forms)[i]? = some (some name) ∧
        some name ∈ (entries prelude forms).take i) := by
    intro i line name hline hname
    rcases Nat.lt_or_ge i (new prelude).opening.length with hi | hi
    · rw [List.getElem?_append_left hi] at hline
      obtain ⟨hdeclares, hassigns⟩ := opening_cases hline hname
      rw [getElem?_entries_of_lt (hlength ▸ hi), mem_take_entries_of_lt (hlength ▸ hi), hdeclares]
      have hnew : (new prelude).openingNames[i]? = some name →
          name ∉ (new prelude).openingNames.take i :=
        not_mem_take_openingNames prelude
      exact ⟨(and_iff_left_of_imp hnew).symm, iff_of_false hassigns fun h => hnew h.1 h.2⟩
    · obtain ⟨k, rfl⟩ := Nat.exists_eq_add_of_le hi
      rw [List.getElem?_append_right hi, Nat.add_sub_cancel_left] at hline
      obtain ⟨form, hget, hlast⟩ := Statement.exists_form_of_ofProgram h hline
      rw [← hlength, getElem?_entries_add, mem_take_entries_add, hget, hlast.declares_iff hname,
        hlast.assigns_iff hname, Option.map_some, Option.some_inj]
      exact ⟨Iff.rfl, Iff.rfl⟩
  constructor
  · simp only [entries, List.length_append, List.length_map, hlength,
      Statement.length_of_ofProgram h]
  · exact fun i line name hline hname => (hlines i line name hline hname).1
  · exact fun i line name hline hname => (hlines i line name hline hname).2

/-! ## Compilations one after another -/

/-- Without the prelude, programs that are compiled one after another have the statements of
one. -/
theorem exists_blocks_of_results {compiler : Compiler} (hprelude : compiler.prelude = false)
    {programs : List Program} {texts : List String}
    (h : compiler.results programs = texts.map .ok) :
    ∃ blocks : List (List Statement),
      (Statement.ofProgram compiler.openingNames programs.flatten).1 = .ok blocks.flatten ∧
      List.Forall₂ (fun block program => block.length = program.length) blocks programs ∧
      texts = blocks.map fun block => lines (block.map Statement.text) := by
  induction programs generalizing compiler texts with
  | nil =>
    obtain rfl := List.map_eq_nil_iff.1 h.symm
    exact ⟨[], rfl, .nil, rfl⟩
  | cons program programs ih =>
    obtain ⟨text, texts, rfl, htext, htexts⟩ := List.map_eq_cons_iff.1 h.symm
    obtain ⟨block, hblock, rfl⟩ := compile_eq_ok_iff.1 htext.symm
    obtain ⟨blocks, hblocks, hlengths, rfl⟩ := ih (compile_prelude compiler program ▸ hprelude)
      htexts.symm
    refine ⟨block :: blocks, ?_, .cons (Statement.length_of_ofProgram hblock) hlengths, ?_⟩
    · have hnames : (compiler.compile program).2.openingNames =
          (Statement.ofProgram compiler.openingNames program).2 := by
        simp [openingNames, compile, hprelude]
      rw [List.flatten_cons, Statement.ofProgram_append hblock, ← hnames, hblocks]
      rfl
    · have hopening : compiler.opening = [] := by simp [opening, hprelude]
      rw [List.map_cons, hopening]
      simp [lines]

/-- A new compiler, with the prelude for one program or without it for any number of them, writes
the opening once and the statements of the programs as if they were one. -/
theorem exists_blocks {prelude : Bool} {programs : List Program} {texts : List String}
    (hfresh : prelude = true → programs.length = 1)
    (h : (new prelude).results programs = texts.map .ok) :
    ∃ blocks : List (List Statement),
      (Statement.ofProgram (new prelude).openingNames programs.flatten).1 = .ok blocks.flatten ∧
      List.Forall₂ (fun block program => block.length = program.length) blocks programs ∧
      (texts = blocks.map fun block => lines ((new prelude).opening ++ block.map Statement.text)) ∧
      (blocks.flatMap fun block => (new prelude).opening ++ block.map Statement.text) =
        (new prelude).opening ++ blocks.flatten.map Statement.text := by
  cases prelude with
  | false =>
    obtain ⟨blocks, hblocks, hlengths, htexts⟩ := exists_blocks_of_results rfl h
    refine ⟨blocks, hblocks, hlengths, htexts, ?_⟩
    simp [opening, new, List.flatMap, List.map_flatten]
  | true =>
    obtain ⟨program, rfl⟩ := List.length_eq_one_iff.1 (hfresh rfl)
    obtain ⟨text, texts, rfl, htext, htexts⟩ := List.map_eq_cons_iff.1 h.symm
    obtain rfl := List.map_eq_nil_iff.1 htexts
    obtain ⟨block, hblock, rfl⟩ := compile_eq_ok_iff.1 htext.symm
    refine ⟨[block], by simpa using hblock, .cons (Statement.length_of_ofProgram hblock) .nil, ?_,
      by simp⟩
    simp [lines, String.join_append]

/-- All names that are defined are words of the script language. -/
theorem isWord_of_mem {prelude : Bool} {forms : Program} {name : String}
    (h : name ∈ (new prelude).openingNames ++ Program.definedNames forms) : IsWord name := by
  rcases List.mem_append.1 h with hknown | hdefined
  · obtain ⟨i, hi, rfl⟩ := List.mem_iff_getElem.1 hknown
    have hopening := forall₂_opening prelude
    exact (hopening.get hi (hopening.length_eq ▸ hi)).1
  · obtain ⟨form, -, hform⟩ := List.mem_filterMap.1 hdefined
    cases form with
    | definition token value =>
      cases hform
      exact isWord_ofIdentifier token.text
    | expression whole => cases hform

/-- A new compiler that gives scripts for some programs, for one with the prelude or for any number
without it, writes the lines of the prelude and then one line for each form, in order and without
line breaks.  Each name that is defined is declared by one line, and lines that assign to it come
later: the line is in the prelude if the name is, and that of the first definition otherwise.  All
other definitions are assignments. -/
theorem results_declare_once {prelude : Bool} {programs : List Program} {texts : List String}
    (hfresh : prelude = true → programs.length = 1)
    (h : (new prelude).results programs = texts.map .ok) :
    let known := (new prelude).openingNames
    let opening := (new prelude).opening
    let forms : Program := programs.flatten
    let written := texts.flatMap Lines.ofText
    List.Forall₂ (fun text program => text = lines (Lines.ofText text) ∧
      (Lines.ofText text).length = opening.length + program.length) texts programs ∧
    (∀ line ∈ written, Unbroken line) ∧
    (∃ formLines, written = opening ++ formLines ∧ formLines.length = forms.length ∧
      ∀ (i : Nat) (form : Form), forms[i]? = some form → ∃ line, formLines[i]? = some line ∧
        form.HasLine (known ++ Program.definedNames (forms.take i)) line) ∧
    (∀ name ∈ known ++ Program.definedNames forms, ∃ place, DeclaredOnce name written place ∧
      (name ∈ known → place < opening.length) ∧
      (name ∉ known → ∃ i form, place = opening.length + i ∧ forms[i]? = some form ∧
        form.definedName? = some name ∧ name ∉ Program.definedNames (forms.take i))) ∧
    ∀ (i : Nat) (form : Form) name, forms[i]? = some form → form.definedName? = some name →
      name ∈ known ++ Program.definedNames (forms.take i) →
        ∃ line, written[opening.length + i]? = some line ∧ Assigns name line := by
  intro known opening forms written
  obtain ⟨blocks, hblocks, hlengths, htexts, hflat⟩ := exists_blocks hfresh h
  have hlength := (forall₂_opening prelude).length_eq
  have hstatements := Statement.unbroken_of_ofProgram hblocks
  have hblock : ∀ block ∈ blocks, ∀ line ∈ opening ++ block.map Statement.text,
      Unbroken line := by
    intro block hmem line hline
    rcases List.mem_append.1 hline with hline | hline
    · exact unbroken_opening prelude line hline
    · obtain ⟨statement, hstatement, rfl⟩ := List.mem_map.1 hline
      exact hstatements _ (List.mem_map_of_mem (List.mem_flatten_of_mem hmem hstatement))
  have hwritten : written = opening ++ blocks.flatten.map Statement.text := by
    show texts.flatMap Lines.ofText = _
    rw [← hflat, htexts, List.flatMap_map]
    exact List.flatMap_congr fun block hmem => Lines.ofText_lines (hblock block hmem)
  have hdefines : Defines (entries prelude forms) written := hwritten ▸ defines_lines hblocks
  refine ⟨?_, ?_, ⟨_, hwritten, ?_, ?_⟩, ?_, ?_⟩
  · rw [htexts, List.forall₂_map_left_iff]
    refine ((List.forall₂_and_left _ _).2 ⟨hblock, hlengths⟩).imp fun block program hboth => ?_
    rw [Lines.ofText_lines hboth.1, List.length_append, List.length_map, hboth.2]
    exact ⟨rfl, rfl⟩
  · rw [hwritten]
    exact List.forall_mem_append.2 ⟨unbroken_opening prelude, hstatements⟩
  · rw [List.length_map, Statement.length_of_ofProgram hblocks]
  · exact fun i form hform => Statement.hasLine_of_ofProgram hblocks hform
  · intro name hname
    have hword := isWord_of_mem hname
    by_cases hknown : name ∈ known
    · obtain ⟨place, hlt, hget, hnew⟩ := exists_first_mem hknown
      refine ⟨place, hdefines.declaredOnce hword ((getElem?_entries_of_lt hlt).2 hget)
        (mt (mem_take_entries_of_lt hlt).1 hnew), fun _ => hlength ▸ hlt, absurd hknown⟩
    · have hdefined := mem_definedNames.2 ((List.mem_append.1 hname).resolve_left hknown)
      obtain ⟨i, -, hget, hnew⟩ := exists_first_mem hdefined
      rw [← List.map_take, mem_definedNames] at hnew
      rw [List.getElem?_map] at hget
      obtain ⟨form, hform, hdefines'⟩ := Option.map_eq_some_iff.1 hget
      refine ⟨opening.length + i, hlength ▸ hdefines.declaredOnce hword ?_ ?_,
        fun hmem => absurd hmem hknown, fun _ => ⟨i, form, rfl, hform, hdefines', hnew⟩⟩
      · rw [getElem?_entries_add, hget]
      · rw [mem_take_entries_add, List.mem_append]
        exact not_or.2 ⟨hknown, hnew⟩
  · intro i form name hform hdefined hold
    have hword := isWord_of_mem hold
    refine hlength ▸ hdefines.exists_assigns hword ?_ ((mem_take_entries_add i).2 hold)
    rw [getElem?_entries_add, hform, Option.map_some, hdefined]

/-- With the prelude a definition of `p` assigns to what the prelude declares; without it, a
definition of `?lus` in a second program assigns to what that of `+` declares in the first. -/
theorem results_declare_once_known :
    let program := (readSource "(define p 1) (null? x)").1
    let text := lines (preludeLines ++ ["p = 1;", "null$p(x);"])
    let programs := ["(define + 1) \"a\nb\"", "(define ?lus 2)"].map fun source =>
      (readSource source).1
    let texts := ["let $plus = 1;\n\"a\\nb\";\n", "$plus = 2;\n"]
    (new true).results [program] = [text].map .ok ∧
      (∃ place < 15, DeclaredOnce "p" ([text].flatMap Lines.ofText) place) ∧
      (new false).results programs = texts.map .ok ∧
      ∃ place, DeclaredOnce "$plus" (texts.flatMap Lines.ofText) place := by
  intro program text programs texts
  have hresults : (new true).results [program] = [text].map .ok := by decide +kernel
  have hresults' : (new false).results programs = texts.map .ok := by decide +kernel
  have hfresh : false = true → programs.length = 1 := nofun
  have hp : "p" ∈ (new true).openingNames := by decide +kernel
  have hplus : "$plus" ∈ Program.definedNames programs.flatten := by decide +kernel
  obtain ⟨-, -, -, hdeclared, -⟩ := results_declare_once (fun _ => rfl) hresults
  obtain ⟨-, -, -, hdeclared', -⟩ := results_declare_once hfresh hresults'
  obtain ⟨place, hplace, hopening, -⟩ := hdeclared "p" (List.mem_append_left _ hp)
  obtain ⟨place', hplace', -⟩ := hdeclared' "$plus" (List.mem_append_right _ hplus)
  exact ⟨hresults, ⟨place, hopening hp, hplace⟩, hresults', place', hplace'⟩

end Compiler

end Script

end MiniScheme
