import MiniScheme.Console.EntryBuffer
import MiniScheme.Proofs.Acceptance
import MiniScheme.Proofs.Composition
import MiniScheme.Proofs.Layout

/-!
# Entries

Lines that are pushed into a buffer one after another finish entries: some of them are returned
as sources, and those that are blank are dropped.  Whatever the lines are, the texts of the entries
and the lines that are left in the buffer in the end are the text of the lines, cut in another
way.  Where each entry is read without errors, this text is read as the entries one after
another.

Main results:

- Theorem `EntryBuffer.intercalate_enter_lines`: the texts of the entries and the lines that are
  left make the text of the lines.
- Theorem `readSource_intercalate`: texts without errors that are put together are read as their
  forms one after another, further and further down.
-/

namespace MiniScheme

/-! ## Entries -/

/-- An entry that a line has finished. -/
inductive Entry
  | returned (source : String)
  | dropped (text : String)

namespace Entry

/-- The text of an entry. -/
def text : Entry → String
  | returned source => source
  | dropped text => text

/-- The sources that are returned, in order. -/
def sources : List Entry → List String
  | [] => []
  | returned source :: entries => source :: sources entries
  | dropped _ :: entries => sources entries

/-- The texts that are dropped, in order. -/
def drops : List Entry → List String
  | [] => []
  | returned _ :: entries => drops entries
  | dropped text :: entries => text :: drops entries

/-- The sources are the entries that were returned. -/
theorem mem_sources {source : String} {entries : List Entry} :
    source ∈ sources entries ↔ .returned source ∈ entries := by
  induction entries with
  | nil => simp [sources]
  | cons entry entries ih => cases entry <;> simp [sources, ih]

/-- The drops are the entries that were dropped. -/
theorem mem_drops {text : String} {entries : List Entry} :
    text ∈ drops entries ↔ .dropped text ∈ entries := by
  induction entries with
  | nil => simp [drops]
  | cons entry entries ih => cases entry <;> simp [drops, ih]

end Entry

namespace EntryBuffer

/-- The entry that a line finishes, if it finishes one: an entry for which nothing is returned
has been dropped if the buffer is empty then. -/
def finished (buffer : EntryBuffer) (line : String) : Option Entry :=
  match buffer.push line with
  | (some source, _) => some (.returned source)
  | (none, after) => if after.isEmpty then some (.dropped (buffer.add line).text) else none

/-- Push lines one after another: the entries that they finish, and the buffer after that. -/
def enter (buffer : EntryBuffer) : List String → List Entry × EntryBuffer
  | [] => ([], buffer)
  | line :: lines =>
    let (entries, last) := (buffer.push line).2.enter lines
    ((buffer.finished line).toList ++ entries, last)

/-- Lines are entered one after the other, each into what the one before it left. -/
theorem enter_cons (buffer : EntryBuffer) (line : String) (lines : List String) :
    buffer.enter (line :: lines) =
      ((buffer.finished line).toList ++ ((buffer.push line).2.enter lines).1,
        ((buffer.push line).2.enter lines).2) :=
  rfl

/-- A line that leaves nothing open finishes an entry, which is dropped if it is blank. -/
theorem finished_eq (buffer : EntryBuffer) (line : String) :
    buffer.finished line =
      if (buffer.add line).balance.isOpen then none
      else if Blank.isBlankText (buffer.add line).text.toList then
        some (.dropped (buffer.add line).text)
      else some (.returned (buffer.add line).text) := by
  have hlines : (buffer.add line).isEmpty = false := by simp [isEmpty, add]
  unfold finished push
  by_cases hopen : (buffer.add line).balance.isOpen = true
  · simp [hopen, hlines]
  · by_cases hblank : Blank.isBlankText (buffer.add line).text.toList = true
    · simp [hopen, hblank, isEmpty, empty]
    · simp [hopen, hblank]

/-- A line is kept, or it finishes an entry with the text of all lines that have been kept. -/
theorem push_cases (buffer : EntryBuffer) (line : String) :
    (buffer.finished line = none ∧ (buffer.push line).2 = buffer.add line) ∨
      ∃ entry, buffer.finished line = some entry ∧ entry.text = (buffer.add line).text ∧
        (buffer.push line).2 = empty := by
  rw [finished_eq, push_eq]
  by_cases hopen : (buffer.add line).balance.isOpen = true
  · exact .inl ⟨if_pos hopen, if_pos hopen⟩
  · right
    rw [if_neg hopen, if_neg hopen]
    split
    · exact ⟨_, rfl, rfl, rfl⟩
    · exact ⟨_, rfl, rfl, rfl⟩

end EntryBuffer

/-! ## The text of the lines -/

/-- The characters of lines, each with its end. -/
def withEnds (lines : List String) : List Char :=
  lines.flatMap fun line => line.toList ++ ['\n']

/-- The lines of two rows with their ends are those of the first and then those of the second. -/
theorem withEnds_append (first second : List String) :
    withEnds (first ++ second) = withEnds first ++ withEnds second :=
  List.flatMap_append

/-- The first of some lines with their ends is followed by the others. -/
theorem withEnds_cons (line : String) (lines : List String) :
    withEnds (line :: lines) = withEnds [line] ++ withEnds lines :=
  withEnds_append [line] lines

/-- Only no lines have no text with their ends. -/
theorem withEnds_eq_nil {lines : List String} (h : withEnds lines = []) : lines = [] := by
  cases lines with
  | nil => rfl
  | cons line lines => simp [withEnds] at h

/-- The last line of a joined text has no end. -/
theorem withEnds_eq_intercalate {lines : List String} (hne : lines ≠ []) :
    withEnds lines = ("\n".intercalate lines).toList ++ ['\n'] := by
  induction lines with
  | nil => exact absurd rfl hne
  | cons line lines ih =>
    cases lines with
    | nil => simp [withEnds]
    | cons second lines =>
      have hrest := ih (List.cons_ne_nil second lines)
      rw [withEnds_cons, hrest, String.intercalate_cons_cons]
      simp [withEnds]

/-- The ends of lines tell the joined text. -/
theorem intercalate_eq_of_withEnds {lines others : List String}
    (h : withEnds lines = withEnds others) :
    "\n".intercalate lines = "\n".intercalate others := by
  by_cases hlines : lines = []
  · subst hlines
    rw [withEnds_eq_nil h.symm]
  · have hothers : others ≠ [] := by
      rintro rfl
      exact hlines (withEnds_eq_nil h)
    rw [withEnds_eq_intercalate hlines, withEnds_eq_intercalate hothers] at h
    exact String.toList_inj.1 (List.append_cancel_right h)

namespace EntryBuffer

/-- No line is lost: the entries and what is left in the buffer have the text of all lines. -/
theorem withEnds_enter (lines : List String) (buffer : EntryBuffer) :
    withEnds (buffer.lines ++ lines) =
      withEnds ((buffer.enter lines).1.map Entry.text ++ (buffer.enter lines).2.lines) := by
  induction lines generalizing buffer with
  | nil => simp [enter]
  | cons line lines ih =>
    have hadd : buffer.lines ++ line :: lines = (buffer.add line).lines ++ lines := by simp [add]
    rw [enter_cons, hadd]
    rcases buffer.push_cases line with ⟨hkept, hpush⟩ | ⟨entry, hentry, htext, hpush⟩
    · rw [hpush, hkept]
      exact ih (buffer.add line)
    · have hwhole : withEnds (buffer.add line).lines = withEnds [entry.text] := by
        have hne : (buffer.add line).lines ≠ [] := by simp [add]
        rw [withEnds_eq_intercalate hne, htext]
        simp [withEnds, EntryBuffer.text]
      have hrest : withEnds lines =
          withEnds ((empty.enter lines).1.map Entry.text ++ (empty.enter lines).2.lines) :=
        ih empty
      rw [hpush, hentry, withEnds_append, hwhole, hrest, ← withEnds_cons]
      rfl

/-- The texts of the entries and the lines that are left make the text of the lines. -/
theorem intercalate_enter_lines (lines : List String) :
    "\n".intercalate lines =
      "\n".intercalate ((empty.enter lines).1.map Entry.text ++ (empty.enter lines).2.lines) :=
  intercalate_eq_of_withEnds (withEnds_enter lines empty)

/-- The texts of the entries make the text of the lines if no entry is left unfinished. -/
theorem intercalate_enter {lines : List String} (h : (empty.enter lines).2 = empty) :
    "\n".intercalate lines = "\n".intercalate ((empty.enter lines).1.map Entry.text) := by
  have hleft : (empty.enter lines).2.lines = [] := by rw [h, empty]
  rw [intercalate_enter_lines, hleft, List.append_nil]

end EntryBuffer

/-! ## Texts without errors -/

/-- After the tokens of a form the machine is between two forms. -/
theorem Expectation.Reaches.run_eq {expectation : Expectation} {tokens : List Token}
    {form : Form} (h : expectation.Reaches tokens (.form form)) (items : List Item) :
    (Phase.reading expectation).run (tokens.map .ok ++ items) = Phase.start.run items := by
  generalize hlast : Step.form form = step at h
  induction h with
  | last expectation token =>
    rw [List.map_singleton, List.singleton_append, Phase.run_cons, Phase.step_of_form hlast.symm]
  | more hstep _ ih =>
    rw [List.map_cons, List.cons_append, Phase.run_cons, Phase.step_of_next hstep]
    exact ih hlast

/-- After the tokens of forms the machine is between two forms. -/
theorem FormTree.run_tokens (trees : List FormTree) :
    Phase.start.run ((trees.flatMap tokens).map .ok) = .start := by
  induction trees with
  | nil => rfl
  | cons tree trees ih =>
    rw [List.flatMap_cons, List.map_append, Phase.start, tree.reaches.run_eq]
    exact ih

/-- Where there are no errors every item is whole, and the machine is between two forms in the
end. -/
theorem Cursor.whole_of_errors {cursor : Cursor} (h : Outcome.errors cursor.outcomes = []) :
    (∀ item ∈ cursor.items, item.isUnfinished = false) ∧
      Phase.start.run cursor.items = .start := by
  rcases cursor.exists_stretches with ⟨stretches, -, hitems, houtcomes⟩
  rw [← houtcomes] at h
  rcases Stretch.exists_trees h with ⟨trees, htrees, -⟩
  rw [← hitems, htrees]
  refine ⟨fun item hitem => ?_, FormTree.run_tokens trees⟩
  rcases List.mem_map.1 hitem with ⟨token, -, rfl⟩
  rfl

/-- Where there are no errors there are only forms. -/
theorem Outcome.eq_map_ok {outcomes : List Outcome} (h : errors outcomes = []) :
    outcomes = (forms outcomes).map .ok := by
  induction outcomes with
  | nil => rfl
  | cons outcome outcomes ih =>
    cases outcome with
    | ok form =>
      have hrest := ih h
      rw [forms_ok, List.map_cons, ← hrest]
    | error error => cases h

/-! ## Further down -/

namespace Position

/-- After a text that stands some lines down, and a newline, the next text starts a line further
down than the text has newlines. -/
theorem next_advance_down (lines : Nat) (text : List Char) :
    ((down lines start).advance text).next '\n' =
      down (lines + (text.count '\n' + 1)) start := by
  have hline := line_advance (down lines start) text
  rw [next, if_pos rfl, hline]
  simp only [down, start, Position.mk.injEq, and_true]
  omega

end Position

/-- A program is the forms of a source, some lines further down. -/
def Program.IsOf (source : String) (program : Program) : Prop :=
  ∃ lines, program = (readSource source).1.map (Form.relocate (Position.down lines))

/-- The place of the text matters only for the places of its forms. -/
theorem Cursor.outcomes_down {text : String} (h : (readSource text).2 = []) (lines : Nat) :
    outcomes ⟨text.toList, Position.down lines .start⟩ =
      ((readSource text).1.map (Form.relocate (Position.down lines))).map .ok := by
  have hcursor : (⟨text.toList, Position.down lines .start⟩ : Cursor) =
      (ofSource text).relocate (Position.down lines) :=
    rfl
  rw [readSource_eq_outcomes] at h ⊢
  rw [hcursor, outcomes_relocate _ (Position.commutesWithNext_down lines), Outcome.eq_map_ok h,
    Outcome.forms_map_ok, List.map_map, List.map_map]
  rfl

/-- Texts without errors, each on lines of its own, have together the forms of all of them. -/
theorem Cursor.outcomes_intercalate {texts : List String}
    (h : ∀ text ∈ texts, (readSource text).2 = []) (lines : Nat) :
    ∃ programs, List.Forall₂ Program.IsOf texts programs ∧
      outcomes ⟨("\n".intercalate texts).toList, Position.down lines .start⟩ =
        programs.flatten.map .ok := by
  induction texts generalizing lines with
  | nil =>
    refine ⟨[], .nil, ?_⟩
    simp [outcomes, items_of_rest_nil]
  | cons text texts ih =>
    rw [List.forall_mem_cons] at h
    have hfirst := outcomes_down h.1 lines
    cases texts with
    | nil =>
      refine ⟨[_], .cons ⟨lines, rfl⟩ .nil, ?_⟩
      simpa using hfirst
    | cons second texts =>
      rcases ih h.2 (lines + (text.toList.count '\n' + 1)) with ⟨programs, hprograms, hrest⟩
      have herrors : Outcome.errors (outcomes ⟨text.toList, Position.down lines .start⟩) = [] := by
        rw [hfirst, Outcome.errors_map_ok]
      rcases whole_of_errors herrors with ⟨hfinished, hrun⟩
      have hnewline := outcomes_before hfinished hrun
        ("\n".intercalate (second :: texts)).toList
      refine ⟨_ :: programs, .cons ⟨lines, rfl⟩ hprograms, ?_⟩
      rw [behind, finish, Position.next_advance_down, hfirst, hrest] at hnewline
      rw [List.flatten_cons, List.map_append, ← hnewline, String.intercalate_cons_cons]
      simp [before]

/-- Texts without errors that are put together are read as their forms one after another, further
and further down, again without errors. -/
theorem readSource_intercalate {texts : List String}
    (h : ∀ text ∈ texts, (readSource text).2 = []) :
    ∃ programs, List.Forall₂ Program.IsOf texts programs ∧
      readSource ("\n".intercalate texts) = (programs.flatten, []) := by
  rcases Cursor.outcomes_intercalate h 0 with ⟨programs, hprograms, houtcomes⟩
  refine ⟨programs, hprograms, ?_⟩
  rw [readSource_eq_outcomes, Cursor.ofSource]
  change Cursor.outcomes ⟨_, Position.start⟩ = _ at houtcomes
  rw [houtcomes, Outcome.forms_map_ok, Outcome.errors_map_ok]

/-- White space is read as no forms. -/
theorem readSource_of_isSpace {text : String} (h : ∀ c ∈ text.toList, CharClass.isSpace c = true) :
    readSource text = ([], []) := by
  have hgap : IsGap text.toList := by
    generalize text.toList = characters at h
    induction characters with
    | nil => exact .nil
    | cons c characters ih =>
      rw [List.forall_mem_cons] at h
      exact .space h.1 (ih h.2)
  have hitems : (Cursor.ofSource text).items = [] := by
    have hgap' := Cursor.items_gap hgap [] .start
    rw [List.append_nil] at hgap'
    rw [Cursor.ofSource, hgap']
    exact Cursor.items_of_rest_nil rfl
  rw [readSource_eq_outcomes, Cursor.outcomes, hitems]
  rfl

end MiniScheme
