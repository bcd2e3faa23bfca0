import MiniScheme.Console.EntryBuffer
import MiniScheme.Proofs.CursorItems

/-!
# Scanning an entry character by character

The entry buffer scans an entry line by line and looks at several characters at a time.  The
reader takes the whole text lexeme by lexeme.  Both are compared with a scanner that goes over
the text character by character and never looks ahead: what it knows where a line ends is what
the buffer keeps, and what it knows where the text ends is what the items tell.

Main results:

- Theorem `Scan.settled_run_line`: on a line the scanner does what the buffer does.
- Theorem `Scan.settled_run_lines`: on lines joined by newlines it does what the buffer does
  line by line.
- Theorem `Scan.counted_read`: on a lexeme it does what the reader does.
- Theorem `Scan.settled_run_rest`: on a text it counts what the reader finds.
-/

namespace MiniScheme

/-! ## The balance of items -/

/-- Whether an item opens a group. -/
def Item.isOpening : Item → Bool
  | .ok token => token.kind.isOpening
  | .error _ => false

/-- Whether an item closes a group. -/
def Item.isClosing : Item → Bool
  | .ok token => token.kind = .closeParen
  | .error _ => false

/-- How many more groups items open than they close. -/
def groupBalance (items : List Item) : Int :=
  items.countP Item.isOpening - items.countP Item.isClosing

/-- Whether items end within a string. -/
def endsInString (items : List Item) : Bool :=
  items.getLast?.any (Item.hasFault .unterminatedString)

/-- What a token of a kind adds to the balance. -/
@[simp]
def TokenKind.weight : TokenKind → Int
  | openParen | openVector => 1
  | closeParen => -1
  | _ => 0

/-- What a lexeme adds to the balance. -/
@[simp]
def LexemeReading.weight : LexemeReading → Int
  | token kind _ => kind.weight
  | fault _ => 0

/-- What an item adds to the balance. -/
def Item.weight : Item → Int
  | .ok token => token.kind.weight
  | .error _ => 0

/-- An item weighs what its lexeme does. -/
@[simp]
theorem Lexeme.weight_item (lexeme : Lexeme) (position : Position) :
    (lexeme.item position).weight = lexeme.reading.weight := by
  unfold item
  split
  next h => simp [h, Item.weight]
  next h => simp [h, Item.weight]

/-- No items have no balance. -/
@[simp]
theorem groupBalance_nil : groupBalance [] = 0 :=
  rfl

/-- The first of some items adds its weight to the balance. -/
@[simp]
theorem groupBalance_cons (item : Item) (items : List Item) :
    groupBalance (item :: items) = item.weight + groupBalance items := by
  unfold groupBalance
  rw [List.countP_cons, List.countP_cons]
  cases item with
  | error error => simp [Item.weight, Item.isOpening, Item.isClosing]
  | ok token =>
    obtain ⟨kind, text, constant, position⟩ := token
    simp only [Item.weight, Item.isOpening, Item.isClosing]
    cases kind <;> simp [TokenKind.isOpening] <;> omega

/-- No items end in a string. -/
@[simp]
theorem endsInString_nil : endsInString [] = false :=
  rfl

/-- Behind an item that is no open string the others decide whether items end in one. -/
theorem endsInString_cons {item : Item} (h : item.hasFault .unterminatedString = false)
    (items : List Item) : endsInString (item :: items) = endsInString items := by
  cases items with
  | nil => simpa [endsInString] using h
  | cons item' items => simp [endsInString, List.getLast?_cons_cons]

/-! ## The scanner -/

namespace Scan

/-- Where in a text the scanner stands: between lexemes or within one that does not matter, in a
comment, after a sharp sign, before the character of a literal, in a string, or after a
backslash in a string. -/
inductive Mode
  | plain
  | comment
  | sharp
  | literal
  | string
  | escaped
deriving DecidableEq

/-- The parentheses that are open, and where the scanner stands. -/
structure State where
  depth : Int
  mode : Mode

/-- A character that stands by itself. -/
def plainStep (depth : Int) (c : Char) : State :=
  if c = '(' then ⟨depth + 1, .plain⟩
  else if c = ')' then ⟨depth - 1, .plain⟩
  else if c = '"' then ⟨depth, .string⟩
  else if c = ';' then ⟨depth, .comment⟩
  else if c = '#' then ⟨depth, .sharp⟩
  else ⟨depth, .plain⟩

/-- One character. -/
def step (state : State) (c : Char) : State :=
  match state.mode with
  | .plain => plainStep state.depth c
  | .comment => ⟨state.depth, if c = '\n' then .plain else .comment⟩
  | .sharp => if c = '\\' then ⟨state.depth, .literal⟩ else plainStep state.depth c
  | .literal => ⟨state.depth, .plain⟩
  | .string =>
    ⟨state.depth, if c = '\\' then .escaped else if c = '"' then .plain else .string⟩
  | .escaped => ⟨state.depth, .string⟩

/-- A piece of text. -/
def run (state : State) (text : List Char) : State :=
  text.foldl step state

/-- A scan of nothing changes nothing. -/
@[simp]
theorem run_nil (state : State) : run state [] = state :=
  rfl

/-- A scan begins with the first character. -/
@[simp]
theorem run_cons (state : State) (c : Char) (text : List Char) :
    run state (c :: text) = run (step state c) text :=
  rfl

/-- A scan of two texts in a row goes on with the second where the first ends. -/
@[simp]
theorem run_append (state : State) (first second : List Char) :
    run state (first ++ second) = run (run state first) second :=
  List.foldl_append

/-- What a state amounts to where a line or a text ends. -/
def settled (state : State) : Balance :=
  ⟨state.depth, state.mode = .string || state.mode = .escaped⟩

/-- The state at the beginning of a line. -/
def ofBalance (balance : Balance) : State :=
  ⟨balance.depth, if balance.inString then .string else .plain⟩

/-- A balance is kept from the end of a line to the beginning of the next one. -/
@[simp]
theorem settled_ofBalance (balance : Balance) : settled (ofBalance balance) = balance := by
  obtain ⟨depth, inString⟩ := balance
  cases inString <;> rfl

/-- Outside of a string a line begins with plain text. -/
theorem ofBalance_of_not_inString {balance : Balance} (h : ¬balance.inString = true) :
    ofBalance balance = ⟨balance.depth, .plain⟩ := by
  simp [ofBalance, h]

/-- A newline settles whatever has begun. -/
theorem step_newline (state : State) : step state '\n' = ofBalance (settled state) := by
  obtain ⟨depth, mode⟩ := state
  cases mode <;> rfl

/-- The characters that mean nothing to the scanner where it is within no lexeme. -/
def IsOrdinary (c : Char) : Prop :=
  c ≠ '(' ∧ c ≠ ')' ∧ c ≠ '"' ∧ c ≠ ';' ∧ c ≠ '#'

/-- An ordinary character changes nothing in plain text. -/
theorem step_of_isOrdinary (depth : Int) {c : Char} (h : IsOrdinary c) :
    step ⟨depth, .plain⟩ c = ⟨depth, .plain⟩ := by
  obtain ⟨hopen, hclose, hquote, hcomment, hsharp⟩ := h
  simp [step, plainStep, hopen, hclose, hquote, hcomment, hsharp]

/-! ## Lines -/

/-- A comment goes on to the end of its line. -/
theorem run_comment (depth : Int) {line : List Char} (h : '\n' ∉ line) :
    run ⟨depth, .comment⟩ line = ⟨depth, .comment⟩ := by
  induction line with
  | nil => rfl
  | cons c line ih =>
    obtain ⟨hc, hline⟩ := List.ne_and_not_mem_of_not_mem_cons h
    have hstep : step ⟨depth, .comment⟩ c = ⟨depth, .comment⟩ := by
      simp [step, Ne.symm hc]
    rw [run_cons, hstep, ih hline]

/-- A sharp sign that begins no character literal counts for nothing. -/
theorem settled_run_sharp (depth : Int) {text : List Char}
    (h : ∀ c rest, text = '\\' :: c :: rest → False) :
    settled (run ⟨depth, .plain⟩ ('#' :: text)) = settled (run ⟨depth, .plain⟩ text) := by
  have hsharp : step ⟨depth, .plain⟩ '#' = ⟨depth, .sharp⟩ := rfl
  rw [run_cons, hsharp]
  cases text with
  | nil => rfl
  | cons d text =>
    by_cases hd : d = '\\'
    · cases text with
      | nil =>
        subst hd
        rfl
      | cons c rest => exact (h c rest (by rw [hd])).elim
    · simp [step, hd]

/-- On a line the scanner does what the buffer does. -/
theorem settled_run_line (balance : Balance) {line : List Char} (h : '\n' ∉ line) :
    settled (run (ofBalance balance) line) = balance.scan line := by
  fun_induction Balance.scan balance line with
  | case1 balance => exact settled_ofBalance balance
  | case2 balance c text hstring ih =>
    rw [← ih (by simp_all)]
    simp [ofBalance, step, hstring]
  | case3 balance c text hstring ih =>
    rw [← ih (by simp_all)]
    simp [ofBalance, step, plainStep, hstring]
  | case4 balance c text hstring ih =>
    rw [← ih (by simp_all)]
    simp [ofBalance, step, hstring]
  | case5 balance c text hstring ih =>
    rw [← ih (by simp_all)]
    simp [ofBalance, step, plainStep, hstring]
  | case6 balance text hpair hsharp ih =>
    rw [← ih (by simp_all)]
    cases hstring : balance.inString with
    | true => simp [ofBalance, step, Balance.toggleString, hstring]
    | false => simp [ofBalance, step, plainStep, Balance.toggleString, hstring]
  | case7 balance c text hpair hsharp hquote hstring ih =>
    by_cases hc : c = '\\'
    · -- The pair is cut off by the end of the line.
      cases text with
      | nil =>
        obtain ⟨depth, inString⟩ := balance
        simp_all [ofBalance, step, settled, Balance.scan]
      | cons d text => exact (hpair d text hc rfl).elim
    · rw [← ih (by simp_all)]
      simp [ofBalance, step, hc, hquote, hstring]
  | case8 balance text hstring =>
    have hline : '\n' ∉ text := by simp_all
    have hplain := ofBalance_of_not_inString hstring
    have hstep : step ⟨balance.depth, .plain⟩ ';' = ⟨balance.depth, .comment⟩ := rfl
    rw [hplain, run_cons, hstep, run_comment balance.depth hline]
    conv => rhs; rw [← settled_ofBalance balance, hplain]
    rfl
  | case9 balance text hstring _ _ _ _ ih =>
    have hopened : ofBalance balance.openOne = ⟨balance.depth + 1, .plain⟩ :=
      ofBalance_of_not_inString hstring
    rw [← ih (by simp_all), ofBalance_of_not_inString hstring, hopened]
    rfl
  | case10 balance text hstring _ _ _ _ _ ih =>
    have hclosed : ofBalance balance.closeOne = ⟨balance.depth - 1, .plain⟩ :=
      ofBalance_of_not_inString hstring
    rw [← ih (by simp_all), ofBalance_of_not_inString hstring, hclosed]
    rfl
  | case11 balance c text hpair hsharp hquote hstring hcomment hopen hclose ih =>
    rw [← ih (by simp_all), ofBalance_of_not_inString hstring]
    by_cases hc : c = '#'
    · rw [hc]
      exact settled_run_sharp balance.depth fun d rest => hsharp d rest hc
    · rw [run_cons, step_of_isOrdinary balance.depth ⟨hopen, hclose, hquote, hcomment, hc⟩]

/-- On lines joined by newlines the scanner does what the buffer does line by line. -/
theorem settled_run_lines (balance : Balance) {lines : List String} (hne : lines ≠ [])
    (h : ∀ line ∈ lines, '\n' ∉ line.toList) :
    settled (run (ofBalance balance) ("\n".intercalate lines).toList) =
      lines.foldl (fun balance line => balance.scan line.toList) balance := by
  induction lines generalizing balance with
  | nil => exact absurd rfl hne
  | cons line lines ih =>
    obtain ⟨hline, hlines⟩ := List.forall_mem_cons.1 h
    have hscan := settled_run_line balance hline
    cases lines with
    | nil => simpa using hscan
    | cons line' lines =>
      rw [List.foldl_cons, ← ih (balance.scan line.toList) (by simp) hlines, ← hscan,
        ← step_newline]
      simp [String.toList_intercalate]

/-! ## Gaps -/

/-- Space is ordinary. -/
theorem isOrdinary_of_isSpace {c : Char} (h : CharClass.isSpace c = true) : IsOrdinary c := by
  refine ⟨?_, ?_, ?_, ?_, ?_⟩ <;> rintro rfl <;> exact absurd h (by decide)

/-- The characters of words are ordinary. -/
theorem isOrdinary_of_isSubsequent {c : Char} (h : CharClass.isSubsequent c = true) :
    IsOrdinary c := by
  refine ⟨?_, ?_, ?_, ?_, ?_⟩ <;> rintro rfl <;> exact absurd h (by decide)

/-- A gap counts for nothing. -/
theorem settled_run_gap (depth : Int) (inComment : Bool) (text : List Char) :
    settled (run ⟨depth, if inComment then .comment else .plain⟩ text) =
      settled (run ⟨depth, .plain⟩ (text.drop (leadingGap inComment text).length)) := by
  fun_induction leadingGap inComment text with
  | case1 inComment => cases inComment <;> rfl
  | case2 c text ih =>
    rw [List.length_cons, List.drop_succ_cons, ← ih]
    by_cases hc : c = '\n'
    · simp [step, hc]
    · simp [step, hc]
  | case3 inComment text h ih =>
    rw [List.length_cons, List.drop_succ_cons, ← ih]
    simp [h, step, plainStep]
  | case4 inComment c text h hc hspace ih =>
    rw [List.length_cons, List.drop_succ_cons, ← ih]
    simp [h, step_of_isOrdinary depth (isOrdinary_of_isSpace hspace)]
  | case5 inComment c text h hc hspace =>
    simp [h]

/-- No comment begins where a gap ends. -/
theorem ne_semicolon_of_gap {inComment : Bool} {text rest : List Char} {c : Char}
    (h : text.drop (leadingGap inComment text).length = c :: rest) : c ≠ ';' := by
  fun_induction leadingGap inComment text with
  | case1 => simp at h
  | case2 c text ih => exact ih (by simpa using h)
  | case3 inComment text hcomment ih => exact ih (by simpa using h)
  | case4 inComment c text hcomment hc hspace ih => exact ih (by simpa using h)
  | case5 inComment c' text hcomment hc hspace =>
    obtain ⟨rfl, rfl⟩ : c' = c ∧ text = rest := by simpa using h
    exact hc

/-! ## Lexemes -/

/-- Ordinary characters count for nothing. -/
theorem run_ordinary (depth : Int) {piece : List Char} (h : ∀ c ∈ piece, IsOrdinary c) :
    run ⟨depth, .plain⟩ piece = ⟨depth, .plain⟩ := by
  induction piece with
  | nil => rfl
  | cons c piece ih =>
    obtain ⟨hc, hpiece⟩ := List.forall_mem_cons.1 h
    rw [run_cons, step_of_isOrdinary depth hc, ih hpiece]

/-- The body of a string leaves the scanner in the string. -/
theorem run_leading (depth : Int) (text : List Char) :
    run ⟨depth, .string⟩ (StringBody.leading text) = ⟨depth, .string⟩ := by
  fun_induction StringBody.leading text with
  | case1 => rfl
  | case2 c text ih => simpa [step] using ih
  | case3 => rfl
  | case4 c text _ hc ih =>
    obtain ⟨hquote, hbackslash⟩ : c ≠ '"' ∧ c ≠ '\\' := by
      simpa [StringBody.isSpecial] using hc
    simpa [step, hquote, hbackslash] using ih

/-- After the body of a string there is nothing, a quote, or a backslash that the text ends
with. -/
theorem drop_leading (text : List Char) :
    text.drop (StringBody.leading text).length = [] ∨
      text.drop (StringBody.leading text).length = ['\\'] ∨
      ∃ rest, text.drop (StringBody.leading text).length = '"' :: rest := by
  fun_induction StringBody.leading text with
  | case1 => simp
  | case2 c text ih => simpa using ih
  | case3 c text hpair hc =>
    rcases (by simpa [StringBody.isSpecial] using hc : c = '"' ∨ c = '\\') with rfl | rfl
    · simp
    · cases text with
      | nil => simp
      | cons d text => exact (hpair d text rfl rfl).elim
  | case4 c text _ _ ih => simpa using ih

/-- A lexeme counts for what it is read as, unless it is a string that nothing closes, which is
the last lexeme. -/
def Counted (depth : Int) (text : List Char) (lexeme : Lexeme) : Prop :=
  (lexeme.reading = .fault .unterminatedString ∧ lexeme.text = text ∧
      settled (run ⟨depth, .plain⟩ text) = ⟨depth, true⟩) ∨
    (lexeme.reading ≠ .fault .unterminatedString ∧
      settled (run ⟨depth, .plain⟩ text) =
        settled (run ⟨depth + lexeme.reading.weight, .plain⟩ (text.drop lexeme.text.length)))

/-- A lexeme that leaves the scanner between lexemes counts for what the scanner counts. -/
theorem counted_of_run {depth : Int} {text : List Char} {lexeme : Lexeme}
    (hbegins : lexeme.text <+: text) (hreading : lexeme.reading ≠ .fault .unterminatedString)
    (hrun : run ⟨depth, .plain⟩ lexeme.text = ⟨depth + lexeme.reading.weight, .plain⟩) :
    Counted depth text lexeme := by
  refine .inr ⟨hreading, ?_⟩
  obtain ⟨rest, rfl⟩ := hbegins
  rw [run_append, hrun, List.drop_left]

/-- A row of ordinary characters counts for nothing. -/
theorem counted_of_isOrdinary (depth : Int) {c : Char} {text : List Char} {lexeme : Lexeme}
    {p : Char → Bool} (htext : lexeme.text = c :: text.takeWhile p) (hc : IsOrdinary c)
    (hp : ∀ d, p d = true → IsOrdinary d)
    (hreading : lexeme.reading ≠ .fault .unterminatedString)
    (hweight : lexeme.reading.weight = 0) : Counted depth (c :: text) lexeme := by
  have hordinary : ∀ d ∈ lexeme.text, IsOrdinary d := by
    rw [htext, List.forall_mem_cons]
    exact ⟨hc, fun d hd => hp d (List.all_eq_true.1 List.all_takeWhile d hd)⟩
  apply counted_of_run
  · rw [htext]
    exact (List.prefix_cons_inj c).2 (List.takeWhile_prefix p)
  · exact hreading
  · rw [run_ordinary depth hordinary, hweight, Int.add_zero]

/-- A number is scanned as it is counted. -/
theorem counted_number (depth : Int) {c : Char} (text : List Char)
    (hc : CharClass.isDigit c = true) :
    Counted depth (c :: text) (Lexeme.number (c :: text.takeWhile CharClass.isDigit)) := by
  have hdigit : ∀ d, CharClass.isDigit d = true → IsOrdinary d := by
    intro d hd
    exact isOrdinary_of_isSubsequent (by simp [CharClass.isSubsequent, hd])
  apply counted_of_isOrdinary depth rfl (hdigit c hc) hdigit
  · simp only [Lexeme.number]
    split <;> simp
  · simp only [Lexeme.number]
    split <;> rfl

/-- A word is scanned as it is counted. -/
theorem counted_word (depth : Int) {c : Char} (text : List Char)
    (hc : CharClass.isInitial c = true) :
    Counted depth (c :: text) (Lexeme.word (c :: text.takeWhile CharClass.isSubsequent)) := by
  have hinitial : IsOrdinary c :=
    isOrdinary_of_isSubsequent (by simp [CharClass.isSubsequent, hc])
  apply counted_of_isOrdinary depth rfl hinitial fun d hd => isOrdinary_of_isSubsequent hd
  · simp only [Lexeme.word]
    split <;> simp
  · simp only [Lexeme.word]
    split <;> rfl

/-- A lexeme of dots is scanned as it is counted. -/
theorem counted_dotted (depth : Int) (text : List Char) :
    Counted depth ('.' :: text)
      (Lexeme.dotted ('.' :: text.takeWhile CharClass.isSubsequent)) := by
  have hdot : IsOrdinary '.' := isOrdinary_of_isSubsequent (by decide)
  apply counted_of_isOrdinary depth rfl hdot fun d hd => isOrdinary_of_isSubsequent hd
  · simp only [Lexeme.dotted]
    split <;> simp
  · simp only [Lexeme.dotted]
    split <;> rfl

/-- After a sharp sign the scanner looks for the same characters as the reader. -/
theorem counted_sharp (depth : Int) (text : List Char) :
    Counted depth ('#' :: text) (Lexeme.sharp text) := by
  fun_cases Lexeme.sharp text with
  | case1 rest => exact counted_of_run (by simp) (by simp) (by simp [step, plainStep])
  | case2 rest => exact counted_of_run (by simp) (by simp) (by simp [step, plainStep])
  | case3 rest => exact counted_of_run (by simp) (by simp) (by simp [step, plainStep])
  | case4 c rest => exact counted_of_run (by simp) (by simp) (by simp [step, plainStep])
  | case5 =>
    -- The text ends before the character of the literal, and so does what the scanner waits for.
    exact .inr ⟨by simp, by simp [step, plainStep, settled]⟩
  | case6 _ _ _ _ hliteral _ =>
    refine .inr ⟨by simp, ?_⟩
    rw [settled_run_sharp depth hliteral]
    simp

/-- Within a string the scanner looks for the same quote as the reader. -/
theorem counted_doubleQuote (depth : Int) (text : List Char) :
    Counted depth ('"' :: text) (Lexeme.doubleQuote text) := by
  have hquote : step ⟨depth, .plain⟩ '"' = ⟨depth, .string⟩ := rfl
  have hsplit := List.prefix_iff_eq_append.1 (StringBody.leading_isPrefix text)
  have hunterminated (mode : Mode) (hmode : mode = .string ∨ mode = .escaped)
      (hrun : run ⟨depth, .string⟩ text = ⟨depth, mode⟩) :
      settled (run ⟨depth, .plain⟩ ('"' :: text)) = ⟨depth, true⟩ := by
    rw [run_cons, hquote, hrun]
    simp [settled, hmode]
  rcases drop_leading text with hrest | hrest | ⟨rest, hrest⟩
  · have hread : Lexeme.doubleQuote text = ⟨'"' :: text, .fault .unterminatedString⟩ := by
      simp [Lexeme.doubleQuote, hrest]
    rw [hread]
    refine .inl ⟨rfl, rfl, hunterminated .string (.inl rfl) ?_⟩
    rw [← hsplit, run_append, run_leading, hrest, run_nil]
  · have hread : Lexeme.doubleQuote text = ⟨'"' :: text, .fault .unterminatedString⟩ := by
      simp [Lexeme.doubleQuote, hrest]
    rw [hread]
    refine .inl ⟨rfl, rfl, hunterminated .escaped (.inr rfl) ?_⟩
    rw [← hsplit, run_append, run_leading, hrest]
    rfl
  · rw [hrest] at hsplit
    unfold Lexeme.doubleQuote
    simp only [hrest]
    have hbegins : '"' :: StringBody.leading text ++ ['"'] <+: '"' :: text :=
      ⟨rest, by simpa using hsplit⟩
    apply counted_of_run hbegins
    · simp
    · rw [List.cons_append, run_cons, hquote, run_append, run_leading]
      simp [step]

/-- A character that is a lexeme by itself. -/
theorem counted_singleton {depth : Int} {c : Char} {reading : LexemeReading} (text : List Char)
    (hreading : reading ≠ .fault .unterminatedString)
    (hstep : step ⟨depth, .plain⟩ c = ⟨depth + reading.weight, .plain⟩) :
    Counted depth (c :: text) ⟨[c], reading⟩ := by
  apply counted_of_run
  · exact (List.prefix_cons_inj c).2 List.nil_prefix
  · exact hreading
  · exact hstep

/-- The scanner and the reader see the same in every lexeme. -/
theorem counted_read (depth : Int) {c : Char} (hc : c ≠ ';') (text : List Char) :
    Counted depth (c :: text) (Lexeme.read c text) := by
  fun_cases Lexeme.read c text with
  | case1 h => exact counted_singleton text (by simp) (h ▸ rfl)
  | case2 _ h => exact counted_singleton text (by simp) (h ▸ rfl)
  | case3 _ _ h =>
    have hordinary : IsOrdinary c := by
      rw [h]
      exact ⟨by decide, by decide, by decide, by decide, by decide⟩
    apply counted_singleton text (by simp)
    simpa using step_of_isOrdinary depth hordinary
  | case4 _ _ _ h => exact h ▸ counted_sharp depth text
  | case5 _ _ _ _ h => exact h ▸ counted_doubleQuote depth text
  | case6 _ _ _ _ _ hdigit => exact counted_number depth text hdigit
  | case7 _ _ _ _ _ _ hinitial => exact counted_word depth text hinitial
  | case8 _ _ _ _ _ _ _ h => exact h ▸ counted_dotted depth text
  | case9 hopen hclose _ hsharp hquote =>
    have hordinary : IsOrdinary c := ⟨hopen, hclose, hquote, hc, hsharp⟩
    apply counted_singleton text (by simp)
    simpa using step_of_isOrdinary depth hordinary

/-! ## Texts -/

/-- A gap is scanned without a trace. -/
theorem settled_run_pastGap (depth : Int) (cursor : Cursor) :
    settled (run ⟨depth, .plain⟩ cursor.rest) =
      settled (run ⟨depth, .plain⟩ cursor.pastGap.rest) :=
  settled_run_gap depth false cursor.rest

/-- On a text the scanner counts what the reader finds. -/
theorem settled_run_rest (depth : Int) (cursor : Cursor) :
    settled (run ⟨depth, .plain⟩ cursor.rest) =
      ⟨depth + groupBalance cursor.items, endsInString cursor.items⟩ := by
  fun_induction Cursor.items cursor generalizing depth with
  | case1 cursor hend =>
    rw [settled_run_pastGap, cursor.isEnd_next.1 hend]
    simp [settled]
  | case2 cursor hend ih =>
    obtain ⟨c, text, hrest⟩ := List.exists_cons_of_ne_nil (mt cursor.isEnd_next.2 hend)
    rw [Cursor.next_of_pastGap_cons hrest] at ih ⊢
    rw [settled_run_pastGap, hrest]
    rcases counted_read depth (ne_semicolon_of_gap hrest) text with
      ⟨hreading, htext, hsettled⟩ | ⟨hreading, hsettled⟩
    · have hlast : (cursor.pastGap.past (Lexeme.read c text).text).items = [] := by
        apply Cursor.items_of_rest_nil
        rw [htext, ← hrest]
        exact List.drop_length
      have hfault := (Lexeme.hasFault_item _ _ cursor.pastGap.position).2 hreading
      rw [hsettled, hlast]
      simp [endsInString, hfault, hreading]
    · have hfault := mt (Lexeme.hasFault_item _ _ cursor.pastGap.position).1 hreading
      have hpast : (c :: text).drop (Lexeme.read c text).text.length =
          (cursor.pastGap.past (Lexeme.read c text).text).rest := by
        rw [← hrest]
        rfl
      rw [hsettled, hpast, ih, endsInString_cons (Bool.eq_false_iff.2 hfault)]
      simp [Int.add_assoc]

end Scan

end MiniScheme
