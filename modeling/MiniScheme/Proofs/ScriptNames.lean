import MiniScheme.Proofs.Identifiers
import MiniScheme.Script.Name

/-!
# What a script name tells about the identifier

An identifier is spelled as a row of kept characters and of words after dollar signs.  Nothing
marks the end of a word, so that a name can be read back only where no word is the beginning of
another with what may follow it.  The word for `?` is the beginning of two words: `?lus` is
spelled as `+` is, and `?ct` as `%` is.  These are the only ambiguities.

Main results:

- Theorem `unspell_spelled`: from its spelling an identifier is read back up to `?lus` and `?ct`.
- Theorem `ofIdentifier_eq_iff`: two identifiers have one script name exactly if they are equal
  up to these.
- Theorem `isLegal_ofIdentifier`: the name of an identifier is a legal name of the script
  language.
- Theorem `ofIdentifier_legal`: this in full, and which identifiers stay as they are.
-/

namespace MiniScheme.Script.Name

open CharClass

/-! ## Spelling -/

/-- The characters that are spelled by a word which is the beginning of no other word. -/
def special : List Char :=
  "+-*/<>=%!.:&^~$@".toList

/-- No word but that of `?` is the beginning of another. -/
theorem eq_of_word_isPrefix : ∀ c ∈ special, ∀ d ∈ special,
    (word c).toList <+: (word d).toList → c = d := by
  have hall : special.all (fun c => special.all fun d =>
      decide ((word c).toList <+: (word d).toList → c = d)) = true := by
    decide
  exact fun c hc => List.all_iff_forall_prop.1 (List.all_eq_true.1 hall c hc)

/-- An identifier consists of kept characters, question marks and special characters. -/
theorem mem_special {c : Char} (h : isSubsequent c = true) (hplain : isPlain c = false) :
    c = '?' ∨ c ∈ special := by
  have hinitial : ∀ d ∈ "+-*/?<>=%_".toList, isPlain d = false → d = '?' ∨ d ∈ special :=
    List.all_iff_forall_prop.1 (by decide)
  have hfurther : ∀ d ∈ "!$&:.@^~".toList, isPlain d = false → d = '?' ∨ d ∈ special :=
    List.all_iff_forall_prop.1 (by decide)
  have hkept : isLetter c = false ∧ isDigit c = false := by
    simp only [isPlain, Bool.or_eq_false_iff] at hplain
    exact hplain.1
  simp only [isSubsequent, isInitial, hkept.1, hkept.2, Bool.false_or, Bool.or_false,
    Bool.or_eq_true, List.contains_iff_mem] at h
  rcases h with h | h
  · exact hinitial c h hplain
  · exact hfurther c h hplain

/-- A text is spelled character by character. -/
theorem spelled_cons (c : Char) (text : List Char) :
    spelled (c :: text) = segment c ++ spelled text := by
  simp [spelled]

/-- A plain character is spelled as itself. -/
theorem spelled_cons_of_isPlain {c : Char} (h : isPlain c = true) (text : List Char) :
    spelled (c :: text) = c :: spelled text := by
  simp [spelled, segment, h]

/-- Any other character is spelled as the mark and its word. -/
theorem spelled_cons_of_not_isPlain {c : Char} (h : isPlain c = false) (text : List Char) :
    spelled (c :: text) = '$' :: ((word c).toList ++ spelled text) := by
  simp [spelled, segment, h]

/-- Kept characters at the beginning of a spelling are those of the identifier. -/
theorem isPrefix_of_isPrefix_spelled {kept text : List Char} (h : kept <+: spelled text)
    (hkept : ∀ c ∈ kept, isPlain c = true) : kept <+: text := by
  induction kept generalizing text with
  | nil => exact List.nil_prefix
  | cons c kept ih =>
    obtain ⟨hc, hkept⟩ := List.forall_mem_cons.1 hkept
    cases text with
    | nil => simp [spelled] at h
    | cons d text =>
      by_cases hd : isPlain d = true
      · rw [spelled_cons_of_isPlain hd, List.cons_prefix_cons] at h
        rw [List.cons_prefix_cons]
        exact ⟨h.1, ih h.2 hkept⟩
      · rw [spelled_cons_of_not_isPlain (Bool.eq_false_iff.2 hd), List.cons_prefix_cons] at h
        rw [h.1] at hc
        cases hc

/-! ## Reading a spelling -/

/-- The character whose word a text begins with; the word for `?` is taken only where no longer
one is there. -/
def ofWord (text : List Char) : Char :=
  (special.find? fun c => (word c).toList.isPrefixOf text).getD '?'

/-- A spelling read back, with the longest word after each dollar sign. -/
def unspell : List Char → List Char
  | [] => []
  | c :: text =>
    if c = '$' then ofWord text :: unspell (text.drop (word (ofWord text)).toList.length)
    else c :: unspell text
termination_by text => text.length
decreasing_by all_goals simp; try omega

/-- An identifier with `+` for each `?lus` in it, and with `%` for each `?ct`. -/
def merge : List Char → List Char
  | [] => []
  | '?' :: 'l' :: 'u' :: 's' :: text => '+' :: merge text
  | '?' :: 'c' :: 't' :: text => '%' :: merge text
  | c :: text => c :: merge text

/-- A special character is known by its word, whatever follows. -/
theorem ofWord_special {c : Char} (h : c ∈ special) (rest : List Char) :
    ofWord ((word c).toList ++ rest) = c := by
  unfold ofWord
  cases hfind : special.find? fun d => (word d).toList.isPrefixOf ((word c).toList ++ rest) with
  | none =>
    have hnone := List.find?_eq_none.1 hfind c h
    simp at hnone
  | some d =>
    have hd : d ∈ special := List.mem_of_find?_eq_some hfind
    have hprefix : (word d).toList <+: (word c).toList ++ rest := by
      simpa using List.find?_some hfind
    rcases List.prefix_or_prefix_of_prefix hprefix (List.prefix_append _ rest) with hle | hle
    · exact eq_of_word_isPrefix d hd c h hle
    · exact (eq_of_word_isPrefix c h d hd hle).symm

/-- The word for `?` is read as such, unless what follows makes it the word for `+` or `%`. -/
theorem ofWord_question {rest : List Char} (hplus : ¬ ['l', 'u', 's'] <+: rest)
    (hpercent : ¬ ['c', 't'] <+: rest) : ofWord ((word '?').toList ++ rest) = '?' := by
  have hquestion : (word '?').toList = ['p'] := by decide
  have hlong : ∀ c ∈ special, ['p'] <+: (word c).toList →
      (word c).toList = ['p', 'l', 'u', 's'] ∨ (word c).toList = ['p', 'c', 't'] :=
    List.all_iff_forall_prop.1 (by decide)
  have hshort : ∀ c ∈ special, ¬ (word c).toList <+: ['p'] :=
    List.all_iff_forall_prop.1 (by decide)
  rw [hquestion, List.singleton_append]
  unfold ofWord
  cases hfind : special.find? fun d => (word d).toList.isPrefixOf ('p' :: rest) with
  | none => rfl
  | some d =>
    have hd : d ∈ special := List.mem_of_find?_eq_some hfind
    have hprefix : (word d).toList <+: 'p' :: rest := by
      simpa using List.find?_some hfind
    have hp : ['p'] <+: 'p' :: rest := ⟨rest, rfl⟩
    rcases List.prefix_or_prefix_of_prefix hprefix hp with hle | hle
    · exact absurd hle (hshort d hd)
    · rcases hlong d hd hle with hword | hword
      · rw [hword, List.cons_prefix_cons] at hprefix
        exact absurd hprefix.2 hplus
      · rw [hword, List.cons_prefix_cons] at hprefix
        exact absurd hprefix.2 hpercent

/-- A plain character is read back as itself. -/
theorem unspell_plain {c : Char} (h : isPlain c = true) (text : List Char) :
    unspell (c :: text) = c :: unspell text := by
  have hc : c ≠ '$' := by
    rintro rfl
    cases h
  rw [unspell, if_neg hc]

/-- The mark and the word of a character are read back as the character. -/
theorem unspell_word {c : Char} {text rest : List Char} (hword : ofWord text = c)
    (htext : text = (word c).toList ++ rest) : unspell ('$' :: text) = c :: unspell rest := by
  rw [unspell, if_pos rfl, hword, htext, List.drop_left]

/-- The letters `lus` behind an unknown character complete the word for the plus sign. -/
theorem spelled_plus (text : List Char) :
    spelled ('?' :: 'l' :: 'u' :: 's' :: text) = spelled ('+' :: text) := by
  have h : segment '?' ++ segment 'l' ++ segment 'u' ++ segment 's' = segment '+' := by decide
  simp only [spelled_cons, ← h, List.append_assoc]

/-- The letters `ct` behind an unknown character complete the word for the percent sign. -/
theorem spelled_percent (text : List Char) :
    spelled ('?' :: 'c' :: 't' :: text) = spelled ('%' :: text) := by
  have h : segment '?' ++ segment 'c' ++ segment 't' = segment '%' := by decide
  simp only [spelled_cons, ← h, List.append_assoc]

/-- An identifier up to `?lus` and `?ct` is all that its spelling depends on. -/
theorem spelled_merge (text : List Char) : spelled (merge text) = spelled text := by
  fun_induction merge text with
  | case1 => rfl
  | case2 text ih => rw [spelled_plus, spelled_cons, ih, ← spelled_cons]
  | case3 text ih => rw [spelled_percent, spelled_cons, ih, ← spelled_cons]
  | case4 c text hplus hpercent ih => rw [spelled_cons, ih, ← spelled_cons]

/-- A special character is read back from its spelling. -/
theorem unspell_spelled_special {c : Char} (h : c ∈ special) (text : List Char) :
    unspell (spelled (c :: text)) = c :: unspell (spelled text) := by
  have hspecial : ∀ d ∈ special, isPlain d = false := List.all_iff_forall_prop.1 (by decide)
  rw [spelled_cons_of_not_isPlain (hspecial c h)]
  exact unspell_word (ofWord_special h _) rfl

/-- From its spelling an identifier is read back up to `?lus` and `?ct`. -/
theorem unspell_spelled {text : List Char} (h : ∀ c ∈ text, isSubsequent c = true) :
    unspell (spelled text) = merge text := by
  fun_induction merge text with
  | case1 => rw [spelled, List.flatMap_nil, unspell]
  | case2 text ih =>
    rw [spelled_plus, unspell_spelled_special (by decide), ih fun c hc => h c (by simp [hc])]
  | case3 text ih =>
    rw [spelled_percent, unspell_spelled_special (by decide), ih fun c hc => h c (by simp [hc])]
  | case4 c text hplus hpercent ih =>
    obtain ⟨hc, htext⟩ := List.forall_mem_cons.1 h
    by_cases hplain : isPlain c = true
    · rw [spelled_cons_of_isPlain hplain, unspell_plain hplain, ih htext]
    · have hplain : isPlain c = false := Bool.eq_false_iff.2 hplain
      rcases mem_special hc hplain with rfl | hspecial
      · -- A question mark is read as one, since `merge` has found no longer word here.
        have hlus : ¬ ['l', 'u', 's'] <+: spelled text := by
          intro hprefix
          obtain ⟨tail, rfl⟩ := isPrefix_of_isPrefix_spelled hprefix
            (List.all_iff_forall_prop.1 (by decide))
          exact hplus tail rfl rfl
        have hct : ¬ ['c', 't'] <+: spelled text := by
          intro hprefix
          obtain ⟨tail, rfl⟩ := isPrefix_of_isPrefix_spelled hprefix
            (List.all_iff_forall_prop.1 (by decide))
          exact hpercent tail rfl rfl
        rw [spelled_cons_of_not_isPlain hplain, unspell_word (ofWord_question hlus hct) rfl,
          ih htext]
      · rw [unspell_spelled_special hspecial, ih htext]

/-- Two identifiers are spelled alike exactly if they are equal up to `?lus` and `?ct`. -/
theorem spelled_eq_iff {first second : List Char} (h : ∀ c ∈ first, isSubsequent c = true)
    (h' : ∀ c ∈ second, isSubsequent c = true) :
    spelled first = spelled second ↔ merge first = merge second := by
  constructor
  · intro heq
    rw [← unspell_spelled h, heq, unspell_spelled h']
  · intro heq
    rw [← spelled_merge first, heq, spelled_merge]

/-! ## Reserved words -/

/-- What is written for a character ends with no dollar sign. -/
theorem getLast?_segment (c : Char) : ∃ last, (segment c).getLast? = some last ∧ last ≠ '$' := by
  unfold segment
  split
  next h =>
    refine ⟨c, rfl, ?_⟩
    rintro rfl
    cases h
  next =>
    unfold word
    split <;> exact ⟨_, rfl, by decide⟩

/-- No spelling ends with a dollar sign. -/
theorem spelled_ne_append_dollar (text init : List Char) : spelled text ≠ init ++ ['$'] := by
  intro h
  have hlast := congrArg List.getLast? h
  rcases text.eq_nil_or_concat with rfl | ⟨text, c, rfl⟩
  · simp [spelled] at hlast
  · obtain ⟨last, hsegment, hne⟩ := getLast?_segment c
    have hsingle : spelled [c] = segment c := by simp [spelled]
    rw [List.concat_eq_append, spelled_append, hsingle, List.getLast?_append, hsegment] at hlast
    simp [hne] at hlast

/-- The name of an identifier is its spelling, with a mark behind it if it is reserved. -/
theorem toList_ofIdentifier (identifier : String) :
    (ofIdentifier identifier).toList = spelled identifier.toList ∨
      (ofIdentifier identifier).toList = spelled identifier.toList ++ ['$'] := by
  simp only [ofIdentifier]
  split
  next => right; simp
  next => left; simp

/-- The mark of a reserved word is told from every spelling. -/
theorem ofIdentifier_eq_iff_spelled {first second : String} :
    ofIdentifier first = ofIdentifier second ↔
      spelled first.toList = spelled second.toList := by
  constructor
  · intro h
    have htext := congrArg String.toList h
    rcases toList_ofIdentifier first with hfirst | hfirst <;>
      rcases toList_ofIdentifier second with hsecond | hsecond <;> rw [hfirst, hsecond] at htext
    · exact htext
    · exact absurd htext (spelled_ne_append_dollar _ _)
    · exact absurd htext.symm (spelled_ne_append_dollar _ _)
    · exact List.append_cancel_right htext
  · intro h
    rw [ofIdentifier, ofIdentifier, h]

/-- Two identifiers have one script name exactly if they are equal up to `?lus`, which is written
as `+` is, and `?ct`, which is written as `%` is. -/
theorem ofIdentifier_eq_iff {first second : String} (hfirst : IsIdentifier first)
    (hsecond : IsIdentifier second) :
    ofIdentifier first = ofIdentifier second ↔ merge first.toList = merge second.toList := by
  have hfirst := isIdentifier_iff.1 hfirst
  have hsecond := isIdentifier_iff.1 hsecond
  rw [ofIdentifier_eq_iff_spelled]
  exact spelled_eq_iff (fun _ => isSubsequent_of_mem hfirst) fun _ => isSubsequent_of_mem hsecond

/-- What is written alike may stand anywhere in an identifier. -/
theorem ofIdentifier_eq_iff_inner : ofIdentifier "x?lus1" = ofIdentifier "x+1" :=
  (ofIdentifier_eq_iff (isIdentifier_iff.2 (by decide)) (isIdentifier_iff.2 (by decide))).2
    (by decide)

/-- The identifiers `+` and `?lus` are two, and have one script name. -/
theorem ofIdentifier_collision : IsIdentifier "+" ∧ IsIdentifier "?lus" ∧ "+" ≠ "?lus" ∧
    ofIdentifier "+" = ofIdentifier "?lus" :=
  ⟨isIdentifier_iff.2 (by decide), isIdentifier_iff.2 (by decide), by decide, by decide⟩

/-! ## Legal names -/

/-- The characters of names. -/
def isNameChar (c : Char) : Bool :=
  isPlain c || c = '$'

/-- A name that scripts may use for a variable. -/
structure IsLegal (name : String) : Prop where
  /-- It is not empty, and begins with no digit. -/
  begins : ∃ c ∈ name.toList.head?, isDigit c = false
  /-- It holds the characters of names only. -/
  holds : ∀ c ∈ name.toList, isNameChar c = true
  /-- It is no reserved word. -/
  free : name ∉ reserved

/-- A segment holds only characters of names. -/
theorem isNameChar_of_mem_segment {c d : Char} (h : d ∈ segment c) : isNameChar d = true := by
  unfold segment at h
  split at h
  next hplain =>
    rw [List.mem_singleton] at h
    simp [isNameChar, h, hplain]
  next =>
    have hword : ∀ e ∈ '$' :: (word c).toList, isNameChar e = true := by
      unfold word
      split <;> exact List.all_iff_forall_prop.1 (by decide)
    exact hword d h

/-- A spelling holds only characters of names. -/
theorem isNameChar_of_mem_spelled {text : List Char} {c : Char} (h : c ∈ spelled text) :
    isNameChar c = true := by
  obtain ⟨d, -, hd⟩ := List.mem_flatMap.1 h
  exact isNameChar_of_mem_segment hd

/-- The spelling of an identifier begins with no digit. -/
theorem head?_spelled {text : List Char} (h : isIdentifierText text = true) :
    ∃ c ∈ (spelled text).head?, isDigit c = false := by
  rcases Bool.or_eq_true_iff.1 h with hdots | hplain
  · rw [of_decide_eq_true hdots]
    exact ⟨'$', by decide, by decide⟩
  · cases text with
    | nil => cases hplain
    | cons c text =>
      have hinitial := (isPlainIdentifier_cons.1 hplain).1
      by_cases hc : isPlain c = true
      · refine ⟨c, by rw [spelled_cons_of_isPlain hc]; rfl, ?_⟩
        rw [← Bool.not_eq_true]
        intro hdigit
        rw [isInitial_of_isDigit hdigit] at hinitial
        cases hinitial
      · rw [spelled_cons_of_not_isPlain (Bool.eq_false_iff.2 hc)]
        exact ⟨'$', rfl, by decide⟩

/-- No reserved word ends with a dollar sign. -/
theorem append_dollar_not_mem_reserved (name : String) : name ++ "$" ∉ reserved := by
  intro h
  have hlast : ∀ word ∈ reserved, word.toList.getLast? ≠ some '$' := by decide
  exact hlast _ h (by simp)

/-- The name of an identifier is a legal name of the script language. -/
theorem isLegal_ofIdentifier {identifier : String}
    (h : isIdentifierText identifier.toList = true) : IsLegal (ofIdentifier identifier) := by
  obtain ⟨c, hc, hdigit⟩ := head?_spelled h
  refine ⟨⟨c, ?_, hdigit⟩, ?_, ?_⟩
  · rcases toList_ofIdentifier identifier with htext | htext
    · rw [htext]
      exact hc
    · rw [htext, List.head?_append, Option.mem_def.1 hc]
      rfl
  · intro d hd
    rcases toList_ofIdentifier identifier with htext | htext <;> rw [htext] at hd
    · exact isNameChar_of_mem_spelled hd
    · rcases List.mem_append.1 hd with hd | hd
      · exact isNameChar_of_mem_spelled hd
      · rw [List.mem_singleton.1 hd]
        rfl
  · simp only [ofIdentifier]
    split
    next => exact append_dollar_not_mem_reserved _
    next hfree => exact hfree

/-! ## Names that stay as they are -/

/-- No spelling is shorter than the identifier. -/
theorem length_le_spelled (text : List Char) : text.length ≤ (spelled text).length := by
  induction text with
  | nil => exact Nat.zero_le _
  | cons c text ih =>
    by_cases hc : isPlain c = true
    · rw [spelled_cons_of_isPlain hc, List.length_cons, List.length_cons]
      omega
    · rw [spelled_cons_of_not_isPlain (Bool.eq_false_iff.2 hc), List.length_cons, List.length_cons,
        List.length_append]
      omega

/-- A text is its own spelling exactly if it has kept characters only. -/
theorem spelled_eq_self_iff {text : List Char} :
    spelled text = text ↔ ∀ c ∈ text, isPlain c = true := by
  induction text with
  | nil => exact iff_of_true rfl nofun
  | cons c text ih =>
    rw [List.forall_mem_cons]
    by_cases hc : isPlain c = true
    · rw [spelled_cons_of_isPlain hc, List.cons_inj_right, ih]
      exact (and_iff_right hc).symm
    · refine iff_of_false ?_ fun h => hc h.1
      -- A word is longer than the character that it stands for, and nothing makes up for it.
      intro heq
      have hlength := congrArg List.length heq
      have hword : 0 < (word c).toList.length := by
        unfold word
        split <;> decide
      have hrest := length_le_spelled text
      rw [spelled_cons_of_not_isPlain (Bool.eq_false_iff.2 hc), List.length_cons, List.length_cons,
        List.length_append] at hlength
      omega

/-- A name is its own script name exactly if it has kept characters only and is no reserved
word. -/
theorem ofIdentifier_eq_self_iff (name : String) :
    ofIdentifier name = name ↔ (∀ c ∈ name.toList, isPlain c = true) ∧ name ∉ reserved := by
  have hspelled : String.ofList (spelled name.toList) = name ↔
      ∀ c ∈ name.toList, isPlain c = true := by
    rw [← spelled_eq_self_iff, ← String.toList_inj, String.toList_ofList]
  rw [← hspelled]
  simp only [ofIdentifier]
  split
  next hreserved =>
    refine iff_of_false ?_ fun h => h.2 (h.1 ▸ hreserved)
    intro heq
    have hlength := congrArg (fun text => text.toList.length) heq
    have hle := length_le_spelled name.toList
    simp only [String.toList_append, String.toList_ofList, List.length_append] at hlength
    have hmark : "$".toList.length = 1 := by decide
    omega
  next hfree => exact ⟨fun h => ⟨h, h ▸ hfree⟩, And.left⟩

/-- The script name of an identifier is never empty, holds the characters of names only, begins
with no digit and is no reserved word.  It is the identifier itself exactly if this has only
letters, digits and underscores and is no reserved word. -/
theorem ofIdentifier_legal (name : String) :
    (IsIdentifier name →
      ofIdentifier name ≠ "" ∧ (∀ c ∈ (ofIdentifier name).toList, isNameChar c = true) ∧
        (∀ c ∈ (ofIdentifier name).toList.head?, isDigit c = false) ∧
        ofIdentifier name ∉ reserved) ∧
      (ofIdentifier name = name ↔
        (∀ c ∈ name.toList, isPlain c = true) ∧ name ∉ reserved) := by
  refine ⟨fun h => ?_, ofIdentifier_eq_self_iff name⟩
  obtain ⟨⟨c, hc, hdigit⟩, hholds, hfree⟩ := isLegal_ofIdentifier (isIdentifier_iff.1 h)
  refine ⟨?_, hholds, ?_, hfree⟩
  · intro hempty
    rw [hempty] at hc
    cases hc
  · intro d hd
    rw [Option.mem_unique hd hc]
    exact hdigit

/-- Three dots are an identifier, all of which has to be spelled. -/
theorem ofIdentifier_legal_dots : IsIdentifier "..." ∧ ofIdentifier "..." = "$dot$dot$dot" ∧
    (∀ c ∈ (ofIdentifier "...").toList, isNameChar c = true) ∧ ofIdentifier "..." ∉ reserved ∧
    ofIdentifier "..." ≠ "..." := by
  have hdots : IsIdentifier "..." := isIdentifier_iff.2 (by decide)
  obtain ⟨hlegal, hself⟩ := ofIdentifier_legal "..."
  obtain ⟨-, hholds, -, hfree⟩ := hlegal hdots
  refine ⟨hdots, by decide, hholds, hfree, fun heq => ?_⟩
  have hplain := (hself.1 heq).1 '.' (by decide)
  cases hplain

end MiniScheme.Script.Name
