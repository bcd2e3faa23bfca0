import MiniScheme.Proofs.OnePass
import MiniScheme.Proofs.SourceOrder
import MiniScheme.Proofs.Spelling

/-!
# What becomes of every item of a source

Reading divides the items of a source into stretches.  A stretch is all tokens of one form, or
it is discarded for one error.  What is discarded is an offending item, perhaps after a quote
mark, or a whole group: it ends with the parenthesis that closes the group, or with the source
if there is no such parenthesis.

The invariant is about the stretch that has begun: while a form is being read its tokens spell
the expectation, and while a failed form is being skipped its group is still open.

Main results:

- Theorem `Within.step`: an item either goes on with a stretch or ends it.
- Theorem `Cursor.exists_stretches`: the items of a source are divided into stretches.
- Theorem `readSource_divides`: so is the source, with one form or one error for each of them.
-/

namespace MiniScheme

/-! ## Groups -/

/-- A group that is open before some items is open throughout them. -/
def Unclosed (items : List Item) : Prop :=
  ∀ beginning, beginning <+: items → Item.depthAfterAll 1 beginning ≠ 0

/-- The items after the opening of a group end with the parenthesis that closes it, or the
source ends with them and the group is still open. -/
inductive EndsGroup (following : List Item) : List Item → Prop
  | closed {inside : List Item} (hinside : Unclosed inside)
    (hdepth : Item.depthAfterAll 1 inside = 1) (closing : Terminal .closeParen) :
    EndsGroup following (inside ++ [.ok closing.1])
  | unclosed {inside : List Item} (hinside : Unclosed inside) (hfollowing : following = []) :
    EndsGroup following inside

/-- One more item changes the depth after those before it. -/
@[simp]
theorem Item.depthAfterAll_concat (depth : Nat) (items : List Item) (item : Item) :
    depthAfterAll depth (items ++ [item]) = item.depthAfter (depthAfterAll depth items) := by
  simp [depthAfterAll]

/-- Only a closing parenthesis leaves no group open, and only one that was alone. -/
theorem Item.eq_closing_of_depthAfter {depth : Nat} {item : Item} (h : item.depthAfter depth = 0)
    (hdepth : depth ≠ 0) : depth = 1 ∧ ∃ closing : Terminal .closeParen, item = .ok closing.1 := by
  cases item with
  | error error => exact absurd h hdepth
  | ok token =>
    simp only [depthAfter] at h
    split at h
    next => omega
    next =>
      split at h
      next hkind => exact ⟨by omega, ⟨token, hkind⟩, rfl⟩
      next => exact absurd h hdepth

/-- Two kinds of token open a group. -/
theorem TokenKind.isOpening_iff (kind : TokenKind) :
    kind.isOpening = true ↔ kind = .openParen ∨ kind = .openVector := by
  cases kind <;> simp [isOpening]

/-- Where no group is open only an opening opens one. -/
theorem Item.isOpening_of_depthAfter {token : Token} (h : depthAfter 0 (.ok token) ≠ 0) :
    token.kind.isOpening = true := by
  cases hkind : token.kind.isOpening with
  | true => rfl
  | false => simp [depthAfter, hkind] at h

/-- A group that holds nothing yet is not closed. -/
theorem unclosed_nil : Unclosed [] := by
  intro beginning hbeginning
  rw [List.prefix_nil.1 hbeginning]
  exact Nat.one_ne_zero

/-- A group stays open as long as the count does not come down to nothing. -/
theorem Unclosed.concat {items : List Item} {item : Item} (h : Unclosed items)
    (hdepth : Item.depthAfterAll 1 (items ++ [item]) ≠ 0) : Unclosed (items ++ [item]) := by
  intro beginning hbeginning
  rcases List.prefix_concat_iff.1 hbeginning with rfl | hprefix
  · exact hdepth
  · exact h beginning hprefix

/-- Inside an unclosed group the depth is never nothing. -/
theorem Unclosed.depth_ne_zero {items : List Item} (h : Unclosed items) :
    Item.depthAfterAll 1 items ≠ 0 :=
  h items List.prefix_rfl

/-! ## Stretches -/

/-- What may stand before the first opening of a form: nothing or a quote mark. -/
inductive Lead : List Item → Prop
  | nothing : Lead []
  | mark (mark : Terminal .quoteMark) : Lead [.ok mark.1]

/-- A group fails within it, at the end of the source, or because a vector opens it. -/
inductive Offends (finish : Position) (following : List Item) (error : SyntaxError)
    (opening : Token) (inside : List Item) : Prop
  | within (hopening : opening.kind = .openParen) (hoffender : error.offender ∈ inside)
  | vector (hopening : opening.kind = .openVector) (hoffender : error.offender = .ok opening)
  | atEnd (hopening : opening.kind = .openParen)
    (hoffender : error.offender = .ok (.endOfSource finish)) (hfollowing : following = [])

/-- What is discarded for an error, where some items follow. -/
inductive Discards (finish : Position) (following : List Item) (error : SyntaxError) :
    List Item → Prop
  /-- No group is open: the offending item, perhaps after a quote mark. -/
  | offender {lead : List Item} (hlead : Lead lead)
    (hopening : ∀ token, error.offender = .ok token → token.kind.isOpening = false)
    (hend : error.offender.isEnd = false) :
    Discards finish following error (lead ++ [error.offender])
  /-- No group is open: a quote mark that the source ends after. -/
  | mark (mark : Terminal .quoteMark) (hoffender : error.offender = .ok (.endOfSource finish))
    (hfollowing : following = []) : Discards finish following error [.ok mark.1]
  /-- A whole group, perhaps after a quote mark. -/
  | group {lead inside : List Item} {opening : Token} (hlead : Lead lead)
    (hoffends : Offends finish following error opening inside)
    (hends : EndsGroup following inside) :
    Discards finish following error (lead ++ .ok opening :: inside)

/-- A stretch of a source: the tokens of a form, or items that are discarded for an error. -/
inductive Stretch
  | form (tree : FormTree)
  | discarded (items : List Item) (error : SyntaxError)

namespace Stretch

/-- The items of a stretch. -/
def items : Stretch → List Item
  | form tree => tree.tokens.map .ok
  | discarded items _ => items

/-- What comes of a stretch. -/
def outcome : Stretch → Outcome
  | form tree => .ok tree.form
  | discarded _ error => .error error

/-- A stretch can stand before some items that follow it. -/
def Fits (finish : Position) (following : List Item) : Stretch → Prop
  | form _ => True
  | discarded items error => Discards finish following error items

end Stretch

/-! ## The stretch that has begun -/

/-- The items of a form whose first group is open, with so many groups open in all. -/
inductive OpenGroup (depth : Nat) : List Item → Prop
  | intro {lead inside : List Item} {opening : Token} (hlead : Lead lead)
    (hopening : opening.kind = .openParen) (hinside : Unclosed inside)
    (hdepth : Item.depthAfterAll 1 inside = depth) :
    OpenGroup depth (lead ++ .ok opening :: inside)

/-- The machine has come to a phase by the items of a stretch, and has made these outcomes of
them. -/
inductive Within : Phase → List Item → List Outcome → Prop
  | reading {expectation : Expectation} {tokens : List Token}
    (hspelled : expectation.Spelled tokens)
    (hgroup : expectation.depth ≠ 0 → OpenGroup expectation.depth (tokens.map .ok)) :
    Within (.reading expectation) (tokens.map .ok) []
  | skipping {inner : Nat} {lead inside : List Item} {opening : Token} {error : SyntaxError}
    (hlead : Lead lead)
    (hoffends : ∀ finish following, Offends finish following error opening inside)
    (hinside : Unclosed inside) (hdepth : Item.depthAfterAll 1 inside = inner + 1) :
    Within (.skipping inner) (lead ++ .ok opening :: inside) [.error error]

/-- A group stays open with an item that does not bring the depth to nothing. -/
theorem OpenGroup.concat {depth : Nat} {items : List Item} (h : OpenGroup depth items)
    {item : Item} (hdepth : item.depthAfter depth ≠ 0) :
    OpenGroup (item.depthAfter depth) (items ++ [item]) := by
  cases h with
  | intro hlead hopening hinside hcount =>
    rw [← hcount, ← Item.depthAfterAll_concat] at hdepth ⊢
    rw [List.append_assoc, List.cons_append]
    exact .intro hlead hopening (hinside.concat hdepth) rfl

/-- Before any group is open there is at most a quote mark. -/
theorem Expectation.Spelled.lead {expectation : Expectation} {tokens : List Token}
    (h : expectation.Spelled tokens) (hdepth : expectation.depth = 0) :
    Lead (tokens.map .ok) ∧ (expectation ≠ .start → ∃ mark : Terminal .quoteMark,
      tokens = [mark.1]) := by
  rcases (Expectation.depth_eq_zero_iff expectation).1 hdepth with rfl | rfl
  · cases h with
    | expression h =>
      cases h
      exact ⟨.nothing, fun hstart => absurd rfl hstart⟩
  · cases h with
    | datum h =>
      cases h with
      | afterMark h mark =>
        cases h
        exact ⟨.mark mark, fun _ => ⟨mark, rfl⟩⟩

/-- No form goes on with a vector. -/
theorem Expectation.step_vector (expectation : Expectation) {token : Token}
    (h : token.kind = .openVector) : ∃ error, expectation.step token = .reject error := by
  cases expectation <;>
    simp [step, require, h, Place.startExpression, DatumPlace.startDatum, Place.startConstruct,
      TokenKind.startsExpression, TokenKind.startsDatum, TokenKind.isAtom]

/-- Where no group is open one can be opened. -/
theorem Expectation.step_open {expectation : Expectation} (hdepth : expectation.depth = 0)
    {token : Token} (h : token.kind = .openParen) :
    ∃ following, expectation.step token = .next following := by
  rcases (Expectation.depth_eq_zero_iff expectation).1 hdepth with rfl | rfl
  · exact ⟨_, by simp [step, start, Place.startExpression, h]; rfl⟩
  · exact ⟨_, by simp [step, DatumPlace.startDatum, h]; rfl⟩

/-! ## One item -/

/-- The machine has come to a phase by the items of a stretch that goes on or that has just
ended. -/
inductive Extends : Phase → List Item → List Outcome → Prop
  | within {phase : Phase} {items : List Item} {made : List Outcome}
    (h : Within phase items made) : Extends phase items made
  | ended (stretch : Stretch) (hfits : ∀ finish following, stretch.Fits finish following) :
    Extends .start stretch.items [stretch.outcome]

/-- A form begins outside any group. -/
theorem within_start : Within .start [] [] :=
  .reading (.expression .form) fun h => absurd rfl h

/-- A form fails at an item before any group is open. -/
theorem extends_of_failure_outside {lead : List Item} (hlead : Lead lead) {item : Item}
    {error : SyntaxError} (herror : error.offender = item) (hend : item.isEnd = false)
    (hopening : ∀ token, item = .ok token → token.kind ≠ .openParen) :
    Extends (.leaving (item.depthAfter 0)) (lead ++ [item]) [.error error] := by
  subst herror
  by_cases hvector : ∃ token, error.offender = .ok token ∧ token.kind.isOpening = true
  · obtain ⟨token, htoken, hkind⟩ := hvector
    have hkind' : token.kind = .openVector :=
      ((TokenKind.isOpening_iff _).1 hkind).resolve_left (hopening token htoken)
    rw [htoken, Item.depthAfter, if_pos hkind]
    exact .within (.skipping hlead (fun _ _ => .vector hkind' htoken) unclosed_nil rfl)
  · have hplain (token : Token) (htoken : error.offender = .ok token) :
        token.kind.isOpening = false := by
      cases hkind : token.kind.isOpening with
      | true => exact absurd ⟨token, htoken, hkind⟩ hvector
      | false => rfl
    have hdepth : error.offender.depthAfter 0 = 0 := by
      cases hoffender : error.offender with
      | error fault => rfl
      | ok token => simp [Item.depthAfter, hplain token hoffender]
    rw [hdepth]
    exact .ended (.discarded _ error) fun _ _ => .offender hlead hplain hend

/-- What offends inside a group still does with one more item behind it. -/
theorem Offends.concat {finish : Position} {following : List Item} {error : SyntaxError}
    {opening : Token} {inside : List Item} (h : Offends finish following error opening inside)
    (item : Item) : Offends finish following error opening (inside ++ [item]) := by
  cases h with
  | within hopening hoffender => exact .within hopening (List.mem_append_left _ hoffender)
  | vector hopening hoffender => exact .vector hopening hoffender
  | atEnd hopening hoffender hfollowing => exact .atEnd hopening hoffender hfollowing

/-- A failed form is skipped until its first group is closed. -/
theorem extends_of_group {depth : Nat} {lead inside : List Item} {opening : Token}
    {error : SyntaxError} {item : Item} (hlead : Lead lead)
    (hoffends : ∀ finish following, Offends finish following error opening (inside ++ [item]))
    (hinside : Unclosed inside) (hdepth : Item.depthAfterAll 1 inside = depth) :
    Extends (.leaving (item.depthAfter depth)) (lead ++ .ok opening :: inside ++ [item])
      [.error error] := by
  rw [List.append_assoc, List.cons_append]
  cases hcount : item.depthAfter depth with
  | zero =>
    rw [← hdepth] at hcount
    obtain ⟨hone, closing, rfl⟩ := Item.eq_closing_of_depthAfter hcount hinside.depth_ne_zero
    exact .ended (.discarded _ error) fun finish following =>
      .group hlead (hoffends finish following) (.closed hinside hone closing)
  | succ inner =>
    have hcount' : Item.depthAfterAll 1 (inside ++ [item]) = inner + 1 := by
      rw [Item.depthAfterAll_concat, hdepth, hcount]
    exact .within (.skipping hlead hoffends (hinside.concat (by omega)) hcount')

/-- A form fails at an item. -/
theorem extends_of_failure {expectation : Expectation} {tokens : List Token}
    (hspelled : expectation.Spelled tokens)
    (hgroup : expectation.depth ≠ 0 → OpenGroup expectation.depth (tokens.map .ok))
    {item : Item} (error : SyntaxError) (herror : error.offender = item)
    (hend : item.isEnd = false)
    (hopening : expectation.depth = 0 → ∀ token, item = .ok token → token.kind ≠ .openParen) :
    Extends (.leaving (item.depthAfter expectation.depth)) (tokens.map .ok ++ [item])
      [.error error] := by
  by_cases hdepth : expectation.depth = 0
  · rw [hdepth]
    exact extends_of_failure_outside (hspelled.lead hdepth).1 herror hend (hopening hdepth)
  · have hopen := hgroup hdepth
    generalize tokens.map Except.ok = items at hopen ⊢
    obtain @⟨lead, inside, opening, hlead, hkind, hinside, hcount⟩ := hopen
    exact extends_of_group hlead (fun _ _ => .within hkind (by simp [herror])) hinside hcount

/-- A form goes on with a token. -/
theorem within_of_next {expectation following : Expectation} {tokens : List Token} {token : Token}
    (hspelled : expectation.Spelled tokens)
    (hgroup : expectation.depth ≠ 0 → OpenGroup expectation.depth (tokens.map .ok))
    (hstep : expectation.step token = .next following) :
    Within (.reading following) (tokens.map .ok ++ [.ok token]) [] := by
  have hspelled' := Expectation.step_spelled hspelled token
  have hleaves := expectation.step_leaves token
  rw [hstep] at hspelled' hleaves
  obtain @⟨_, _, hspelled'⟩ := hspelled'
  obtain @⟨_, hdepth, -⟩ := hleaves
  have hmap : tokens.map Except.ok ++ [.ok token] =
      ((tokens ++ [token]).map .ok : List Item) := by simp
  rw [hmap]
  refine .reading hspelled' fun hfollowing => ?_
  rw [← hmap]
  rw [hdepth] at hfollowing ⊢
  by_cases hzero : expectation.depth = 0
  · have hopening : token.kind = .openParen := by
      rw [hzero] at hfollowing
      rcases (TokenKind.isOpening_iff _).1 (Item.isOpening_of_depthAfter hfollowing) with h | h
      · exact h
      · obtain ⟨error, herror⟩ := expectation.step_vector h
        simp [hstep] at herror
    rw [hzero, Item.depthAfter_open hopening]
    exact .intro (hspelled.lead hzero).1 hopening unclosed_nil rfl
  · exact (hgroup hzero).concat hfollowing

/-- An item goes on with the stretch that has begun or ends it. -/
theorem Within.step {phase : Phase} {items : List Item} {made : List Outcome}
    (h : Within phase items made) {item : Item} (hend : item.isEnd = false) :
    Extends (phase.step item).2 (items ++ [item]) (made ++ (phase.step item).1.toList) := by
  cases h with
  | @reading expectation tokens hspelled hgroup =>
    cases item with
    | error error =>
      exact extends_of_failure hspelled hgroup (.lexical error) rfl rfl
        fun _ _ heq => by cases heq
    | ok token =>
      have hspelled' := Expectation.step_spelled hspelled token
      have hleaves := expectation.step_leaves token
      cases hstep : expectation.step token with
      | next following =>
        rw [Phase.step_of_next hstep]
        exact .within (within_of_next hspelled hgroup hstep)
      | form form =>
        rw [hstep] at hspelled'
        rw [Phase.step_of_form hstep]
        generalize htokens : tokens ++ [token] = all at hspelled'
        cases hspelled' with
        | form tree =>
          have hmap : tokens.map Except.ok ++ [.ok token] = (Stretch.form tree).items := by
            simp [Stretch.items, ← htokens]
          rw [hmap]
          exact .ended (.form tree) fun _ _ => trivial
      | reject error =>
        rw [hstep] at hleaves
        rw [Phase.step_of_reject hstep]
        have herror : error.offender = .ok token := by cases hleaves <;> rfl
        apply extends_of_failure hspelled hgroup error herror hend
        intro hzero token' heq hkind
        cases heq
        obtain ⟨following, hnext⟩ := Expectation.step_open hzero hkind
        simp [hstep] at hnext
  | skipping hlead hoffends hinside hdepth =>
    exact extends_of_group hlead (fun finish following => (hoffends finish following).concat item)
      hinside hdepth

/-! ## Whole sources -/

/-- The end of a source ends the stretch that has begun, if one has. -/
theorem Within.atEnd {phase : Phase} {items : List Item} {made : List Outcome}
    (h : Within phase items made) (finish : Position) :
    (items = [] ∧ made ++ phase.atEnd finish = []) ∨
      ∃ stretch : Stretch, stretch.Fits finish [] ∧ stretch.items = items ∧
        made ++ phase.atEnd finish = [stretch.outcome] := by
  cases h with
  | skipping hlead hoffends hinside =>
    exact .inr ⟨.discarded _ _, .group hlead (hoffends finish []) (.unclosed hinside rfl), rfl, rfl⟩
  | @reading expectation tokens hspelled hgroup =>
    by_cases hstart : expectation = .start
    · subst hstart
      have htokens : tokens = [] := by
        cases hspelled with
        | expression h =>
          cases h
          rfl
      exact .inl ⟨by simp [htokens], rfl⟩
    · obtain ⟨error, hstep⟩ := expectation.step_endOfSource finish
      have hoffender : error.offender = .ok (.endOfSource finish) := by
        have hleaves := expectation.step_leaves (.endOfSource finish)
        rw [hstep] at hleaves
        cases hleaves <;> rfl
      refine .inr ⟨.discarded (tokens.map .ok) error, ?_, rfl, Phase.atEnd_reading hstart hstep⟩
      show Discards finish [] error (tokens.map .ok)
      by_cases hdepth : expectation.depth = 0
      · obtain ⟨mark, rfl⟩ := (hspelled.lead hdepth).2 hstart
        exact .mark mark hoffender rfl
      · have hopen := hgroup hdepth
        generalize tokens.map Except.ok = items at hopen ⊢
        obtain @⟨lead, inside, opening, hlead, hkind, hinside, hcount⟩ := hopen
        exact .group hlead (.atEnd hkind hoffender rfl) (.unclosed hinside rfl)

/-- Every stretch can stand before the items of those that follow it. -/
def AllFit (finish : Position) : List Stretch → Prop
  | [] => True
  | stretch :: stretches =>
    stretch.Fits finish (stretches.flatMap Stretch.items) ∧ AllFit finish stretches

/-- What is left of a source is divided into stretches, the first of which goes on with the one
that has begun. -/
theorem Within.exists_stretches (finish : Position) {phase : Phase} {begun : List Item}
    {made : List Outcome} (h : Within phase begun made) (items : List Item)
    (hend : ∀ item ∈ items, item.isEnd = false) :
    ∃ stretches : List Stretch, AllFit finish stretches ∧
      stretches.flatMap Stretch.items = begun ++ items ∧
      stretches.map Stretch.outcome = made ++ phase.outcomes finish items := by
  induction items generalizing phase begun made with
  | nil =>
    rcases h.atEnd finish with ⟨hbegun, hmade⟩ | ⟨stretch, hfits, hitems, hmade⟩
    · exact ⟨[], trivial, by simp [hbegun], by simp [hmade]⟩
    · exact ⟨[stretch], ⟨hfits, trivial⟩, by simp [hitems], by simp [hmade]⟩
  | cons item items ih =>
    have hrest : ∀ item ∈ items, item.isEnd = false :=
      fun item hitem => hend item (List.mem_cons_of_mem _ hitem)
    have hextends := h.step (hend item List.mem_cons_self)
    rw [Phase.outcomes_cons, ← List.append_assoc]
    rw [← List.singleton_append, ← List.append_assoc]
    generalize (phase.step item).2 = phase', begun ++ [item] = begun',
      made ++ (phase.step item).1.toList = made' at hextends ⊢
    cases hextends with
    | within hwithin => exact ih hwithin hrest
    | ended stretch hfits =>
      obtain ⟨stretches, hall, hitems, houtcomes⟩ := ih within_start hrest
      refine ⟨stretch :: stretches, ⟨hfits finish _, hall⟩, ?_, ?_⟩
      · rw [List.flatMap_cons, hitems, List.nil_append]
      · rw [List.map_cons, houtcomes, List.nil_append, List.singleton_append]

/-- The items of a cursor are divided into stretches, and what comes of these is what comes of
the items. -/
theorem Cursor.exists_stretches (cursor : Cursor) :
    ∃ stretches : List Stretch, AllFit cursor.finish stretches ∧
      stretches.flatMap Stretch.items = cursor.items ∧
      stretches.map Stretch.outcome = cursor.outcomes :=
  within_start.exists_stretches cursor.finish cursor.items fun _ => isEnd_of_mem_items

/-! ## The positions of errors -/

/-- An error is placed at the token that offends. -/
@[simp]
theorem SyntaxError.position_offender (error : SyntaxError) :
    error.offender.position = error.position := by
  cases error <;> rfl

namespace Discards

/-- Something is discarded for every error. -/
theorem ne_nil {finish : Position} {following items : List Item} {error : SyntaxError}
    (h : Discards finish following error items) : items ≠ [] := by
  cases h <;> simp

/-- An error stands at an item that is discarded for it, or at the end of the source. -/
theorem position_error {finish : Position} {following items : List Item} {error : SyntaxError}
    (h : Discards finish following error items) :
    (∃ item ∈ items, item.position = error.position) ∨
      error.position = finish ∧ following = [] := by
  rw [← error.position_offender]
  cases h with
  | offender => exact .inl ⟨error.offender, by simp, rfl⟩
  | mark mark hoffender hfollowing => exact .inr ⟨by rw [hoffender]; rfl, hfollowing⟩
  | group hlead hoffends hends =>
    cases hoffends with
    | within hopening hoffender => exact .inl ⟨error.offender, by simp [hoffender], rfl⟩
    | vector hopening hoffender => exact .inl ⟨error.offender, by simp [hoffender], rfl⟩
    | atEnd hopening hoffender hfollowing => exact .inr ⟨by rw [hoffender]; rfl, hfollowing⟩

end Discards

/-- A stretch has items. -/
theorem Stretch.Fits.ne_nil {finish : Position} {following : List Item} {stretch : Stretch}
    (h : stretch.Fits finish following) : stretch.items ≠ [] := by
  cases stretch with
  | form tree => simp [Stretch.items, tree.tokens_ne_nil]
  | discarded items error => exact Discards.ne_nil h

namespace AllFit

/-- A stretch can stand before the items of those that follow it. -/
theorem fits {finish : Position} {before after : List Stretch} {stretch : Stretch}
    (h : AllFit finish (before ++ stretch :: after)) :
    stretch.Fits finish (after.flatMap Stretch.items) := by
  induction before with
  | nil => exact h.1
  | cons first before ih => exact ih h.2

/-- The stretches behind one of them fit as well. -/
theorem after {finish : Position} {before after : List Stretch} {stretch : Stretch}
    (h : AllFit finish (before ++ stretch :: after)) : AllFit finish after := by
  induction before with
  | nil => exact h.2
  | cons first before ih => exact ih h.2

/-- There is no stretch without items. -/
theorem eq_nil {finish : Position} {stretches : List Stretch} (h : AllFit finish stretches)
    (hitems : stretches.flatMap Stretch.items = []) : stretches = [] := by
  cases stretches with
  | nil => rfl
  | cons stretch stretches =>
    rw [List.flatMap_cons, List.append_eq_nil_iff] at hitems
    exact absurd hitems.1 h.1.ne_nil

/-- An error stands at an item or at the end of the source. -/
theorem position_error {finish : Position} {stretches : List Stretch} (h : AllFit finish stretches)
    {error : SyntaxError} (herror : error ∈ Outcome.errors (stretches.map Stretch.outcome)) :
    (∃ item ∈ stretches.flatMap Stretch.items, item.position = error.position) ∨
      error.position = finish := by
  induction stretches with
  | nil => simp [Outcome.errors] at herror
  | cons stretch stretches ih =>
    have hrest (hrest : error ∈ Outcome.errors (stretches.map Stretch.outcome)) :
        (∃ item ∈ (stretch :: stretches).flatMap Stretch.items,
          item.position = error.position) ∨ error.position = finish := by
      rcases ih h.2 hrest with ⟨item, hitem, hposition⟩ | hfinish
      · exact .inl ⟨item, by simp only [List.flatMap_cons, List.mem_append, hitem, or_true],
          hposition⟩
      · exact .inr hfinish
    cases stretch with
    | form tree => exact hrest herror
    | discarded items error' =>
      rw [List.map_cons, Stretch.outcome, Outcome.errors_error, List.mem_cons] at herror
      rcases herror with rfl | herror
      · rcases Discards.position_error h.1 with ⟨item, hitem, hposition⟩ | ⟨hfinish, -⟩
        · exact .inl ⟨item, by simp [Stretch.items, hitem], hposition⟩
        · exact .inr hfinish
      · exact hrest herror

/-- Where the items of stretches stand in order before the end, so do the errors. -/
theorem pairwise_errors {finish : Position} {stretches : List Stretch}
    (h : AllFit finish stretches)
    (hsorted : (stretches.flatMap Stretch.items).Pairwise
      fun first second => first.position < second.position)
    (hfinish : ∀ item ∈ stretches.flatMap Stretch.items, item.position < finish) :
    (Outcome.errors (stretches.map Stretch.outcome)).Pairwise
      fun first second => first.position < second.position := by
  induction stretches with
  | nil => exact .nil
  | cons stretch stretches ih =>
    rw [List.flatMap_cons] at hsorted hfinish
    obtain ⟨-, hrest, hcross⟩ := List.pairwise_append.1 hsorted
    have hlater := ih h.2 hrest fun item hitem => hfinish item (List.mem_append_right _ hitem)
    cases stretch with
    | form tree => exact hlater
    | discarded items error =>
      rw [List.map_cons, Stretch.outcome, Outcome.errors_error, List.pairwise_cons]
      refine ⟨?_, hlater⟩
      intro error' herror'
      rcases Discards.position_error h.1 with ⟨item, hitem, hposition⟩ | ⟨-, hfollowing⟩
      · rw [← hposition]
        rcases h.2.position_error herror' with ⟨item', hitem', hposition'⟩ | hposition'
        · rw [← hposition']
          exact hcross item hitem item' hitem'
        · rw [hposition']
          exact hfinish item (List.mem_append_left _ hitem)
      · -- The source has ended with this error, so that there is no later one.
        rw [h.2.eq_nil hfollowing] at herror'
        simp [Outcome.errors] at herror'

end AllFit

/-- Reading divides the items of a source into stretches, in order.  A stretch is all tokens of
a form that is read, or it is discarded for exactly one error: an offending item, perhaps after
a quote mark, or a whole group.  An error stands at an item of its own stretch, or at the end of
the source if nothing follows, and errors stand in strictly increasing order. -/
theorem readSource_divides (source : String) :
    ∃ stretches : List Stretch,
      stretches.flatMap Stretch.items = (Cursor.ofSource source).items ∧
      readSource source =
        (Outcome.forms (stretches.map Stretch.outcome),
          Outcome.errors (stretches.map Stretch.outcome)) ∧
      (∀ before items error after, stretches = before ++ .discarded items error :: after →
        Discards (Cursor.ofSource source).finish (after.flatMap Stretch.items) error items ∧
          ((∃ item ∈ items, item.position = error.position) ∨
            error.position = (Cursor.ofSource source).finish ∧ after = [])) ∧
      (readSource source).2.Pairwise fun first second => first.position < second.position := by
  obtain ⟨stretches, hall, hitems, houtcomes⟩ := (Cursor.ofSource source).exists_stretches
  have hread := readSource_eq_outcomes source
  rw [← houtcomes] at hread
  refine ⟨stretches, hitems, hread, ?_, ?_⟩
  · rintro before items error after rfl
    have hdiscards := hall.fits
    refine ⟨hdiscards, ?_⟩
    rcases hdiscards.position_error with hitem | ⟨hfinish, hfollowing⟩
    · exact .inl hitem
    · exact .inr ⟨hfinish, hall.after.eq_nil hfollowing⟩
  · rw [hread]
    apply hall.pairwise_errors
    · rw [hitems]
      exact (Cursor.ofSource source).pairwise_items
    · rw [hitems]
      exact fun item hitem => (Cursor.position_of_mem_items hitem).2

end MiniScheme
