import Mathlib.Data.List.Forall2
import MiniScheme.Proofs.Obtained
import MiniScheme.Value.Text

/-!
# Laws of equality

Of the two relations between values, one goes by identities alone, and the other one compares lists
value by value.  Both compare what they make of either value, so that they are equivalences.  Among
values that can be obtained an identity has one bearer.  There the first relation is the finest that
there can be, and the second one tells values apart whenever their texts do.

Main results:

- Theorems `Value.isEq_iff` and `Value.equal_iff`: what the relations go by.
- Theorem `Store.Census.eq_of_isEq`: the same identity is the same value.
- Theorem `Scene.Obtained.equality_lawful`: the laws of both for all values that can be obtained.
-/

namespace MiniScheme

/-! ## What the relations go by -/

/-- A function with nothing left but its identity and its kind. -/
def Function.essence : Function → Function
  | .primitive identity _ _ => .primitive identity "" (.general .list)
  | .closure identity _ _ _ => .closure identity [] [] 0

mutual

/-- A value with nothing left but its contents, where those of a symbol or a function are its
identity. -/
def Value.essence : Value → Value
  | .symbol ⟨_, identity⟩ => .symbol ⟨"", identity⟩
  | .list cells => .list cells.essence
  | .function function => .function function.essence
  | .nil => .nil
  | .number n => .number n
  | .boolean b => .boolean b
  | .character c => .character c
  | .string s => .string s

/-- A list with nothing left but the contents of its values. -/
def Cells.essence : Cells → Cells
  | .empty => .empty
  | .cell _ head tail => .cell 0 head.essence tail.essence

end

/-- Two functions are the same one exactly if they have one essence. -/
theorem Function.same_iff (left right : Function) :
    left.same right = true ↔ left.essence = right.essence := by
  cases left <;> cases right <;> simp [same, essence]

mutual

/-- Values are equal if they have the same contents. -/
theorem Value.equal_iff : ∀ left right : Value,
    left.equal right = true ↔ left.essence = right.essence
  | .list left, right => by
    cases right with
    | list right => simpa [Value.equal, Value.essence] using Cells.equal_iff left right
    | _ => simp [Value.equal, Value.essence]
  | .function left, right => by
    cases right with
    | function right => simpa [Value.equal, Value.essence] using left.same_iff right
    | _ => simp [Value.equal, Value.essence]
  | .nil, right | .number _, right | .boolean _, right | .character _, right | .string _, right
  | .symbol _, right => by cases right <;> simp [Value.equal, Value.essence]

/-- Two lists are equal exactly if they have one essence. -/
theorem Cells.equal_iff : ∀ left right : Cells,
    left.equal right = true ↔ left.essence = right.essence
  | .empty, right => by cases right <;> simp [Cells.equal, Cells.essence]
  | .cell _ head tail, right => by
    cases right with
    | empty => simp [Cells.equal, Cells.essence]
    | cell identity other rest =>
      have hhead := Value.equal_iff head other
      have htail := Cells.equal_iff tail rest
      simp [Cells.equal, Cells.essence, hhead, htail]

end

namespace Value

/-- A value with nothing left but its identity, or its contents if it has none. -/
def mark : Value → Value
  | .list (.cell identity _ _) => .list (.cell identity .nil .empty)
  | value => value.essence

/-- Values are indistinguishable if they have the same identity, or none and the same contents. -/
theorem isEq_iff (left right : Value) : left.isEq right = true ↔ left.mark = right.mark := by
  cases left with
  | list left =>
    cases right with
    | list right =>
      cases left <;> cases right <;> simp [isEq, Cells.same, mark, essence, Cells.essence]
    | _ => cases left <;> simp [isEq, equal, mark, essence]
  | _ =>
    cases right with
    | list right => cases right <;> simp [isEq, equal, mark, essence]
    | _ => exact equal_iff _ _

/-- Equality of contents is an equivalence. -/
theorem equivalence_equal : Equivalence fun left right : Value => left.equal right = true where
  refl value := (equal_iff value value).2 rfl
  symm h := (equal_iff _ _).2 ((equal_iff _ _).1 h).symm
  trans h h' := (equal_iff _ _).2 (((equal_iff _ _).1 h).trans ((equal_iff _ _).1 h'))

/-- Identity is an equivalence. -/
theorem equivalence_isEq : Equivalence fun left right : Value => left.isEq right = true where
  refl value := (isEq_iff value value).2 rfl
  symm h := (isEq_iff _ _).2 ((isEq_iff _ _).1 h).symm
  trans h h' := (isEq_iff _ _).2 (((isEq_iff _ _).1 h).trans ((isEq_iff _ _).1 h'))

/-- The essence of a value is of its kind. -/
theorem kind_essence (value : Value) : value.essence.kind = value.kind := by
  cases value <;> rfl

/-- Equal values have the same kind. -/
theorem kind_eq_of_equal {left right : Value} (h : left.equal right = true) :
    left.kind = right.kind := by
  rw [← kind_essence left, (equal_iff left right).1 h, kind_essence]

/-- Lists are equal if they are of one length and their values are equal in pairs. -/
theorem equal_list_iff (left right : Cells) :
    (list left).equal (list right) = true ↔ left.length = right.length ∧
      ∀ pair ∈ left.toList.zip right.toList, pair.1.equal pair.2 = true := by
  rw [equal]
  induction left using Cells.rec (motive_1 := fun _ => True) generalizing right with
  | empty => cases right <;> simp [Cells.equal, Cells.length, Cells.toList]
  | cell identity head tail _ ih =>
    cases right with
    | empty => simp [Cells.equal, Cells.length, Cells.toList]
    | cell identity other rest =>
      rw [Cells.equal, Bool.and_eq_true, ih rest]
      simp only [Cells.length, Cells.toList, List.length_cons, List.zip_cons_cons,
        List.forall_mem_cons, Nat.add_right_cancel_iff]
      exact and_left_comm
  | _ => trivial

/-- The mark of a value has its identity. -/
theorem identity?_mark (value : Value) : value.mark.identity? = value.identity? := by
  cases value with
  | list cells => cases cells <;> rfl
  | function function => cases function <;> rfl
  | _ => rfl

/-- A value without an identity is its own mark. -/
theorem mark_of_identity?_none {value : Value} (h : value.identity? = none) :
    value.mark = value := by
  cases value with
  | list cells =>
    cases cells with
    | empty => rfl
    | cell => cases h
  | function function => cases function <;> cases h
  | symbol => cases h
  | _ => rfl

end Value

/-! ## Values in a census -/

namespace Store.Census

variable {store : Store} {known : Set Value}

/-- In a census the same identity, or none and the same contents, is the same value. -/
theorem eq_of_isEq (h : store.Census known) {left right : Value} (hleft : left ∈ known)
    (hright : right ∈ known) (heq : left.isEq right = true) : left = right := by
  have hmark := (Value.isEq_iff left right).1 heq
  have hidentity : left.identity? = right.identity? := by
    rw [← left.identity?_mark, hmark, right.identity?_mark]
  cases hleft' : left.identity? with
  | some identity => exact h.unique hleft hright hleft' (hidentity ▸ hleft')
  | none =>
    rw [hleft'] at hidentity
    rwa [Value.mark_of_identity?_none hleft', Value.mark_of_identity?_none hidentity.symm] at hmark

/-- Values that are the same are equal. -/
theorem equal_of_isEq (h : store.Census known) {left right : Value} (hleft : left ∈ known)
    (hright : right ∈ known) (heq : left.isEq right = true) : left.equal right = true :=
  h.eq_of_isEq hleft hright heq ▸ Value.equivalence_equal.refl left

mutual

/-- Equal values have the same text. -/
theorem text_eq (h : store.Census known) : ∀ {left right : Value}, left ∈ known → right ∈ known →
    left.equal right = true → left.text = right.text
  | .list left, right, hleft, hright, hequal => by
    cases right with
    | list right =>
      rw [Value.equal] at hequal
      rw [Value.text, Value.text, texts_eq h hleft hright hequal]
    | _ => cases hequal
  | .function left, right, hleft, hright, hequal | .nil, right, hleft, hright, hequal
  | .number left, right, hleft, hright, hequal | .boolean left, right, hleft, hright, hequal
  | .character left, right, hleft, hright, hequal | .string left, right, hleft, hright, hequal
  | .symbol left, right, hleft, hright, hequal =>
    congrArg Value.text (h.eq_of_isEq hleft hright hequal)

/-- Lists that are equal have the same texts. -/
theorem texts_eq (h : store.Census known) : ∀ {left right : Cells}, .list left ∈ known →
    .list right ∈ known → left.equal right = true → left.texts = right.texts
  | .empty, right, _, _, hequal => by
    cases right with
    | empty => rfl
    | cell => cases hequal
  | .cell _ head tail, right, hleft, hright, hequal => by
    cases right with
    | empty => cases hequal
    | cell identity other rest =>
      obtain ⟨hhead, htail⟩ := h.parts hleft
      obtain ⟨hother, hrest⟩ := h.parts hright
      rw [Cells.equal, Bool.and_eq_true] at hequal
      rw [Cells.texts, Cells.texts, text_eq h hhead hother hequal.1,
        texts_eq h htail hrest hequal.2]

end

/-- Looking first whether two lists are the same one makes no difference. -/
theorem equal_list_eq (h : store.Census known) {left right : Cells} (hleft : .list left ∈ known)
    (hright : .list right ∈ known) :
    (Value.list left).equal (.list right) = (left.same right || left.length == right.length &&
      (left.toList.zip right.toList).all fun (value, other) => value.equal other) := by
  have hsame : left.same right = true → (Value.list left).equal (.list right) = true :=
    h.equal_of_isEq hleft hright
  rw [Bool.eq_iff_iff, Bool.or_eq_true, Bool.and_eq_true, beq_iff_eq, List.all_eq_true]
  constructor
  · exact fun hequal => .inr ((Value.equal_list_iff left right).1 hequal)
  · rintro (heq | hequal)
    · exact hsame heq
    · exact (Value.equal_list_iff left right).2 hequal

/-- What is still to be made is none of the values that there are. -/
theorem isEq_new (h : store.Census known) {value : Value} (hvalue : value ∈ known) (head : Value)
    (tail : Cells) : value.isEq (.list (.cell store.nextObject head tail)) = false := by
  rw [← Bool.not_eq_true]
  intro heq
  have hmark := (Value.isEq_iff _ _).1 heq
  have hidentity : value.identity? = some (.object store.nextObject) := by
    rw [← value.identity?_mark, hmark]
    rfl
  exact Nat.lt_irrefl _ (h.used hvalue hidentity)

end Store.Census

/-! ## Values that can be obtained -/

/-- Among all values that have been obtained, by evaluation, from the constructors or from the parts
of others: both relations are equivalences.  Values that are the same are equal, and equal values
have one kind and one text.  Lists are equal if they are of one length and their values are equal in
pairs, whether or not it is looked at first if they are the same list.  Non-empty lists are only the
same if they are the same cell, and a new cell is none of those that there have been.  What is left
of it without its first value is the list that it has been put in front of. -/
theorem Scene.Obtained.equality_lawful {scene : Scene} (h : scene.Obtained) :
    Equivalence (fun left right : Value => left.isEq right = true) ∧
    Equivalence (fun left right : Value => left.equal right = true) ∧
    (∀ left ∈ scene.held, ∀ right ∈ scene.held,
      (left.isEq right = true → left.equal right = true) ∧
      (left.equal right = true → left.kind = right.kind ∧ left.text = right.text)) ∧
    (∀ left right : Cells, (Value.list left).equal (.list right) = true ↔
      left.length = right.length ∧
        ∀ pair ∈ left.toList.zip right.toList, pair.1.equal pair.2 = true) ∧
    (∀ left right, .list left ∈ scene.held → .list right ∈ scene.held →
      (Value.list left).equal (.list right) = (left.same right || left.length == right.length &&
        (left.toList.zip right.toList).all fun (value, other) => value.equal other)) ∧
    (∀ identity head tail identity' head' tail', .list (.cell identity head tail) ∈ scene.held →
      .list (.cell identity' head' tail') ∈ scene.held →
      (Value.list (.cell identity head tail)).isEq (.list (.cell identity' head' tail')) = true →
      identity = identity' ∧ head = head' ∧ tail = tail') ∧
    ∀ head tail,
      let made := (Store.cons head tail).run scene.store
      (∀ value ∈ scene.held, value.isEq (.list made.1) = false) ∧
      ∃ rest, made.1.tail? = some rest ∧ Selector.cdr.select made.1 = .ok (.list rest) ∧
        (Value.list rest).isEq (.list tail) = true := by
  obtain ⟨known, hcensus, hheld⟩ := h.counted
  refine ⟨Value.equivalence_isEq, Value.equivalence_equal, fun left hleft right hright => ⟨?_, ?_⟩,
    Value.equal_list_iff, fun left right hleft hright => ?_, ?_, fun head tail => ⟨?_, ?_⟩⟩
  · exact hcensus.equal_of_isEq (hheld left hleft) (hheld right hright)
  · intro hequal
    exact ⟨Value.kind_eq_of_equal hequal,
      hcensus.text_eq (hheld left hleft) (hheld right hright) hequal⟩
  · exact hcensus.equal_list_eq (hheld _ hleft) (hheld _ hright)
  · intro identity head tail identity' head' tail' hleft hright heq
    cases hcensus.eq_of_isEq (hheld _ hleft) (hheld _ hright) heq
    exact ⟨rfl, rfl, rfl⟩
  · exact fun value hvalue => hcensus.isEq_new (hheld value hvalue) head tail
  · exact ⟨tail, rfl, rfl, Value.equivalence_isEq.refl (.list tail)⟩

/-- Two quoted lists that are equal but not the same, and the end of one of them. -/
theorem equality_lawful_quoted :
    let made := (Scene.start 0).perform (do let _ ← Store.allocateGlobal; return .nil : Evaluation _)
    let first := made.perform (run 9 0 "'(a (1 #\\b))")
    let second := first.perform (run 9 0 "(define x '(a (1 #\\b))) x")
    let last := second.perform (run 9 0 "(cdr x)")
    last.Obtained ∧
      last.held.map Value.text = ["((1 b))", "(a (1 b))", "(a (1 b))", "nil"] ∧
      last.held.map (fun value => last.held.map value.isEq) =
        [[true, false, false, false], [false, true, false, false], [false, false, true, false],
          [false, false, false, true]] ∧
      last.held.map (fun value => last.held.map value.equal) =
        [[true, false, false, false], [false, true, true, false], [false, true, true, false],
          [false, false, false, true]] ∧
      ∀ left ∈ last.held, ∀ right ∈ last.held, left.equal right = true → left.text = right.text := by
  intro made first second last
  have hlast : last.Obtained :=
    ⟨0, .tail (.tail (.tail (.single (.perform .evaluator)) (.perform (.run 9 0 _)))
      (.perform (.run 9 0 _))) (.perform (.run 9 0 _))⟩
  obtain ⟨-, -, hlaws, -⟩ := Scene.Obtained.equality_lawful hlast
  refine ⟨hlast, by decide +kernel, by decide +kernel, by decide +kernel, ?_⟩
  exact fun left hleft right hright hequal => ((hlaws left hleft right hright).2 hequal).2

end MiniScheme
