import MiniScheme.Proofs.Correspondence
import MiniScheme.Store

/-!
# Corresponding stores

Two stores correspond in a world if their environments do, as far as these stand for each other,
and if they have printed lines that differ in formals only.  The world grows as the two stores
do: whatever is made next on one side stands for what is made next on the other, so that it
stays one to one.  What stands for nothing is left alone.

Main results:

- Theorem `Twins.Sound.give`: stores still correspond when new identities are given out.
- Theorem `Twins.Sound.update`: they do after corresponding changes to environments that stand
  for each other.
- Theorem `Twins.Sound.allocate`: they do when each of them gets a new environment.
-/

namespace MiniScheme

/-! ## Numberings -/

/-- A pairing of numbers together with the number on either side that is given out next. -/
structure Numbering where
  pairing : Pairing
  left : Nat
  right : Nat

namespace Numbering

/-- The numbering when some more numbers have been given out on both sides, the first on the left
for the first on the right and so on. -/
def add (numbering : Numbering) (count : Nat) : Numbering where
  pairing a b :=
    numbering.pairing a b ∨ ∃ k < count, a = numbering.left + k ∧ b = numbering.right + k
  left := numbering.left + count
  right := numbering.right + count

/-- Only numbers that have been given out are paired, and they are paired one to one. -/
structure Sound (numbering : Numbering) : Prop where
  lt : ∀ {a b}, numbering.pairing a b → a < numbering.left ∧ b < numbering.right
  eq_iff : ∀ {a b c d}, numbering.pairing a b → numbering.pairing c d → (a = c ↔ b = d)

/-- Some more numbers have been given out. -/
def Grows (before after : Numbering) : Prop :=
  ∃ count, after = before.add count

/-- Every number stands for itself, and it stays so. -/
structure Diagonal (numbering : Numbering) : Prop where
  eq : ∀ {a b}, numbering.pairing a b → a = b
  next : numbering.left = numbering.right

variable {numbering before after : Numbering} {a b : Nat}

/-- No numbers have been added to those that there are. -/
theorem add_zero (numbering : Numbering) : numbering.add 0 = numbering := by
  simp [add]

/-- Numbers may be added in two portions. -/
theorem add_add (numbering : Numbering) (first second : Nat) :
    (numbering.add first).add second = numbering.add (first + second) := by
  have hpairing : ((numbering.add first).add second).pairing =
      (numbering.add (first + second)).pairing := by
    funext a b
    apply propext
    constructor
    · rintro ((hold | ⟨k, hk, ha, hb⟩) | ⟨k, hk, ha, hb⟩)
      · exact .inl hold
      · exact .inr ⟨k, by omega, ha, hb⟩
      · simp only [add] at ha hb
        exact .inr ⟨first + k, by omega, by omega, by omega⟩
    · rintro (hold | ⟨k, hk, ha, hb⟩)
      · exact .inl (.inl hold)
      · rcases Nat.lt_or_ge k first with hfirst | hfirst
        · exact .inl (.inr ⟨k, hfirst, ha, hb⟩)
        · exact .inr ⟨k - first, by omega, by simp only [add]; omega, by simp only [add]; omega⟩
  simp only [add, Numbering.mk.injEq] at hpairing ⊢
  exact ⟨hpairing, Nat.add_assoc .., Nat.add_assoc ..⟩

instance : IsPreorder Numbering Grows where
  refl numbering := ⟨0, numbering.add_zero.symm⟩
  trans := by
    rintro numbering _ _ ⟨first, rfl⟩ ⟨second, rfl⟩
    exact ⟨first + second, numbering.add_add first second⟩

/-- Numbers that are added are given out in addition. -/
theorem grows_add (numbering : Numbering) (count : Nat) : numbering.Grows (numbering.add count) :=
  ⟨count, rfl⟩

/-- Numbers stay paired. -/
theorem Grows.pairing (h : before.Grows after) (hpair : before.pairing a b) :
    after.pairing a b := by
  rcases h with ⟨count, rfl⟩
  exact .inl hpair

/-- Only numbers that had not been given out are newly paired. -/
theorem Grows.pairing_of_lt (h : before.Grows after) (hpair : after.pairing a b)
    (ha : a < before.left) : before.pairing a b := by
  rcases h with ⟨count, rfl⟩
  rcases hpair with hold | ⟨k, -, rfl, -⟩
  · exact hold
  · omega

/-- No number is taken back. -/
theorem Grows.left_le (h : before.Grows after) : before.left ≤ after.left := by
  rcases h with ⟨count, rfl⟩
  exact Nat.le_add_right ..

/-- Numbers that stand for themselves still do when more are given out. -/
theorem Grows.diagonal (h : before.Grows after) (hbefore : before.Diagonal) : after.Diagonal := by
  rcases h with ⟨count, rfl⟩
  have hnext := hbefore.next
  constructor
  · rintro a b (hold | ⟨k, -, rfl, rfl⟩)
    · exact hbefore.eq hold
    · rw [hnext]
  · simp only [add, hnext]

/-- The numbers that are given out next stand for each other. -/
theorem inOrder_add (numbering : Numbering) (count : Nat) :
    (numbering.add count).pairing.InOrder numbering.left numbering.right count :=
  fun k hk => .inr ⟨k, hk, rfl, rfl⟩

/-- It does no harm if more numbers have been given out on the left. -/
theorem Sound.of_left_le {pairing : Pairing} {left left' right : Nat}
    (h : Sound ⟨pairing, left, right⟩) (hle : left ≤ left') : Sound ⟨pairing, left', right⟩ where
  lt hpair := (h.lt hpair).imp_left fun hlt => Nat.lt_of_lt_of_le hlt hle
  eq_iff := h.eq_iff

/-- Numbers are still paired one to one when more are given out in order. -/
theorem Sound.add (h : numbering.Sound) (count : Nat) : (numbering.add count).Sound where
  lt := by
    rintro a b (hold | ⟨k, hk, rfl, rfl⟩)
    · have hlt := h.lt hold
      exact ⟨Nat.lt_add_right count hlt.1, Nat.lt_add_right count hlt.2⟩
    · exact ⟨Nat.add_lt_add_left hk _, Nat.add_lt_add_left hk _⟩
  eq_iff := by
    rintro a b c d (hab | ⟨k, hk, rfl, rfl⟩) (hcd | ⟨l, hl, rfl, rfl⟩)
    · exact h.eq_iff hab hcd
    · have hlt := h.lt hab
      omega
    · have hlt := h.lt hcd
      omega
    · omega

end Numbering

/-! ## Twins -/

/-- Two stores, and the world in which what is in one stands for what is in the other. -/
structure Twins where
  world : World
  left : Store
  right : Store

namespace Twins

/-- The symbols of the two stores. -/
def symbols (twins : Twins) : Numbering :=
  ⟨twins.world.symbols, twins.left.nextSymbol, twins.right.nextSymbol⟩

/-- The cells and functions of the two stores. -/
def objects (twins : Twins) : Numbering :=
  ⟨twins.world.objects, twins.left.nextObject, twins.right.nextObject⟩

/-- The environments of the two stores. -/
def environments (twins : Twins) : Numbering :=
  ⟨twins.world.environments, twins.left.environments.size, twins.right.environments.size⟩

/-- The environments of the two stores hold the same up to what stands for each other. -/
structure Coherent (variation : Variation) (twins : Twins) : Prop where
  symbols : twins.symbols.Sound
  objects : twins.objects.Sound
  environments : twins.environments.Sound
  environment : ∀ {id other}, twins.world.environments id other →
    (twins.left.environment id).Matches variation twins.world (twins.world.scope id)
      (twins.right.environment other)

/-- So do the two stores, which have the same clock if the code may look at it. -/
structure Sound (variation : Variation) (twins : Twins) : Prop extends
    Coherent variation twins where
  printed : List.Forall₂ (TextAlike variation) twins.left.printed.toList
    twins.right.printed.toList
  clock : variation.timed → twins.left.clock = twins.right.clock

/-- More has been made on both sides, and no environment has changed on the left that stood for
none on the right. -/
structure Follows (before after : Twins) : Prop where
  symbols : before.symbols.Grows after.symbols
  objects : before.objects.Grows after.objects
  environments : before.environments.Grows after.environments
  scope : ∀ {id other}, before.world.environments id other →
    after.world.scope id = before.world.scope id
  others : ∀ id < before.left.environments.size, (∀ other, ¬before.world.environments id other) →
    after.left.environment id = before.left.environment id

variable {variation : Variation} {twins before after : Twins}

/-- In coherent twins symbols, objects and environments stand for each other one to one. -/
theorem Coherent.oneToOne (h : twins.Coherent variation) : twins.world.OneToOne where
  symbols := h.symbols.eq_iff
  objects := h.objects.eq_iff
  environments := h.environments.eq_iff

/-- What corresponds still does later. -/
theorem Follows.within (h : before.Follows after) : before.world.Within after.world where
  symbols := h.symbols.pairing
  objects := h.objects.pairing
  environments := h.environments.pairing
  scope := h.scope

instance : IsPreorder Twins Follows where
  refl twins := ⟨refl_of _ twins.symbols, refl_of _ twins.objects, refl_of _ twins.environments,
    fun _ => rfl, fun _ _ _ => rfl⟩
  trans before middle after hfirst hsecond := by
    refine ⟨trans_of _ hfirst.symbols hsecond.symbols, trans_of _ hfirst.objects hsecond.objects,
      trans_of _ hfirst.environments hsecond.environments, fun hpair => ?_, fun id hid hnone => ?_⟩
    · rw [hsecond.scope (hfirst.environments.pairing hpair), hfirst.scope hpair]
    · rw [hsecond.others id (Nat.lt_of_lt_of_le hid hfirst.environments.left_le)]
      · exact hfirst.others id hid hnone
      · exact fun other hpair => hnone other (hfirst.environments.pairing_of_lt hpair hid)

/-- What happens on the left elsewhere does not matter. -/
theorem Coherent.of_left {world : World} {left left' right : Store}
    (h : Coherent variation ⟨world, left, right⟩) (hsymbol : left.nextSymbol ≤ left'.nextSymbol)
    (hobject : left.nextObject ≤ left'.nextObject)
    (hsize : left.environments.size ≤ left'.environments.size)
    (hsame : ∀ {id other}, world.environments id other →
      left'.environment id = left.environment id) :
    Coherent variation ⟨world, left', right⟩ where
  symbols := h.symbols.of_left_le hsymbol
  objects := h.objects.of_left_le hobject
  environments := h.environments.of_left_le hsize
  environment hpair := by
    have hmatches := h.environment hpair
    rwa [← hsame hpair] at hmatches

/-! ## New identities -/

/-- The twins when some symbols and some cells or functions have been made. -/
def give (twins : Twins) (symbols objects : Nat) : Twins where
  world :=
    { twins.world with
      symbols := (twins.symbols.add symbols).pairing
      objects := (twins.objects.add objects).pairing }
  left :=
    { twins.left with
      nextSymbol := twins.left.nextSymbol + symbols
      nextObject := twins.left.nextObject + objects }
  right :=
    { twins.right with
      nextSymbol := twins.right.nextSymbol + symbols
      nextObject := twins.right.nextObject + objects }

/-- Giving out identities makes more on both sides. -/
theorem follows_give (twins : Twins) (symbols objects : Nat) :
    twins.Follows (twins.give symbols objects) where
  symbols := twins.symbols.grows_add symbols
  objects := twins.objects.grows_add objects
  environments := refl_of _ twins.environments
  scope _ := rfl
  others _ _ _ := rfl

/-- Stores are still coherent when new identities are given out. -/
theorem Coherent.give (h : twins.Coherent variation) (symbols objects : Nat) :
    (twins.give symbols objects).Coherent variation where
  symbols := h.symbols.add symbols
  objects := h.objects.add objects
  environments := h.environments
  environment hpair := (h.environment hpair).mono (twins.follows_give symbols objects).within

/-- Stores still correspond when new identities are given out. -/
theorem Sound.give (h : twins.Sound variation) (symbols objects : Nat) :
    (twins.give symbols objects).Sound variation :=
  ⟨h.toCoherent.give symbols objects, h.printed, h.clock⟩

/-! ## Changed environments -/

/-- The twins after a change to an environment on either side. -/
def update (twins : Twins) (id other : EnvironmentId) (change change' : Environment → Environment) :
    Twins where
  world := twins.world
  left := twins.left.update id change
  right := twins.right.update other change'

/-- A change to environments that stand for each other changes no other. -/
theorem follows_update {id other : EnvironmentId} (hpair : twins.world.environments id other)
    (change change' : Environment → Environment) :
    twins.Follows (twins.update id other change change') where
  symbols := refl_of _ twins.symbols
  objects := refl_of _ twins.objects
  environments := ⟨0, by simp [environments, update, Numbering.add_zero]⟩
  scope _ := rfl
  others found _ hnone := by
    apply Store.environment_update_of_ne
    rintro rfl
    exact hnone other hpair

/-- Stores still correspond after corresponding changes to environments that stand for each
other. -/
theorem Sound.update (h : twins.Sound variation) {id other : EnvironmentId}
    (hpair : twins.world.environments id other) {change change' : Environment → Environment}
    (hchange : (change (twins.left.environment id)).Matches variation twins.world
      (twins.world.scope id) (change' (twins.right.environment other))) :
    (twins.update id other change change').Sound variation where
  symbols := h.symbols
  objects := h.objects
  environments := by
    have hsame : (twins.update id other change change').environments = twins.environments := by
      simp [Twins.environments, Twins.update]
    rw [hsame]
    exact h.environments
  environment := by
    intro found found' hfound
    have hlt := h.environments.lt hpair
    by_cases hid : found = id
    · have hother : found' = other := (h.environments.eq_iff hfound hpair).1 hid
      subst hid hother
      simp only [Twins.update]
      rw [Store.environment_update_self _ _ _ hlt.1, Store.environment_update_self _ _ _ hlt.2]
      exact hchange
    · have hother : found' ≠ other := fun heq => hid ((h.environments.eq_iff hfound hpair).2 heq)
      simp only [Twins.update]
      rw [Store.environment_update_of_ne _ _ hid, Store.environment_update_of_ne _ _ hother]
      exact h.environment hfound
  printed := h.printed
  clock := h.clock

/-! ## New environments -/

/-- The twins with a new environment on either side, in which the names of a scope correspond. -/
def allocate (twins : Twins) (scope : Scope) (left right : Environment) : Twins where
  world :=
    { twins.world with
      environments := (twins.environments.add 1).pairing
      scope := fun id =>
        if id = twins.left.environments.size then scope else twins.world.scope id }
  left := ((Store.allocate left).run twins.left).2
  right := ((Store.allocate right).run twins.right).2

/-- The new environments stand for each other. -/
theorem environments_allocate (twins : Twins) (scope : Scope) (left right : Environment) :
    (twins.allocate scope left right).world.environments twins.left.environments.size
      twins.right.environments.size :=
  (twins.environments.inOrder_add 1).head

/-- The new environment has the scope that it was made with. -/
@[simp]
theorem scope_allocate (twins : Twins) (scope : Scope) (left right : Environment) :
    (twins.allocate scope left right).world.scope twins.left.environments.size = scope :=
  if_pos rfl

/-- One environment has been made on either side. -/
theorem environments_allocate_eq (twins : Twins) (scope : Scope) (left right : Environment) :
    (twins.allocate scope left right).environments = twins.environments.add 1 := by
  simp [environments, allocate, Numbering.add]

/-- Making environments changes none that there are. -/
theorem follows_allocate (h : twins.environments.Sound) (scope : Scope)
    (left right : Environment) : twins.Follows (twins.allocate scope left right) where
  symbols := refl_of _ twins.symbols
  objects := refl_of _ twins.objects
  environments := ⟨1, twins.environments_allocate_eq scope left right⟩
  scope hpair := if_neg (Nat.ne_of_lt (h.lt hpair).1)
  others _ hid _ := Store.environment_allocate twins.left left hid

/-- Stores are still coherent when each of them gets a new environment. -/
theorem Coherent.allocate (h : twins.Coherent variation) {scope : Scope}
    {left right : Environment} (hnew : left.Matches variation twins.world scope right) :
    (twins.allocate scope left right).Coherent variation := by
  have hwithin := (follows_allocate h.environments scope left right).within
  refine ⟨h.symbols, h.objects, ?_, ?_⟩
  · rw [environments_allocate_eq]
    exact h.environments.add 1
  · rintro id other (hold | ⟨k, hk, rfl, rfl⟩)
    · have hlt := h.environments.lt hold
      have hkept := (h.environment hold).mono hwithin
      rw [← hwithin.scope hold] at hkept
      simp only [Twins.allocate] at hkept ⊢
      rwa [Store.environment_allocate _ _ hlt.1, Store.environment_allocate _ _ hlt.2]
    · obtain rfl := Nat.lt_one_iff.1 hk
      have hmade := hnew.mono hwithin
      rw [← twins.scope_allocate scope left right] at hmade
      simp only [Twins.allocate, Twins.environments, Nat.add_zero] at hmade ⊢
      rwa [Store.environment_allocate_self, Store.environment_allocate_self]

/-- Stores still correspond when each of them gets a new environment. -/
theorem Sound.allocate (h : twins.Sound variation) {scope : Scope} {left right : Environment}
    (hnew : left.Matches variation twins.world scope right) :
    (twins.allocate scope left right).Sound variation :=
  ⟨h.toCoherent.allocate hnew, h.printed, h.clock⟩

/-! ## Printed lines -/

/-- The twins when a line has been printed on either side. -/
def print (twins : Twins) (line line' : String) : Twins where
  world := twins.world
  left := { twins.left with printed := twins.left.printed.push line }
  right := { twins.right with printed := twins.right.printed.push line' }

/-- Printing makes nothing new and changes no environment. -/
theorem follows_print (twins : Twins) (line line' : String) :
    twins.Follows (twins.print line line') where
  symbols := refl_of _ twins.symbols
  objects := refl_of _ twins.objects
  environments := refl_of _ twins.environments
  scope _ := rfl
  others _ _ _ := rfl

/-- Stores still correspond when lines that are alike have been printed. -/
theorem Sound.print (h : twins.Sound variation) {line line' : String}
    (hline : TextAlike variation line line') : (twins.print line line').Sound variation where
  symbols := h.symbols
  objects := h.objects
  environments := h.environments
  environment := h.environment
  printed := by
    simp only [Twins.print, Array.toList_push]
    exact List.rel_append h.printed (.cons hline .nil)
  clock := h.clock

/-- What has been printed differs in formals only. -/
theorem Sound.output (h : twins.Sound variation) :
    TextAlike variation twins.left.output twins.right.output := by
  apply TextAlike.join
  rw [List.forall₂_map_left_iff, List.forall₂_map_right_iff]
  exact h.printed.imp fun _ _ hline => .append hline (.same _)

/-! ## The clock -/

/-- The twins when the clock has been looked at on either side. -/
def look (twins : Twins) : Twins where
  world := twins.world
  left := { twins.left with clock := twins.left.clock.next }
  right := { twins.right with clock := twins.right.clock.next }

/-- A look at the clock leaves everything else as it is. -/
theorem follows_look (twins : Twins) : twins.Follows twins.look where
  symbols := refl_of _ twins.symbols
  objects := refl_of _ twins.objects
  environments := refl_of _ twins.environments
  scope _ := rfl
  others _ _ _ := rfl

/-- Stores still correspond when the clock of each has been looked at. -/
theorem Sound.look (h : twins.Sound variation) : twins.look.Sound variation where
  symbols := h.symbols
  objects := h.objects
  environments := h.environments
  environment := h.environment
  printed := h.printed
  clock htimed := congrArg Clock.next (h.clock htimed)

end Twins

end MiniScheme
