/-!
# Tables from names

A table maps names to entries.  A later entry for a name hides the earlier ones, and tables
that are extended in different ways share what they have in common.

Main results:

- Theorem `get?_insert`: an inserted entry is found under its name, and every other name keeps
  its entry.
-/

namespace MiniScheme

/-- A table from names to entries. -/
structure Table (α : Type) where
  /-- The entries, the latest first. -/
  entries : List (String × α)

namespace Table

variable {α : Type}

/-- The table without entries. -/
def empty : Table α :=
  ⟨[]⟩

/-- The entry for a name, if there is one. -/
def get? (table : Table α) (name : String) : Option α :=
  table.entries.lookup name

/-- The table with an entry for a name in place of the one it had. -/
def insert (table : Table α) (name : String) (entry : α) : Table α :=
  ⟨(name, entry) :: table.entries⟩

/-- The table with several entries, inserted in order. -/
def insertAll (table : Table α) (entries : List (String × α)) : Table α :=
  entries.foldl (fun table (name, entry) => table.insert name entry) table

/-- Nothing is in an empty table. -/
@[simp]
theorem get?_empty (name : String) : (empty : Table α).get? name = none :=
  rfl

/-- An inserted entry is found under its name, and every other name keeps its entry. -/
theorem get?_insert (table : Table α) (name other : String) (entry : α) :
    (table.insert name entry).get? other = if other = name then some entry else table.get? other := by
  simp only [get?, insert, List.lookup_cons]
  split <;> simp_all

/-- What is inserted under a name is found there. -/
@[simp]
theorem get?_insert_self (table : Table α) (name : String) (entry : α) :
    (table.insert name entry).get? name = some entry := by
  simp [get?_insert]

/-- Under any other name there is what was there before. -/
theorem get?_insert_of_ne (table : Table α) {name other : String} (entry : α)
    (h : other ≠ name) : (table.insert name entry).get? other = table.get? other := by
  simp [get?_insert, h]

/-- Inserting entries one by one hides what was there only behind what is inserted. -/
theorem get?_insertAll_eq_some {table : Table α} {entries : List (String × α)} {name : String}
    {entry : α} (h : (table.insertAll entries).get? name = some entry) :
    (name, entry) ∈ entries ∨ table.get? name = some entry := by
  induction entries generalizing table with
  | nil => exact .inr h
  | cons first rest ih =>
    rcases ih h with hrest | htable
    · exact .inl (List.mem_cons_of_mem first hrest)
    · rw [get?_insert] at htable
      split at htable
      next hname =>
        cases htable
        exact .inl (hname ▸ List.mem_cons_self)
      next => exact .inr htable

/-- A name has an entry if it had one before or one is inserted for it. -/
theorem isSome_get?_insertAll (table : Table α) (entries : List (String × α)) (name : String)
    (h : name ∈ entries.map Prod.fst ∨ (table.get? name).isSome) :
    ((table.insertAll entries).get? name).isSome := by
  induction entries generalizing table with
  | nil => simpa [insertAll] using h
  | cons first rest ih =>
    apply ih (table.insert first.1 first.2)
    rw [get?_insert]
    by_cases hname : name = first.1
    · simp [hname]
    · simpa [hname] using h

end Table

end MiniScheme
