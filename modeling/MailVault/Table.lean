/-!
# Finite tables

A table holds at most one value for each key and remembers the order in which
the keys were first stored.  Storing under a key that is present replaces the
value in its place.
-/

namespace MailVault

/-- Keys with their values, in the order of first storing. -/
structure Table (α β : Type) where
  entries : List (α × β) := []

namespace Table

variable {α β : Type}

def empty : Table α β where

instance : Inhabited (Table α β) := ⟨empty⟩

def size (table : Table α β) : Nat :=
  table.entries.length

/-- The keys in the order of first storing. -/
def keys (table : Table α β) : List α :=
  table.entries.map Prod.fst

def map {γ : Type} (change : β → γ) (table : Table α β) : Table α γ where
  entries := table.entries.map fun entry => (entry.1, change entry.2)

variable [DecidableEq α]

/-- The value under a key in a list of entries: the first one counts. -/
def findIn (key : α) : List (α × β) → Option β
  | [] => none
  | (other, value) :: rest => if other = key then some value else findIn key rest

/-- The entries after a value is stored under a key. -/
def storeIn (key : α) (value : β) : List (α × β) → List (α × β)
  | [] => [(key, value)]
  | (other, old) :: rest =>
    if other = key then (key, value) :: rest else (other, old) :: storeIn key value rest

def find? (table : Table α β) (key : α) : Option β :=
  findIn key table.entries

def insert (table : Table α β) (key : α) (value : β) : Table α β where
  entries := storeIn key value table.entries

def erase (table : Table α β) (key : α) : Table α β where
  entries := table.entries.filter fun entry => decide (entry.1 ≠ key)

def contains (table : Table α β) (key : α) : Bool :=
  (table.find? key).isSome

/-- Change the value under a key, if the key is present. -/
def modify (table : Table α β) (key : α) (change : β → β) : Table α β :=
  match table.find? key with
  | none => table
  | some value => table.insert key (change value)

theorem findIn_storeIn (key other : α) (value : β) (entries : List (α × β)) :
    findIn other (storeIn key value entries) =
      if other = key then some value else findIn other entries := by
  induction entries with
  | nil =>
    by_cases same : other = key
    · simp [storeIn, findIn, same]
    · have different : ¬ key = other := fun equal => same equal.symm
      simp [storeIn, findIn, same, different]
  | cons entry rest inductionStep =>
    obtain ⟨first, old⟩ := entry
    by_cases here : first = key
    · subst here
      by_cases same : other = first
      · simp [storeIn, findIn, same]
      · have different : ¬ first = other := fun equal => same equal.symm
        simp [storeIn, findIn, same, different]
    · by_cases found : first = other
      · subst found
        simp [storeIn, findIn, here]
      · simp [storeIn, findIn, here, found, inductionStep]

/-- A look-up after storing sees the new value under its key and the old ones elsewhere. -/
@[simp] theorem find?_insert (table : Table α β) (key other : α) (value : β) :
    (table.insert key value).find? other =
      if other = key then some value else table.find? other :=
  findIn_storeIn key other value table.entries

theorem mem_of_find? {table : Table α β} {key : α} {value : β}
    (found : table.find? key = some value) : (key, value) ∈ table.entries := by
  obtain ⟨entries⟩ := table
  simp only [find?] at found ⊢
  induction entries with
  | nil => cases found
  | cons entry rest inductionStep =>
    obtain ⟨first, old⟩ := entry
    rw [findIn] at found
    by_cases here : first = key
    · rw [if_pos here] at found
      rw [here, Option.some.inj found]
      exact List.mem_cons_self
    · rw [if_neg here] at found
      exact List.mem_cons_of_mem _ (inductionStep found)

@[simp] theorem find?_map {γ : Type} (change : β → γ) (table : Table α β) (key : α) :
    (table.map change).find? key = (table.find? key).map change := by
  obtain ⟨entries⟩ := table
  simp only [find?, map]
  induction entries with
  | nil => rfl
  | cons entry rest inductionStep =>
    obtain ⟨first, value⟩ := entry
    by_cases here : first = key
    · simp [findIn, here]
    · simp [findIn, here, inductionStep]

/-- Storing a changed value among changed values is storing it before the change. -/
theorem insert_map {γ : Type} (change : β → γ) (table : Table α β) (key : α) (value : β) :
    (table.map change).insert key (change value) = (table.insert key value).map change := by
  obtain ⟨entries⟩ := table
  simp only [insert, map, mk.injEq]
  induction entries with
  | nil => rfl
  | cons entry rest inductionStep =>
    obtain ⟨first, old⟩ := entry
    by_cases here : first = key
    · simp [storeIn, here]
    · simp [storeIn, here, inductionStep]

/-- Storing under a key that is present does not interfere with storing under another key. -/
theorem insert_comm {table : Table α β} {key other : α} (different : key ≠ other)
    (present : (table.find? key).isSome) (value another : β) :
    (table.insert key value).insert other another =
      (table.insert other another).insert key value := by
  obtain ⟨entries⟩ := table
  simp only [insert, mk.injEq]
  simp only [find?] at present
  induction entries with
  | nil => cases present
  | cons entry rest inductionStep =>
    obtain ⟨first, old⟩ := entry
    by_cases here : first = key
    · simp [storeIn, here, different]
    · by_cases there : first = other
      · simp [storeIn, there, Ne.symm different]
      · rw [findIn, if_neg here] at present
        simp [storeIn, here, there, inductionStep present]

theorem find?_insert_cases {table : Table α β} {key other : α} {value found : β}
    (here : (table.insert key value).find? other = some found) :
    (other = key ∧ found = value) ∨ (other ≠ key ∧ table.find? other = some found) := by
  rw [find?_insert] at here
  by_cases same : other = key
  · rw [if_pos same] at here
    exact Or.inl ⟨same, (Option.some.inj here).symm⟩
  · rw [if_neg same] at here
    exact Or.inr ⟨same, here⟩

end Table
end MailVault
