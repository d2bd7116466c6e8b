/-!
# Tables

A table maps names to values, each name at most once. Inserting replaces the value of a
name that is already present and keeps its place; a new name goes to the end.
-/
namespace ScriptCore

structure Table (α : Type) where
  entries : List (String × α)

namespace Table

variable {α : Type}

def empty : Table α := ⟨[]⟩

instance : Inhabited (Table α) := ⟨empty⟩

def lookup : List (String × α) → String → Option α
  | [], _ => none
  | (key, value) :: rest, name => if key = name then some value else lookup rest name

def replace : List (String × α) → String → α → List (String × α)
  | [], name, new => [(name, new)]
  | (key, value) :: rest, name, new =>
    if key = name then (key, new) :: rest else (key, value) :: replace rest name new

/-- The value stored under `name`. -/
def get? (table : Table α) (name : String) : Option α := lookup table.entries name

def contains (table : Table α) (name : String) : Bool := (table.get? name).isSome

def insert (table : Table α) (name : String) (value : α) : Table α :=
  ⟨replace table.entries name value⟩

def names (table : Table α) : List String := table.entries.map Prod.fst

@[simp] theorem get?_empty (name : String) : (empty : Table α).get? name = none := rfl

theorem lookup_replace (entries : List (String × α)) (name other : String) (value : α) :
    lookup (replace entries name value) other =
      if name = other then some value else lookup entries other := by
  induction entries with
  | nil => simp [replace, lookup]
  | cons entry rest ih =>
    obtain ⟨key, old⟩ := entry
    by_cases hk : key = name
    · subst hk
      by_cases ho : key = other <;> simp [replace, lookup, ho]
    · by_cases ho : key = other
      · subst ho
        simp [replace, lookup, hk, Ne.symm hk]
      · simp [replace, lookup, hk, ho, ih]

theorem get?_insert (table : Table α) (name other : String) (value : α) :
    (table.insert name value).get? other =
      if name = other then some value else table.get? other :=
  lookup_replace table.entries name other value

@[simp] theorem get?_insert_self (table : Table α) (name : String) (value : α) :
    (table.insert name value).get? name = some value := by
  simp [get?_insert]

theorem get?_insert_of_ne (table : Table α) {name other : String} (value : α)
    (h : name ≠ other) : (table.insert name value).get? other = table.get? other := by
  simp [get?_insert, h]

/-- Whatever is stored in a table is among its entries. -/
theorem mem_of_get? {table : Table α} {name : String} {value : α}
    (found : table.get? name = some value) : (name, value) ∈ table.entries := by
  obtain ⟨entries⟩ := table
  change lookup entries name = some value at found
  induction entries with
  | nil => cases found
  | cons entry rest ih =>
    obtain ⟨key, old⟩ := entry
    rw [lookup] at found
    split at found
    · rename_i same
      cases found
      exact same ▸ List.mem_cons_self
    · exact List.mem_cons_of_mem _ (ih found)

end Table

end ScriptCore
