/-
# Registries

A `Registry` holds entries under names.  Setting a name again replaces its
entry, so a name has one entry at most.
-/

namespace SqlFilter

/-- Entries under names. -/
structure Registry (α : Type) where
  entries : List (String × α) := []
  deriving Inhabited

namespace Registry

variable {α : Type}

/-- The entry of a name. -/
def find? (r : Registry α) (name : String) : Option α :=
  r.entries.lookup name

/-- Sets the entry of a name. -/
def insert (r : Registry α) (name : String) (entry : α) : Registry α :=
  ⟨(name, entry) :: r.entries.filter (·.1 != name)⟩

/-- The names that have an entry, in the order of their characters. -/
def names (r : Registry α) : List String :=
  (r.entries.map (·.1)).mergeSort fun a b => decide (a ≤ b)

@[simp] theorem find?_empty (name : String) : (⟨[]⟩ : Registry α).find? name = none := rfl

@[simp] theorem find?_insert_self (r : Registry α) (name : String) (entry : α) :
    (r.insert name entry).find? name = some entry := by
  simp [find?, insert]

theorem lookup_filter_ne {name other : String} (h : other ≠ name) (entries : List (String × α)) :
    (entries.filter (·.1 != name)).lookup other = entries.lookup other := by
  induction entries with
  | nil => rfl
  | cons e es ih =>
    obtain ⟨k, v⟩ := e
    by_cases hk : k = name
    · subst hk
      have : (other == k) = false := by simpa using h
      simp [List.lookup_cons, this, ih]
    · simp [hk, List.lookup_cons, ih]

theorem find?_insert_of_ne (r : Registry α) {name other : String} (h : other ≠ name) (entry : α) :
    (r.insert name entry).find? other = r.find? other := by
  have : (other == name) = false := by simpa using h
  simp [find?, insert, List.lookup_cons, this, lookup_filter_ne h]

end Registry
end SqlFilter
