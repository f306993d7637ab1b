/-
# Whitelists

A whitelist decides which fields a filter may name.  It looks at the field as
the filter writes it, before anything is resolved.  Two rules may admit a
field: a list of names, and a test.  A whitelist without either rule admits
every field; an empty list is a rule, and admits nothing by itself.
-/

namespace SqlFilter

/-- Which fields a filter may name. -/
structure Whitelist where
  /-- The names admitted one by one. -/
  fields : Option (List String) := none
  /-- The test that admits fields by their text. -/
  test : Option (String → Bool) := none
  deriving Inhabited

namespace Whitelist

/-- Whether any rule is set. -/
def hasRule (w : Whitelist) : Bool :=
  w.fields.isSome || w.test.isSome

/-- Whether a field may be named. -/
def admits (w : Whitelist) (field : String) : Bool :=
  !w.hasRule || w.fields.any (·.contains field) || w.test.any (· field)

/-- Admits more names, also when there are none to add: the list is a rule from
then on. -/
def addNames (w : Whitelist) (names : List String) : Whitelist :=
  { w with fields := some (names.foldl (·.insert ·) (w.fields.getD [])) }

/-- Sets the test, in place of an earlier one. -/
def setTest (w : Whitelist) (test : String → Bool) : Whitelist :=
  { w with test := some test }

theorem admits_iff {w : Whitelist} {field : String} :
    w.admits field = true ↔
      w.hasRule = false ∨ (∃ names, w.fields = some names ∧ field ∈ names) ∨
        ∃ test, w.test = some test ∧ test field = true := by
  simp [admits, or_assoc, Option.any_eq_true]

theorem mem_foldl_insert {names fields : List String} {field : String} :
    field ∈ names.foldl (·.insert ·) fields ↔ field ∈ fields ∨ field ∈ names := by
  induction names generalizing fields with
  | nil => simp
  | cons name names ih =>
    rw [List.foldl_cons, ih, List.mem_insert_iff, List.mem_cons, or_comm (a := field = name),
      or_assoc]

/-- **Adding names admits them** and keeps what was in the list before. -/
theorem mem_fields_addNames {w : Whitelist} {names all : List String} {field : String}
    (h : (w.addNames names).fields = some all) :
    field ∈ all ↔ field ∈ w.fields.getD [] ∨ field ∈ names := by
  obtain rfl := Option.some.inj h
  exact mem_foldl_insert

end Whitelist
end SqlFilter
