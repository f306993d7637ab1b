/-
# Errors of count

An error of count names an operator, how many values it takes, and how many there are
(`CompileError.wrongCount`).  It is the fault of an operator and an operand:

| the operator takes | the operand is | there are |
| --- | --- | --- |
| one value | missing | 0 |
| one value | a list of `n` values | `n`, and not 1 |
| one value | a range | as many as it has bounds |
| two bounds | missing, or a pair without bounds | 0 |
| two bounds | one value | 1 |
| two bounds | a list of `n` values | `n`, and not 2 |

In the third line the kind of the operand is what is wrong, and not the number: a range with
one bound is refused by an operator that takes one value.  Nowhere else do the two numbers
agree (`Operator.given_eq_arity_iff`).
-/

import SqlFilter.Proofs.Faults
import SqlFilter.Proofs.Preservation

namespace SqlFilter

/-! ### Operators -/

/-- A range that is open on one side. -/
def Operand.IsHalfOpen : Operand → Prop
  | range start stop => (bound start).isSome ≠ (bound stop).isSome
  | _ => False

instance : ∀ operand : Operand, Decidable operand.IsHalfOpen
  | .range start stop =>
    inferInstanceAs (Decidable ((Operand.bound start).isSome ≠ (Operand.bound stop).isSome))
  | .scalar _ => inferInstanceAs (Decidable False)
  | .list _ => inferInstanceAs (Decidable False)

namespace Operand

/-- A range has one value if it is open on one side. -/
theorem length_values_range_eq_one_iff (start stop : Option Value) :
    (range start stop).values.length = 1 ↔ (range start stop).IsHalfOpen := by
  cases hstart : bound start <;> cases hstop : bound stop <;>
    simp [values, IsHalfOpen, hstart, hstop]

/-- An operand without the one value that is wanted has one value all the same only if it
is a range. -/
theorem length_values_eq_one_iff {operand : Operand} (h : operand.only = none) :
    operand.values.length = 1 ↔ operand.IsHalfOpen := by
  cases operand with
  | scalar v => cases h
  | range start stop => exact length_values_range_eq_one_iff start stop
  | list items =>
    rcases items with _ | ⟨v, _ | ⟨w, items⟩⟩
    · exact iff_of_false (by simp [values]) id
    · cases h
    · exact iff_of_false (by simp [values]) id

end Operand

namespace Operator

/-- The operators that take two values are called so. -/
theorem arity_eq (op : Operator) :
    op.arity = if op.name = "between" ∨ op.name = "notBetween" then 2 else 1 := by
  rcases op with c | ⟨p, negated⟩ | negated
  · cases c <;> rfl
  · cases p <;> cases negated <;> rfl
  · cases negated <;> rfl

/-- A range that is not accepted has no bounds, and no other operand of two values is
refused. -/
theorem given_between_ne_two {negated : Bool} {operand : Option Operand}
    (h : (between negated).accepts operand = false) : (between negated).given operand ≠ 2 := by
  match operand with
  | none => simp [given]
  | some (.scalar v) => simp [given, Operand.values]
  | some (.range start stop) =>
    simp only [accepts, Operand.limits, Option.any_some, Bool.or_eq_false_iff,
      Option.isSome_eq_false_iff, Option.isNone_iff_eq_none] at h
    simp [given, Operand.values, h.1, h.2]
  | some (.list []) => simp [given, Operand.values]
  | some (.list [v]) => simp [given, Operand.values]
  | some (.list [start, stop]) =>
    simp only [accepts, Operand.limits, Option.any_some, Bool.or_eq_false_iff,
      Option.isSome_eq_false_iff, Option.isNone_iff_eq_none] at h
    simp [given, Operand.values, h.1, h.2]
  | some (.list (u :: v :: w :: items)) => simp [given, Operand.values]

/-- **When an error of count gives the same number twice.**  The operator takes one value,
and its operand is a range with one bound. -/
theorem given_eq_arity_iff {op : Operator} {operand : Option Operand}
    (h : op.accepts operand = false) :
    op.given operand = op.arity ↔
      op.arity = 1 ∧ ∃ o, operand = some o ∧ o.IsHalfOpen := by
  have hone : (operand.bind Operand.only).isSome = false →
      (operand.elim 0 (·.values.length) = 1 ↔ 1 = 1 ∧ ∃ o, operand = some o ∧ o.IsHalfOpen) := by
    intro honly
    cases operand with
    | none => simp
    | some o =>
      have ho : o.only = none := by simpa using honly
      simpa using Operand.length_values_eq_one_iff ho
  cases op with
  | compare c => cases operand <;> exact hone h
  | pattern p negated => cases operand <;> exact hone h
  | between negated =>
    exact iff_of_false (given_between_ne_two h) fun harity => absurd harity.1 (show 2 ≠ 1 by decide)

end Operator

/-! ### Filters -/

/-- A leaf that names no configured predicate has no fault of count but that of its
operator. -/
theorem Leaf.operatorFault_of_fault {expr : FieldRef → Option String} {config : Config}
    {leaf : Leaf} (hp : leaf.usesPredicate config = false) {operator : String}
    {expected actual : Nat}
    (h : leaf.fault expr config = some (.wrongCount operator expected actual)) :
    leaf.operatorFault config = some (.wrongCount operator expected actual) := by
  rw [fault] at h
  split at h
  · cases h
  · rw [Option.or_eq_some_iff, Option.or_eq_some_iff, Option.or_eq_some_iff] at h
    obtain hw | ⟨-, hc | ⟨-, hpredicate | ⟨-, ho⟩⟩⟩ := h
    · rw [whitelistFault] at hw
      split at hw <;> cases hw
    · obtain ⟨ref, -, hcast⟩ := Option.bind_eq_some_iff.1 hc
      obtain ⟨type, -, htype⟩ := Option.map_eq_some_iff.1 hcast
      cases htype
    · obtain ⟨name, hname, hwrap⟩ := Option.bind_eq_some_iff.1 hpredicate
      rw [usesPredicate, hname, Option.bind_some, Option.isSome_eq_false_iff,
        Option.isNone_iff_eq_none] at hp
      rw [hp] at hwrap
      cases hwrap
    · exact ho

variable {σ : Type}

/-- **Errors of count are truthful**, but for ranges with one bound.  Let a filter run no
configured operation and name no configured predicate, and let it fail because of a count.
Then the error is about a leaf of the filter: it names the built-in operator of this leaf,
expects two values of a range operator and one of every other, and gives the number of values
that the leaf's operand has for its operator.  The two numbers differ, unless the operator
takes one value and the operand is a range that is open on one side. -/
theorem compile_counts_truthfully (d : Dialect σ) (config : Config) (node : Node)
    (hn : ∀ leaf ∈ node.leaves,
      leaf.runsOperation config = false ∧ leaf.usesPredicate config = false)
    (s : σ) {operator : String} {expected actual : Nat}
    (h : (compile d config node s).1 = .error (.wrongCount operator expected actual)) :
    ∃ leaf ∈ node.leaves, ∃ op, Operator.ofName? leaf.operator = some op ∧
      op.name = operator ∧
      expected = (if operator = "between" ∨ operator = "notBetween" then 2 else 1) ∧
      actual = op.given (leaf.effectiveOperand config) ∧
      (actual = expected ↔
        expected = 1 ∧ ∃ o, leaf.effectiveOperand config = some o ∧ o.IsHalfOpen) := by
  have hall : bindAll d config node.leaves (d.reset s) =
      (.error (.wrongCount operator expected actual), (compile d config node s).2) :=
    (compile_eq_error_iff d config).1 (Prod.ext h rfl)
  obtain ⟨before, leaf, after, -, t, hleaves, -, hrun⟩ := exists_of_bindAll_eq_error hall
  have hleaf : leaf ∈ node.leaves := by simp [hleaves]
  have hfault := leaf.failure?_run (hn leaf hleaf).1 (d := d) t
  rw [hrun] at hfault
  have hoperator := Leaf.operatorFault_of_fault (hn leaf hleaf).2 hfault.symm
  rw [Leaf.operatorFault] at hoperator
  split at hoperator
  · cases hoperator
  · cases hop : Operator.ofName? leaf.operator with
    | none => simp [hop] at hoperator
    | some op =>
      simp only [hop] at hoperator
      split at hoperator
      · cases hoperator
      · rename_i haccepts
        obtain ⟨rfl, rfl, rfl⟩ := CompileError.wrongCount.inj (Option.some.inj hoperator)
        exact ⟨leaf, hleaf, op, hop, rfl, op.arity_eq, rfl,
          Operator.given_eq_arity_iff (by simpa using haccepts)⟩

/-- A configuration with a list of three values. -/
def threeIds : Config := { aliases := ⟨[("ids", .list [.int 1, .int 2, .int 3])]⟩ }

/-- The values of the list are counted, and not the bound that the leaf has of its own. -/
theorem compile_counts_truthfully_alias :
    ∃ actual, (compile mysql threeIds (.group .or
        [.leaf { field := "a", operator := "less", operand := some (.scalar (.int 1)) },
          .leaf { field := "b", operator := "endsWith", aliasName := some "ids",
                  operand := some (.range (some (.int 4)) none) }]) ()).1 =
        .error (.wrongCount "endsWith" 1 actual) ∧ actual ≠ 1 := by
  have herror : (compile mysql threeIds (.group .or
      [.leaf { field := "a", operator := "less", operand := some (.scalar (.int 1)) },
        .leaf { field := "b", operator := "endsWith", aliasName := some "ids",
                operand := some (.range (some (.int 4)) none) }]) ()).1 =
      .error (.wrongCount "endsWith" 1 3) := by rfl
  obtain ⟨leaf, hleaf, op, -, hname, -, hgiven, hsame⟩ :=
    compile_counts_truthfully mysql threeIds _ (by decide) () herror
  refine ⟨3, herror, fun h => ?_⟩
  obtain ⟨-, o, ho, hopen⟩ := hsame.1 h
  rcases List.mem_cons.1 hleaf with rfl | hleaf
  · cases ho
    exact hopen
  · obtain rfl := List.mem_singleton.1 hleaf
    cases ho
    exact hopen

/-- **A range with one bound is refused for its kind, and not for its number.**  An operator
that takes one value says that it expected one value and got one. -/
theorem half_open_range_counts_one :
    (compile postgres {} (.leaf
        { field := "a", operator := "equal", operand := some (.range (some (.int 1)) none) }) 0).1 =
        .error (.wrongCount "equal" 1 1) ∧
      (CompileError.wrongCount "equal" 1 1).message =
        "wrong number of parameters for equal operation: expected 1, got 1" :=
  ⟨rfl, by decide⟩

end SqlFilter
