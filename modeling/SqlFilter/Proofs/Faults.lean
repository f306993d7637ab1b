/-
# What is wrong with a filter

A leaf can be wrong in four ways, and each of them is a matter of its own
(`Leaf.whitelistFault` to `Leaf.operatorFault`).  If several apply, the first one in this
order is reported (`Leaf.fault`):

| of a leaf with a field | fault |
| --- | --- |
| the whitelist rejects the field | `fieldRejected` |
| a reference that the dialect rewrites has a type that is no plain identifier | `invalidCastType` |
| the predicate is not configured, or refuses the field's expression | `unknownPredicate`, or its own |
| the operator does not accept the operand, or is not known | `wrongCount`, `unknownOperator` |

The operator is looked at only if there are no membership values and it is not empty.  A
leaf without a field has no fault.

A filter that runs no configured operation fails if one of its leaves has a fault, and with
the fault of the first of these (`Node.failure?_compile`).  So it fails as this leaf does on
its own (`compile_fails_first`): the groups around it, the leaves behind it and those that
ask for nothing have no part in that.
-/

import SqlFilter.Proofs.Leaves
import SqlFilter.Proofs.Meaning

namespace SqlFilter

variable {σ α β : Type}

/-! ### Failures -/

/-- The error of what fails. -/
def failure? : Except CompileError α → Option CompileError
  | .error e => some e
  | .ok _ => none

@[simp] theorem failure?_error (e : CompileError) :
    failure? (.error e : Except CompileError α) = some e := rfl

@[simp] theorem failure?_ok (a : α) : failure? (.ok a) = none := rfl

@[simp] theorem failure?_map (f : α → β) (x : Except CompileError α) :
    failure? (x.map f) = failure? x := by
  cases x <;> rfl

theorem failure?_eq_some_iff {x : Except CompileError α} {e : CompileError} :
    failure? x = some e ↔ x = .error e := by
  cases x <;> simp

theorem failure?_eq_none_iff {x : Except CompileError α} : failure? x = none ↔ ∃ a, x = .ok a := by
  cases x <;> simp

/-- One step after the other fails as the first step does, or else as the second one. -/
theorem failure?_bind {x : Except CompileError α} {f : α → Except CompileError β}
    {first second : Option CompileError} (hx : failure? x = first)
    (hf : ∀ a, x = .ok a → failure? (f a) = second) : failure? (x.bind f) = first.or second := by
  subst hx
  cases x with
  | error e => rfl
  | ok a => exact hf a rfl

/-! ### Operands -/

namespace Operator

/-- Whether an operator can work with an operand: a range needs a bound, and every other
operator one value. -/
def accepts (op : Operator) (operand : Option Operand) : Bool :=
  match op with
  | between _ => operand.any fun o => o.limits.1.isSome || o.limits.2.isSome
  | _ => (operand.bind Operand.only).isSome

/-- How many values an operand gives to an operator.  For a range, a list of two values is
a pair of bounds, in which `NULL` does not count. -/
def given (op : Operator) : Option Operand → Nat
  | none => 0
  | some operand =>
    match op, operand with
    | between _, .list [start, stop] => (Operand.range (some start) (some stop)).values.length
    | _, operand => operand.values.length

/-- What an operand gives instead of bounds. -/
theorem condition?_between_eq (negated : Bool) (operand : Option Operand) :
    (between negated).condition? operand =
      (operand.bind fun o => Condition.ofBounds negated o.limits.1 o.limits.2).elim
        (.error ((between negated).given operand)) .ok := by
  match operand with
  | none => rfl
  | some (.scalar v) => rfl
  | some (.range start stop) =>
    rw [condition?_between rfl]
    cases hstart : Operand.bound start <;> cases hstop : Operand.bound stop <;>
      simp [Operand.limits, Condition.ofBounds, given, Operand.values, hstart, hstop]
  | some (.list []) => rfl
  | some (.list [v]) => rfl
  | some (.list [start, stop]) =>
    rw [condition?_between rfl]
    cases hstart : Operand.bound (some start) <;> cases hstop : Operand.bound (some stop) <;>
      simp [Operand.limits, Condition.ofBounds, given, Operand.values, hstart, hstop]
  | some (.list (u :: v :: w :: items)) => rfl

/-- An operator of one value fails on an operand without one, or with several. -/
theorem failure?_oneValue (operand : Option Operand) (f : Value → Condition) (name : String)
    (arity : Nat) :
    failure? (((oneValue operand).map f).mapError (.wrongCount name arity)) =
      if (operand.bind Operand.only).isSome then none
      else some (.wrongCount name arity (operand.elim 0 (·.values.length))) := by
  rw [oneValue_eq]
  cases operand.bind Operand.only <;> rfl

/-- **When an operator fails**: it does not accept its operand, and says how many values it
takes and how many there are. -/
theorem failure?_condition (op : Operator) (operand : Option Operand) :
    failure? (op.condition operand) =
      if op.accepts operand then none
      else some (.wrongCount op.name op.arity (op.given operand)) := by
  cases op with
  | compare c =>
    have h := failure?_oneValue operand (.compare c) (compare c).name 1
    cases operand <;> exact h
  | pattern p negated =>
    have h := failure?_oneValue operand (.pattern p negated) (pattern p negated).name 1
    cases operand <;> exact h
  | between negated =>
    rw [condition, condition?_between_eq, accepts]
    generalize (between negated).given operand = count
    cases operand with
    | none => rfl
    | some o =>
      show failure? (Except.mapError _ ((Condition.ofBounds negated o.limits.1 o.limits.2).elim
        (.error count) .ok)) = if (o.limits.1.isSome || o.limits.2.isSome) = true then none else _
      cases o.limits.1 <;> cases o.limits.2 <;> rfl

end Operator

/-! ### Leaves -/

namespace Leaf

section

variable (expr : FieldRef → Option String) (config : Config) (leaf : Leaf)

/-- The whitelist rejects the field. -/
def whitelistFault : Option CompileError :=
  if config.whitelist.admits leaf.field then none else some (.fieldRejected leaf.field)

/-- The field is a reference that `expr` rewrites, and its type is no plain identifier. -/
def castFault : Option CompileError :=
  ((FieldRef.parse leaf.field).filter fun ref => (expr ref).isSome).bind fun ref =>
    (ref.type.filter (!Identifier.isPlain ·)).map (.invalidCastType leaf.field)

/-- The field as `expr` writes it. -/
def spelling : String :=
  ((FieldRef.parse leaf.field).bind expr).getD leaf.field

/-- The predicate is not configured, or refuses the field. -/
def predicateFault : Option CompileError :=
  leaf.predicate.bind fun name =>
    match config.predicates.find? name with
    | none => some (.unknownPredicate name)
    | some wrapper => failure? (wrapper (leaf.spelling expr) name)

/-- The operator does not accept the operand, or is not known. -/
def operatorFault : Option CompileError :=
  if leaf.members ≠ [] ∨ leaf.operator = "" then none
  else
    match Operator.ofName? leaf.operator with
    | none => some (.unknownOperator leaf.operator)
    | some op =>
      if op.accepts (leaf.effectiveOperand config) then none
      else some (.wrongCount op.name op.arity (op.given (leaf.effectiveOperand config)))

/-- The first fault of a leaf. -/
def fault : Option CompileError :=
  if leaf.field = "" then none
  else
    (leaf.whitelistFault config).or <| (leaf.castFault expr).or <|
      (leaf.predicateFault expr config).or <| leaf.operatorFault config

end

/-! ### Plans -/

variable {d : Dialect σ} {config : Config} {leaf : Leaf}

/-- Resolving a field fails with the fault of its type, and otherwise spells the field. -/
theorem resolve_spelling (d : Dialect σ) (s : σ) (leaf : Leaf) :
    failure? (d.resolve s leaf.field) = leaf.castFault (d.jsonExpr s) ∧
      ∀ field, d.resolve s leaf.field = .ok field → field.sql = leaf.spelling (d.jsonExpr s) := by
  rw [Dialect.resolve, castFault, spelling]
  cases FieldRef.parse leaf.field with
  | none => exact ⟨rfl, fun field h => by rw [← Except.ok.inj h]; rfl⟩
  | some ref =>
    cases hexpr : d.jsonExpr s ref with
    | none =>
      simp only [hexpr]
      refine ⟨by simp [Option.filter, hexpr], fun field h => by rw [← Except.ok.inj h]; simp [hexpr]⟩
    | some sql =>
      cases htype : ref.type with
      | none =>
        simp only [hexpr, htype]
        refine ⟨by simp [Option.filter, hexpr, htype], fun field h => by rw [← Except.ok.inj h]; simp [hexpr]⟩
      | some type =>
        simp only [hexpr, htype]
        by_cases hplain : Identifier.isPlain type = true
        · rw [if_pos hplain]
          refine ⟨by simp [Option.filter, hexpr, htype, hplain],
            fun field h => by rw [← Except.ok.inj h]; simp [hexpr]⟩
        · rw [if_neg hplain]
          refine ⟨by simp [Option.filter, hexpr, htype, hplain], fun field h => by cases h⟩

/-- A predicate fails on the field as it is spelled. -/
theorem failure?_wrap (config : Config) {expr : FieldRef → Option String} {field : FieldExpr}
    (h : field.sql = leaf.spelling expr) :
    failure? (wrap config leaf.predicate field) = leaf.predicateFault expr config := by
  unfold wrap
  rw [predicateFault, ← h]
  cases leaf.predicate with
  | none => rfl
  | some name =>
    simp only [Option.bind_some]
    cases config.predicates.find? name with
    | none => rfl
    | some wrapper =>
      simp only
      cases wrapper field.sql name <;> rfl

/-- What a leaf asks of its field fails with the fault of its operator. -/
theorem failure?_request (hl : leaf.runsOperation config = false) (hf : leaf.field ≠ "")
    (field : FieldExpr) : failure? (leaf.request config field) = leaf.operatorFault config := by
  rw [request, operatorFault]
  by_cases hm : leaf.members = []
  · by_cases ho : leaf.operator = ""
    · rw [if_neg (by simp [hm]), if_pos (by simpa using ho), if_pos (.inr ho)]
      rfl
    · rw [if_neg (by simp [hm]), if_neg (by simpa using ho), if_neg (by simp [hm, ho]),
        planOperator]
      cases hop : Operator.ofName? leaf.operator with
      | some op =>
        simp only
        rw [← op.failure?_condition]
        exact failure?_map (Plan.condition field) (op.condition (leaf.effectiveOperand config))
      | none =>
        have hnone : config.operations.find? leaf.operator = none := by
          simpa [runsOperation, hf, hm, ho, hop] using hl
        simp only [hnone]
        rfl
  · rw [if_pos (by simpa using hm), if_pos (.inl hm)]
    rfl

/-- **A leaf cannot be planned because of its first fault.** -/
theorem failure?_plan (hl : leaf.runsOperation config = false) (s : σ) :
    failure? (leaf.plan (d.resolve s) config) = leaf.fault (d.jsonExpr s) config := by
  rw [plan_eq, fault, whitelistFault]
  by_cases hf : leaf.field = ""
  · rw [if_pos (by simpa using hf), if_pos hf]
    rfl
  · rw [if_neg (by simpa using hf), if_neg hf]
    by_cases hw : config.whitelist.admits leaf.field = true
    · rw [if_neg (by simp [hw]), if_pos hw, Option.none_or]
      obtain ⟨hcast, hspelling⟩ := resolve_spelling d s leaf
      have hexpression := failure?_bind hcast
        fun field hfield => failure?_wrap config (hspelling field hfield)
      rw [← Option.or_assoc]
      exact failure?_bind hexpression fun field _ => failure?_request hl hf field
    · rw [if_pos (by simp [hw]), if_neg hw]
      rfl

/-- A leaf changes the state by drawing placeholders, and not at all if it cannot be
planned. -/
theorem exists_run_snd_eq_after (d : Dialect σ) (config : Config) (leaf : Leaf) (s : σ) :
    ∃ k, ((leaf.compile d config).run s).2 = d.after k s := by
  rw [run_compile]
  cases leaf.plan (d.resolve s) config with
  | error e => exact ⟨0, rfl⟩
  | ok plan =>
    cases plan with
    | nothing => exact ⟨0, rfl⟩
    | condition field c => exact ⟨_, Drawing.run_snd d (c.write d s field) s⟩
    | custom operator drawing =>
      simp only [Plan.run_write_custom]
      exact ⟨_, Drawing.run_snd d drawing s⟩

/-- **A leaf fails because of its first fault.** -/
theorem failure?_run (hl : leaf.runsOperation config = false) (s : σ) :
    failure? ((leaf.compile d config).run s).1 = leaf.fault (d.jsonExpr s) config := by
  rw [← failure?_plan hl, ← failure?_map Plan.values, ← binds, ← leaf.values_run_compile hl,
    failure?_map]

end Leaf

/-! ### Filters -/

/-- **The first fault of leaves.**  The placeholders that are drawn on the way to it do not
matter to what is wrong with a leaf. -/
theorem failure?_bindAll {d : Dialect σ} (hd : d.Steady) {config : Config} {leaves : List Leaf}
    (hn : ∀ leaf ∈ leaves, leaf.runsOperation config = false) (s : σ) :
    failure? (bindAll d config leaves s).1 =
      leaves.findSome? fun leaf => leaf.fault (d.jsonExpr s) config := by
  induction leaves generalizing s with
  | nil => rfl
  | cons leaf leaves ih =>
    have hleaf : failure? ((leaf.compile d config).run s).1 = _ :=
      leaf.failure?_run (hn leaf (List.mem_cons_self ..)) s
    obtain ⟨k, hk⟩ := leaf.exists_run_snd_eq_after d config s
    have hexpr : d.jsonExpr (d.after k s) = d.jsonExpr s := hd.jsonExpr_after k s
    rw [bindAll, List.findSome?_cons, ← hleaf]
    rcases hrun : (leaf.compile d config).run s with ⟨e | c, t⟩
    · rfl
    · rw [hrun] at hk
      obtain rfl : t = d.after k s := hk
      rw [← hexpr, ← ih (fun l hl => hn l (List.mem_cons_of_mem _ hl)) (d.after k s)]
      simp

section

variable {d : Dialect σ} (hd : d.Steady) (config : Config)
include hd

/-- **A filter fails because of the first fault of its leaves.** -/
theorem Node.failure?_compile (node : Node)
    (hn : ∀ leaf ∈ node.leaves, leaf.runsOperation config = false) (s : σ) :
    failure? (SqlFilter.compile d config node s).1 =
      node.leaves.findSome? fun leaf => leaf.fault (d.jsonExpr (d.reset s)) config := by
  rw [← failure?_bindAll hd hn, ← values_compile, failure?_map]

/-- A leaf that stands alone fails because of its own fault. -/
theorem Leaf.failure?_compile (leaf : Leaf) (hl : leaf.runsOperation config = false) (s : σ) :
    failure? (SqlFilter.compile d config (.leaf leaf) s).1 =
      leaf.fault (d.jsonExpr (d.reset s)) config := by
  rw [Node.failure?_compile hd config _ fun l h => by rwa [List.mem_singleton.1 h]]
  show [leaf].findSome? _ = _
  cases hfault : leaf.fault (d.jsonExpr (d.reset s)) config <;> simp [hfault]

/-- **The first leaf that fails decides.**  Let no leaf of a filter be left to a configured
operation.  The filter fails if and only if one of its leaves does where it stands alone,
and with the error of the first leaf that does; and what is reported of a leaf that stands
alone is its first fault. -/
theorem compile_fails_first (node : Node)
    (hn : ∀ leaf ∈ node.leaves, leaf.runsOperation config = false) (s : σ) :
    ((∃ e, (compile d config node s).1 = .error e) ↔
        ∃ leaf ∈ node.leaves, ∃ e, (compile d config (.leaf leaf) s).1 = .error e) ∧
      (∀ e, (compile d config node s).1 = .error e ↔
        ∃ before leaf after, node.leaves = before ++ leaf :: after ∧
          (∀ l ∈ before, ∃ c, (compile d config (.leaf l) s).1 = .ok c) ∧
            (compile d config (.leaf leaf) s).1 = .error e) ∧
      ∀ leaf ∈ node.leaves, ∀ e, (compile d config (.leaf leaf) s).1 = .error e ↔
        leaf.fault (d.jsonExpr (d.reset s)) config = some e := by
  have hleaf : ∀ leaf ∈ node.leaves, ∀ e, (compile d config (.leaf leaf) s).1 = .error e ↔
      leaf.fault (d.jsonExpr (d.reset s)) config = some e := fun leaf h e => by
    rw [← failure?_eq_some_iff, leaf.failure?_compile hd config (hn leaf h)]
  have hsound : ∀ leaf ∈ node.leaves, (∃ c, (compile d config (.leaf leaf) s).1 = .ok c) ↔
      leaf.fault (d.jsonExpr (d.reset s)) config = none := fun leaf h => by
    rw [← failure?_eq_none_iff, leaf.failure?_compile hd config (hn leaf h)]
  have hnode : ∀ e, (compile d config node s).1 = .error e ↔
      node.leaves.findSome? (fun leaf => leaf.fault (d.jsonExpr (d.reset s)) config) = some e :=
    fun e => by rw [← failure?_eq_some_iff, node.failure?_compile hd config hn]
  refine ⟨⟨fun ⟨e, he⟩ => ?_, fun ⟨leaf, h, e, he⟩ => ?_⟩, fun e => ?_, hleaf⟩
  · obtain ⟨leaf, h, hfault⟩ := List.exists_of_findSome?_eq_some ((hnode e).1 he)
    exact ⟨leaf, h, e, (hleaf leaf h e).2 hfault⟩
  · have hsome : (node.leaves.findSome?
        fun leaf => leaf.fault (d.jsonExpr (d.reset s)) config).isSome := by
      rw [List.findSome?_isSome_iff]
      exact ⟨leaf, h, by rw [(hleaf leaf h e).1 he]; rfl⟩
    obtain ⟨e', he'⟩ := Option.isSome_iff_exists.1 hsome
    exact ⟨e', (hnode e').2 he'⟩
  · rw [hnode, List.findSome?_eq_some_iff]
    constructor
    · rintro ⟨before, leaf, after, hleaves, hfault, hbefore⟩
      refine ⟨before, leaf, after, hleaves, fun l hl => (hsound l ?_).2 (hbefore l hl),
        (hleaf leaf ?_ e).2 hfault⟩ <;> rw [hleaves]
      · exact List.mem_append_left _ hl
      · exact List.mem_append_right _ (List.mem_cons_self ..)
    · rintro ⟨before, leaf, after, hleaves, hbefore, hfault⟩
      refine ⟨before, leaf, after, hleaves, (hleaf leaf ?_ e).1 hfault,
        fun l hl => (hsound l ?_).1 (hbefore l hl)⟩ <;> rw [hleaves]
      · exact List.mem_append_right _ (List.mem_cons_self ..)
      · exact List.mem_append_left _ hl

end

/-- A configuration that admits two fields and has no predicates. -/
def twoFields : Config := { whitelist := { fields := some ["a", "b"] } }

/-- A leaf with a range of three bounds. -/
def overfull : Leaf where
  field := "b"
  operator := "between"
  operand := some (.list [.int 1, .int 2, .int 3])

/-- The first leaf has no field, the third one too many bounds, and the last one a field
that is not admitted. -/
def muddled : Node :=
  .group .and
    [.leaf { field := "", operator := "unheard" },
      .group .or
        [.leaf { field := "a", operator := "less", operand := some (.scalar (.int 1)) },
          .leaf overfull],
      .leaf { field := "c", operator := "unheard" }]

/-- In both dialects the filter fails because of the third leaf.  With a predicate that is
not configured, this is what is wrong with the leaf first. -/
theorem compile_fails_first_muddled :
    (compile postgres twoFields muddled 7).1 = .error (.wrongCount "between" 2 3) ∧
      (compile mysql twoFields muddled ()).1 = .error (.wrongCount "between" 2 3) ∧
        (compile postgres twoFields (.leaf { overfull with predicate := some "upper" }) 7).1 =
          .error (.unknownPredicate "upper") :=
  ⟨((compile_fails_first postgres_steady twoFields muddled (by decide) 7).2.1 _).2
      ⟨[_, _], overfull, [_], rfl, by simpa using ⟨⟨_, rfl⟩, _, rfl⟩, rfl⟩,
    ((compile_fails_first mysql_steady twoFields muddled (by decide) ()).2.1 _).2
      ⟨[_, _], overfull, [_], rfl, by simpa using ⟨⟨_, rfl⟩, _, rfl⟩, rfl⟩,
    ((compile_fails_first postgres_steady twoFields
      (.leaf { overfull with predicate := some "upper" }) (by decide) 7).2.2 _
        (List.mem_singleton.2 rfl) _).2 rfl⟩

end SqlFilter
