/-
# Leaf by leaf

The groups of a filter join texts, and that is all they do.  The values that a filter
binds, the error it fails with and the placeholders it draws are those of its leaves,
compiled one after the other from left to right (`bindAll`, `Node.run_eq_bindAll`).  This
holds in every dialect and whatever the configured operations do.

A leaf that runs no operation binds the values of its plan, and it is planned before its
first placeholder is drawn.  So it draws as many placeholders as it binds values, and none
if it fails (`Leaf.run_of_binds`).  A filter of such leaves that does not compile has drawn
what the leaves before the first that fails bind (`bindAll_eq_error`).
-/

import Mathlib.Data.List.Forall2
import SqlFilter.Proofs.Metering

namespace SqlFilter

variable {σ τ : Type}

/-! ### The leaves of a filter -/

/-- The values that leaves bind, compiled one after the other, and the state after them;
the first leaf that fails ends the run. -/
def bindAll (d : Dialect σ) (config : Config) : List Leaf → σ → Except CompileError (List Value) × σ
  | [], s => (.ok [], s)
  | leaf :: leaves, s =>
    match (leaf.compile d config).run s with
    | (.error e, t) => (.error e, t)
    | (.ok c, t) =>
      ((bindAll d config leaves t).1.map (c.values ++ ·), (bindAll d config leaves t).2)

section

variable (d : Dialect σ) (config : Config)

theorem bindAll_append (before after : List Leaf) (s : σ) :
    bindAll d config (before ++ after) s =
      match bindAll d config before s with
      | (.error e, t) => (.error e, t)
      | (.ok values, t) =>
        ((bindAll d config after t).1.map (values ++ ·), (bindAll d config after t).2) := by
  induction before generalizing s with
  | nil =>
    show bindAll d config after s = _
    rcases h : bindAll d config after s with ⟨e | values, t⟩ <;> simp [bindAll, h, Except.map]
  | cons leaf before ih =>
    rw [List.cons_append, bindAll, bindAll]
    rcases (leaf.compile d config).run s with ⟨e | c, t⟩
    · rfl
    · simp only [ih]
      rcases bindAll d config before t with ⟨e | values, u⟩
      · rfl
      · show (((bindAll d config after u).1.map (values ++ ·)).map (c.values ++ ·), _) =
          ((bindAll d config after u).1.map (c.values ++ values ++ ·), _)
        cases (bindAll d config after u).1 <;> simp [Except.map]

/-- Children whose leaves bind what they do one by one do so together. -/
theorem run_compileAll_eq_bindAll {rules : List Node}
    (h : ∀ rule ∈ rules, ∀ s, (((rule.compile d config).run s).1.map (·.values),
      ((rule.compile d config).run s).2) = bindAll d config rule.leaves s) (s : σ) :
    (((compileAll d config rules).run s).1.map (·.flatMap (·.values)),
      ((compileAll d config rules).run s).2) = bindAll d config (leavesAll rules) s := by
  induction rules generalizing s with
  | nil => rfl
  | cons rule rules ih =>
    have hr := h rule (List.mem_cons_self ..) s
    have ih := ih fun r hr => h r (List.mem_cons_of_mem _ hr)
    rw [leavesAll, bindAll_append, ← hr, run_compileAll_cons]
    rcases (rule.compile d config).run s with ⟨e | first, t⟩
    · rfl
    · simp only [Except.map, ← ih t]
      cases ((compileAll d config rules).run t).1 <;> rfl

/-- **A filter binds what its leaves bind**, and fails as the first of them that fails. -/
theorem Node.run_eq_bindAll (node : Node) (s : σ) :
    (((node.compile d config).run s).1.map (·.values), ((node.compile d config).run s).2) =
      bindAll d config node.leaves s := by
  induction node generalizing s with
  | leaf leaf =>
    rw [run_compile_leaf, leaves, bindAll]
    rcases (leaf.compile d config).run s with ⟨e | c, t⟩ <;> simp [bindAll, Except.map]
  | group glue rules ih =>
    have h := run_compileAll_eq_bindAll d config ih s
    rw [run_compile_group, leaves, ← h]
    cases ((compileAll d config rules).run s).1 <;> rfl

/-- **A filter fails as its leaves do.** -/
theorem compile_eq_error_iff {node : Node} {s t : σ} {e : CompileError} :
    compile d config node s = (.error e, t) ↔
      bindAll d config node.leaves (d.reset s) = (.error e, t) := by
  rw [compile, ← node.run_eq_bindAll]
  rcases (node.compile d config).run (d.reset s) with ⟨e' | c, u⟩ <;> simp [Except.map]

theorem values_compile (node : Node) (s : σ) :
    (compile d config node s).1.map (·.values) =
      (bindAll d config node.leaves (d.reset s)).1 :=
  congrArg Prod.fst (node.run_eq_bindAll d config (d.reset s))

end

/-- Leaves that bind the same in two dialects, one by one, do so together. -/
theorem bindAll_fst_congr {d : Dialect σ} {d' : Dialect τ} {config : Config} {leaves : List Leaf}
    (h : ∀ leaf ∈ leaves, ∀ s t, ((leaf.compile d config).run s).1.map (·.values) =
      ((leaf.compile d' config).run t).1.map (·.values)) (s : σ) (t : τ) :
    (bindAll d config leaves s).1 = (bindAll d' config leaves t).1 := by
  induction leaves generalizing s t with
  | nil => rfl
  | cons leaf leaves ih =>
    have hl := h leaf (List.mem_cons_self ..) s t
    have ih := ih fun l hl => h l (List.mem_cons_of_mem _ hl)
    rw [bindAll, bindAll]
    revert hl
    rcases (leaf.compile d config).run s with ⟨e | c, s'⟩ <;>
      rcases (leaf.compile d' config).run t with ⟨e' | c', t'⟩ <;> intro hl
    · exact congrArg Except.error (Except.error.inj hl)
    · cases hl
    · cases hl
    · have hc : c.values = c'.values := Except.ok.inj hl
      simp only [ih s' t', hc]

/-- When all leaves compile together, each of them compiles somewhere. -/
theorem exists_run_of_bindAll {d : Dialect σ} {config : Config} {leaves : List Leaf} {s : σ}
    {values : List Value} (h : (bindAll d config leaves s).1 = .ok values) :
    ∀ leaf ∈ leaves, ∃ t c, ((leaf.compile d config).run t).1 = .ok c := by
  induction leaves generalizing s values with
  | nil => exact fun leaf hl => absurd hl List.not_mem_nil
  | cons first leaves ih =>
    rw [bindAll] at h
    rcases hrun : (first.compile d config).run s with ⟨e | c, t⟩
    · rw [hrun] at h
      cases h
    · rw [hrun] at h
      intro leaf hl
      rcases List.mem_cons.1 hl with rfl | hl
      · exact ⟨s, c, congrArg Prod.fst hrun⟩
      · cases hrest : (bindAll d config leaves t).1 with
        | error e => simp only [hrest] at h; cases h
        | ok rest => exact ih hrest leaf hl

/-- **What fails first.**  When leaves do not compile together, those before one of them
do, and this one fails where they have left the state. -/
theorem exists_of_bindAll_eq_error {d : Dialect σ} {config : Config} {leaves : List Leaf}
    {s t : σ} {e : CompileError} (h : bindAll d config leaves s = (.error e, t)) :
    ∃ before leaf after values u, leaves = before ++ leaf :: after ∧
      bindAll d config before s = (.ok values, u) ∧
        (leaf.compile d config).run u = (.error e, t) := by
  induction leaves generalizing s with
  | nil => cases h
  | cons first leaves ih =>
    rw [bindAll] at h
    rcases hrun : (first.compile d config).run s with ⟨e' | c, u⟩
    · rw [hrun] at h
      obtain ⟨he, rfl⟩ := Prod.mk.inj h
      obtain rfl := Except.error.inj he
      exact ⟨[], first, leaves, [], s, rfl, rfl, hrun⟩
    · rw [hrun] at h
      have hrest : bindAll d config leaves u = (.error e, t) := by
        obtain ⟨he, ht⟩ := Prod.mk.inj h
        rcases hrest : bindAll d config leaves u with ⟨e' | rest, v⟩
        · rw [hrest] at he ht
          cases he
          rw [← ht]
        · rw [hrest] at he
          cases he
      obtain ⟨before, leaf, after, values, v, rfl, hbefore, hleaf⟩ := ih hrest
      refine ⟨first :: before, leaf, after, c.values ++ values, v, rfl, ?_, hleaf⟩
      rw [bindAll, hrun]
      simp only [hbefore, Except.map]

/-! ### What one leaf binds -/

/-- The values of a plan.  An operation decides on its values when it runs. -/
def Plan.values : Plan → List Value
  | condition _ c => c.values
  | _ => []

/-- The values that a leaf binds, or why it does not compile. -/
def Leaf.binds (resolve : String → Except CompileError FieldExpr) (config : Config)
    (leaf : Leaf) : Except CompileError (List Value) :=
  (leaf.plan resolve config).map Plan.values

section

variable {d : Dialect σ} {config : Config} {leaf : Leaf}

/-- **A leaf that fails to be planned draws nothing.** -/
theorem Leaf.run_of_binds_error {s : σ} {e : CompileError}
    (h : leaf.binds (d.resolve s) config = .error e) :
    (leaf.compile d config).run s = (.error e, s) := by
  rw [binds] at h
  rw [run_compile]
  cases hp : leaf.plan (d.resolve s) config with
  | ok plan => rw [hp] at h; cases h
  | error e' =>
    rw [hp] at h
    cases h
    rfl

variable (hl : leaf.runsOperation config = false)
include hl

/-- **A leaf binds the values of its plan**, unless it runs an operation. -/
theorem Leaf.values_run_compile (s : σ) :
    ((leaf.compile d config).run s).1.map (·.values) = leaf.binds (d.resolve s) config := by
  rw [run_compile, binds]
  cases hp : leaf.plan (d.resolve s) config with
  | error e => rfl
  | ok plan =>
    rcases plan_cases hp with ⟨rfl, -⟩ | ⟨field, c, -, -, -, rfl⟩ | ⟨_, _, ho, -⟩
    · rfl
    · show Except.ok ((c.write d s field).run d.placeholder s).1.values = _
      rw [Condition.values_run_write]
      rfl
    · rw [hl] at ho
      cases ho

/-- **A leaf draws a placeholder for each value it binds.** -/
theorem Leaf.run_of_binds (hd : d.DrawsPerPattern) {s : σ} {values : List Value}
    (h : leaf.binds (d.resolve s) config = .ok values) :
    ∃ c, c.values = values ∧ (leaf.compile d config).run s = (.ok c, d.after values.length s) := by
  obtain ⟨k, hk, -, hw⟩ := leaf.metered_compile hd config s 0
  have hv := leaf.values_run_compile hl (d := d) s
  rw [h] at hv
  rcases hrun : ((leaf.compile d config).run s).1 with e | c
  · rw [hrun] at hv
    cases hv
  · rw [hrun] at hv
    have hc : c.values = values := Except.ok.inj hv
    have hlen : k = values.length := by rw [hw c hrun, Compiled.weight, hc]
    refine ⟨c, hc, ?_⟩
    rw [hk, hrun, hlen]

end

section

variable {d : Dialect σ} (hd : d.DrawsPerPattern)
  {resolve : String → Except CompileError FieldExpr} (hr : ∀ s, d.resolve s = resolve)
  {config : Config}
include hd hr

/-- Leaves that compile together have drawn a placeholder for each value they bind, unless
they run operations. -/
theorem exists_bound_of_bindAll {leaves : List Leaf}
    (hn : ∀ leaf ∈ leaves, leaf.runsOperation config = false) {s t : σ} {values : List Value}
    (h : bindAll d config leaves s = (.ok values, t)) :
    ∃ bound, List.Forall₂ (fun l values => l.binds resolve config = .ok values) leaves bound ∧
      t = d.after bound.flatten.length s := by
  induction leaves generalizing s values with
  | nil => exact ⟨[], .nil, (Prod.mk.inj h).2.symm⟩
  | cons first leaves ih =>
    rw [bindAll] at h
    cases hb : first.binds resolve config with
    | error e =>
      rw [first.run_of_binds_error ((hr s).symm ▸ hb)] at h
      cases h
    | ok firstValues =>
      obtain ⟨c, -, hrun⟩ :=
        first.run_of_binds (hn first (List.mem_cons_self ..)) hd ((hr s).symm ▸ hb)
      rw [hrun] at h
      rcases hrest : bindAll d config leaves (d.after firstValues.length s) with ⟨e | rest, u⟩
      · simp only [hrest] at h
        cases h
      · simp only [hrest] at h
        obtain rfl := (Prod.mk.inj h).2
        obtain ⟨bound, hbound, rfl⟩ := ih (fun l hl => hn l (List.mem_cons_of_mem _ hl)) hrest
        refine ⟨firstValues :: bound, .cons hb hbound, ?_⟩
        rw [List.flatten_cons, List.length_append, d.after_add]

/-- **What leaves have drawn when one of them fails.**  Unless they run operations, they
bind what is theirs up to the first leaf that fails, and that leaf draws nothing. -/
theorem bindAll_eq_error {leaves : List Leaf}
    (hn : ∀ leaf ∈ leaves, leaf.runsOperation config = false)
    {s t : σ} {e : CompileError} (h : bindAll d config leaves s = (.error e, t)) :
    ∃ before leaf after bound, leaves = before ++ leaf :: after ∧
      List.Forall₂ (fun l values => l.binds resolve config = .ok values) before bound ∧
        leaf.binds resolve config = .error e ∧ t = d.after bound.flatten.length s := by
  obtain ⟨before, leaf, after, values, u, rfl, hbefore, hleaf⟩ := exists_of_bindAll_eq_error h
  obtain ⟨bound, hbound, rfl⟩ := exists_bound_of_bindAll hd hr
    (fun l hl => hn l (List.mem_append_left _ hl)) hbefore
  refine ⟨before, leaf, after, bound, rfl, hbound, ?_⟩
  cases hb : leaf.binds resolve config with
  | error e' =>
    rw [leaf.run_of_binds_error ((hr _).symm ▸ hb)] at hleaf
    obtain ⟨he, rfl⟩ := Prod.mk.inj hleaf
    exact ⟨congrArg _ (Except.error.inj he), rfl⟩
  | ok values =>
    obtain ⟨c, -, hrun⟩ := leaf.run_of_binds (hn leaf (by simp)) hd ((hr _).symm ▸ hb)
    cases hrun.symm.trans hleaf

end

end SqlFilter
