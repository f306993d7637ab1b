/-
# As many placeholders as values

A compilation asks the dialect for placeholders, and `Dialect.metered` counts how
often: it is the same dialect with a meter in its state, which a new statement sets
to zero.  A metered compilation goes exactly as the plain one does
(`Metered`), and when it succeeds, the meter stands at the number of values.

Nothing is asked of the configured operations and predicates.  An operation may draw
as often as it likes, but its result is refused unless it binds one value for each
placeholder (`checked`); an operation that draws without writing is counted too.  Of
the dialect it is asked that a pattern takes one placeholder
(`Dialect.DrawsPerPattern`).
-/

import SqlFilter.Dialect.MySql
import SqlFilter.Dialect.Postgres
import SqlFilter.Proofs.Run

namespace SqlFilter

variable {σ α : Type}

/-! ### Meters -/

/-- A dialect with a meter: the second part of its state is the number of
placeholders drawn since the start of the statement. -/
def Dialect.metered (d : Dialect σ) : Dialect (σ × Nat) where
  name := d.name
  placeholder s := ((d.placeholder s.1).1, (d.placeholder s.1).2, s.2 + 1)
  reset s := (d.reset s.1, 0)
  jsonExpr s := d.jsonExpr s.1
  pattern s := d.pattern s.1
  member s := d.member s.1

/-- A dialect whose patterns take one placeholder each, and which writes
memberships in the usual way. -/
structure Dialect.DrawsPerPattern (d : Dialect σ) : Prop where
  drawn_pattern : ∀ s p field negated isJson,
    (d.pattern s p field negated isJson).drawn d.placeholder s = 1
  member_eq : ∀ s, d.member s = listMembership

/-- The state after a number of placeholders. -/
def Dialect.after (d : Dialect σ) : Nat → σ → σ
  | 0, s => s
  | k + 1, s => d.after k (d.placeholder s).2

theorem Dialect.after_add (d : Dialect σ) (j k : Nat) (s : σ) :
    d.after (j + k) s = d.after k (d.after j s) := by
  induction j generalizing s with
  | zero => rw [Nat.zero_add]; rfl
  | succ j ih => rw [Nat.add_right_comm]; exact ih _

theorem postgres_after (k n : Nat) : postgres.after k n = n + k := by
  induction k generalizing n with
  | zero => rfl
  | succ k ih => exact (ih (n + 1)).trans (by omega)

/-- A dialect whose expressions of references do not depend on the placeholders drawn. -/
def Dialect.Steady (d : Dialect σ) : Prop :=
  ∀ s, d.jsonExpr (d.placeholder s).2 = d.jsonExpr s

theorem Dialect.Steady.jsonExpr_after {d : Dialect σ} (h : d.Steady) (k : Nat) (s : σ) :
    d.jsonExpr (d.after k s) = d.jsonExpr s := by
  induction k generalizing s with
  | zero => rfl
  | succ k ih => exact (ih (d.placeholder s).2).trans (h s)

/-- A steady dialect resolves fields alike, however many placeholders are drawn. -/
theorem Dialect.Steady.resolve_after {d : Dialect σ} (h : d.Steady) (k : Nat) (s : σ) :
    d.resolve (d.after k s) = d.resolve s := by
  funext raw
  rw [Dialect.resolve, Dialect.resolve, h.jsonExpr_after]

theorem Dialect.Steady.metered {d : Dialect σ} (h : d.Steady) : d.metered.Steady :=
  fun s => h s.1

theorem postgres_steady : postgres.Steady := fun _ => rfl

theorem mysql_steady : mysql.Steady := fun _ => rfl

theorem postgres_drawsPerPattern : postgres.DrawsPerPattern :=
  ⟨fun _ _ _ _ _ => rfl, fun _ => rfl⟩

theorem mysql_drawsPerPattern : mysql.DrawsPerPattern :=
  ⟨fun _ _ _ _ _ => rfl, fun _ => rfl⟩

namespace Drawing

/-- A meter does not disturb a drawing, and moves by what the drawing takes. -/
theorem run_metered (d : Dialect σ) (drawing : Drawing α) (s : σ) (n : Nat) :
    drawing.run d.metered.placeholder (s, n) =
      ((drawing.run d.placeholder s).1, (drawing.run d.placeholder s).2,
        n + drawing.drawn d.placeholder s) := by
  induction drawing generalizing s n with
  | done a => rfl
  | next k ih =>
    have h := ih (d.placeholder s).1 (d.placeholder s).2 (n + 1)
    rw [Nat.add_assoc, Nat.add_comm 1] at h
    exact h

/-- A drawing changes the state by drawing, and in no other way. -/
theorem run_snd (d : Dialect σ) (drawing : Drawing α) (s : σ) :
    (drawing.run d.placeholder s).2 = d.after (drawing.drawn d.placeholder s) s := by
  induction drawing generalizing s with
  | done a => rfl
  | next k ih => exact ih _ _

theorem drawn_metered (d : Dialect σ) (drawing : Drawing α) (s : σ) (n : Nat) :
    drawing.drawn d.metered.placeholder (s, n) = drawing.drawn d.placeholder s := by
  induction drawing generalizing s n with
  | done a => rfl
  | next k ih => exact congrArg (· + 1) (ih _ _ _)

theorem drawn_bind {β : Type} (source : σ → String × σ) (d : Drawing α) (f : α → Drawing β)
    (s : σ) :
    (d >>= f).drawn source s =
      d.drawn source s + (f (d.run source s).1).drawn source (d.run source s).2 := by
  induction d generalizing s with
  | done a => exact (Nat.zero_add _).symm
  | next k ih =>
    have h := ih (source s).1 (source s).2
    show ((k (source s).1 >>= f).drawn source (source s).2) + 1 = _
    rw [h, Nat.add_right_comm]
    rfl

theorem drawn_placeholders (source : σ → String × σ) (n : Nat) (s : σ) :
    (placeholders n).drawn source s = n := by
  induction n generalizing s with
  | zero => rfl
  | succ n ih =>
    show (placeholders n >>= fun rest => done ((source s).1 :: rest)).drawn source (source s).2 + 1
      = n + 1
    rw [drawn_bind, ih]
    rfl

end Drawing

/-- A membership draws a placeholder for each value. -/
theorem drawn_listMembership (source : σ → String × σ) (field : String) (count : Nat) (s : σ) :
    (listMembership field count).drawn source s = count := by
  rw [listMembership, Drawing.drawn_bind, Drawing.drawn_placeholders]
  rfl

/-- **A condition draws a placeholder for each value.** -/
theorem Condition.drawn_write {d : Dialect σ} (hd : d.DrawsPerPattern) (s : σ) (field : FieldExpr)
    (c : Condition) : (c.write d s field).drawn d.placeholder s = c.values.length := by
  cases c with
  | compare c v => rfl
  | pattern p negated v =>
    rw [write, Drawing.drawn_bind, hd.drawn_pattern]
    rfl
  | between negated start stop => rfl
  | member items =>
    rw [write, Drawing.drawn_bind, hd.member_eq, drawn_listMembership]
    rfl

/-! ### Metered compilations -/

/-- `metered` goes as `plain` does.  Both draw the same number of placeholders and
change the state in no other way, and on success this number is the weight of the
result. -/
def Metered (d : Dialect σ) (weight : α → Nat) (plain : Compilation σ α)
    (metered : Compilation (σ × Nat) α) : Prop :=
  ∀ s n, ∃ k, plain.run s = ((plain.run s).1, d.after k s) ∧
    metered.run (s, n) = ((plain.run s).1, d.after k s, n + k) ∧
    ∀ a, (plain.run s).1 = .ok a → k = weight a

/-- How many values a compiled piece binds. -/
def Compiled.weight (c : Compiled) : Nat :=
  c.values.length

/-- How many values several compiled pieces bind. -/
def Compiled.weightAll (parts : List Compiled) : Nat :=
  (parts.flatMap (·.values)).length

/-- An operation that passes the check binds what it drew. -/
theorem length_of_checked {operator : String} {c : Compiled}
    {result : Except CompileError (String × List Value)} {issued : Nat}
    (h : checked operator (result, issued) = .ok c) : issued = c.weight := by
  rcases result with e | ⟨sql, values⟩
  · cases h
  · simp only [checked] at h
    split at h
    · obtain rfl := Except.ok.inj h
      assumption
    · cases h

section

variable {d : Dialect σ} (hd : d.DrawsPerPattern) (config : Config)
include hd

theorem Plan.metered_write (plan : Plan) (s : σ) (n : Nat) :
    ∃ k, (plan.write d).run s = (((plan.write d).run s).1, d.after k s) ∧
      (plan.write d.metered).run (s, n) = (((plan.write d).run s).1, d.after k s, n + k) ∧
      ∀ c, ((plan.write d).run s).1 = .ok c → k = c.weight := by
  cases plan with
  | nothing =>
    refine ⟨0, rfl, rfl, fun c hc => ?_⟩
    obtain rfl := Except.ok.inj hc
    rfl
  | condition field c =>
    have hw : c.write d.metered (s, n) field = c.write d s field := by cases c <;> rfl
    have hk := c.drawn_write hd s field
    refine ⟨c.values.length, ?_, ?_, fun out hout => ?_⟩
    · rw [run_write_condition, Drawing.run_snd, hk]
    · rw [run_write_condition, run_write_condition, hw, Drawing.run_metered, Drawing.run_snd, hk]
    · rw [run_write_condition] at hout
      obtain rfl := Except.ok.inj hout
      rw [Compiled.weight, Condition.values_run_write]
  | custom operator drawing =>
    refine ⟨drawing.drawn d.placeholder s, ?_, ?_, fun out hout => ?_⟩
    · rw [run_write_custom, Drawing.run_snd]
    · rw [run_write_custom, run_write_custom, Drawing.run_metered, Drawing.drawn_metered,
        Drawing.run_snd]
    · rw [run_write_custom] at hout
      exact length_of_checked hout

theorem Leaf.metered_compile (leaf : Leaf) :
    Metered d Compiled.weight (leaf.compile d config) (leaf.compile d.metered config) := by
  intro s n
  rw [run_compile, run_compile, show d.metered.resolve (s, n) = d.resolve s from rfl]
  cases leaf.plan (d.resolve s) config with
  | error e => exact ⟨0, rfl, rfl, fun a ha => by cases ha⟩
  | ok plan => exact plan.metered_write hd s n

omit hd in
/-- Children that are metered one by one are metered together. -/
theorem metered_compileAll {rules : List Node}
    (h : ∀ rule ∈ rules,
      Metered d Compiled.weight (rule.compile d config) (rule.compile d.metered config)) :
    Metered d Compiled.weightAll (compileAll d config rules)
      (compileAll d.metered config rules) := by
  induction rules with
  | nil =>
    intro s n
    refine ⟨0, by simp [Dialect.after], by simp [Dialect.after], fun parts hp => ?_⟩
    rw [run_compileAll_nil] at hp
    obtain rfl := Except.ok.inj hp
    rfl
  | cons rule rules ih =>
    intro s n
    obtain ⟨k, hk, hm, hw⟩ := h rule (List.mem_cons_self ..) s n
    rw [run_compileAll_cons, run_compileAll_cons, hm, hk]
    cases hx : ((rule.compile d config).run s).1 with
    | error e => exact ⟨k, rfl, rfl, fun parts hp => by cases hp⟩
    | ok first =>
      obtain rfl := hw first hx
      obtain ⟨j, hj, hn, hv⟩ := ih (fun r hr => h r (List.mem_cons_of_mem _ hr))
        (d.after first.weight s) (n + first.weight)
      refine ⟨first.weight + j, ?_, ?_, fun parts hp => ?_⟩
      · rw [d.after_add]
        simp only [congrArg Prod.snd hj]
      · rw [d.after_add, ← Nat.add_assoc]
        simp only [hn]
      · cases hr : ((compileAll d config rules).run (d.after first.weight s)).1 with
        | error e => simp only [hr] at hp; cases hp
        | ok rest =>
          simp only [hr] at hp
          obtain rfl := Except.ok.inj hp
          rw [hv rest hr]
          exact List.length_append.symm

/-- **A metered compilation goes as the plain one does.** -/
theorem Node.metered_compile (node : Node) :
    Metered d Compiled.weight (node.compile d config) (node.compile d.metered config) := by
  induction node with
  | leaf leaf =>
    intro s n
    rw [run_compile_leaf, run_compile_leaf]
    exact leaf.metered_compile hd config s n
  | group glue rules ih =>
    intro s n
    obtain ⟨k, hk, hm, hw⟩ := metered_compileAll config ih s n
    rw [run_compile_group, run_compile_group, hm]
    refine ⟨k, by rw [congrArg Prod.snd hk], rfl, fun c hc => ?_⟩
    cases hr : ((compileAll d config rules).run s).1 with
    | error e => simp only [hr] at hc; cases hc
    | ok parts =>
      simp only [hr] at hc
      obtain rfl := Except.ok.inj hc
      exact hw parts hr

end

/-- **As many placeholders as values.**  When a filter compiles, with whatever
operations and predicates, the placeholders drawn since the start of the statement are
as many as the values returned: this is what the meter shows, and how far the state has
moved.  So the next placeholder of Postgres is the one after the last value. -/
theorem compile_draws_per_value :
    (∀ {σ : Type} (d : Dialect σ), d.DrawsPerPattern →
      ∀ (config : Config) (node : Node) (s : σ) (c : Compiled) (t : σ),
        compile d config node s = (.ok c, t) →
          t = d.after c.values.length (d.reset s) ∧
            ∀ n, compile d.metered config node (s, n) = (.ok c, t, c.values.length)) ∧
      ∀ (config : Config) (node : Node) (s : Nat) (c : Compiled) (t : Nat),
        compile postgres config node s = (.ok c, t) →
          (postgres.placeholder t).1 = "$" ++ toString (c.values.length + 1) := by
  have meter : ∀ {σ : Type} (d : Dialect σ), d.DrawsPerPattern →
      ∀ (config : Config) (node : Node) (s : σ) (c : Compiled) (t : σ),
        compile d config node s = (.ok c, t) →
          t = d.after c.values.length (d.reset s) ∧
            ∀ n, compile d.metered config node (s, n) = (.ok c, t, c.values.length) := by
    intro σ d hd config node s c t h
    obtain ⟨k, hk, hm, hw⟩ := node.metered_compile hd config (d.reset s) 0
    rw [compile] at h
    rw [h] at hk hm hw
    obtain rfl := hw c rfl
    have ht : t = d.after c.weight (d.reset s) := congrArg Prod.snd hk
    subst ht
    exact ⟨rfl, fun n => hm.trans (by rw [Nat.zero_add]; rfl)⟩
  refine ⟨meter, fun config node s c t h => ?_⟩
  obtain ⟨rfl, -⟩ := meter postgres postgres_drawsPerPattern config node s c t h
  rw [postgres_after, show postgres.reset s = 0 from rfl, Nat.zero_add]
  rfl

/-- An operation that draws a placeholder for every argument and writes nothing. -/
def silentOperation : Operation := fun _ _ values => do
  let _ ← Drawing.placeholders values.length
  return .ok ("", values)

/-- The meter counts the placeholder that an operation draws without writing it: between
`$1` and `$3` there is no `$2` in the text, and all three are drawn. -/
theorem compile_draws_per_value_silent :
    compile postgres.metered { operations := ⟨[("silent", silentOperation)]⟩ }
        (.group .or
          [.leaf { field := "a", operator := "less", operand := some (.scalar (.int 1)) },
            .leaf { field := "b", operator := "silent", operand := some (.list [.int 2]) },
            .leaf { field := "c", operator := "contains", operand := some (.scalar (.str "x")) }])
        (7, 5) =
      (.ok ⟨"( a < $1 OR c LIKE '%' || $3 || '%' )", [.int 1, .int 2, .str "x"]⟩, 3, 3) :=
  ((compile_draws_per_value.1 postgres postgres_drawsPerPattern _ _ 7 _ 3 rfl).2 5)

end SqlFilter
