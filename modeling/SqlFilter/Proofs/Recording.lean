/-
# Which placeholders are drawn

A meter tells how many placeholders a compilation draws, and not which ones.
`Dialect.recorded` is the same dialect with a record in its state: the placeholders it
has given out since the start of the statement, in their order.  The record disturbs
nothing (`compile_recorded`), so it can be read off any compilation (`Node.marks`).

Two compilations are the same (`SameCompilation`) if they have the same result, leave the
same state and draw the same placeholders in the same order.  Filters that run alike in
every dialect run alike in a recorded one, and so their compilations are the same
(`SameCompilation.of_run`).
-/

import SqlFilter.Proofs.Metering

namespace SqlFilter

variable {σ α β : Type}

/-! ### Records -/

/-- A dialect with a record: the second part of its state holds the placeholders drawn
since the start of the statement. -/
def Dialect.recorded (d : Dialect σ) : Dialect (σ × List String) where
  name := d.name
  placeholder s :=
    ((d.placeholder s.1).1, (d.placeholder s.1).2, s.2 ++ [(d.placeholder s.1).1])
  reset s := (d.reset s.1, [])
  jsonExpr s := d.jsonExpr s.1
  pattern s := d.pattern s.1
  member s := d.member s.1

namespace Drawing

/-- The placeholders that a drawing takes from a source, in order. -/
def marks (source : σ → String × σ) : Drawing α → σ → List String
  | done _, _ => []
  | next k, s => (source s).1 :: (k (source s).1).marks source (source s).2

/-- A record does not disturb a drawing, and grows by what the drawing takes. -/
theorem run_recorded (d : Dialect σ) (drawing : Drawing α) (s : σ) (log : List String) :
    drawing.run d.recorded.placeholder (s, log) =
      ((drawing.run d.placeholder s).1, (drawing.run d.placeholder s).2,
        log ++ drawing.marks d.placeholder s) := by
  induction drawing generalizing s log with
  | done a => rw [marks, List.append_nil]; rfl
  | next k ih =>
    have h := ih (d.placeholder s).1 (d.placeholder s).2 (log ++ [(d.placeholder s).1])
    rw [List.append_assoc] at h
    exact h

theorem drawn_recorded (d : Dialect σ) (drawing : Drawing α) (s : σ) (log : List String) :
    drawing.drawn d.recorded.placeholder (s, log) = drawing.drawn d.placeholder s := by
  induction drawing generalizing s log with
  | done a => rfl
  | next k ih => exact congrArg (· + 1) (ih _ _ _)

end Drawing

/-! ### Recorded compilations -/

/-- `recorded` goes as `plain` does, and adds to the record what it draws, whatever stands
in it. -/
def Recorded (plain : Compilation σ α) (recorded : Compilation (σ × List String) α) : Prop :=
  ∀ s, ∃ marks, ∀ log,
    recorded.run (s, log) = ((plain.run s).1, (plain.run s).2, log ++ marks)

theorem Recorded.pure (a : α) :
    Recorded (Pure.pure a : Compilation σ α) (Pure.pure a) :=
  fun _ => ⟨[], fun log => by rw [List.append_nil]; rfl⟩

/-- What is recorded step by step is recorded. -/
theorem Recorded.bind {x : Compilation σ α} {x' : Compilation (σ × List String) α}
    {f : α → Compilation σ β} {f' : α → Compilation (σ × List String) β} (hx : Recorded x x')
    (hf : ∀ a, Recorded (f a) (f' a)) : Recorded (x >>= f) (x' >>= f') := by
  intro s
  obtain ⟨marks, hmarks⟩ := hx s
  simp only [Compilation.run_bind, hmarks]
  rcases x.run s with ⟨e | a, t⟩
  · exact ⟨marks, fun log => rfl⟩
  · obtain ⟨more, hmore⟩ := hf a t
    exact ⟨marks ++ more, fun log => by rw [← List.append_assoc]; exact hmore (log ++ marks)⟩

section

variable (d : Dialect σ) (config : Config)

theorem Plan.recorded_write (plan : Plan) : Recorded (plan.write d) (plan.write d.recorded) := by
  intro s
  cases plan with
  | nothing => exact Recorded.pure _ s
  | condition field c =>
    refine ⟨(c.write d s field).marks d.placeholder s, fun log => ?_⟩
    have hw : c.write d.recorded (s, log) field = c.write d s field := by cases c <;> rfl
    rw [run_write_condition, run_write_condition, hw, Drawing.run_recorded]
  | custom operator drawing =>
    refine ⟨drawing.marks d.placeholder s, fun log => ?_⟩
    rw [run_write_custom, run_write_custom, Drawing.run_recorded, Drawing.drawn_recorded]

theorem Leaf.recorded_compile (leaf : Leaf) :
    Recorded (leaf.compile d config) (leaf.compile d.recorded config) := by
  intro s
  simp only [run_compile, show ∀ log, d.recorded.resolve (s, log) = d.resolve s from fun _ => rfl]
  cases leaf.plan (d.resolve s) config with
  | error e => exact ⟨[], fun log => by rw [List.append_nil]⟩
  | ok plan => exact plan.recorded_write d s

/-- **A recorded compilation goes as the plain one does.** -/
theorem Node.recorded_compile (node : Node) :
    Recorded (node.compile d config) (node.compile d.recorded config) := by
  induction node with
  | leaf leaf =>
    rw [Node.compile, Node.compile]
    exact leaf.recorded_compile d config
  | group glue rules ih =>
    have hall : Recorded (compileAll d config rules) (compileAll d.recorded config rules) := by
      induction rules with
      | nil =>
        rw [compileAll, compileAll]
        exact .pure []
      | cons rule rules ihr =>
        rw [compileAll, compileAll]
        refine (ih rule (List.mem_cons_self ..)).bind fun first => ?_
        exact (ihr fun r hr => ih r (List.mem_cons_of_mem _ hr)).bind fun rest => .pure _
    rw [Node.compile, Node.compile]
    exact hall.bind fun parts => .pure _

/-- The placeholders drawn while a filter is compiled, in order. -/
def Node.marks (node : Node) (s : σ) : List String :=
  (SqlFilter.compile d.recorded config node (s, [])).2.2

/-- **A record disturbs nothing**, and holds the placeholders drawn since the start of the
statement, whatever it held before. -/
theorem compile_recorded (node : Node) (s : σ) (log : List String) :
    compile d.recorded config node (s, log) =
      ((compile d config node s).1, (compile d config node s).2, node.marks d config s) := by
  obtain ⟨marks, hmarks⟩ := node.recorded_compile d config (d.reset s)
  have h : compile d.recorded config node (s, []) =
      ((compile d config node s).1, (compile d config node s).2, [] ++ marks) := hmarks []
  rw [Node.marks, h]
  exact hmarks []

end

/-! ### The same compilation -/

/-- Two compilations, of `a` under one configuration and of `b` under another one, have the
same result, whether it is a text with its values or an error, and leave the same state;
and they draw the same placeholders in the same order. -/
structure SameCompilation (d : Dialect σ) (config : Config) (a : Node) (config' : Config)
    (b : Node) : Prop where
  compile_eq : ∀ s, compile d config a s = compile d config' b s
  marks_eq : ∀ s, a.marks d config s = b.marks d config' s

/-- Filters that run alike in every dialect have the same compilation. -/
theorem SameCompilation.of_run {config config' : Config} {a b : Node}
    (h : ∀ {τ : Type} (d : Dialect τ) (s : τ),
      (a.compile d config).run s = (b.compile d config').run s) (d : Dialect σ) :
    SameCompilation d config a config' b where
  compile_eq s := h d (d.reset s)
  marks_eq s := congrArg (·.2.2) (h d.recorded (d.recorded.reset (s, [])))

end SqlFilter
