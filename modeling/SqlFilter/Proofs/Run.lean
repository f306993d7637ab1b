/-
# Runs of the compiler

How a compilation proceeds, as equations on runs: a leaf is planned and its plan
is written (`Leaf.run_compile`, `Plan.run_write`), a group runs its children one
after the other and stops at the first that fails (`Node.run_compile_group`,
`run_compileAll_cons`).  `Leaf.plan_eq_ok` says everything that a successful plan
can be.  Theorems about filters go by `Node.induction` and these equations, and
do not open the compiler again.
-/

import SqlFilter.Filter.Compile

namespace SqlFilter

variable {σ : Type}

/-! ### Trees -/

/-- **Induction on filters.**  A property of every leaf that passes from the
children of a group to the group is a property of every filter. -/
@[induction_eliminator]
theorem Node.induction {P : Node → Prop} (leaf : ∀ l, P (.leaf l))
    (group : ∀ glue rules, (∀ rule ∈ rules, P rule) → P (.group glue rules)) :
    ∀ node, P node
  | .leaf l => leaf l
  | .group glue rules => group glue rules fun rule _ => Node.induction leaf group rule

mutual

/-- The leaves of a filter, from left to right. -/
def Node.leaves : Node → List Leaf
  | .leaf l => [l]
  | .group _ rules => leavesAll rules

/-- The leaves of the children of a group. -/
def leavesAll : List Node → List Leaf
  | [] => []
  | node :: nodes => node.leaves ++ leavesAll nodes

end

theorem mem_leavesAll {l : Leaf} {nodes : List Node} :
    l ∈ leavesAll nodes ↔ ∃ node ∈ nodes, l ∈ node.leaves := by
  induction nodes with
  | nil => simp [leavesAll]
  | cons node nodes ih => simp [leavesAll, ih]

/-- What all leaves of a group have, all leaves of a child have. -/
theorem Node.forall_leaves_of_mem {P : Leaf → Prop} {glue : Glue} {rules : List Node}
    (h : ∀ l ∈ (Node.group glue rules).leaves, P l) {rule : Node} (hr : rule ∈ rules) :
    ∀ l ∈ rule.leaves, P l := by
  intro l hl
  exact h l (mem_leavesAll.2 ⟨rule, hr, hl⟩)

/-! ### Leaves -/

namespace Leaf

/-- The membership values of a leaf; there are none if the list is absent. -/
def members (leaf : Leaf) : List Value :=
  leaf.includes.getD []

/-- Whether a leaf is left to a configured operation: it has a field and an
operator that is not built in, and no membership values take its place. -/
def runsOperation (config : Config) (leaf : Leaf) : Bool :=
  !leaf.field.isEmpty && leaf.members.isEmpty && !leaf.operator.isEmpty &&
    (Operator.ofName? leaf.operator).isNone && (config.operations.find? leaf.operator).isSome

/-- The field of a leaf as its text has it: resolved, and wrapped by the leaf's
predicate. -/
def expression (resolve : String → Except CompileError FieldExpr) (config : Config)
    (leaf : Leaf) : Except CompileError FieldExpr := do
  wrap config leaf.predicate (← resolve leaf.field)

/-- What a leaf asks of its field, once the field is known: membership, nothing, or
what its operator asks. -/
def request (config : Config) (leaf : Leaf) (field : FieldExpr) : Except CompileError Plan :=
  if !leaf.members.isEmpty then .ok (.condition field (.member leaf.members))
  else if leaf.operator.isEmpty then .ok .nothing
  else leaf.planOperator config field

/-- A plan finds out the field, and then what is asked of it. -/
theorem plan_eq (resolve : String → Except CompileError FieldExpr) (config : Config) (leaf : Leaf) :
    leaf.plan resolve config =
      if leaf.field.isEmpty then .ok .nothing
      else if !config.whitelist.admits leaf.field then .error (.fieldRejected leaf.field)
      else (leaf.expression resolve config).bind (leaf.request config) := by
  unfold plan expression request members
  cases resolve leaf.field with
  | error e => rfl
  | ok raw => rcases leaf.includes with _ | _ | ⟨item, items⟩ <;> rfl

/-- A planned leaf that has a field has found out the field's expression. -/
theorem exists_expression_of_plan {resolve : String → Except CompileError FieldExpr}
    {config : Config} {leaf : Leaf} {p : Plan} (h : leaf.plan resolve config = .ok p)
    (hf : leaf.field ≠ "") : ∃ field, leaf.expression resolve config = .ok field := by
  rw [plan_eq, if_neg (by simpa using hf)] at h
  split at h
  · cases h
  · cases hx : leaf.expression resolve config with
    | error e => rw [hx] at h; cases h
    | ok field => exact ⟨field, rfl⟩

/-- **What a planned leaf asks for.**  Either nothing, or a condition on the field's
expression, or the run of a configured operation. -/
theorem plan_eq_ok {resolve : String → Except CompileError FieldExpr} {config : Config}
    {leaf : Leaf} {p : Plan} (h : leaf.plan resolve config = .ok p) :
    (p = .nothing ∧ (leaf.field = "" ∨ leaf.members = [] ∧ leaf.operator = "")) ∨
      ∃ field, leaf.field ≠ "" ∧ leaf.expression resolve config = .ok field ∧
        ((leaf.members ≠ [] ∧ p = .condition field (.member leaf.members)) ∨
          (leaf.members = [] ∧ leaf.operator ≠ "" ∧ leaf.planOperator config field = .ok p)) := by
  rw [plan_eq] at h
  split at h
  · rename_i hf
    exact .inl ⟨(Except.ok.inj h).symm, .inl (by simpa using hf)⟩
  · rename_i hf
    split at h
    · cases h
    · cases hx : leaf.expression resolve config with
      | error e => rw [hx] at h; cases h
      | ok field =>
        rw [hx] at h
        have h : leaf.request config field = .ok p := h
        have hf : leaf.field ≠ "" := by simpa using hf
        rw [request] at h
        split at h
        · rename_i hm
          exact .inr ⟨field, hf, rfl, .inl ⟨by simpa using hm, (Except.ok.inj h).symm⟩⟩
        · rename_i hm
          have hm : leaf.members = [] := by simpa using hm
          split at h
          · rename_i ho
            exact .inl ⟨(Except.ok.inj h).symm, .inr ⟨hm, by simpa using ho⟩⟩
          · rename_i ho
            exact .inr ⟨field, hf, rfl, .inr ⟨hm, by simpa using ho, h⟩⟩

/-- What a planned operator asks for. -/
theorem planOperator_eq_ok {config : Config} {leaf : Leaf} {field : FieldExpr} {p : Plan}
    (h : leaf.planOperator config field = .ok p) :
    (∃ op c, Operator.ofName? leaf.operator = some op ∧
        op.condition (leaf.effectiveOperand config) = .ok c ∧ p = .condition field c) ∨
      ∃ operation, Operator.ofName? leaf.operator = none ∧
        config.operations.find? leaf.operator = some operation ∧
        p = .custom leaf.operator (operation field.sql leaf.operator
          (Operand.arguments (leaf.effectiveOperand config))) := by
  rw [planOperator] at h
  cases hop : Operator.ofName? leaf.operator with
  | some op =>
    rw [hop] at h
    cases hc : op.condition (leaf.effectiveOperand config) with
    | error e => simp only [hc] at h; cases h
    | ok c =>
      simp only [hc] at h
      exact .inl ⟨op, c, rfl, hc, (Except.ok.inj h).symm⟩
  | none =>
    simp only [hop] at h
    cases ho : config.operations.find? leaf.operator with
    | none => simp only [ho] at h; cases h
    | some operation =>
      simp only [ho] at h
      exact .inr ⟨operation, rfl, rfl, (Except.ok.inj h).symm⟩

/-- What a leaf asks of its field: membership in its values, if it has any, and
otherwise the condition of its built-in operator. -/
def Asks (config : Config) (leaf : Leaf) (c : Condition) : Prop :=
  (leaf.members ≠ [] ∧ c = .member leaf.members) ∨
    (leaf.members = [] ∧ leaf.operator ≠ "" ∧ ∃ op, Operator.ofName? leaf.operator = some op ∧
      op.condition (leaf.effectiveOperand config) = .ok c)

/-- **What a planned leaf is.**  Its plan is nothing, or a condition that the leaf asks
for, or the run of an operation. -/
theorem plan_cases {resolve : String → Except CompileError FieldExpr} {config : Config}
    {leaf : Leaf} {p : Plan} (h : leaf.plan resolve config = .ok p) :
    (p = .nothing ∧ (leaf.field = "" ∨ leaf.members = [] ∧ leaf.operator = "")) ∨
      (∃ field c, leaf.field ≠ "" ∧ leaf.expression resolve config = .ok field ∧
        leaf.Asks config c ∧ p = .condition field c) ∨
      ∃ operator drawing, leaf.runsOperation config = true ∧ p = .custom operator drawing := by
  rcases plan_eq_ok h with hn | ⟨field, hf, hx, ⟨hm, rfl⟩ | ⟨hm, ho, hp⟩⟩
  · exact .inl hn
  · exact .inr (.inl ⟨field, _, hf, hx, .inl ⟨hm, rfl⟩, rfl⟩)
  · rcases planOperator_eq_ok hp with ⟨op, c, hop, hc, rfl⟩ | ⟨operation, hop, hfind, rfl⟩
    · exact .inr (.inl ⟨field, c, hf, hx, .inr ⟨hm, ho, op, hop, hc⟩, rfl⟩)
    · refine .inr (.inr ⟨_, _, ?_, rfl⟩)
      simp [runsOperation, hf, hm, ho, hop, hfind]

/-- A leaf that asks for a condition is planned as that condition on its field, if the
field is admitted and known. -/
theorem plan_of_asks {resolve : String → Except CompileError FieldExpr} {config : Config}
    {leaf : Leaf} {field : FieldExpr} {c : Condition} (hf : leaf.field ≠ "")
    (hadmits : config.whitelist.admits leaf.field = true)
    (hx : leaf.expression resolve config = .ok field) (h : leaf.Asks config c) :
    leaf.plan resolve config = .ok (.condition field c) := by
  rw [plan_eq, if_neg (by simpa using hf), hadmits, if_neg (by decide), hx]
  show leaf.request config field = _
  rw [request]
  rcases h with ⟨hm, rfl⟩ | ⟨hm, ho, op, hop, hc⟩
  · rw [if_pos (by simpa using hm)]
  · rw [if_neg (by simp [hm]), if_neg (by simpa using ho), planOperator, hop]
    simp only [hc]
    rfl

end Leaf

/-! ### Conditions -/

namespace Condition

/-- The values a condition binds, in the order of their placeholders. -/
def values : Condition → List Value
  | compare _ v => [v]
  | pattern _ _ v => [v]
  | between _ start stop => [start, stop]
  | member items => items

/-- The condition of a range binds a value. -/
theorem values_ne_nil_of_ofBounds {negated : Bool} {start stop : Option Value} {c : Condition}
    (h : ofBounds negated start stop = some c) : c.values ≠ [] := by
  cases start <;> cases stop <;> cases h <;> simp [values]

/-- Writing a condition binds its values, whatever the placeholders are. -/
@[simp] theorem values_run_write (d : Dialect σ) (s : σ) (field : FieldExpr) (c : Condition)
    (source : σ → String × σ) (t : σ) :
    ((c.write d s field).run source t).1.values = c.values := by
  cases c with
  | compare c v => rfl
  | pattern p negated v => rw [write, Drawing.run_bind]; rfl
  | between negated start stop => rfl
  | member items => rw [write, Drawing.run_bind]; rfl

end Condition

/-- A range asks for the condition of its bounds, and needs one. -/
theorem Operator.condition?_between {operand : Option Operand} {start stop : Option Value}
    (hb : bounds operand = .ok (start, stop)) (negated : Bool) :
    (between negated).condition? operand =
      (Condition.ofBounds negated start stop).elim (.error 0) .ok := by
  rw [condition?, hb]
  cases h : Condition.ofBounds negated start stop <;> simp [bind, Except.bind, h]

/-- **The condition of an operator**: on its one value, or on the bounds that there
are. -/
theorem Operator.condition_eq_ok {op : Operator} {operand : Option Operand} {c : Condition}
    (h : op.condition operand = .ok c) :
    (∃ v, oneValue operand = .ok v ∧ ((∃ k, op = .compare k ∧ c = .compare k v) ∨
      ∃ p negated, op = .pattern p negated ∧ c = .pattern p negated v)) ∨
    ∃ negated start stop, op = .between negated ∧ bounds operand = .ok (start, stop) ∧
      Condition.ofBounds negated start stop = some c := by
  rw [condition] at h
  cases hc : op.condition? operand with
  | error n => rw [hc] at h; cases h
  | ok c' =>
    rw [hc] at h
    obtain rfl : c' = c := Except.ok.inj h
    cases op with
    | compare k =>
      cases hv : oneValue operand with
      | error n => simp [condition?, hv, Except.map] at hc
      | ok v =>
        simp only [condition?, hv, Except.map, Except.ok.injEq] at hc
        exact .inl ⟨v, rfl, .inl ⟨k, rfl, hc.symm⟩⟩
    | pattern p negated =>
      cases hv : oneValue operand with
      | error n => simp [condition?, hv, Except.map] at hc
      | ok v =>
        simp only [condition?, hv, Except.map, Except.ok.injEq] at hc
        exact .inl ⟨v, rfl, .inr ⟨p, negated, rfl, hc.symm⟩⟩
    | between negated =>
      cases hb : bounds operand with
      | error n => rw [condition?, hb] at hc; cases hc
      | ok b =>
        obtain ⟨start, stop⟩ := b
        rw [condition?_between hb] at hc
        cases ho : Condition.ofBounds negated start stop with
        | none => rw [ho] at hc; cases hc
        | some c =>
          rw [ho] at hc
          obtain rfl := Except.ok.inj hc
          exact .inr ⟨negated, start, stop, rfl, rfl, ho⟩

/-- A leaf does not ask for a condition without values. -/
theorem Leaf.Asks.values_ne_nil {config : Config} {leaf : Leaf} {c : Condition}
    (h : leaf.Asks config c) : c.values ≠ [] := by
  rcases h with ⟨hm, rfl⟩ | ⟨-, -, op, -, hc⟩
  · exact hm
  · rcases op.condition_eq_ok hc with
      ⟨v, -, ⟨k, -, rfl⟩ | ⟨p, negated, -, rfl⟩⟩ | ⟨_, _, _, -, -, hb⟩
    · simp [Condition.values]
    · simp [Condition.values]
    · exact Condition.values_ne_nil_of_ofBounds hb

/-! ### Runs -/

variable (d : Dialect σ) (config : Config)

@[simp] theorem Plan.run_write_nothing (s : σ) :
    (Plan.nothing.write d).run s = (.ok {}, s) := rfl

@[simp] theorem Plan.run_write_condition (field : FieldExpr) (c : Condition) (s : σ) :
    ((Plan.condition field c).write d).run s =
      (.ok ((c.write d s field).run d.placeholder s).1,
        ((c.write d s field).run d.placeholder s).2) := rfl

@[simp] theorem Plan.run_write_custom (operator : String)
    (drawing : Drawing (Except CompileError (String × List Value))) (s : σ) :
    ((Plan.custom operator drawing).write d).run s =
      (checked operator ((drawing.run d.placeholder s).1, drawing.drawn d.placeholder s),
        (drawing.run d.placeholder s).2) := by
  show (checked operator (drawing.counted.run d.placeholder s).1,
    (drawing.counted.run d.placeholder s).2) = _
  rw [Drawing.run_counted]

theorem Leaf.run_compile (leaf : Leaf) (s : σ) :
    (leaf.compile d config).run s =
      match leaf.plan (d.resolve s) config with
      | .error e => (.error e, s)
      | .ok plan => (plan.write d).run s := by
  rw [Leaf.compile]
  show (match leaf.plan (d.resolve s) config with
    | .error e => throw e
    | .ok plan => plan.write d : Compilation σ Compiled).run s = _
  cases leaf.plan (d.resolve s) config <;> rfl

theorem Node.run_compile_leaf (leaf : Leaf) (s : σ) :
    ((Node.leaf leaf).compile d config).run s = (leaf.compile d config).run s := by
  rw [Node.compile]

theorem Compilation.run_bind {α β : Type} (x : Compilation σ α) (f : α → Compilation σ β) (s : σ) :
    (x >>= f).run s =
      match x.run s with
      | (.error e, t) => (.error e, t)
      | (.ok a, t) => (f a).run t := by
  show ExceptT.bindCont f (x.run s).1 (x.run s).2 = _
  rcases x.run s with ⟨e | a, t⟩ <;> rfl

theorem Node.run_compile_group (glue : Glue) (rules : List Node) (s : σ) :
    ((Node.group glue rules).compile d config).run s =
      (((compileAll d config rules).run s).1.map (Compiled.group glue),
        ((compileAll d config rules).run s).2) := by
  rw [Node.compile, Compilation.run_bind]
  rcases (compileAll d config rules).run s with ⟨e | parts, t⟩ <;> rfl

@[simp] theorem run_compileAll_nil (s : σ) :
    (compileAll d config []).run s = (.ok [], s) := by
  rw [compileAll]; rfl

theorem run_compileAll_cons (node : Node) (nodes : List Node) (s : σ) :
    (compileAll d config (node :: nodes)).run s =
      match (node.compile d config).run s with
      | (.error e, t) => (.error e, t)
      | (.ok first, t) =>
        (((compileAll d config nodes).run t).1.map (first :: ·),
          ((compileAll d config nodes).run t).2) := by
  rw [compileAll, Compilation.run_bind]
  rcases (node.compile d config).run s with ⟨e | first, t⟩
  · rfl
  · simp only [Compilation.run_bind]
    rcases (compileAll d config nodes).run t with ⟨e | rest, u⟩ <;> rfl

variable {d config}

/-- A group that compiles is the group of its parts. -/
theorem Node.exists_of_run_compile_group {glue : Glue} {rules : List Node} {s t : σ} {c : Compiled}
    (h : ((Node.group glue rules).compile d config).run s = (.ok c, t)) :
    ∃ parts, (compileAll d config rules).run s = (.ok parts, t) ∧ c = Compiled.group glue parts := by
  rw [run_compile_group] at h
  rcases hparts : (compileAll d config rules).run s with ⟨e | parts, u⟩
  · rw [hparts] at h
    cases h
  · rw [hparts] at h
    obtain ⟨hc, rfl⟩ := Prod.mk.inj h
    exact ⟨parts, rfl, (Except.ok.inj hc).symm⟩

/-- **Children that compile** do so one after the other. -/
theorem exists_of_run_compileAll_cons {rule : Node} {rules : List Node} {s t : σ}
    {parts : List Compiled} (h : (compileAll d config (rule :: rules)).run s = (.ok parts, t)) :
    ∃ first rest u, (rule.compile d config).run s = (.ok first, u) ∧
      (compileAll d config rules).run u = (.ok rest, t) ∧ parts = first :: rest := by
  rw [run_compileAll_cons] at h
  rcases hrule : (rule.compile d config).run s with ⟨e | first, u⟩
  · rw [hrule] at h
    cases h
  · rw [hrule] at h
    rcases hrest : (compileAll d config rules).run u with ⟨e | rest, v⟩
    · simp only [hrest] at h
      cases h
    · simp only [hrest] at h
      obtain ⟨hparts, rfl⟩ := Prod.mk.inj h
      exact ⟨first, rest, u, rfl, hrest, (Except.ok.inj hparts).symm⟩

variable (d config)

/-- The parts of a group are what its children compile to, each from some state. -/
theorem exists_run_of_mem_compileAll {rules : List Node} {s t : σ} {parts : List Compiled}
    (h : (compileAll d config rules).run s = (.ok parts, t)) {part : Compiled}
    (hpart : part ∈ parts) :
    ∃ rule ∈ rules, ∃ u v, (rule.compile d config).run u = (.ok part, v) := by
  induction rules generalizing s t parts with
  | nil =>
    obtain rfl := Except.ok.inj (Prod.mk.inj h).1
    cases hpart
  | cons rule rules ih =>
    obtain ⟨first, rest, u, hrule, hrest, rfl⟩ := exists_of_run_compileAll_cons h
    rcases List.mem_cons.1 hpart with rfl | hpart
    · exact ⟨rule, List.mem_cons_self .., s, u, hrule⟩
    · obtain ⟨r, hr, hrun⟩ := ih hrest hpart
      exact ⟨r, List.mem_cons_of_mem _ hr, hrun⟩

end SqlFilter
