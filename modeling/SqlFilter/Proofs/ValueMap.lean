/-
# Values never reach the text

Two filters that differ in their values alone compile to the same text.  The values of
a filter are changed by a function `f` that maps `NULL`, and nothing else, to `NULL`:
in the operands of its leaves, in their membership lists, and in the operands that the
configuration gives a name to.  What is left of an operand then is its shape: whether
it is a scalar, a range or a list, how long the list is, and which bounds of the range
are present.  The shape decides on the condition and on the errors of count
(`Operator.condition_mapValues`), and the condition alone decides on the text
(`Condition.write_mapValues`).

A configured operation sees the values it is given, so nothing is said of the leaves
that run one.
-/

import SqlFilter.Dialect.Postgres
import SqlFilter.Proofs.Run

namespace SqlFilter

variable {σ : Type} (f : Value → Value)

/-! ### Changing the values -/

/-- An operand with its values changed. -/
def Operand.mapValues : Operand → Operand
  | scalar v => scalar (f v)
  | range start stop => range (start.map f) (stop.map f)
  | list items => list (items.map f)

/-- A leaf with its values changed. -/
def Leaf.mapValues (leaf : Leaf) : Leaf :=
  { leaf with
    operand := leaf.operand.map (·.mapValues f)
    includes := leaf.includes.map (·.map f) }

mutual

/-- A filter with its values changed. -/
def Node.mapValues : Node → Node
  | .leaf leaf => .leaf (leaf.mapValues f)
  | .group glue rules => .group glue (mapValuesAll rules)

/-- Several filters with their values changed. -/
def mapValuesAll : List Node → List Node
  | [] => []
  | node :: nodes => node.mapValues :: mapValuesAll nodes

end

/-- A configuration with the values of its named operands changed. -/
def Config.mapValues (config : Config) : Config :=
  { config with aliases := ⟨config.aliases.entries.map fun e => (e.1, e.2.mapValues f)⟩ }

/-- A condition with its values changed. -/
def Condition.mapValues : Condition → Condition
  | compare c v => compare c (f v)
  | pattern p negated v => pattern p negated (f v)
  | between negated start stop => between negated (f start) (f stop)
  | member items => member (items.map f)

/-- A plan with the values of its condition changed. -/
def Plan.mapValues : Plan → Plan
  | condition field c => condition field (c.mapValues f)
  | plan => plan

/-- A compiled piece with its values changed: the text stays. -/
def Compiled.mapValues (c : Compiled) : Compiled :=
  { c with values := c.values.map f }

/-! ### Operands and operators -/

section

variable {f} (hf : ∀ v, f v = .null ↔ v = .null)
include hf

theorem isNull_map (v : Value) : (f v).isNull = v.isNull := by
  rw [Bool.eq_iff_iff, Value.isNull_eq_true_iff, Value.isNull_eq_true_iff]
  exact hf v

/-- A bound stays present or absent. -/
theorem Operand.bound_map (v : Option Value) : bound (v.map f) = (bound v).map f := by
  cases v with
  | none => rfl
  | some v => cases h : v.isNull <;> simp [bound, Option.filter, isNull_map hf, h]

theorem Operand.values_mapValues (operand : Operand) :
    (operand.mapValues f).values = operand.values.map f := by
  cases operand with
  | scalar v => rfl
  | range start stop =>
    rw [mapValues, values, values, bound_map hf, bound_map hf, List.map_append]
    cases bound start <;> cases bound stop <;> rfl
  | list items => rfl

namespace Operator

theorem oneValue_mapValues (operand : Option Operand) :
    oneValue (operand.map (·.mapValues f)) = (oneValue operand).map f := by
  rcases operand with _ | v | ⟨start, stop⟩ | items
  · rfl
  · rfl
  · show Except.error ((Operand.range start stop).mapValues f).values.length = _
    rw [Operand.values_mapValues hf, List.length_map]
    rfl
  · rcases items with _ | ⟨v, _ | ⟨w, items⟩⟩
    · rfl
    · rfl
    · show Except.error ((v :: w :: items).map f).length = _
      rw [List.length_map]
      rfl

theorem bounds_mapValues (operand : Option Operand) :
    bounds (operand.map (·.mapValues f)) =
      (bounds operand).map fun b => (b.1.map f, b.2.map f) := by
  rcases operand with _ | v | ⟨start, stop⟩ | items
  · rfl
  · rfl
  · show Except.ok (Operand.bound (start.map f), Operand.bound (stop.map f)) = _
    rw [Operand.bound_map hf, Operand.bound_map hf]
    rfl
  · rcases items with _ | ⟨v, _ | ⟨w, _ | ⟨u, items⟩⟩⟩
    · rfl
    · rfl
    · show Except.ok (Operand.bound ((some v).map f), Operand.bound ((some w).map f)) = _
      rw [Operand.bound_map hf, Operand.bound_map hf]
      rfl
    · show Except.error ((v :: w :: u :: items).map f).length = _
      rw [List.length_map]
      rfl

omit hf in
theorem ofBounds_mapValues (negated : Bool) (start stop : Option Value) :
    Condition.ofBounds negated (start.map f) (stop.map f) =
      (Condition.ofBounds negated start stop).map (·.mapValues f) := by
  cases start <;> cases stop <;> rfl

theorem condition?_mapValues (op : Operator) (operand : Option Operand) :
    op.condition? (operand.map (·.mapValues f)) =
      (op.condition? operand).map (·.mapValues f) := by
  cases op with
  | compare c =>
    rw [condition?, condition?, oneValue_mapValues hf]
    cases oneValue operand <;> rfl
  | pattern p negated =>
    rw [condition?, condition?, oneValue_mapValues hf]
    cases oneValue operand <;> rfl
  | between negated =>
    cases hb : bounds operand with
    | error n => rw [condition?, condition?, bounds_mapValues hf, hb]; rfl
    | ok b =>
      obtain ⟨start, stop⟩ := b
      have hmap : bounds (operand.map (·.mapValues f)) = .ok (start.map f, stop.map f) := by
        rw [bounds_mapValues hf, hb]
        rfl
      rw [condition?_between hb, condition?_between hmap, ofBounds_mapValues]
      cases Condition.ofBounds negated start stop <;> rfl

/-- **The shape of an operand decides.**  An operator asks the same of operands that
differ in their values alone, and refuses them with the same error. -/
theorem condition_mapValues (op : Operator) (operand : Option Operand) :
    op.condition (operand.map (·.mapValues f)) =
      (op.condition operand).map (·.mapValues f) := by
  rw [condition, condition, condition?_mapValues hf]
  cases op.condition? operand <;> rfl

end Operator
end

/-! ### Leaves -/

theorem Config.find?_mapValues (config : Config) (name : String) :
    (config.mapValues f).aliases.find? name = (config.aliases.find? name).map (·.mapValues f) := by
  show (config.aliases.entries.map fun e => (e.1, e.2.mapValues f)).lookup name = _
  rw [Registry.find?]
  induction config.aliases.entries with
  | nil => rfl
  | cons e es ih =>
    obtain ⟨key, operand⟩ := e
    rw [List.map_cons, List.lookup_cons, List.lookup_cons, ih]
    cases name == key <;> rfl

namespace Leaf

theorem effectiveOperand_mapValues (config : Config) (leaf : Leaf) :
    (leaf.mapValues f).effectiveOperand (config.mapValues f) =
      (leaf.effectiveOperand config).map (·.mapValues f) := by
  show ((leaf.aliasName.bind (config.mapValues f).aliases.find?).or
    (leaf.operand.map (·.mapValues f))) = _
  rw [effectiveOperand]
  cases leaf.aliasName with
  | none => rfl
  | some name =>
    simp only [Option.bind_some, Config.find?_mapValues]
    cases config.aliases.find? name <;> rfl

theorem members_mapValues (leaf : Leaf) : (leaf.mapValues f).members = leaf.members.map f := by
  show (leaf.includes.map (·.map f)).getD [] = _
  rw [members]
  cases leaf.includes <;> rfl

variable {f}

/-- What an operator asks, if it is built in or not known at all. -/
theorem planOperator_mapValues (hf : ∀ v, f v = .null ↔ v = .null) {config : Config}
    {leaf : Leaf} (hl : Operator.ofName? leaf.operator = none →
      config.operations.find? leaf.operator = none) (field : FieldExpr) :
    (leaf.mapValues f).planOperator (config.mapValues f) field =
      (leaf.planOperator config field).map (·.mapValues f) := by
  rw [planOperator, planOperator, effectiveOperand_mapValues,
    show (leaf.mapValues f).operator = leaf.operator from rfl,
    show (config.mapValues f).operations = config.operations from rfl]
  cases hop : Operator.ofName? leaf.operator with
  | some op =>
    simp only [Operator.condition_mapValues hf]
    cases op.condition (leaf.effectiveOperand config) <;> rfl
  | none => simp only [hl hop]; rfl

/-- What a leaf asks of its field, unless it runs an operation. -/
theorem request_mapValues (hf : ∀ v, f v = .null ↔ v = .null) {config : Config} {leaf : Leaf}
    (hne : leaf.field.isEmpty = false) (hl : leaf.runsOperation config = false)
    (field : FieldExpr) :
    (leaf.mapValues f).request (config.mapValues f) field =
      (leaf.request config field).map (·.mapValues f) := by
  rw [request, request, members_mapValues, List.isEmpty_map,
    show (leaf.mapValues f).operator = leaf.operator from rfl]
  cases hm : leaf.members.isEmpty with
  | false => rfl
  | true =>
    cases ho : leaf.operator.isEmpty with
    | true => rfl
    | false =>
      refine planOperator_mapValues hf (fun hop => ?_) field
      simpa [runsOperation, hne, hm, ho, hop] using hl

theorem plan_mapValues (hf : ∀ v, f v = .null ↔ v = .null)
    (resolve : String → Except CompileError FieldExpr) {config : Config} {leaf : Leaf}
    (hl : leaf.runsOperation config = false) :
    (leaf.mapValues f).plan resolve (config.mapValues f) =
      (leaf.plan resolve config).map (·.mapValues f) := by
  rw [plan_eq, plan_eq, show (leaf.mapValues f).field = leaf.field from rfl,
    show (config.mapValues f).whitelist = config.whitelist from rfl,
    show (leaf.mapValues f).expression resolve (config.mapValues f) =
      leaf.expression resolve config from rfl]
  cases hne : leaf.field.isEmpty with
  | true => rfl
  | false =>
    cases config.whitelist.admits leaf.field with
    | false => rfl
    | true =>
      cases leaf.expression resolve config with
      | error e => rfl
      | ok field => exact request_mapValues hf hne hl field

end Leaf

/-! ### Writing -/

/-- Compiles to the same text, or fails in the same way, and leaves the same state. -/
def SameText (x y : Compilation σ Compiled) : Prop :=
  ∀ s, y.run s = ((x.run s).1.map (·.mapValues f), (x.run s).2)

/-- Children compile to the same texts, or fail in the same way. -/
def SameTexts (x y : Compilation σ (List Compiled)) : Prop :=
  ∀ s, y.run s = ((x.run s).1.map (·.map (·.mapValues f)), (x.run s).2)

variable (d : Dialect σ)

/-- **A condition's text does not depend on its values.** -/
theorem Condition.write_mapValues (s : σ) (field : FieldExpr) (c : Condition) :
    (c.mapValues f).write d s field = (·.mapValues f) <$> c.write d s field := by
  cases c with
  | compare c v => rfl
  | pattern p negated v =>
    show (d.pattern s p field.sql negated field.isJson >>= fun sql => pure _) = _ <$> (_ >>= _)
    rw [map_bind]
    rfl
  | between negated start stop => rfl
  | member items =>
    show (d.member s field.sql (items.map f).length >>= fun sql => pure _) = _ <$> (_ >>= _)
    rw [List.length_map, map_bind]
    rfl

theorem Plan.run_write_mapValues (plan : Plan) (hp : ∀ o drawing, plan ≠ .custom o drawing) :
    SameText f (plan.write d) ((plan.mapValues f).write d) := by
  intro s
  cases plan with
  | nothing => rfl
  | condition field c =>
    have h := Drawing.run_bind d.placeholder (c.write d s field)
      (fun out => pure (out.mapValues f)) s
    rw [← map_eq_pure_bind, ← Condition.write_mapValues] at h
    rw [mapValues, run_write_condition, run_write_condition, h]
    rfl
  | custom o drawing => exact absurd rfl (hp o drawing)

theorem Compiled.group_mapValues (glue : Glue) (parts : List Compiled) :
    Compiled.group glue (parts.map (·.mapValues f)) = (Compiled.group glue parts).mapValues f := by
  simp [Compiled.group, Compiled.mapValues, List.map_flatMap, List.flatMap_map, Function.comp_def]

section

variable {f} (hf : ∀ v, f v = .null ↔ v = .null) {config : Config}
include hf

theorem Leaf.compile_mapValues {leaf : Leaf} (hl : leaf.runsOperation config = false) :
    SameText f (leaf.compile d config) ((leaf.mapValues f).compile d (config.mapValues f)) := by
  intro s
  rw [run_compile, run_compile, plan_mapValues hf _ hl]
  cases hp : leaf.plan (d.resolve s) config with
  | error e => rfl
  | ok plan =>
    refine plan.run_write_mapValues f d (fun o drawing hc => ?_) s
    rcases plan_cases hp with ⟨rfl, -⟩ | ⟨field, c, -, -, -, rfl⟩ | ⟨_, _, ho, -⟩
    · cases hc
    · cases hc
    · rw [hl] at ho
      cases ho

omit hf in
/-- Children that compile to the same texts one by one do so together. -/
theorem compileAll_mapValues {rules : List Node}
    (h : ∀ rule ∈ rules, SameText f (rule.compile d config)
      ((rule.mapValues f).compile d (config.mapValues f))) :
    SameTexts f (compileAll d config rules)
      (compileAll d (config.mapValues f) (mapValuesAll f rules)) := by
  induction rules with
  | nil => exact fun s => rfl
  | cons rule rules ih =>
    intro s
    rw [mapValuesAll, run_compileAll_cons, run_compileAll_cons, h rule (List.mem_cons_self ..) s]
    rcases (rule.compile d config).run s with ⟨e | first, t⟩
    · rfl
    · simp only [Except.map, ih (fun r hr => h r (List.mem_cons_of_mem _ hr)) t]
      cases ((compileAll d config rules).run t).1 <;> rfl

theorem Node.compile_mapValues {node : Node}
    (hn : ∀ leaf ∈ node.leaves, leaf.runsOperation config = false) :
    SameText f (node.compile d config) ((node.mapValues f).compile d (config.mapValues f)) := by
  induction node with
  | leaf leaf =>
    intro s
    rw [mapValues, run_compile_leaf, run_compile_leaf]
    exact leaf.compile_mapValues d hf (hn leaf (by simp [leaves])) s
  | group glue rules ih =>
    intro s
    have h := compileAll_mapValues d fun rule hr => ih rule hr (forall_leaves_of_mem hn hr)
    rw [mapValues, run_compile_group, run_compile_group, h s]
    cases ((compileAll d config rules).run s).1 with
    | error e => rfl
    | ok parts =>
      show (Except.ok (Compiled.group glue (parts.map (·.mapValues f))), _) = _
      rw [Compiled.group_mapValues]
      rfl

end

/-- **Values never reach the text.**  Changing all values of a filter and of the named
operands by a function that keeps `NULL`, and only it, `NULL`, changes the values of
the result in the same way and nothing else: not the text, not the error, not the state
of the dialect.  This holds for every filter whose leaves ask for membership, for
built-in operators, for unknown operators or for nothing, in every dialect. -/
theorem compile_values_independent {σ : Type} (d : Dialect σ) {f : Value → Value}
    (hf : ∀ v, f v = .null ↔ v = .null) (config : Config) {node : Node}
    (hn : ∀ leaf ∈ node.leaves, leaf.runsOperation config = false) (s : σ) :
    compile d (config.mapValues f) (node.mapValues f) s =
      ((compile d config node s).1.map (·.mapValues f), (compile d config node s).2) :=
  node.compile_mapValues d hf hn (d.reset s)

/-- Hides all values but `NULL`. -/
def Value.masked : Value → Value
  | .null => .null
  | _ => .bool true

theorem Value.masked_eq_null_iff (v : Value) : v.masked = .null ↔ v = .null := by
  cases v <;> simp [masked]

/-- A range with one bound, taken by name, and a membership list with a `NULL` in it keep
their texts when the values are masked. -/
theorem compile_values_independent_masked :
    compile postgres
        (Config.mapValues Value.masked
          { aliases := ⟨[("recent", .range (some (.str "2024")) (some .null))]⟩ })
        (Node.mapValues Value.masked
          (.group .and
            [.leaf { field := "a", operator := "between", aliasName := some "recent" },
              .leaf { field := "b", includes := some [.null, .int 7] }])) 4 =
      (.ok ⟨"( a > $1 AND b IN($2,$3) )", [.bool true, .null, .bool true]⟩, 3) := by
  rw [compile_values_independent postgres Value.masked_eq_null_iff]
  · rfl
  · decide

end SqlFilter
