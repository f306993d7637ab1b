/-
# Ranges are comparisons

A range is a manner of speaking.  With two bounds it stands for a group of two comparisons
of its field, and with one bound for one comparison (`Leaf.spelledOut`):

| operator | `start` only | `stop` only | both |
| --- | --- | --- | --- |
| `between` | `greater start` | `less stop` | `and` of `greater start`, `less stop` |
| `notBetween` | `less start` | `greater stop` | `or` of `less start`, `greater stop` |

A leaf and what it stands for have the same field and the same predicate, so they have the
same field's expression or fail for the same reason before anything is asked of it
(`Leaf.plan_of_sameField`).  What they write is the same text, with the same placeholders
drawn in the same order (`Leaf.run_spelledOut`).  Every leaf of a filter stands in a place
of it (`Surroundings.exists_of_mem_leaves`), and the filter sees nothing of what stands there
but what it compiles to (`Surroundings.run_fill_congr`).
-/

import SqlFilter.Proofs.Meaning
import SqlFilter.Proofs.Metering

namespace SqlFilter

variable {σ : Type}

/-! ### Parts of a filter -/

/-- A filter with a place left open in it. -/
inductive Surroundings where
  | here
  | group (glue : Glue) (before : List Node) (inside : Surroundings) (after : List Node)

namespace Surroundings

/-- A filter in the open place. -/
def fill : Surroundings → Node → Node
  | here, node => node
  | group glue before inside after, node => .group glue (before ++ inside.fill node :: after)

/-- Every leaf of a filter stands in a place of it. -/
theorem exists_of_mem_leaves {node : Node} {leaf : Leaf} (h : leaf ∈ node.leaves) :
    ∃ outside : Surroundings, node = outside.fill (.leaf leaf) := by
  induction node with
  | leaf l =>
    obtain rfl := List.mem_singleton.1 h
    exact ⟨here, rfl⟩
  | group glue rules ih =>
    obtain ⟨rule, hrule, hleaf⟩ := mem_leavesAll.1 h
    obtain ⟨before, after, rfl⟩ := List.append_of_mem hrule
    obtain ⟨inside, hinside⟩ := ih rule hrule hleaf
    exact ⟨group glue before inside after, by rw [fill, ← hinside]⟩

variable {d : Dialect σ} {config : Config} {a b : Node}

theorem run_compileAll_congr (h : ∀ s, (a.compile d config).run s = (b.compile d config).run s)
    (before after : List Node) (s : σ) :
    (compileAll d config (before ++ a :: after)).run s =
      (compileAll d config (before ++ b :: after)).run s := by
  induction before generalizing s with
  | nil => rw [List.nil_append, List.nil_append, run_compileAll_cons, run_compileAll_cons, h]
  | cons node before ih =>
    rw [List.cons_append, List.cons_append, run_compileAll_cons, run_compileAll_cons]
    simp only [ih]

/-- **A filter sees nothing of its parts** but what they compile to. -/
theorem run_fill_congr (h : ∀ s, (a.compile d config).run s = (b.compile d config).run s)
    (outside : Surroundings) (s : σ) :
    ((outside.fill a).compile d config).run s = ((outside.fill b).compile d config).run s := by
  induction outside generalizing s with
  | here => exact h s
  | group glue before inside after ih =>
    rw [fill, fill, Node.run_compile_group, Node.run_compile_group,
      run_compileAll_congr ih before after]

end Surroundings

/-- Two filters compile to the same result and the same state, and draw as many
placeholders. -/
def Node.CompilesAs (d : Dialect σ) (config : Config) (a b : Node) : Prop :=
  (∀ s, SqlFilter.compile d config a s = SqlFilter.compile d config b s) ∧
    ∀ s n, SqlFilter.compile d.metered config a (s, n) = SqlFilter.compile d.metered config b (s, n)

/-! ### Leaves with the same field -/

namespace Leaf

/-- A leaf names the same field as another one, and the same predicate for it. -/
structure SameField (leaf other : Leaf) : Prop where
  field : other.field = leaf.field
  predicate : other.predicate = leaf.predicate

/-- **The front of a plan** is settled by the field and its predicate: either they settle
the whole plan, or they give the expression of which something is asked. -/
theorem plan_of_sameField (resolve : String → Except CompileError FieldExpr) (config : Config)
    (leaf : Leaf) :
    (∃ p, (p = .ok .nothing ∨ ∃ e, p = .error e) ∧
        ∀ other, leaf.SameField other → other.plan resolve config = p) ∨
      ∃ field, ∀ other, leaf.SameField other →
        other.plan resolve config = other.request config field := by
  by_cases hf : leaf.field.isEmpty
  · refine .inl ⟨_, .inl rfl, fun other h => ?_⟩
    rw [plan_eq, h.field, if_pos hf]
  · by_cases hw : config.whitelist.admits leaf.field
    · have hplan : ∀ other, leaf.SameField other →
          other.plan resolve config =
            (leaf.expression resolve config).bind (other.request config) := by
        intro other h
        rw [plan_eq, expression, h.field, h.predicate, if_neg hf, if_neg (by simp [hw]), expression]
      cases hx : leaf.expression resolve config with
      | error e => exact .inl ⟨_, .inr ⟨e, rfl⟩, fun other h => by rw [hplan other h, hx]; rfl⟩
      | ok field => exact .inr ⟨field, fun other h => by rw [hplan other h, hx]; rfl⟩
    · refine .inl ⟨_, .inr ⟨.fieldRejected leaf.field, rfl⟩, fun other h => ?_⟩
      rw [plan_eq, h.field, if_neg hf, if_pos (by simp [hw])]

/-- Leaves that ask the same of the same field compile alike. -/
theorem run_compile_congr {d : Dialect σ} {config : Config} {leaf other : Leaf}
    (hfield : leaf.SameField other)
    (hrequest : ∀ field, other.request config field = leaf.request config field) (s : σ) :
    (leaf.compile d config).run s = (other.compile d config).run s := by
  have hplan : leaf.plan (d.resolve s) config = other.plan (d.resolve s) config := by
    rcases leaf.plan_of_sameField (d.resolve s) config with ⟨p, -, hp⟩ | ⟨field, hp⟩
    · rw [hp leaf ⟨rfl, rfl⟩, hp other hfield]
    · rw [hp leaf ⟨rfl, rfl⟩, hp other hfield, hrequest]
  rw [run_compile, run_compile, hplan]

/-! ### Ranges -/

/-- The comparison of the field of a leaf with one value. -/
def comparing (leaf : Leaf) (c : Comparison) (v : Value) : Leaf where
  field := leaf.field
  predicate := leaf.predicate
  operator := (Operator.compare c).name
  operand := some (.scalar v)

theorem sameField_comparing (leaf : Leaf) (c : Comparison) (v : Value) :
    leaf.SameField (leaf.comparing c v) :=
  ⟨rfl, rfl⟩

/-- A comparison asks for itself. -/
theorem request_comparing (config : Config) (leaf : Leaf) (c : Comparison) (v : Value)
    (field : FieldExpr) :
    (leaf.comparing c v).request config field = .ok (.condition field (.compare c v)) := by
  cases c <;> rfl

/-- What a range on the field of a leaf stands for; nothing if it has no bound. -/
def spelledOut (leaf : Leaf) : (negated : Bool) → (start stop : Option Value) → Option Node
  | false, some start, some stop =>
    some (.group .and [.leaf (leaf.comparing .greater start), .leaf (leaf.comparing .less stop)])
  | true, some start, some stop =>
    some (.group .or [.leaf (leaf.comparing .less start), .leaf (leaf.comparing .greater stop)])
  | false, some start, none => some (.leaf (leaf.comparing .greater start))
  | true, some start, none => some (.leaf (leaf.comparing .less start))
  | false, none, some stop => some (.leaf (leaf.comparing .less stop))
  | true, none, some stop => some (.leaf (leaf.comparing .greater stop))
  | _, none, none => none

section

variable {config : Config} {leaf : Leaf} {negated : Bool}
  (ho : leaf.operator = (Operator.between negated).name) (hm : leaf.members = [])
include ho hm

/-- What a range asks of its field is a matter of its bounds. -/
theorem request_between {start stop : Option Value}
    (hb : Operator.bounds (leaf.effectiveOperand config) = .ok (start, stop)) (field : FieldExpr) :
    leaf.request config field =
      (Condition.ofBounds negated start stop).elim
        (.error (.wrongCount (Operator.between negated).name 2 0)) (.ok <| .condition field ·) := by
  have hne : leaf.operator.isEmpty = false := by
    rw [ho]
    cases negated <;> rfl
  have hop : Operator.ofName? leaf.operator = some (.between negated) :=
    Operator.ofName?_eq_some_iff.2 ho.symm
  rw [request, hm, hne, planOperator, hop]
  simp only [Operator.condition, Operator.condition?_between hb]
  cases Condition.ofBounds negated start stop <;> rfl

/-- **A range with two bounds** compiles as the group of its two comparisons.  The second
of them is compiled when the first one has drawn its placeholder. -/
theorem run_between {d : Dialect σ} (hd : d.Steady) {start stop : Value}
    (hb : Operator.bounds (leaf.effectiveOperand config) = .ok (some start, some stop)) (s : σ) :
    (leaf.compile d config).run s =
      ((Node.group (rangeSides negated).2.1
        [.leaf (leaf.comparing (rangeSides negated).1 start),
          .leaf (leaf.comparing (rangeSides negated).2.2 stop)]).compile d config).run s := by
  have hrequest : ∀ field, leaf.request config field =
      .ok (.condition field (.between negated start stop)) :=
    fun field => request_between ho hm hb field
  simp only [Node.run_compile_group, run_compileAll_cons, run_compileAll_nil,
    Node.run_compile_leaf, run_compile]
  have hsame := leaf.sameField_comparing
  rcases leaf.plan_of_sameField (d.resolve s) config with ⟨p, hp, hplan⟩ | ⟨field, hplan⟩
  · rw [hplan leaf ⟨rfl, rfl⟩, hplan _ (hsame _ _)]
    rcases hp with rfl | ⟨e, rfl⟩
    · simp only [Plan.run_write_nothing]
      rw [hplan _ (hsame _ _)]
      cases negated <;> rfl
    · rfl
  · have hnext : d.resolve (d.placeholder s).2 = d.resolve s := hd.resolve_after 1 s
    rw [hplan leaf ⟨rfl, rfl⟩, hplan _ (hsame _ _), hrequest, request_comparing]
    simp only [Plan.run_write_condition, Condition.write, Condition.writeComparison,
      Drawing.placeholder, Drawing.next_bind, Drawing.done_bind, Drawing.pure_eq_done, Drawing.run,
      hnext, hplan _ (hsame _ _), request_comparing]
    simp [Except.map, Compiled.group, Glue.join, String.intercalate_cons_cons, String.append_assoc]

end

/-- The bounds of an operand, if they make a condition. -/
theorem bounds_of_ofBounds {negated : Bool} {operand : Operand} {c : Condition}
    (h : Condition.ofBounds negated operand.limits.1 operand.limits.2 = some c) :
    Operator.bounds (some operand) = .ok operand.limits := by
  unfold Operand.limits at h ⊢
  split at h
  · rfl
  · rfl
  · cases h

/-- What a range stands for: the one comparison that it asks for, or the group of two. -/
theorem spelledOut_eq_some {leaf : Leaf} {negated : Bool} {start stop : Option Value} {node : Node}
    (h : leaf.spelledOut negated start stop = some node) :
    (∃ c v, Condition.ofBounds negated start stop = some (.compare c v) ∧
        node = .leaf (leaf.comparing c v)) ∨
      ∃ lower upper, start = some lower ∧ stop = some upper ∧
        node = .group (rangeSides negated).2.1
          [.leaf (leaf.comparing (rangeSides negated).1 lower),
            .leaf (leaf.comparing (rangeSides negated).2.2 upper)] := by
  unfold spelledOut at h
  split at h <;> cases h
  · exact .inr ⟨_, _, rfl, rfl, rfl⟩
  · exact .inr ⟨_, _, rfl, rfl, rfl⟩
  · exact .inl ⟨_, _, rfl, rfl⟩
  · exact .inl ⟨_, _, rfl, rfl⟩
  · exact .inl ⟨_, _, rfl, rfl⟩
  · exact .inl ⟨_, _, rfl, rfl⟩

/-- **A range compiles as what it stands for.** -/
theorem run_spelledOut {d : Dialect σ} (hd : d.Steady) {config : Config} {leaf : Leaf}
    {negated : Bool} (ho : leaf.operator = (Operator.between negated).name)
    (hm : leaf.members = []) {operand : Operand}
    (heff : leaf.effectiveOperand config = some operand) {node : Node}
    (hnode : leaf.spelledOut negated operand.limits.1 operand.limits.2 = some node) (s : σ) :
    (leaf.compile d config).run s = (node.compile d config).run s := by
  rcases spelledOut_eq_some hnode with ⟨c, v, hc, rfl⟩ | ⟨lower, upper, hlower, hupper, rfl⟩
  · have hb := bounds_of_ofBounds hc
    rw [Node.run_compile_leaf]
    refine run_compile_congr (leaf.sameField_comparing c v) (fun field => ?_) s
    rw [request_between ho hm (by rw [heff, hb]), hc, request_comparing]
    rfl
  · have hc : Condition.ofBounds negated operand.limits.1 operand.limits.2 =
        some (.between negated lower upper) := by rw [hlower, hupper]; rfl
    have hb := bounds_of_ofBounds hc
    refine run_between ho hm hd ?_ s
    rw [heff, hb, ← hlower, ← hupper]

end Leaf

/-- Leaves that compile alike can stand for one another in a filter, with and without a
meter. -/
theorem Surroundings.compilesAs {d : Dialect σ} {config : Config} {a b : Node}
    (h : ∀ s, (a.compile d config).run s = (b.compile d config).run s)
    (hmetered : ∀ s, (a.compile d.metered config).run s = (b.compile d.metered config).run s)
    (outside : Surroundings) : (outside.fill a).CompilesAs d config (outside.fill b) :=
  ⟨fun s => outside.run_fill_congr h (d.reset s),
    fun s n => outside.run_fill_congr hmetered (d.metered.reset (s, n))⟩

/-- **Ranges are comparisons.**  Let a leaf of a filter use `between` or `notBetween` and
have no membership values, in a dialect whose expressions of references do not depend on
the placeholders drawn.  If its operand, by its alias or its own, has a bound, the leaf
can be replaced by what it stands for: the result is the same, whether it is a text with
its values or an error, and as many placeholders are drawn.  And a range can be replaced by
the list of its two bounds, with `NULL` for a bound that is absent. -/
theorem compile_spells_out_ranges (d : Dialect σ) (hd : d.Steady) (config : Config) (leaf : Leaf)
    (negated : Bool) (ho : leaf.operator = (Operator.between negated).name)
    (hm : leaf.members = []) (outside : Surroundings) :
    (∀ operand node, leaf.effectiveOperand config = some operand →
        leaf.spelledOut negated operand.limits.1 operand.limits.2 = some node →
          (outside.fill (.leaf leaf)).CompilesAs d config (outside.fill node)) ∧
      ∀ start stop other, leaf.effectiveOperand config = some (.range start stop) →
        leaf.SameField other → other.operator = leaf.operator → other.members = [] →
          other.effectiveOperand config =
              some (.list [Value.ofOption start, Value.ofOption stop]) →
            (outside.fill (.leaf leaf)).CompilesAs d config (outside.fill (.leaf other)) := by
  refine ⟨fun operand node heff hnode => ?_, fun start stop other heff hfield hop hother heff' => ?_⟩
  · refine outside.compilesAs (fun s => ?_) fun s => ?_
    · rw [Node.run_compile_leaf]
      exact Leaf.run_spelledOut hd ho hm heff hnode s
    · rw [Node.run_compile_leaf]
      exact Leaf.run_spelledOut hd.metered ho hm heff hnode s
  · have hbound : ∀ v, Operand.bound (some (Value.ofOption v)) = Operand.bound v := by
      intro v
      cases v <;> rfl
    have hrequest : ∀ field, other.request config field = leaf.request config field := by
      intro field
      rw [Leaf.request_between (hop.trans ho) hother (by rw [heff']; rfl),
        Leaf.request_between ho hm (by rw [heff]; rfl), hbound, hbound]
    refine outside.compilesAs (fun s => ?_) fun s => ?_
    · rw [Node.run_compile_leaf, Node.run_compile_leaf]
      exact Leaf.run_compile_congr hfield hrequest s
    · rw [Node.run_compile_leaf, Node.run_compile_leaf]
      exact Leaf.run_compile_congr hfield hrequest s

/-- A configuration with a predicate and a range by name. -/
def weekdays : Config where
  predicates := ⟨[("size", fun field _ => .ok ("abs(" ++ field ++ ")"))]⟩
  aliases := ⟨[("weekdays", .range (some (.int 1)) (some (.int 5)))]⟩

/-- A leaf whose alias takes the place of its own operand. -/
def weekend : Leaf where
  field := "json:plan.day:int"
  operator := "notBetween"
  operand := some (.scalar (.int 0))
  aliasName := some "weekdays"
  predicate := some "size"

/-- Outside a range by name, on a key of a document behind a predicate: as the two
comparisons, and as a list of the leaf's own. -/
theorem compile_spells_out_ranges_weekend :
    (Node.group .and [.leaf { field := "a", includes := some [.int 0] }, .leaf weekend]).CompilesAs
        postgres weekdays
        (.group .and [.leaf { field := "a", includes := some [.int 0] },
          .group .or [.leaf (weekend.comparing .less (.int 1)),
            .leaf (weekend.comparing .greater (.int 5))]]) ∧
      (Node.leaf weekend).CompilesAs postgres weekdays
        (.leaf { weekend with operand := some (.list [.int 1, .int 5]), aliasName := none }) :=
  ⟨(compile_spells_out_ranges postgres postgres_steady weekdays weekend true rfl rfl
      (.group .and [.leaf { field := "a", includes := some [.int 0] }] .here [])).1 _ _ rfl rfl,
    (compile_spells_out_ranges postgres postgres_steady weekdays weekend true rfl rfl .here).2
      _ _ _ rfl ⟨rfl, rfl⟩ rfl rfl rfl⟩

end SqlFilter
