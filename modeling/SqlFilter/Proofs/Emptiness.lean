/-
# When a filter compiles to nothing

A filter without text is left out of a query, and then the query selects every row.  So a
filter must not lose its text by accident.  A leaf asks for nothing (`Leaf.AsksNothing`) if
it has no field, or neither an operator nor membership values, and a filter asks for
nothing if none of its leaves asks for anything.  Where no operation is run, what compiles
is of one of two kinds (`Node.run_cases`):

| the filter | its text | its values | what it draws |
| --- | --- | --- | --- |
| asks for nothing | empty | none | nothing |
| asks for something | not empty | | |

A leaf that asks for something becomes a condition, and a condition has a text around
whatever expression stands for its field (`Condition.sql_write_ne_empty`), also around an
empty one that a predicate returns.  A group without text has no child with one
(`Compiled.sql_group_eq_empty_iff`), so the two kinds pass from the children of a group to
the group (`run_cases_compileAll`).
-/

import SqlFilter.Proofs.Recording
import SqlFilter.Proofs.Silence

namespace SqlFilter

variable {σ : Type}

/-! ### Filters that ask for nothing -/

/-- A leaf asks for nothing: it has no field, or neither an operator nor membership
values. -/
def Leaf.AsksNothing (leaf : Leaf) : Prop :=
  leaf.field = "" ∨ leaf.operator = "" ∧ leaf.members = []

instance (leaf : Leaf) : Decidable leaf.AsksNothing :=
  inferInstanceAs (Decidable (_ ∨ _))

/-- No leaf of a filter asks for anything. -/
def Node.AsksNothing (node : Node) : Prop :=
  ∀ leaf ∈ node.leaves, leaf.AsksNothing

theorem Node.asksNothing_leaf {leaf : Leaf} :
    (Node.leaf leaf).AsksNothing ↔ leaf.AsksNothing :=
  List.forall_mem_singleton

/-- A group asks for nothing if none of its children asks for anything. -/
theorem Node.asksNothing_group {glue : Glue} {rules : List Node} :
    (Node.group glue rules).AsksNothing ↔ ∀ rule ∈ rules, rule.AsksNothing := by
  constructor
  · intro h rule hrule
    exact Node.forall_leaves_of_mem h hrule
  · intro h leaf hleaf
    obtain ⟨rule, hrule, hmem⟩ := mem_leavesAll.1 hleaf
    exact h rule hrule leaf hmem

/-! ### The two kinds -/

/-- A record does not change what is written. -/
theorem Dialect.WritesText.recorded {d : Dialect σ} (hd : d.WritesText) :
    d.recorded.WritesText where
  pattern_ne_empty s p field negated isJson := by
    have hrun := Drawing.run_recorded d (d.pattern s.1 p field negated isJson) s.1 s.2
    exact fun h => hd.pattern_ne_empty s.1 p field negated isJson ((congrArg Prod.fst hrun).symm.trans h)
  member_ne_empty s field count := by
    have hrun := Drawing.run_recorded d (d.member s.1 field count) s.1 s.2
    exact fun h => hd.member_ne_empty s.1 field count ((congrArg Prod.fst hrun).symm.trans h)

section

variable {d : Dialect σ} (hd : d.WritesText) {config : Config}
include hd

/-- **A leaf that compiles** asks for nothing and is nothing, or has a text, unless it runs
an operation. -/
theorem Leaf.run_cases {leaf : Leaf} (hn : leaf.runsOperation config = false) {s t : σ}
    {c : Compiled} (hrun : (leaf.compile d config).run s = (.ok c, t)) :
    (leaf.AsksNothing ∧ c = {} ∧ t = s) ∨ (¬leaf.AsksNothing ∧ c.sql ≠ "") := by
  rw [run_compile] at hrun
  cases hp : leaf.plan (d.resolve s) config with
  | error e => rw [hp] at hrun; cases hrun
  | ok plan =>
    rw [hp] at hrun
    have hrun : (plan.write d).run s = (.ok c, t) := hrun
    rcases plan_cases hp with ⟨rfl, hnothing⟩ | ⟨field, cond, hfield, -, hasks, rfl⟩ | ⟨_, _, ho, -⟩
    · have hc : Except.ok {} = Except.ok c ∧ s = t := Prod.mk.inj hrun
      exact .inl ⟨hnothing.imp_right And.symm, (Except.ok.inj hc.1).symm, hc.2.symm⟩
    · refine .inr ⟨?_, ?_⟩
      · rintro (hempty | ⟨hoperator, hmembers⟩)
        · exact hfield hempty
        · rcases hasks with ⟨hne, -⟩ | ⟨-, hne, -⟩
          · exact hne hmembers
          · exact hne hoperator
      · rw [Plan.run_write_condition] at hrun
        obtain rfl := Except.ok.inj (Prod.mk.inj hrun).1
        exact cond.sql_write_ne_empty hd s field
    · cases hn.symm.trans ho

omit hd in
/-- The kinds of children, compiled one after the other: all of them are nothing, or one
of them has a text. -/
theorem run_cases_compileAll {rules : List Node}
    (h : ∀ rule ∈ rules, ∀ s c t, (rule.compile d config).run s = (.ok c, t) →
      (rule.AsksNothing ∧ c = {} ∧ t = s) ∨ (¬rule.AsksNothing ∧ c.sql ≠ ""))
    {s t : σ} {parts : List Compiled}
    (hrun : (compileAll d config rules).run s = (.ok parts, t)) :
    ((∀ rule ∈ rules, rule.AsksNothing) ∧ (∀ part ∈ parts, part = {}) ∧ t = s) ∨
      ((¬∀ rule ∈ rules, rule.AsksNothing) ∧ ∃ part ∈ parts, part.sql ≠ "") := by
  induction rules generalizing s parts with
  | nil =>
    obtain ⟨hparts, rfl⟩ := Prod.mk.inj hrun
    obtain rfl := Except.ok.inj hparts
    exact .inl ⟨List.forall_mem_nil _, List.forall_mem_nil _, rfl⟩
  | cons rule rules ih =>
    obtain ⟨first, rest, u, hfirst, hrest, rfl⟩ := exists_of_run_compileAll_cons hrun
    rcases h rule (List.mem_cons_self ..) s first u hfirst with ⟨hnothing, rfl, rfl⟩ | ⟨hsome, hsql⟩
    · rcases ih (fun r hr => h r (List.mem_cons_of_mem _ hr)) hrest with
        ⟨hall, hempty, rfl⟩ | ⟨hnot, part, hpart, hsql⟩
      · exact .inl ⟨List.forall_mem_cons.2 ⟨hnothing, hall⟩,
          List.forall_mem_cons.2 ⟨rfl, hempty⟩, rfl⟩
      · exact .inr ⟨fun hall => hnot (List.forall_mem_cons.1 hall).2, part,
          List.mem_cons_of_mem _ hpart, hsql⟩
    · exact .inr ⟨fun hall => hsome (List.forall_mem_cons.1 hall).1, first,
        List.mem_cons_self .., hsql⟩

/-- **A filter that compiles** asks for nothing and is nothing, or has a text, unless it
runs an operation. -/
theorem Node.run_cases {node : Node} (hn : ∀ leaf ∈ node.leaves, leaf.runsOperation config = false)
    {s t : σ} {c : Compiled} (hrun : (node.compile d config).run s = (.ok c, t)) :
    (node.AsksNothing ∧ c = {} ∧ t = s) ∨ (¬node.AsksNothing ∧ c.sql ≠ "") := by
  induction node generalizing s t c with
  | leaf leaf =>
    rw [run_compile_leaf] at hrun
    rw [asksNothing_leaf]
    exact leaf.run_cases hd (hn leaf (List.mem_singleton.2 rfl)) hrun
  | group glue rules ih =>
    obtain ⟨parts, hall, rfl⟩ := Node.exists_of_run_compile_group hrun
    have hrules : ∀ rule ∈ rules, ∀ s c t, (rule.compile d config).run s = (.ok c, t) →
        (rule.AsksNothing ∧ c = {} ∧ t = s) ∨ (¬rule.AsksNothing ∧ c.sql ≠ "") :=
      fun rule hrule _ _ _ hrun => ih rule hrule (Node.forall_leaves_of_mem hn hrule) hrun
    rw [asksNothing_group]
    rcases run_cases_compileAll hrules hall with ⟨hnothing, hparts, rfl⟩ | ⟨hnot, part, hpart, hsql⟩
    · have hsql : (Compiled.group glue parts).sql = "" :=
        Compiled.sql_group_eq_empty_iff.2 fun part hpart => by rw [hparts part hpart]
      have hvalues : (Compiled.group glue parts).values = [] :=
        List.flatMap_eq_nil_iff.2 fun part hpart => by rw [hparts part hpart]
      refine .inl ⟨hnothing, ?_, rfl⟩
      calc Compiled.group glue parts
          = ⟨(Compiled.group glue parts).sql, (Compiled.group glue parts).values⟩ := rfl
        _ = {} := by rw [hsql, hvalues]
    · exact .inr ⟨hnot, fun hempty => hsql (Compiled.sql_group_eq_empty_iff.1 hempty part hpart)⟩

end

/-- **A filter compiles to nothing only if it asks for nothing.**  Let no leaf of a filter
run a configured operation, whatever its predicates are, and let the filter compile.  Its
text is empty if and only if every leaf has no field, or neither an operator nor membership
values; and then it has no values and no placeholder was drawn.  So one leaf with a field
and an operator, or with a field and membership values, is enough for a text.  This holds
wherever patterns and memberships have a text, as they do in both databases. -/
theorem compile_empty_iff_asksNothing (config : Config) (node : Node)
    (hn : ∀ leaf ∈ node.leaves, leaf.runsOperation config = false) :
    (∀ {σ : Type} (d : Dialect σ), d.WritesText → ∀ s c t,
        compile d config node s = (.ok c, t) →
          (c.isEmpty = true ↔ ∀ leaf ∈ node.leaves,
            leaf.field = "" ∨ leaf.operator = "" ∧ leaf.includes.getD [] = []) ∧
          (c.isEmpty = true →
            c.values = [] ∧ t = d.reset s ∧ node.marks d config s = []) ∧
          ((∃ leaf ∈ node.leaves, leaf.field ≠ "" ∧
            (leaf.operator ≠ "" ∨ leaf.includes.getD [] ≠ [])) → c.sql ≠ "")) ∧
      postgres.WritesText ∧ mysql.WritesText := by
  refine ⟨fun d hd s c t hrun => ?_, postgres_writesText, mysql_writesText⟩
  have hempty : c.isEmpty = true ↔ c.sql = "" := by simp [Compiled.isEmpty]
  have hcases := node.run_cases hd hn hrun
  have hiff : c.isEmpty = true ↔ node.AsksNothing := by
    rw [hempty]
    rcases hcases with ⟨hnothing, rfl, -⟩ | ⟨hnot, hsql⟩
    · exact ⟨fun _ => hnothing, fun _ => rfl⟩
    · exact ⟨fun h => absurd h hsql, fun h => absurd h hnot⟩
  refine ⟨hiff, fun h => ?_, ?_⟩
  · -- the recorded compilation is of the same kind, and its state holds the record
    have hrecorded := compile_recorded d config node s []
    rw [hrun] at hrecorded
    obtain ⟨-, rfl, -⟩ := hcases.resolve_right fun hsome => hsome.1 (hiff.1 h)
    have hsame := (node.run_cases hd.recorded hn hrecorded).resolve_right fun hsome =>
      hsome.1 (hiff.1 h)
    obtain ⟨ht, hmarks⟩ := Prod.mk.inj hsame.2.2
    exact ⟨rfl, ht, hmarks⟩
  · rintro ⟨leaf, hleaf, hfield, hasks⟩ hsql
    rcases hiff.1 (hempty.2 hsql) leaf hleaf with hnone | ⟨hoperator, hmembers⟩
    · exact hfield hnone
    · exact hasks.elim (· hoperator) (· hmembers)

/-- A configuration whose only predicate returns an empty expression. -/
def blankPredicate : Config :=
  { predicates := ⟨[("blank", fun _ _ => .ok "")]⟩ }

/-- A filter of leaves without a field, without an operator, and with an empty list of
membership values. -/
def askingNothing : Node :=
  .group .or
    [.leaf { operator := "unheard", includes := some [.int 1] },
      .group .and [.group .or [], .leaf { field := "a", predicate := some "blank" }],
      .leaf { field := "b", includes := some [], operand := some (.scalar (.int 2)) }]

/-- The same filter beside a pattern on an empty expression. -/
def askingPattern : Node :=
  .group .and
    [askingNothing, .leaf { field := "a", operator := "notEndsWith", predicate := some "blank",
                            operand := some (.scalar (.str "x")) }]

/-- The filter that asks for nothing has no text, and beside it a pattern has one, although
its field is written as an empty expression. -/
theorem compile_empty_iff_asksNothing_blank :
    (∃ c, compile postgres blankPredicate askingNothing 7 = (.ok c, 0) ∧ c.isEmpty = true ∧
        askingNothing.marks postgres blankPredicate 7 = []) ∧
      ∃ c, compile mysql blankPredicate askingPattern () = (.ok c, ()) ∧ c.sql ≠ "" := by
  have hnothing := compile_empty_iff_asksNothing blankPredicate askingNothing (by decide)
  have hpattern := compile_empty_iff_asksNothing blankPredicate askingPattern (by decide)
  have hrun : compile postgres blankPredicate askingNothing 7 = (.ok {}, 0) := rfl
  have hrun' : compile mysql blankPredicate askingPattern () =
      (.ok ⟨" NOT LIKE CONCAT('%', ?)", [.str "x"]⟩, ()) := rfl
  obtain ⟨hiff, hdrawn, -⟩ := hnothing.1 postgres postgres_writesText 7 _ _ hrun
  obtain ⟨-, -, htext⟩ := hpattern.1 mysql mysql_writesText () _ _ hrun'
  have hempty := hiff.2 (by decide)
  exact ⟨⟨_, hrun, hempty, (hdrawn hempty).2.2⟩, ⟨_, hrun', htext (by decide)⟩⟩

end SqlFilter
