/-
# Pieces without text

A group leaves out the texts of the children that have none, but it keeps their values.
That is right as long as a child without text has no values.  Call a piece silent
(`Compiled.Silent`) if it has values and no text: a group of pieces that are not silent is
not silent either, and it is the same group without those that have no text
(`Compiled.group_filter`).

So it is for the leaves to have no values without a text (`Node.not_silent_of_run`).  A
condition of a built-in operator has a text wherever patterns and memberships have one
(`Condition.sql_write_ne_empty`), as they do in both databases.  But what a configured
operation returns is only checked for its number of values: it may draw a placeholder for
each of them and write none.  This is the one way for a leaf to be silent
(`Leaf.runsOperation_of_silent`), and nothing stands in it.
-/

import SqlFilter.Proofs.Metering

namespace SqlFilter

variable {σ : Type}

/-! ### Silent pieces -/

/-- A piece has values, and no text in which they could stand. -/
def Compiled.Silent (c : Compiled) : Prop :=
  c.sql = "" ∧ c.values ≠ []

theorem Glue.join_eq_empty_iff {glue : Glue} {fragments : List String}
    (h : ∀ fragment ∈ fragments, fragment ≠ "") : glue.join fragments = "" ↔ fragments = [] := by
  match fragments with
  | [] => simp [join]
  | [fragment] => simpa [join] using h
  | _ :: _ :: _ => simp [join]

namespace Compiled

theorem values_eq_nil {c : Compiled} (h : ¬c.Silent) (hsql : c.sql = "") : c.values = [] :=
  Classical.byContradiction fun hne => h ⟨hsql, hne⟩

/-- A group has no text when none of its children has. -/
theorem sql_group_eq_empty_iff {glue : Glue} {parts : List Compiled} :
    (group glue parts).sql = "" ↔ ∀ part ∈ parts, part.sql = "" := by
  rw [group, Glue.join_eq_empty_iff (by simp)]
  simp

variable {parts : List Compiled} (h : ∀ part ∈ parts, ¬part.Silent)
include h

/-- **Groups of pieces that are not silent** are not silent. -/
theorem not_silent_group (glue : Glue) : ¬(group glue parts).Silent := by
  rintro ⟨hsql, hvalues⟩
  refine hvalues (List.flatMap_eq_nil_iff.2 fun part hpart => ?_)
  exact values_eq_nil (h part hpart) (sql_group_eq_empty_iff.1 hsql part hpart)

/-- Pieces without text have no values to leave out, if they are not silent. -/
theorem flatMap_values_filter :
    (parts.filter (!·.isEmpty)).flatMap (·.values) = parts.flatMap (·.values) := by
  induction parts with
  | nil => rfl
  | cons part parts ih =>
    have ih := ih fun p hp => h p (List.mem_cons_of_mem _ hp)
    by_cases hsql : part.sql = ""
    · have hvalues := values_eq_nil (h part (List.mem_cons_self ..)) hsql
      simp [isEmpty, hsql, hvalues, ← ih]
    · simp [isEmpty, hsql, ← ih]

/-- **Children without text leave no trace** in a group, if they are not silent. -/
theorem group_filter (glue : Glue) : group glue (parts.filter (!·.isEmpty)) = group glue parts := by
  have hsql : ((parts.filter (!·.isEmpty)).map (·.sql)).filter (!·.isEmpty) =
      (parts.map (·.sql)).filter (!·.isEmpty) := by
    simp [List.filter_map, List.filter_filter, isEmpty, Function.comp_def]
  rw [group, group, hsql, flatMap_values_filter h]

end Compiled

/-! ### Silent leaves -/

/-- A dialect that writes something for every pattern and every membership. -/
structure Dialect.WritesText (d : Dialect σ) : Prop where
  pattern_ne_empty : ∀ s p field negated isJson,
    ((d.pattern s p field negated isJson).run d.placeholder s).1 ≠ ""
  member_ne_empty : ∀ s field count, ((d.member s field count).run d.placeholder s).1 ≠ ""

/-- A leaf is silent if there is a state in which it compiles to a silent piece. -/
def Leaf.Silent (d : Dialect σ) (config : Config) (leaf : Leaf) : Prop :=
  ∃ s t c, (leaf.compile d config).run s = (.ok c, t) ∧ c.Silent

section

variable {d : Dialect σ} (hd : d.WritesText)
include hd

/-- **A condition has a text.** -/
theorem Condition.sql_write_ne_empty (c : Condition) (s : σ) (field : FieldExpr) :
    ((c.write d s field).run d.placeholder s).1.sql ≠ "" := by
  cases c with
  | compare c v => simp [write, writeComparison, Drawing.run, Drawing.placeholder]
  | pattern p negated v =>
    rw [write, Drawing.run_bind]
    exact hd.pattern_ne_empty _ _ _ _ _
  | between negated start stop => simp [write, writeComparison, Drawing.run, Drawing.placeholder]
  | member items =>
    rw [write, Drawing.run_bind]
    exact hd.member_ne_empty _ _ _

/-- **Only an operation is silent.** -/
theorem Leaf.runsOperation_of_silent {config : Config} {leaf : Leaf} (h : leaf.Silent d config) :
    leaf.runsOperation config = true := by
  obtain ⟨s, t, c, hrun, hsql, hvalues⟩ := h
  rw [run_compile] at hrun
  cases hp : leaf.plan (d.resolve s) config with
  | error e => rw [hp] at hrun; cases hrun
  | ok plan =>
    rw [hp] at hrun
    have hrun : (plan.write d).run s = (.ok c, t) := hrun
    rcases plan_cases hp with ⟨rfl, -⟩ | ⟨field, cond, -, -, -, rfl⟩ | ⟨_, _, ho, -⟩
    · rw [Plan.run_write_nothing] at hrun
      obtain rfl := Except.ok.inj (Prod.mk.inj hrun).1
      exact absurd rfl hvalues
    · rw [Plan.run_write_condition] at hrun
      obtain rfl := Except.ok.inj (Prod.mk.inj hrun).1
      exact absurd hsql (cond.sql_write_ne_empty hd s field)
    · exact ho

end

/-- **What compiles is not silent**, if no leaf is. -/
theorem Node.not_silent_of_run {d : Dialect σ} {config : Config} {node : Node}
    (h : ∀ leaf ∈ node.leaves, ¬leaf.Silent d config) {s t : σ} {c : Compiled}
    (hrun : (node.compile d config).run s = (.ok c, t)) : ¬c.Silent := by
  induction node generalizing s t c with
  | leaf leaf =>
    rw [run_compile_leaf] at hrun
    intro hsilent
    exact h leaf (List.mem_singleton.2 rfl) ⟨s, t, c, hrun, hsilent⟩
  | group glue rules ih =>
    obtain ⟨parts, hparts, rfl⟩ := Node.exists_of_run_compile_group hrun
    refine Compiled.not_silent_group (fun part hpart => ?_) glue
    obtain ⟨rule, hrule, v, w, hrunRule⟩ := exists_run_of_mem_compileAll d config hparts hpart
    exact ih rule hrule (Node.forall_leaves_of_mem h hrule) hrunRule

theorem postgres_writesText : postgres.WritesText where
  pattern_ne_empty s p field negated isJson := by
    cases negated <;> simp [postgres, Drawing.run, Drawing.placeholder, likeOperator]
  member_ne_empty s field count := by
    simp [postgres, listMembership, Drawing.run_bind, Drawing.run]

theorem mysql_writesText : mysql.WritesText where
  pattern_ne_empty s p field negated isJson := by
    cases p <;> cases negated <;> simp [mysql, Drawing.run, Drawing.placeholder, likeOperator]
  member_ne_empty s field count := by
    simp [mysql, listMembership, Drawing.run_bind, Drawing.run]

/-- **A filter without text binds nothing**, unless one of its leaves is silent; and where
patterns and memberships have a text, a leaf that is silent runs an operation.  In the same
way a group without silent leaves is the group of those children that have a text, and the
others have no values to add to it. -/
theorem compile_empty_binds_nothing (d : Dialect σ) (config : Config) :
    (∀ node : Node, (∀ leaf ∈ node.leaves, ¬leaf.Silent d config) →
        ∀ s c t, compile d config node s = (.ok c, t) → c.isEmpty = true → c.values = []) ∧
      (∀ glue rules, (∀ leaf ∈ leavesAll rules, ¬leaf.Silent d config) →
        ∀ s parts t, (compileAll d config rules).run s = (.ok parts, t) →
          (∀ part ∈ parts, part.isEmpty = true → part.values = []) ∧
            Compiled.group glue (parts.filter (!·.isEmpty)) = Compiled.group glue parts) ∧
      (d.WritesText → ∀ leaf : Leaf, leaf.Silent d config → leaf.runsOperation config = true) := by
  have hvalues : ∀ c : Compiled, ¬c.Silent → c.isEmpty = true → c.values = [] :=
    fun c hc hempty => c.values_eq_nil hc (by simpa [Compiled.isEmpty] using hempty)
  refine ⟨fun node h s c t hrun => hvalues c (node.not_silent_of_run h hrun),
    fun glue rules h s parts t hrun => ?_, fun hd _ => Leaf.runsOperation_of_silent hd⟩
  have hparts : ∀ part ∈ parts, ¬part.Silent := by
    intro part hpart
    obtain ⟨rule, hrule, u, v, hrunRule⟩ := exists_run_of_mem_compileAll d config hrun hpart
    exact rule.not_silent_of_run (fun l hl => h l (mem_leavesAll.2 ⟨rule, hrule, hl⟩)) hrunRule
  exact ⟨fun part hpart => hvalues part (hparts part hpart), Compiled.group_filter hparts glue⟩

/-- A configuration whose only operation writes nothing and has no values. -/
def blankOnly : Config :=
  { operations := ⟨[("blank", fun _ _ _ => .done (.ok ("", [])))]⟩ }

/-- A leaf that runs this operation. -/
def blankLeaf : Leaf := { field := "a", operator := "blank", operand := some (.list [.int 1]) }

/-- A leaf that runs an operation without values leaves no trace, and neither does a leaf
without an operator. -/
theorem compile_empty_binds_nothing_blank :
    (∃ c, compile postgres blankOnly
        (.group .or [.leaf blankLeaf, .group .and [.leaf { field := "b" }]]) 4 = (.ok c, 0) ∧
          c.values = []) ∧
      ∃ parts, (compileAll postgres blankOnly [.leaf blankLeaf,
          .leaf { field := "c", operator := "equal", operand := some (.scalar (.int 3)) }]).run 0 =
            (.ok parts, 1) ∧ parts.length = 2 ∧
          Compiled.group .or (parts.filter (!·.isEmpty)) = Compiled.group .or parts := by
  obtain ⟨hempty, hgroup, honly⟩ := compile_empty_binds_nothing postgres blankOnly
  have hblank : ¬blankLeaf.Silent postgres blankOnly := by
    rintro ⟨s, t, c, hrun, -, hvalues⟩
    have hempty : (blankLeaf.compile postgres blankOnly).run s = (.ok ⟨"", []⟩, s) := rfl
    cases hempty.symm.trans hrun
    exact hvalues rfl
  have hleaves : ∀ other : Leaf, other.runsOperation blankOnly = false →
      ∀ leaf ∈ [blankLeaf, other], ¬leaf.Silent postgres blankOnly := by
    intro other hother leaf hleaf
    rcases List.mem_cons.1 hleaf with rfl | hleaf
    · exact hblank
    · obtain rfl := List.mem_singleton.1 hleaf
      intro hsilent
      cases hother.symm.trans (honly postgres_writesText _ hsilent)
  have hnode : compile postgres blankOnly
      (.group .or [.leaf blankLeaf, .group .and [.leaf { field := "b" }]]) 4 = (.ok ⟨"", []⟩, 0) :=
    rfl
  have hrules : (compileAll postgres blankOnly [.leaf blankLeaf,
      .leaf { field := "c", operator := "equal", operand := some (.scalar (.int 3)) }]).run 0 =
        (.ok [⟨"", []⟩, ⟨"c = $1", [.int 3]⟩], 1) :=
    rfl
  refine ⟨⟨_, hnode, hempty _ ?_ 4 _ 0 hnode rfl⟩,
    ⟨_, hrules, rfl, (hgroup .or _ ?_ 0 _ 1 hrules).2⟩⟩
  · exact hleaves { field := "b" } rfl
  · exact hleaves { field := "c", operator := "equal", operand := some (.scalar (.int 3)) } rfl

/-- A configuration whose only operation writes nothing, and has values. -/
def silentOnly : Config := { operations := ⟨[("silent", silentOperation)]⟩ }

/-- **An operation can bind values without a text.**  It draws a placeholder for each of
them, and so it is not refused.  Alone it is a filter without text that has a value; in a
group its value stands between those of its neighbours, and the text has no place for it. -/
theorem silent_operation_binds :
    (compile postgres silentOnly
        (.leaf { field := "a", operator := "silent", operand := some (.scalar (.int 1)) }) 0).1 =
        .ok ⟨"", [.int 1]⟩ ∧
      (compile mysql silentOnly (.group .and
          [.leaf { field := "a", operator := "equal", operand := some (.scalar (.int 1)) },
            .leaf { field := "b", operator := "silent", operand := some (.scalar (.int 2)) },
            .leaf { field := "c", operator := "equal", operand := some (.scalar (.int 3)) }]) ()).1 =
        .ok ⟨"( a = ? AND c = ? )", [.int 1, .int 2, .int 3]⟩ :=
  ⟨rfl, rfl⟩

end SqlFilter
