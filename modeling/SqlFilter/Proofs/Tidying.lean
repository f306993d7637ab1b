/-
# Tidying a filter

A filter grows parts that ask for nothing.  A part is idle (`Node.isIdle`) if no leaf of it
has a field, as an empty group is, or a group of empty groups.  To tidy a filter is to take
one of these steps anywhere in it (`Node.Tidies`):

| step | before | after |
| --- | --- | --- |
| `drop` | a group with an idle child | the group without it |
| `unwrap` | a group of one child | the child |
| `reglue` | a group of which at most one child is not idle | the group with either connective |

What idle children compile to adds nothing to what their group gathers from its children
(`Compiled.gather`), and they draw nothing, so a group compiles as it does without them
(`Node.run_compile_filter`).  Around one text there are no parentheses, and there is no
connective in it.  So no step changes what a filter compiles to, and neither does any number
of them (`compile_unchanged_by_tidying`), nor undoing them.
-/

import Mathlib.Logic.Relation
import SqlFilter.Proofs.Ranges
import SqlFilter.Proofs.Recording
import SqlFilter.Proofs.Silence

namespace SqlFilter

variable {σ : Type}

/-! ### Idle parts -/

/-- Whether no leaf of a filter has a field. -/
def Node.isIdle (node : Node) : Bool :=
  node.leaves.all (·.field.isEmpty)

@[simp] theorem Node.isIdle_leaf (l : Leaf) : (leaf l).isIdle = l.field.isEmpty := by
  simp [isIdle, leaves]

/-- A group is idle if all of its children are. -/
@[simp] theorem Node.isIdle_group (glue : Glue) (rules : List Node) :
    (group glue rules).isIdle = rules.all isIdle := by
  show (leavesAll rules).all _ = _
  induction rules with
  | nil => rfl
  | cons rule rules ih => rw [leavesAll, List.all_append, ih, List.all_cons]; rfl

/-! ### What a group gathers -/

/-- What a group gathers from its children: the texts that are not empty, and the values. -/
structure Gathered where
  texts : List String
  values : List Value

namespace Gathered

/-- A piece in front of what is gathered from those behind it. -/
def cons (part : Compiled) (g : Gathered) : Gathered where
  texts := if part.sql.isEmpty then g.texts else part.sql :: g.texts
  values := part.values ++ g.values

/-- The group of what is gathered. -/
def group (glue : Glue) (g : Gathered) : Compiled :=
  ⟨glue.join g.texts, g.values⟩

/-- What is gathered from pieces. -/
def ofParts : List Compiled → Gathered
  | [] => ⟨[], []⟩
  | part :: parts => (ofParts parts).cons part

theorem group_ofParts (glue : Glue) (parts : List Compiled) :
    (ofParts parts).group glue = Compiled.group glue parts := by
  have h : ofParts parts =
      ⟨(parts.map (·.sql)).filter (!·.isEmpty), parts.flatMap (·.values)⟩ := by
    induction parts with
    | nil => rfl
    | cons part parts ih =>
      rw [ofParts, ih, cons, List.map_cons, List.filter_cons, List.flatMap_cons]
      cases part.sql.isEmpty <;> rfl
  rw [h]
  rfl

/-- A piece without text and values adds nothing. -/
@[simp] theorem cons_empty (g : Gathered) : g.cons {} = g := rfl

/-- One text stands without a connective and without parentheses. -/
theorem group_single (glue : Glue) (part : Compiled) :
    (ofParts [part]).group glue = part := by
  rw [ofParts, cons, group]
  by_cases h : part.sql.isEmpty = true
  · have hsql : part.sql = "" := by simpa using h
    rw [if_pos h]
    simp [ofParts, Glue.join, ← hsql]
  · rw [if_neg h]
    simp [ofParts, Glue.join]

end Gathered

/-- What is gathered from filters, compiled one after the other, and the state after them. -/
def gatherAll (d : Dialect σ) (config : Config) (rules : List Node) (s : σ) :
    Except CompileError Gathered × σ :=
  (((compileAll d config rules).run s).1.map .ofParts, ((compileAll d config rules).run s).2)

section

variable (d : Dialect σ) (config : Config)

theorem gatherAll_cons (rule : Node) (rules : List Node) (s : σ) :
    gatherAll d config (rule :: rules) s =
      match (rule.compile d config).run s with
      | (.error e, t) => (.error e, t)
      | (.ok first, t) =>
        ((gatherAll d config rules t).1.map (·.cons first), (gatherAll d config rules t).2) := by
  rw [gatherAll, run_compileAll_cons]
  rcases (rule.compile d config).run s with ⟨e | first, t⟩
  · rfl
  · simp only [gatherAll]
    cases ((compileAll d config rules).run t).1 <;> rfl

/-- A group is what is gathered from its children. -/
theorem Node.run_compile_group_eq (glue : Glue) (rules : List Node) (s : σ) :
    ((group glue rules).compile d config).run s =
      ((gatherAll d config rules s).1.map (·.group glue), (gatherAll d config rules s).2) := by
  rw [run_compile_group, gatherAll]
  cases ((compileAll d config rules).run s).1 with
  | error e => rfl
  | ok parts => exact congrArg (Except.ok ·, _) (Gathered.group_ofParts glue parts).symm

/-- Children that compile to nothing and draw nothing can be left out. -/
theorem gatherAll_filter (keep : Node → Bool) {rules : List Node}
    (h : ∀ rule ∈ rules, keep rule = false → ∀ s, (rule.compile d config).run s = (.ok {}, s))
    (s : σ) : gatherAll d config rules s = gatherAll d config (rules.filter keep) s := by
  induction rules generalizing s with
  | nil => rfl
  | cons rule rules ih =>
    have ih := ih fun r hr => h r (List.mem_cons_of_mem _ hr)
    rw [gatherAll_cons]
    cases hkeep : keep rule with
    | false =>
      rw [h rule (List.mem_cons_self ..) hkeep s, List.filter_cons_of_neg (by simp [hkeep]), ← ih]
      simp only [Gathered.cons_empty]
      cases hg : gatherAll d config rules s with
      | mk result t => cases result <;> rfl
    | true =>
      rw [List.filter_cons_of_pos hkeep, gatherAll_cons]
      simp only [ih]

/-! ### Steps -/

namespace Node

/-- **An idle part compiles to nothing** and draws nothing. -/
theorem run_compile_of_isIdle {node : Node} (h : node.isIdle = true) (s : σ) :
    (node.compile d config).run s = (.ok {}, s) := by
  induction node generalizing s with
  | leaf l =>
    rw [isIdle_leaf] at h
    rw [run_compile_leaf, Leaf.run_compile, Leaf.plan_eq, if_pos h]
    rfl
  | group glue rules ih =>
    rw [isIdle_group, List.all_eq_true] at h
    rw [run_compile_group_eq, gatherAll_filter d config (fun _ => false)
      fun rule hr _ => ih rule hr (h rule hr), List.filter_eq_nil_iff.2 (by simp)]
    rfl

/-- **A group compiles as it does without its idle children.** -/
theorem run_compile_filter (glue : Glue) (rules : List Node) (s : σ) :
    ((group glue rules).compile d config).run s =
      ((group glue (rules.filter (!·.isIdle))).compile d config).run s := by
  have hidle : ∀ rule ∈ rules, (!rule.isIdle) = false →
      ∀ s, (rule.compile d config).run s = (.ok {}, s) := by
    intro rule _ hkeep
    exact run_compile_of_isIdle d config (by simpa using hkeep)
  rw [run_compile_group_eq, run_compile_group_eq, gatherAll_filter d config _ hidle]

/-- **A group of one child compiles as the child.** -/
theorem run_compile_single (glue : Glue) (node : Node) (s : σ) :
    ((group glue [node]).compile d config).run s = (node.compile d config).run s := by
  rw [run_compile_group_eq, gatherAll_cons]
  rcases (node.compile d config).run s with ⟨e | c, t⟩
  · rfl
  · exact congrArg (Except.ok ·, t) (Gathered.group_single glue c)

/-- **A group has no connective** unless two of its children are not idle. -/
theorem run_compile_glue {rules : List Node} (h : (rules.filter (!·.isIdle)).length ≤ 1)
    (glue glue' : Glue) (s : σ) :
    ((group glue rules).compile d config).run s =
      ((group glue' rules).compile d config).run s := by
  rw [run_compile_filter, run_compile_filter d config glue']
  generalize rules.filter (!·.isIdle) = kept at h ⊢
  match kept with
  | [] => rw [run_compile_group_eq, run_compile_group_eq]; rfl
  | [rule] => rw [run_compile_single, run_compile_single]
  | _ :: _ :: _ => exact absurd h (by simp)

/-- **A step of tidying**, anywhere in a filter. -/
inductive Tidies : Node → Node → Prop
  | drop {glue : Glue} (before : List Node) {after : List Node} {idle : Node}
    (h : idle.isIdle = true) :
    Tidies (.group glue (before ++ idle :: after)) (.group glue (before ++ after))
  | unwrap {glue : Glue} {node : Node} : Tidies (.group glue [node]) node
  | reglue {glue glue' : Glue} {rules : List Node}
    (h : (rules.filter (!·.isIdle)).length ≤ 1) : Tidies (.group glue rules) (.group glue' rules)
  | inside {a b : Node} (outside : Surroundings) (h : Tidies a b) :
    Tidies (outside.fill a) (outside.fill b)

/-- **No step changes what a filter compiles to.** -/
theorem Tidies.run_compile {a b : Node} (h : Tidies a b) (s : σ) :
    (a.compile d config).run s = (b.compile d config).run s := by
  induction h generalizing s with
  | @drop glue before after idle h =>
    rw [run_compile_filter, run_compile_filter d config glue (before ++ after)]
    simp [h]
  | unwrap => exact run_compile_single d config _ _ s
  | reglue h => exact run_compile_glue d config h _ _ s
  | inside outside _ ih => exact outside.run_fill_congr ih s

end Node

end

/-- **Tidying changes nothing.**  Let two filters arise from one another by steps of
tidying, in any number and order and in either direction.  In every dialect and whatever
is configured they compile to the same text with the same values, or fail with the same
error, and they draw the same placeholders in the same order. -/
theorem compile_unchanged_by_tidying (d : Dialect σ) (config : Config) {a b : Node}
    (h : Relation.EqvGen Node.Tidies a b) : SameCompilation d config a config b := by
  refine .of_run (fun d s => ?_) d
  induction h with
  | rel a b step => exact step.run_compile d config s
  | refl a => rfl
  | symm a b _ ih => exact ih.symm
  | trans a b c _ _ hab hbc => exact hab.trans hbc

/-- A leaf with a built-in operator. -/
def lessLeaf : Node :=
  .leaf { field := "a", operator := "less", operand := some (.scalar (.int 1)) }

/-- A leaf that draws a placeholder and writes nothing. -/
def silentLeaf : Node :=
  .leaf { field := "b", operator := "silent", operand := some (.scalar (.int 2)) }

/-- A filter with a leaf without a field, a group of an empty group, and a group of one
leaf and another connective. -/
def untidyFilter : Node :=
  .group .or [.group .and [.leaf {}, lessLeaf], .group .or [.group .and []], silentLeaf, lessLeaf]

theorem eqvGen_untidyFilter :
    Relation.EqvGen Node.Tidies untidyFilter (.group .or [lessLeaf, silentLeaf, lessLeaf]) := by
  have hgroups : Node.Tidies untidyFilter
      (.group .or [.group .and [.leaf {}, lessLeaf], silentLeaf, lessLeaf]) :=
    .drop [_] (by decide)
  have hleaf : Node.Tidies (.group .or [.group .and [.leaf {}, lessLeaf], silentLeaf, lessLeaf])
      (.group .or [.group .and [lessLeaf], silentLeaf, lessLeaf]) :=
    .inside (.group .or [] .here [silentLeaf, lessLeaf]) (.drop [] (by decide))
  have hgroup : Node.Tidies (.group .or [.group .and [lessLeaf], silentLeaf, lessLeaf])
      (.group .or [lessLeaf, silentLeaf, lessLeaf]) :=
    .inside (.group .or [] .here [silentLeaf, lessLeaf]) .unwrap
  exact .trans _ _ _ (.rel _ _ hgroups) (.trans _ _ _ (.rel _ _ hleaf) (.rel _ _ hgroup))

/-- Tidied in three steps, the filter has the same text, in which `$2` is missing because
the operation has drawn it. -/
theorem compile_unchanged_by_tidying_silent :
    compile postgres silentOnly untidyFilter 7 =
        (.ok ⟨"( a < $1 OR a < $3 )", [.int 1, .int 2, .int 1]⟩, 3) ∧
      untidyFilter.marks postgres silentOnly 7 = ["$1", "$2", "$3"] := by
  have h := compile_unchanged_by_tidying postgres silentOnly eqvGen_untidyFilter
  exact ⟨(h.compile_eq 7).trans rfl, (h.marks_eq 7).trans rfl⟩

end SqlFilter
