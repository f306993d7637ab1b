/-
# Two databases, one filter

What a filter binds does not depend on the database.  The two dialects resolve fields in
their own ways, but an operator asks for the same condition on whatever expression its
field has become.  So a leaf binds the same values in both, and fails in the same way, as
long as both resolve its field (`Leaf.binds_congr`).  MySQL resolves every field, and
Postgres all but the references whose type it cannot cast to (`Leaf.Castable`).

The texts differ in three ways: a placeholder has a number or it has none, a reference is
an expression or it stays as it is, and a pattern is matched by other words.  A filter that
has neither references nor patterns (`Leaf.Portable`) has one template in both dialects
(`Leaf.draft_congr`), and its MySQL text is its Postgres text with a question mark for
every number (`Template.Spaced.unnumbered_render`).
-/

import SqlFilter.Proofs.Leaves
import SqlFilter.Proofs.Numbering
import SqlFilter.Proofs.Preservation

namespace SqlFilter

variable {σ : Type}

/-! ### Values -/

/-- The field of a leaf is no reference, or a reference without a type or of a type that
can be cast to. -/
def Leaf.Castable (leaf : Leaf) : Prop :=
  ∀ ref ∈ FieldRef.parse leaf.field, ∀ type ∈ ref.type, Identifier.isPlain type = true

instance (leaf : Leaf) : Decidable leaf.Castable :=
  inferInstanceAs (Decidable (∀ ref ∈ FieldRef.parse leaf.field, ∀ type ∈ ref.type, _ = true))

namespace Leaf

/-- **What is asked of a field** binds the same values whatever the field's expression is. -/
theorem values_request (config : Config) (leaf : Leaf) (field field' : FieldExpr) :
    (leaf.request config field).map Plan.values = (leaf.request config field').map Plan.values := by
  rw [request, request]
  split
  · rfl
  · split
    · rfl
    · rw [planOperator, planOperator]
      cases Operator.ofName? leaf.operator with
      | some op => cases h : op.condition (leaf.effectiveOperand config) <;> simp only [h] <;> rfl
      | none => cases config.operations.find? leaf.operator <;> rfl

/-- The expression of a field without a configured predicate: the field as it is resolved,
unless the predicate is not known. -/
theorem expression_of_resolve {resolve : String → Except CompileError FieldExpr}
    {config : Config} {leaf : Leaf} {field : FieldExpr} (hp : leaf.usesPredicate config = false)
    (h : resolve leaf.field = .ok field) :
    leaf.expression resolve config =
      leaf.predicate.elim (.ok field) fun name => .error (.unknownPredicate name) := by
  rw [expression, h]
  show wrap config leaf.predicate field = _
  cases hname : leaf.predicate with
  | none => rfl
  | some name =>
    have hnone : config.predicates.find? name = none := by
      rw [usesPredicate, hname] at hp
      simpa using hp
    rw [wrap]
    simp only [hnone]
    rfl

/-- **A leaf binds the same wherever its field is resolved**, and fails in the same way. -/
theorem binds_congr {resolve resolve' : String → Except CompileError FieldExpr} {config : Config}
    {leaf : Leaf} (hp : leaf.usesPredicate config = false)
    (h : ∃ field, resolve leaf.field = .ok field) (h' : ∃ field, resolve' leaf.field = .ok field) :
    leaf.binds resolve config = leaf.binds resolve' config := by
  obtain ⟨field, h⟩ := h
  obtain ⟨field', h'⟩ := h'
  rw [binds, binds, plan_eq, plan_eq, expression_of_resolve hp h, expression_of_resolve hp h']
  split
  · rfl
  · split
    · rfl
    · cases leaf.predicate with
      | none => exact leaf.values_request config field field'
      | some name => rfl

/-- Postgres resolves the fields that it can cast. -/
theorem Castable.exists_resolve {leaf : Leaf} (h : leaf.Castable) (s : Nat) :
    ∃ field, postgres.resolve s leaf.field = .ok field := by
  rw [Dialect.resolve]
  cases hp : FieldRef.parse leaf.field with
  | none => exact ⟨_, rfl⟩
  | some ref =>
    cases ht : ref.type with
    | none => exact ⟨⟨Postgres.jsonExpr ref, true⟩, by simp only [postgres, ht]⟩
    | some type =>
      exact ⟨⟨Postgres.jsonExpr ref, true⟩, by simp only [postgres, ht, h ref hp type ht, if_true]⟩

/-- **What Postgres compiles can be cast.** -/
theorem castable_of_plan {s : Nat} {config : Config} {leaf : Leaf} {p : Plan}
    (hp : leaf.usesPredicate config = false)
    (h : leaf.plan (postgres.resolve s) config = .ok p) : leaf.Castable := by
  intro ref href type htype
  have hf : leaf.field ≠ "" := by
    intro hempty
    rw [hempty] at href
    cases href
  obtain ⟨field, hx⟩ := exists_expression_of_plan h hf
  rcases postgres_resolve_eq_ok (resolve_of_expression hp hx) with ⟨hnone, -⟩ | ⟨ref', href', -, hplain⟩
  · rw [hnone] at href
    cases href
  · obtain rfl := Option.some.inj (href.symm.trans href')
    exact hplain type htype

end Leaf

/-! ### Texts -/

/-- A text with a question mark for every `$` that has digits behind it, and without
these digits; `inNumber` tells whether such a number goes on at the front of the text. -/
def unnumberedFrom : (inNumber : Bool) → List Char → List Char
  | _, [] => []
  | inNumber, c :: cs =>
    if inNumber && c.isDigit then unnumberedFrom true cs
    else if c == '$' && cs.head?.any Char.isDigit then '?' :: unnumberedFrom true cs
    else c :: unnumberedFrom false cs

/-- A text with a question mark in the place of every numbered placeholder. -/
def unnumbered (text : String) : String :=
  String.ofList (unnumberedFrom false text.toList)

theorem unnumberedFrom_eq (inNumber : Bool) (text : List Char) :
    unnumberedFrom inNumber text = mapNumbers (fun _ => ['?']) inNumber text := by
  induction text generalizing inNumber with
  | nil => rfl
  | cons c cs ih =>
    rw [unnumberedFrom, mapNumbers, ih, ih]
    rfl

/-- **One template, two texts.**  Without its numbers the Postgres text of a template is
its MySQL text. -/
theorem Template.Spaced.unnumbered_render {t : Template} (ht : t.Spaced '$') (n : Nat) (s : Unit) :
    unnumberedFrom false (t.render postgres.placeholder n).1.toList =
      (t.render mysql.placeholder s).1.toList := by
  rw [unnumberedFrom_eq]
  exact ht.mapNumbers_render (fun _ => s) (fun _ => rfl) n

/-! ### Templates -/

/-- A leaf that is written alike in both databases: its field is no reference and holds
no `$`, and its operator matches no pattern. -/
structure Leaf.Portable (leaf : Leaf) : Prop where
  field : FieldRef.parse leaf.field = none
  sigil : '$' ∉ leaf.field.toList
  operator : ∀ p negated, Operator.ofName? leaf.operator ≠ some (.pattern p negated)

/-- What is portable has nothing to cast. -/
theorem Leaf.Portable.castable {leaf : Leaf} (h : leaf.Portable) : leaf.Castable := by
  intro ref href
  rw [h.field] at href
  cases href

/-- A portable leaf avoids `$`, if no predicate brings one in. -/
theorem Leaf.Portable.avoids {leaf : Leaf} (h : leaf.Portable) {config : Config}
    (hp : leaf.usesPredicate config = false)
    {resolve : String → Except CompileError FieldExpr} : leaf.Avoids resolve config '$' := by
  refine ⟨h.sigil, fun name wrapper field sql hname hw => ?_⟩
  rw [usesPredicate, hname, Option.bind_some, hw] at hp
  cases hp

/-- A plan sees nothing of the dialect but the expression of the leaf's field. -/
theorem Leaf.plan_congr {resolve resolve' : String → Except CompileError FieldExpr}
    {config : Config} {leaf : Leaf} (h : resolve leaf.field = resolve' leaf.field) :
    leaf.plan resolve config = leaf.plan resolve' config := by
  rw [plan, plan, h]

/-- **The template of a leaf** is the same in two styles that resolve its field alike, if
it matches no pattern. -/
theorem Leaf.draft_congr {a b : Style} {config : Config} {leaf : Leaf}
    (hr : a.resolve leaf.field = b.resolve leaf.field)
    (ho : ∀ p negated, Operator.ofName? leaf.operator ≠ some (.pattern p negated)) :
    leaf.draft a config = leaf.draft b config := by
  rw [draft, draft, plan_congr hr]
  cases hp : leaf.plan b.resolve config with
  | error e => rfl
  | ok plan =>
    rcases plan_cases hp with ⟨rfl, -⟩ | ⟨field, c, -, -, hc, rfl⟩ | ⟨_, _, -, rfl⟩
    · rfl
    · have hpieces : c.pieces a field = c.pieces b field := by
        cases c with
        | compare c v => rfl
        | between negated start stop => rfl
        | member items => rfl
        | pattern p negated v =>
          rcases hc with ⟨-, hc⟩ | ⟨-, -, op, hop, hc⟩
          · cases hc
          · rcases op.condition_eq_ok hc with
              ⟨_, -, ⟨_, -, hc⟩ | ⟨_, _, rfl, -⟩⟩ | ⟨_, start, stop, -, -, hc⟩
            · cases hc
            · exact absurd hop (ho _ _)
            · cases start <;> cases stop <;> cases hc
      show Except.ok (Draft.mk _ _) = Except.ok (Draft.mk _ _)
      rw [hpieces]
    · rfl

/-- Filters whose leaves have the same templates in two styles have the same template. -/
theorem Node.draft_congr {a b : Style} {config : Config} {node : Node}
    (h : ∀ leaf ∈ node.leaves, leaf.draft a config = leaf.draft b config) :
    node.draft a config = node.draft b config := by
  induction node with
  | leaf leaf =>
    rw [draft, draft]
    exact h leaf (by simp [leaves])
  | group glue rules ih =>
    have hall : ∀ nodes : List Node, (∀ node ∈ nodes, node ∈ rules) →
        draftAll a config nodes = draftAll b config nodes := by
      intro nodes hnodes
      induction nodes with
      | nil => rfl
      | cons node nodes ihn =>
        have hmem := hnodes node (List.mem_cons_self ..)
        rw [draftAll, draftAll, ih node hmem (forall_leaves_of_mem h hmem),
          ihn fun n hn => hnodes n (List.mem_cons_of_mem _ hn)]
    rw [draft, draft, hall rules fun _ hn => hn]

/-! ### Filters -/

section

variable {config : Config} {node : Node}
variable (hn : ∀ leaf ∈ node.leaves,
  leaf.runsOperation config = false ∧ leaf.usesPredicate config = false)
include hn

/-- **A filter binds the same values in both databases**, or fails in both with the same
error, if its references can be cast. -/
theorem values_compile_eq (hc : ∀ leaf ∈ node.leaves, leaf.Castable) (s : Nat) (t : Unit) :
    (compile postgres config node s).1.map (·.values) =
      (compile mysql config node t).1.map (·.values) := by
  rw [values_compile, values_compile]
  refine bindAll_fst_congr (fun leaf hl n u => ?_) _ _
  rw [leaf.values_run_compile (hn leaf hl).1, leaf.values_run_compile (hn leaf hl).1]
  exact Leaf.binds_congr (hn leaf hl).2 ((hc leaf hl).exists_resolve n)
    ⟨_, mysql_resolve u leaf.field⟩

/-- **The references of a filter that Postgres compiles can be cast.** -/
theorem castable_of_compile {s : Nat} {c : Compiled}
    (h : (compile postgres config node s).1 = .ok c) : ∀ leaf ∈ node.leaves, leaf.Castable := by
  intro leaf hl
  have hvalues := values_compile postgres config node s
  rw [h] at hvalues
  obtain ⟨n, _, hrun⟩ := exists_run_of_bindAll hvalues.symm leaf hl
  rw [leaf.run_compile] at hrun
  cases hp : leaf.plan (postgres.resolve n) config with
  | error e => rw [hp] at hrun; cases hrun
  | ok plan => exact Leaf.castable_of_plan (hn leaf hl).2 hp

/-- **The two texts of a portable filter** differ in the numbers of the placeholders. -/
theorem compile_eq_unnumbered (hp : ∀ leaf ∈ node.leaves, leaf.Portable) {s : Nat} {t : Unit}
    {c c' : Compiled} (hc : (compile postgres config node s).1 = .ok c)
    (hc' : (compile mysql config node t).1 = .ok c') : c' = ⟨unnumbered c.sql, c.values⟩ := by
  obtain ⟨d, hd, rfl⟩ := compile_eq_ok postgres_writes (fun l hl => (hn l hl).1) (Prod.ext hc rfl)
  obtain ⟨d', hd', rfl⟩ := compile_eq_ok mysql_writes (fun l hl => (hn l hl).1) (Prod.ext hc' rfl)
  have hsame : node.draft Postgres.style config = node.draft MySql.style config := by
    refine Node.draft_congr fun leaf hl => Leaf.draft_congr ?_ (hp leaf hl).operator
    show postgres.resolve 0 leaf.field = mysql.resolve () leaf.field
    rw [mysql_resolve, Dialect.resolve, (hp leaf hl).field]
  obtain rfl : d = d' := Except.ok.inj (hd.symm.trans (hsame.trans hd'))
  have hspaced := node.draft_spaced (by decide) Postgres.style_spaced postgres_avoided
    (fun leaf hl => (hp leaf hl).avoids (hn leaf hl).2) hd
  have htext := hspaced.unnumbered_render 0 t
  show (⟨(d.pieces.render mysql.placeholder t).1, d.values⟩ : Compiled) =
    ⟨String.ofList (unnumberedFrom false (d.pieces.render postgres.placeholder 0).1.toList),
      d.values⟩
  rw [htext, String.ofList_toList]

end

/-- **The databases agree.**  Let a filter run no configured operation and name no
configured predicate.

- If it compiles on Postgres, it compiles on MySQL to the same values.
- If all its references can be cast, it compiles on both to the same values or fails on
  both with the same error.
- If moreover it has no references, no `$` in a field, and no patterns, its MySQL text is
  its Postgres text with a question mark in the place of every numbered placeholder. -/
theorem compile_dialects_agree (config : Config) (node : Node)
    (hn : ∀ leaf ∈ node.leaves,
      leaf.runsOperation config = false ∧ leaf.usesPredicate config = false)
    (s : Nat) (t : Unit) :
    (∀ c, (compile postgres config node s).1 = .ok c →
        ∃ c', (compile mysql config node t).1 = .ok c' ∧ c'.values = c.values) ∧
      ((∀ leaf ∈ node.leaves, leaf.Castable) →
        (compile postgres config node s).1.map (·.values) =
          (compile mysql config node t).1.map (·.values)) ∧
      ((∀ leaf ∈ node.leaves, leaf.Portable) →
        (compile mysql config node t).1 =
          (compile postgres config node s).1.map fun c => ⟨unnumbered c.sql, c.values⟩) := by
  refine ⟨fun c hc => ?_, fun hcast => values_compile_eq hn hcast s t, fun hp => ?_⟩
  · have hvalues := values_compile_eq hn (castable_of_compile hn hc) s t
    rw [hc] at hvalues
    cases hc' : (compile mysql config node t).1 with
    | error e => rw [hc'] at hvalues; cases hvalues
    | ok c' =>
      rw [hc'] at hvalues
      exact ⟨c', rfl, (Except.ok.inj hvalues).symm⟩
  · have hvalues := values_compile_eq hn (fun leaf hl => (hp leaf hl).castable) s t
    cases hc : (compile postgres config node s).1 with
    | error e =>
      cases hc' : (compile mysql config node t).1 with
      | error e' =>
        rw [hc, hc'] at hvalues
        exact congrArg Except.error (Except.error.inj hvalues).symm
      | ok c' => rw [hc, hc'] at hvalues; cases hvalues
    | ok c =>
      cases hc' : (compile mysql config node t).1 with
      | error e => rw [hc, hc'] at hvalues; cases hvalues
      | ok c' => exact congrArg Except.ok (compile_eq_unnumbered hn hp hc hc')

/-- A reference that can be cast beside a pattern, a pattern on a date beside a range of
three bounds, and columns alone: the same values, the same error, and the same text but
for the numbers. -/
theorem compile_dialects_agree_mixed :
    (∃ c', (compile mysql {}
        (.group .or
          [.leaf { field := "json:c.d:int", operator := "less", operand := some (.scalar (.int 1)) },
            .leaf { field := "a", operator := "contains", operand := some (.list [.str "x"]) }])
        ()).1 = .ok c' ∧ c'.values = [.int 1, .str "x"]) ∧
      (compile mysql {}
        (.group .and
          [.leaf { field := "json:c.d:date", operator := "endsWith",
                   operand := some (.scalar (.int 1)) },
            .leaf { field := "a", operator := "between",
                    operand := some (.list [.int 1, .int 2, .int 3]) }]) ()).1.map (·.values) =
        .error (.wrongCount "between" 2 3) ∧
      (compile mysql {}
        (.group .and
          [.leaf { field := "a?", operator := "between",
                   operand := some (.list [.int 1, .int 2]) },
            .leaf { field := "b", includes := some [.int 3, .null] }]) ()).1 =
        .ok ⟨"( ( a? > ? AND a? < ? ) AND b IN(?,?) )", [.int 1, .int 2, .int 3, .null]⟩ := by
  refine ⟨(compile_dialects_agree {} _ ?_ 3 ()).1
      ⟨"( (\"c\"->'d')::int < $1 OR a LIKE '%' || $2 || '%' )", [.int 1, .str "x"]⟩ rfl,
    ((compile_dialects_agree {} _ ?_ 0 ()).2.1 ?_).symm.trans rfl,
    ((compile_dialects_agree {} _ ?_ 9 ()).2.2 ?_).trans rfl⟩
  all_goals simp only [Node.leaves, leavesAll, List.append_nil, List.cons_append, List.nil_append,
    List.forall_mem_cons, List.not_mem_nil, false_imp_iff, implies_true, and_true]
  · decide
  · decide
  · decide
  · decide
  · exact ⟨⟨by decide, by decide, fun p negated => by cases p <;> cases negated <;> decide⟩,
      by decide, by decide, fun p negated => by cases p <;> cases negated <;> decide⟩

end SqlFilter
