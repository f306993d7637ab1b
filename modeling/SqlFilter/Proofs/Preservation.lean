/-
# Compilation preserves meaning

The SQL text of a filter, read by the grammar of SQL conditions with its placeholders
bound to its values, holds exactly if the filter does, whichever atomic conditions hold.
A filter that asks for nothing has an empty text, and no other filter has one.

The proof goes over the draft of a filter.  The draft of a leaf states the condition the
leaf asks for, and the draft of a group is woven from those of its children, of which the
ones that ask for nothing are left out (`Node.draft_means`).
-/

import SqlFilter.Proofs.Fields
import SqlFilter.Proofs.Sql.Idioms

namespace SqlFilter

open Template (Part States)

variable {σ : Type}

/-- A field is written so that it is read as its target, alone and in patterns. -/
structure Legible (d : Dialect σ) (At : σ → Nat → Prop) (style : Style) (field : FieldExpr)
    (t : Target) : Prop where
  denotes : Denotes field.sql t.expr
  pattern : ∀ p negated v, States d At (style.pattern p field.sql negated field.isJson) [v]
    fun ρ => ρ ⟨t.expr, .pattern p negated t.quoted, [v]⟩

/-- A draft means what `meaning` says: it is empty if that is nothing, and otherwise it
states it. -/
def Draft.Means (d : Dialect σ) (At : σ → Nat → Prop) (t : Draft)
    (meaning : (Sql.Atom → Bool) → Option Bool) : Prop :=
  (t.pieces = [] ∧ t.values = [] ∧ ∀ ρ, meaning ρ = none) ∨
    ∃ f, t.pieces ≠ [] ∧ States d At t.pieces t.values f ∧ ∀ ρ, meaning ρ = some (f ρ)

/-! ### Groups -/

section

variable {d : Dialect σ} {At : σ → Nat → Prop} {config : Config} {target : String → Target}

/-- Templates that are not empty are not when they are woven. -/
theorem Glue.weave_ne_nil (glue : Glue) {ts : List Template} (h : ∀ t ∈ ts, t ≠ [])
    (hne : ts ≠ []) : glue.weave ts ≠ [] := by
  rcases ts with _ | ⟨t, _ | ⟨u, ts⟩⟩
  · exact absurd rfl hne
  · simpa [weave, List.intercalate_singleton] using h t (List.mem_cons_self ..)
  · simp [weave]

/-- The children of a group as parts, without those that ask for nothing. -/
theorem exists_parts {rules : List Node} {ts : List Draft}
    (h : List.Forall₂ (fun node t => t.Means d At fun ρ => node.meaning ρ target config) rules ts) :
    ∃ parts : List Part, (∀ p ∈ parts, p.template ≠ [] ∧ p.Stated d At) ∧
      (ts.map (·.pieces)).filter (!·.isEmpty) = parts.map (·.template) ∧
      ts.flatMap (·.values) = parts.flatMap (·.values) ∧
      ∀ ρ, meaningAll ρ target config rules = parts.map (·.truth ρ) := by
  induction h with
  | nil => exact ⟨[], (fun p hp => by cases hp), rfl, rfl, fun ρ => rfl⟩
  | @cons node t rules ts ht _ ih =>
    obtain ⟨parts, hstated, htemplates, hvalues, hmeaning⟩ := ih
    rcases ht with ⟨hp, hv, hnone⟩ | ⟨f, hp, hstates, hsome⟩
    · refine ⟨parts, hstated, ?_, ?_, fun ρ => ?_⟩
      · simpa [hp] using htemplates
      · simpa [hv] using hvalues
      · simp [meaningAll, hnone, hmeaning]
    · refine ⟨⟨t.pieces, t.values, f⟩ :: parts, ?_, ?_, ?_, fun ρ => ?_⟩
      · intro p hmem
        rcases List.mem_cons.1 hmem with rfl | hmem
        · exact ⟨hp, hstates⟩
        · exact hstated p hmem
      · simpa [hp] using htemplates
      · simpa using hvalues
      · simp [meaningAll, hsome, hmeaning]

/-- **The draft of a group** means what the group asks for. -/
theorem Draft.group_means (glue : Glue) {rules : List Node} {ts : List Draft}
    (h : List.Forall₂ (fun node t => t.Means d At fun ρ => node.meaning ρ target config) rules ts) :
    (Draft.group glue ts).Means d At fun ρ => (Node.group glue rules).meaning ρ target config := by
  obtain ⟨parts, hstated, htemplates, hvalues, hmeaning⟩ := exists_parts h
  have hgroup : Draft.group glue ts =
      ⟨glue.weave (parts.map (·.template)), parts.flatMap (·.values)⟩ := by
    rw [Draft.group, htemplates, hvalues]
  rw [hgroup]
  by_cases hne : parts = []
  · subst hne
    exact .inl ⟨rfl, rfl, fun ρ => by simp [Node.meaning, hmeaning, Glue.meaning]⟩
  · refine .inr ⟨_, ?_, Template.states_weave glue (fun p hp => (hstated p hp).2) hne, fun ρ => ?_⟩
    · refine glue.weave_ne_nil (fun t ht => ?_) (by simpa using hne)
      obtain ⟨p, hp, rfl⟩ := List.mem_map.1 ht
      exact (hstated p hp).1
    · simp [Node.meaning, hmeaning, Glue.meaning, hne]

end

/-! ### Filters -/

section

variable {d : Dialect σ} {At : σ → Nat → Prop} (hd : d.Binds At) {style : Style}
include hd

/-- **A condition on a legible field** is read as what it asks for. -/
theorem Condition.states_pieces {field : FieldExpr} {t : Target}
    (hf : Legible d At style field t) {c : Condition} (hc : c.values ≠ []) :
    States d At (c.pieces style field) c.values fun ρ => c.truth ρ t := by
  cases c with
  | compare c v => exact states_comparison hd hf.denotes c v
  | pattern p negated v => exact hf.pattern p negated v
  | between negated start stop =>
    exact states_between hd hf.denotes style field.isJson negated start stop
  | member items => exact states_member hd hf.denotes style field.isJson hc

variable {config : Config} {target : String → Target} (hw : d.Writes style)
include hw

/-- **The draft of a leaf** means what the leaf asks for. -/
theorem Leaf.draft_means {leaf : Leaf} {t : Draft}
    (hl : ∀ field, leaf.field ≠ "" → leaf.expression style.resolve config = .ok field →
      Legible d At style field (target leaf.field))
    (h : leaf.draft style config = .ok t) :
    t.Means d At fun ρ => leaf.meaning ρ target config := by
  rcases draft_eq_ok h with ⟨rfl, hn⟩ | ⟨field, c, hf, hx, hc, rfl⟩
  · exact .inl ⟨rfl, rfl, fun ρ => meaning_eq_none ρ target config hn⟩
  · have hv := hc.values_ne_nil
    have hpieces : c.pieces style field ≠ [] := by
      intro hnil
      have hmarks := c.marks_pieces hw field
      rw [hnil] at hmarks
      exact hv (List.length_eq_zero_iff.1 hmarks.symm)
    exact .inr ⟨_, hpieces, c.states_pieces hd (hl field hf hx) hv,
      fun ρ => meaning_of_asks ρ target hf hc⟩

/-- **The draft of a filter** means what the filter asks for. -/
theorem Node.draft_means {node : Node} {t : Draft}
    (hl : ∀ leaf ∈ node.leaves, ∀ field, leaf.field ≠ "" →
      leaf.expression style.resolve config = .ok field →
        Legible d At style field (target leaf.field))
    (h : node.draft style config = .ok t) :
    t.Means d At fun ρ => node.meaning ρ target config := by
  refine draft_induction (P := fun node t => t.Means d At fun ρ => node.meaning ρ target config)
    h (fun leaf hleaf u hu => ?_) fun glue rules ts hts => Draft.group_means glue hts
  simp only [Node.meaning]
  exact leaf.draft_means hd hw (hl leaf hleaf) hu

end

/-! ### Reading a statement -/

/-- **A statement is read as what its draft means**, if its numbering starts anew. -/
theorem Draft.Means.holds {d : Dialect σ} {At : σ → Nat → Prop} {t : Draft}
    {meaning : (Sql.Atom → Bool) → Option Bool} (h : t.Means d At meaning) {s : σ}
    (hs : At s 0) (ρ : Sql.Atom → Bool) :
    Sql.holds ρ t.values (t.compiled d.placeholder s).1.sql = some (meaning ρ) := by
  rcases h with ⟨hp, hv, hnone⟩ | ⟨f, -, ⟨items, e, hreads, hitems, htruth⟩, hsome⟩
  · rw [hv, hnone, compiled, hp]
    simp [Template.render, Sql.holds, Sql.read, Sql.Machine.run, Sql.Machine.result]
  · rw [Sql.holds, compiled, hreads.read_eq hitems hs, hsome]
    simp [htruth]

/-- **A statement is empty** exactly if its draft means nothing. -/
theorem Draft.Means.sql_eq_empty_iff {d : Dialect σ} {At : σ → Nat → Prop} {t : Draft}
    {meaning : (Sql.Atom → Bool) → Option Bool} (h : t.Means d At meaning) {s : σ}
    (hs : At s 0) (ρ : Sql.Atom → Bool) :
    (t.compiled d.placeholder s).1.sql = "" ↔ meaning ρ = none := by
  constructor
  · intro hsql
    have hholds := h.holds hs ρ
    rw [hsql] at hholds
    have hread : Sql.read t.values "" = none ∨ Sql.read t.values "" = some none := by
      rw [Sql.read, String.toList_empty, Sql.Machine.run, Option.bind_some, Sql.Machine.result]
      split
      · exact .inr rfl
      · exact .inl rfl
    rcases hread with hread | hread
    · rw [Sql.holds, hread] at hholds
      cases hholds
    · rw [Sql.holds, hread] at hholds
      exact (Option.some.inj hholds).symm
  · intro hnone
    rcases h with ⟨hp, -, -⟩ | ⟨f, -, -, hsome⟩
    · rw [compiled, hp]
      rfl
    · rw [hsome] at hnone
      cases hnone

/-! ### The two databases -/

/-- Whether a leaf names a configured predicate. -/
def Leaf.usesPredicate (config : Config) (leaf : Leaf) : Bool :=
  (leaf.predicate.bind config.predicates.find?).isSome

/-- The expression of a field without a predicate is what the field is resolved to. -/
theorem Leaf.resolve_of_expression {resolve : String → Except CompileError FieldExpr}
    {config : Config} {leaf : Leaf} {field : FieldExpr}
    (hl : leaf.usesPredicate config = false) (h : leaf.expression resolve config = .ok field) :
    resolve leaf.field = .ok field := by
  rw [expression] at h
  cases hr : resolve leaf.field with
  | error e => rw [hr] at h; cases h
  | ok raw =>
    rw [hr] at h
    change wrap config leaf.predicate raw = .ok field at h
    cases hp : leaf.predicate with
    | none =>
      rw [hp] at h
      exact h
    | some name =>
      rw [usesPredicate, hp, Option.bind_some, Option.isSome_eq_false_iff,
        Option.isNone_iff_eq_none] at hl
      rw [hp, wrap, hl] at h
      cases h

/-- A column is legible in every dialect that writes its patterns so. -/
theorem postgres_legible {raw : String} {field : FieldExpr}
    (hraw : IsColumn raw ∨ (FieldRef.parse raw).isSome)
    (h : postgres.resolve 0 raw = .ok field) :
    Legible postgres (· = ·) Postgres.style field (Postgres.target raw) := by
  have hpattern : ∀ {e : Sql.Expr}, Denotes field.sql e → ∀ p negated v,
      States postgres (· = ·) (Postgres.style.pattern p field.sql negated field.isJson) [v]
        fun ρ => ρ ⟨e, .pattern p negated field.isJson, [v]⟩ :=
    fun hf p negated v => Postgres.states_pattern postgres_binds hf p negated field.isJson v
  rcases postgres_resolve_eq_ok h with ⟨hp, rfl⟩ | ⟨ref, hp, rfl, htype⟩
  · have hcolumn : IsColumn raw := hraw.resolve_right (by rw [hp]; exact Bool.false_ne_true)
    have htarget : Postgres.target raw = .column raw := by rw [Postgres.target, hp]
    rw [htarget]
    exact ⟨denotes_column hcolumn, hpattern (denotes_column hcolumn)⟩
  · have htarget : Postgres.target raw = ref.target := by rw [Postgres.target, hp]
    rw [htarget]
    exact ⟨denotes_jsonExpr htype, hpattern (denotes_jsonExpr htype)⟩

theorem mysql_legible {raw : String} {field : FieldExpr} (hraw : IsColumn raw)
    (h : mysql.resolve () raw = .ok field) :
    Legible mysql (fun _ _ => True) MySql.style field (.column raw) := by
  rw [mysql_resolve] at h
  obtain rfl := Except.ok.inj h
  have hf := denotes_column hraw
  exact ⟨hf, fun p negated v => MySql.states_pattern mysql_binds hf p negated false v⟩

/-- **Compilation preserves meaning.**  Let the leaves of a filter run no configured
operation and name no configured predicate, and let every field be a plain name that is
not reserved or, on Postgres, a reference into a JSON column.  When the filter compiles,
its text is read, with its values bound, as a condition that holds exactly if the filter
does, whichever atomic conditions hold; and the text is empty exactly if the filter asks
for nothing. -/
theorem compile_preserves_meaning :
    (∀ (config : Config) (node : Node) (s : Nat) (c : Compiled) (t : Nat),
      (∀ leaf ∈ node.leaves,
        leaf.runsOperation config = false ∧ leaf.usesPredicate config = false ∧
          (leaf.field ≠ "" → IsColumn leaf.field ∨ (FieldRef.parse leaf.field).isSome)) →
        compile postgres config node s = (.ok c, t) →
          ∀ ρ, Sql.holds ρ c.values c.sql = some (node.meaning ρ Postgres.target config) ∧
            (c.sql = "" ↔ node.meaning ρ Postgres.target config = none)) ∧
      ∀ (config : Config) (node : Node) (s : Unit) (c : Compiled) (t : Unit),
        (∀ leaf ∈ node.leaves,
          leaf.runsOperation config = false ∧ leaf.usesPredicate config = false ∧
            (leaf.field ≠ "" → IsColumn leaf.field)) →
          compile mysql config node s = (.ok c, t) →
            ∀ ρ, Sql.holds ρ c.values c.sql = some (node.meaning ρ .column config) ∧
              (c.sql = "" ↔ node.meaning ρ .column config = none) := by
  constructor
  · intro config node s c t hn h ρ
    obtain ⟨draft, hd, rfl⟩ := compile_eq_ok postgres_writes (fun l hl => (hn l hl).1) h
    have hmeans := node.draft_means postgres_binds postgres_writes (fun leaf hl field hf hx =>
      postgres_legible ((hn leaf hl).2.2 hf) (leaf.resolve_of_expression (hn leaf hl).2.1 hx)) hd
    exact ⟨hmeans.holds rfl ρ, hmeans.sql_eq_empty_iff rfl ρ⟩
  · intro config node s c t hn h ρ
    obtain ⟨draft, hd, rfl⟩ := compile_eq_ok mysql_writes (fun l hl => (hn l hl).1) h
    have hmeans := node.draft_means mysql_binds mysql_writes (fun leaf hl field hf hx =>
      mysql_legible ((hn leaf hl).2.2 hf) (leaf.resolve_of_expression (hn leaf hl).2.1 hx)) hd
    exact ⟨hmeans.holds trivial ρ, hmeans.sql_eq_empty_iff trivial ρ⟩

/-- An alternative of a range, a list beside a leaf that asks for nothing, and a key with
SQL in its name: the text holds if only the list does. -/
theorem compile_preserves_meaning_nested :
    Sql.holds (fun a => decide (a.kind = .member)) [.int 1, .int 2, .int 3, .int 4, .str "x"]
        ("( ( a > $1 AND a < $2 ) OR b IN($3,$4) OR " ++
          "(\"c\"->'d'' OR ''e')::text LIKE '\"%' || $5 || '%\"' )") = some (some true) ∧
      Sql.holds (fun a => decide (a.kind = .member)) [.str "x", .int 3]
        "( INSTR(a, ?) > 0 AND b IN(?) )" = some (some false) := by
  refine ⟨(compile_preserves_meaning.1 {}
    (.group .or
      [.leaf { field := "a", operator := "between",
               operand := some (.range (some (.int 1)) (some (.int 2))) },
        .group .and [.leaf {}, .leaf { field := "b", includes := some [.int 3, .int 4] }],
        .leaf { field := "json:c.d' OR 'e", operator := "contains",
                operand := some (.scalar (.str "x")) }])
    7 _ _ ?_ rfl _).1, (compile_preserves_meaning.2 {}
    (.group .and
      [.leaf { field := "a", operator := "contains", operand := some (.scalar (.str "x")) },
        .leaf { field := "b", includes := some [.int 3] }])
    () _ _ ?_ rfl _).1⟩
  · simp only [Node.leaves, leavesAll]
    decide
  · simp only [Node.leaves, leavesAll]
    decide

end SqlFilter
