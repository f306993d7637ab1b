/-
# What a pattern finds

A pattern operator asks whether a value occurs in the text of a column: anywhere, at its
beginning or at its end (`Pattern.Finds`).  The databases are asked in two ways:

```text
              Postgres                  MySQL
contains      a LIKE '%' || v || '%'    INSTR(a, v) > 0
beginsWith    a LIKE v || '%'           a LIKE CONCAT(v, '%')
endsWith      a LIKE '%' || v           a LIKE CONCAT('%', v)
```

`INSTR` takes the value as it is.  In a pattern of `LIKE` the value is a part of the
pattern, so it is found as it is only if there are no wildcards and backslashes in it
(`Sql.like_around_iff`).
-/

import SqlFilter.Proofs.Fields
import SqlFilter.Proofs.Sql.Idioms
import SqlFilter.Proofs.Sql.Rows

namespace SqlFilter

variable {σ : Type}

/-! ### Evaluation of patterns -/

namespace Sql

variable (row : List Name → String) (path : List Name) (p : Pattern) (negated : Bool) (v : String)

/-- A column that is `LIKE` something, where that is evaluated to a text. -/
theorem eval_like {right : Expr} {pattern : String}
    (h : right.eval row = some (.text pattern)) :
    ((Expr.like negated (.column path) right).eval row).bind Datum.truth? =
      (like pattern.toList (row path).toList).map (negated ^^ ·) := by
  rw [Expr.eval, Expr.eval, h, Option.bind_some, Option.bind_some, Datum.likened]
  cases like pattern.toList (row path).toList <;> rfl

/-- **The condition of Postgres** is a pattern around the value. -/
theorem eval_postgres_pattern :
    ((Expr.like negated (.column path)
        (.concat (Postgres.patternParts p false (.str v)))).eval row).bind Datum.truth? =
      (like (p.around v.toList) (row path).toList).map (negated ^^ ·) := by
  have hright : ∃ pattern, (Expr.concat (Postgres.patternParts p false (.str v))).eval row =
      some (.text pattern) ∧ pattern.toList = p.around v.toList := by
    cases p with
    | contains => exact ⟨"" ++ "%" ++ v ++ "%", rfl, by simp [Pattern.around]⟩
    | beginsWith => exact ⟨"" ++ v ++ "%", rfl, by simp [Pattern.around]⟩
    | endsWith => exact ⟨"" ++ "%" ++ v, rfl, by simp [Pattern.around]⟩
  obtain ⟨pattern, heval, hpattern⟩ := hright
  rw [eval_like row path negated heval, hpattern]

/-- The position of a value in a column, compared with 0. -/
theorem eval_instr (c : Comparison) :
    ((Expr.compare c (.call "INSTR" [.column path, .value (.str v)]) (.number "0")).eval row).bind
        Datum.truth? =
      some (c.holds (position (row path).toList v.toList) 0) := rfl

/-- **The condition of MySQL** is a position, or a pattern around the value. -/
theorem eval_mysql_pattern :
    ((MySql.patternExpr p negated (.column path) (.str v)).eval row).bind Datum.truth? =
      if p = .contains then some (negated ^^ decide (p.Finds v.toList (row path).toList))
      else (like (p.around v.toList) (row path).toList).map (negated ^^ ·) := by
  cases p with
  | contains =>
    rw [if_pos rfl, MySql.patternExpr, eval_instr, Option.some_inj]
    have hpos : v.toList <:+: (row path).toList ↔ 0 < position (row path).toList v.toList :=
      position_pos_iff.symm
    have hzero : ∀ n : Nat, (n == 0) = !decide (0 < n) := fun n => by cases n <;> rfl
    cases negated <;> simp [Comparison.holds, Pattern.Finds, hpos, hzero]
  | beginsWith =>
    have hright : (Expr.call "CONCAT" [.value (.str v), .text "%"]).eval row =
        some (.text ("" ++ v ++ "%")) := rfl
    rw [if_neg (by decide), MySql.patternExpr, eval_like row path negated hright]
    simp [Pattern.around]
  | endsWith =>
    have hright : (Expr.call "CONCAT" [.text "%", .value (.str v)]).eval row =
        some (.text ("" ++ "%" ++ v)) := rfl
    rw [if_neg (by decide), MySql.patternExpr, eval_like row path negated hright]
    simp [Pattern.around]

end Sql

/-! ### Leaves -/

/-- A plain name is no reference. -/
theorem FieldRef.parse_of_isPlain {name : String} (h : Identifier.isPlain name = true) :
    parse name = none := by
  have hdot : '.' ∉ name.toList := by
    obtain ⟨c, cs, hname, hc, hcs⟩ := Identifier.exists_of_isPlain h
    rw [hname, List.mem_cons, not_or]
    refine ⟨fun he => ?_, fun hm => ?_⟩
    · rw [← he] at hc
      exact absurd hc (by decide)
    · exact absurd (hcs _ hm) (by decide)
  rw [parse, cut_eq_none_iff.2 hdot]

/-- A leaf that looks for a text in an admitted column, with a pattern operator. -/
structure Leaf.LooksFor (config : Config) (leaf : Leaf) (p : Pattern) (negated : Bool)
    (v : String) : Prop where
  column : IsColumn leaf.field
  admitted : config.whitelist.admits leaf.field = true
  operator : leaf.operator = (Operator.pattern p negated).name
  members : leaf.members = []
  predicate : leaf.predicate = none
  operand : (leaf.effectiveOperand config).bind Operand.only = some (.str v)

namespace Leaf.LooksFor

variable {config : Config} {leaf : Leaf} {p : Pattern} {negated : Bool} {v : String}
variable (h : leaf.LooksFor config p negated v)
include h

theorem ofName? : Operator.ofName? leaf.operator = some (.pattern p negated) :=
  Operator.ofName?_eq_some_iff.2 h.operator.symm

theorem runsOperation : leaf.runsOperation config = false := by
  simp [Leaf.runsOperation, h.ofName?]

/-- The leaf is planned as its pattern on the column. -/
theorem plan_eq (d : Dialect σ) (s : σ) :
    leaf.plan (d.resolve s) config =
      .ok (.condition ⟨leaf.field, false⟩ (.pattern p negated (.str v))) := by
  have hfield : leaf.field ≠ "" := by
    intro he
    have hplain := h.column.1
    rw [he] at hplain
    exact absurd hplain (by decide)
  have hoperator : leaf.operator ≠ "" := by
    rw [h.operator]
    cases p <;> cases negated <;> decide
  have hexpression : leaf.expression (d.resolve s) config = .ok ⟨leaf.field, false⟩ := by
    rw [expression, d.resolve_of_parse_eq_none (FieldRef.parse_of_isPlain h.column.1) s,
      h.predicate]
    rfl
  have hcondition : (Operator.pattern p negated).condition (leaf.effectiveOperand config) =
      .ok (.pattern p negated (.str v)) := by
    rw [Operator.condition, Operator.condition?, Operator.oneValue_eq, h.operand]
    rfl
  rw [Leaf.plan_eq, if_neg (by simpa using hfield), if_neg (by simp [h.admitted]), hexpression]
  show leaf.request config _ = _
  rw [request, if_neg (by simp [h.members]), if_neg (by simpa using hoperator), planOperator]
  simp only [h.ofName?, hcondition]
  rfl

/-- **The leaf is read as its condition.** -/
theorem exists_read {d : Dialect σ} {style : Style} (hw : d.Writes style) {At : σ → Nat → Prop}
    {items : List Sql.Item} {e : Sql.Expr}
    (hreads : Template.Reads d At (style.pattern p leaf.field negated false) [.str v] items)
    (hitems : Sql.IsPredicate items e) {s : σ} (hs : At (d.reset s) 0) :
    ∃ c, (SqlFilter.compile d config (.leaf leaf) s).1 = .ok c ∧ c.values = [.str v] ∧
      ∀ row, Sql.selects row c.values c.sql = (e.eval row).bind Sql.Datum.truth? := by
  have hdraft : (Node.leaf leaf).draft style config =
      .ok ⟨style.pattern p leaf.field negated false, [.str v]⟩ := by
    rw [Node.draft, Leaf.draft, ← hw.resolve_eq s, h.plan_eq d s]
    rfl
  have hn : ∀ l ∈ (Node.leaf leaf).leaves, l.runsOperation config = false := fun l hl => by
    rw [List.mem_singleton.1 hl, h.runsOperation]
  refine ⟨_, (compile_eq_ok_iff hw hn).2 ⟨_, hdraft, rfl⟩, rfl, fun row => ?_⟩
  rw [Sql.selects, Draft.compiled]
  simp only [hreads.read_eq hitems hs]

/-- **What the leaf selects on Postgres.** -/
theorem selects_postgres (s : Nat) :
    ∃ c, (SqlFilter.compile postgres config (.leaf leaf) s).1 = .ok c ∧ c.values = [.str v] ∧
      ∀ row, Sql.selects row c.values c.sql =
        (Sql.like (p.around v.toList) (row [⟨leaf.field, false⟩]).toList).map (negated ^^ ·) := by
  obtain ⟨items, hreads, hitems⟩ := Postgres.reads_pattern postgres_binds
    (denotes_column h.column) p negated false (.str v)
  obtain ⟨c, hc, hvalues, hselects⟩ := h.exists_read postgres_writes hreads hitems (s := s) rfl
  exact ⟨c, hc, hvalues, fun row => (hselects row).trans (Sql.eval_postgres_pattern ..)⟩

/-- **What the leaf selects on MySQL.** -/
theorem selects_mysql (s : Unit) :
    ∃ c, (SqlFilter.compile mysql config (.leaf leaf) s).1 = .ok c ∧ c.values = [.str v] ∧
      ∀ row, Sql.selects row c.values c.sql =
        if p = .contains then
          some (negated ^^ decide (p.Finds v.toList (row [⟨leaf.field, false⟩]).toList))
        else (Sql.like (p.around v.toList) (row [⟨leaf.field, false⟩]).toList).map (negated ^^ ·) := by
  obtain ⟨items, hreads, hitems⟩ := MySql.reads_pattern mysql_binds
    (denotes_column h.column) p negated false (.str v)
  obtain ⟨c, hc, hvalues, hselects⟩ := h.exists_read mysql_writes hreads hitems (s := s) trivial
  exact ⟨c, hc, hvalues, fun row => (hselects row).trans (Sql.eval_mysql_pattern ..)⟩

end Leaf.LooksFor

/-- A leaf that looks for a name at the beginning of a column. -/
def named : Leaf where
  field := "name"
  operator := "notBeginsWith"
  operand := some (.scalar (.str "Al"))

/-- A leaf that looks for a percent sign in a column. -/
def percent : Leaf where
  field := "a"
  operator := "contains"
  operand := some (.scalar (.str "%"))

end SqlFilter
