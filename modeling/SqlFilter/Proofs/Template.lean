/-
# Templates

A template is an SQL text with marks in the places of its placeholders, as a list of
pieces.  It is data: its marks can be counted, and it can be rendered on any source of
placeholders (`Template.render`), which fills the marks from left to right.

Every condition of a built-in operator is a template on its field's expression
(`Condition.pieces`), in the style of the dialect: a `Style` says how fields are
resolved and how patterns are written.  `Condition.run_write` is the law that connects
them: writing a condition is rendering its template.
-/

import SqlFilter.Dialect.MySql
import SqlFilter.Dialect.Postgres
import SqlFilter.Proofs.Run

namespace SqlFilter

variable {σ : Type}

/-- A piece of a template. -/
inductive Piece where
  | text (t : String)
  /-- The place of a placeholder. -/
  | mark
  deriving DecidableEq

/-- A text with marks in the places of its placeholders. -/
abbrev Template := List Piece

namespace Template

/-- How many placeholders a template has. -/
def marks (t : Template) : Nat :=
  t.count .mark

/-- The text of a template on a source of placeholders, and the source after it. -/
def render (source : σ → String × σ) : Template → σ → String × σ
  | [], s => ("", s)
  | .text t :: ps, s => (t ++ (render source ps s).1, (render source ps s).2)
  | .mark :: ps, s =>
    ((source s).1 ++ (render source ps (source s).2).1, (render source ps (source s).2).2)

/-- The texts of several templates, one after the other. -/
def renderAll (source : σ → String × σ) : List Template → σ → List String × σ
  | [], s => ([], s)
  | t :: ts, s =>
    ((render source t s).1 :: (renderAll source ts (render source t s).2).1,
      (renderAll source ts (render source t s).2).2)

/-- The marks of a list of `n` values, with commas between them. -/
def listed : Nat → Template
  | 0 => []
  | 1 => [.mark]
  | n + 2 => .mark :: .text "," :: listed (n + 1)

@[simp] theorem marks_nil : marks [] = 0 := rfl

@[simp] theorem marks_text (t : String) (ps : Template) : marks (.text t :: ps) = marks ps := by
  simp [marks]

@[simp] theorem marks_mark (ps : Template) : marks (.mark :: ps) = marks ps + 1 := by
  simp [marks]

@[simp] theorem marks_append (t u : Template) : marks (t ++ u) = marks t + marks u :=
  List.count_append

@[simp] theorem marks_listed (n : Nat) : marks (listed n) = n := by
  induction n using listed.induct with
  | case1 => rfl
  | case2 => rfl
  | case3 n ih => simp [listed, ih]

theorem render_append (source : σ → String × σ) (t u : Template) (s : σ) :
    render source (t ++ u) s =
      ((render source t s).1 ++ (render source u (render source t s).2).1,
        (render source u (render source t s).2).2) := by
  induction t generalizing s with
  | nil => simp [render]
  | cons p t ih => cases p <;> simp [render, ih, String.append_assoc]

/-- A template with a mark has a text, if every placeholder has one. -/
theorem render_ne_empty {source : σ → String × σ} (hsource : ∀ s, (source s).1 ≠ "")
    {t : Template} (ht : 0 < marks t) (s : σ) : (render source t s).1 ≠ "" := by
  induction t with
  | nil => simp at ht
  | cons p t ih =>
    intro h
    cases p with
    | text a =>
      rw [marks_text] at ht
      exact ih ht (String.append_eq_empty_iff.1 h).2
    | mark => exact hsource s (String.append_eq_empty_iff.1 h).1

theorem run_placeholders_succ (source : σ → String × σ) (n : Nat) (s : σ) :
    (Drawing.placeholders (n + 1)).run source s =
      ((source s).1 :: ((Drawing.placeholders n).run source (source s).2).1,
        ((Drawing.placeholders n).run source (source s).2).2) := by
  show (Drawing.placeholders n >>= fun rest => Drawing.done ((source s).1 :: rest)).run source
    (source s).2 = _
  rw [Drawing.run_bind]
  rfl

/-- Placeholders with commas between them render as their marks do. -/
theorem render_listed (source : σ → String × σ) (n : Nat) (s : σ) :
    render source (listed n) s =
      (",".intercalate ((Drawing.placeholders n).run source s).1,
        ((Drawing.placeholders n).run source s).2) := by
  induction n using listed.induct generalizing s with
  | case1 => rfl
  | case2 => simp [listed, render, Drawing.placeholders, Drawing.run]
  | case3 n ih =>
    simp only [listed, render, ih]
    rw [run_placeholders_succ source (n + 1), run_placeholders_succ source n,
      String.intercalate_cons_cons, String.append_assoc]

end Template

/-! ### Styles -/

/-- How a dialect writes what depends on it: the expressions of fields, and the
templates of patterns. -/
structure Style where
  resolve : String → Except CompileError FieldExpr
  pattern (p : Pattern) (field : String) (negated isJson : Bool) : Template

/-- A dialect writes in a style: its clauses are the templates of the style in every
state, and none of its placeholders is empty. -/
structure Dialect.Writes (d : Dialect σ) (style : Style) : Prop where
  resolve_eq : ∀ s, d.resolve s = style.resolve
  run_pattern : ∀ s p field negated isJson t,
    (d.pattern s p field negated isJson).run d.placeholder t =
      (style.pattern p field negated isJson).render d.placeholder t
  marks_pattern : ∀ p field negated isJson, (style.pattern p field negated isJson).marks = 1
  member_eq : ∀ s, d.member s = listMembership
  placeholder_ne_empty : ∀ s, (d.placeholder s).1 ≠ ""

/-- The style of Postgres. -/
def Postgres.style : Style where
  resolve := postgres.resolve 0
  pattern p field negated isJson :=
    match p, isJson with
    | .contains, false => [.text (field ++ likeOperator negated ++ "'%' || "), .mark, .text " || '%'"]
    | .contains, true =>
      [.text (field ++ likeOperator negated ++ "'\"%' || "), .mark, .text " || '%\"'"]
    | .beginsWith, false => [.text (field ++ likeOperator negated), .mark, .text " || '%'"]
    | .beginsWith, true =>
      [.text (field ++ likeOperator negated ++ "'\"' || "), .mark, .text " || '%'"]
    | .endsWith, false => [.text (field ++ likeOperator negated ++ "'%' || "), .mark]
    | .endsWith, true =>
      [.text (field ++ likeOperator negated ++ "'%' || "), .mark, .text " || '\"'"]

/-- The style of MySQL. -/
def MySql.style : Style where
  resolve := mysql.resolve ()
  pattern p field negated _ :=
    match p with
    | .contains =>
      [.text ("INSTR(" ++ field ++ ", "), .mark, .text (if negated then ") = 0" else ") > 0")]
    | .beginsWith => [.text (field ++ likeOperator negated ++ "CONCAT("), .mark, .text ", '%')"]
    | .endsWith => [.text (field ++ likeOperator negated ++ "CONCAT('%', "), .mark, .text ")"]

theorem postgres_writes : postgres.Writes Postgres.style where
  resolve_eq _ := rfl
  run_pattern s p field negated isJson t := by
    cases p <;> cases isJson <;>
      simp [postgres, Postgres.style, Postgres.template, Template.render, Drawing.placeholder,
        Drawing.run, String.append_assoc]
  marks_pattern p field negated isJson := by cases p <;> cases isJson <;> rfl
  member_eq _ := rfl
  placeholder_ne_empty s := by simp [postgres]

theorem mysql_writes : mysql.Writes MySql.style where
  resolve_eq _ := rfl
  run_pattern s p field negated isJson t := by
    cases p <;> cases negated <;>
      simp [mysql, MySql.style, Template.render, Drawing.placeholder, Drawing.run,
        String.append_assoc]
  marks_pattern p field negated isJson := by cases p <;> rfl
  member_eq _ := rfl
  placeholder_ne_empty s := by simp [mysql]

/-! ### Conditions -/

namespace Condition

/-- The template of a comparison. -/
def comparisonPieces (field : String) (c : Comparison) : Template :=
  [.text (field ++ " " ++ c.symbol ++ " "), .mark]

/-- The template of a condition on a field. -/
def pieces (style : Style) (field : FieldExpr) : Condition → Template
  | compare c _ => comparisonPieces field.sql c
  | pattern p negated _ => style.pattern p field.sql negated field.isJson
  | between negated _ _ =>
    .text "( " :: comparisonPieces field.sql (rangeSides negated).1 ++
      .text (rangeSides negated).2.1.separator ::
        comparisonPieces field.sql (rangeSides negated).2.2 ++ [.text " )"]
  | member items => .text (field.sql ++ " IN(") :: Template.listed items.length ++ [.text ")"]

variable {d : Dialect σ} {style : Style} (hd : d.Writes style)
include hd

/-- **Writing a condition is rendering its template.** -/
theorem run_write (s : σ) (field : FieldExpr) (c : Condition) (t : σ) :
    (c.write d s field).run d.placeholder t =
      (⟨((c.pieces style field).render d.placeholder t).1, c.values⟩,
        ((c.pieces style field).render d.placeholder t).2) := by
  cases c with
  | compare c v =>
    simp [write, writeComparison, pieces, comparisonPieces, Template.render, Drawing.placeholder,
      Drawing.run, values]
  | pattern p negated v =>
    rw [write, Drawing.run_bind, hd.run_pattern]
    rfl
  | between negated start stop =>
    simp [write, writeComparison, pieces, comparisonPieces, Template.render, Drawing.placeholder,
      Drawing.run, values, String.append_assoc]
  | member items =>
    rw [write, Drawing.run_bind, hd.member_eq, listMembership, Drawing.run_bind]
    simp [pieces, Template.render, Template.render_append, Template.render_listed, Drawing.run,
      values, String.append_assoc]

/-- A condition's template has a mark for each value. -/
theorem marks_pieces (field : FieldExpr) (c : Condition) :
    (c.pieces style field).marks = c.values.length := by
  cases c with
  | compare c v => rfl
  | pattern p negated v => exact hd.marks_pattern ..
  | between negated start stop => rfl
  | member items => simp [pieces, values]

end Condition

end SqlFilter
