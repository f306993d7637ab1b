/-
# The grammar of SQL conditions

A condition is read from the items between two parentheses, in which the parentheses
inside are already read (`Item`).  So there is no recursion: the items are cut at `OR`,
what is between is cut at `AND`, and so on down to the names and values.  The higher the
level of an item is, the less it binds (`Item.level`):

| level | items | what they make |
| ---: | --- | --- |
| 7 | `AS` | an expression and its type, for `CAST(… AS …)` |
| 6 | comma | the expressions of a list |
| 5 | `OR` | `disjunction` |
| 4 | `AND` | `conjunction` |
| 3 | comparisons, `LIKE`, `NOT LIKE`, `IN` | `predicate`; only the first one cuts |
| 2 | the concatenation sign | `operand` |
| 1 | the arrow | `document` |
| 0 | everything else | `factor` |
-/

import Mathlib.Data.List.Forall2
import Mathlib.Data.List.TakeWhile
import SqlFilter.Proofs.Sql.Syntax

namespace SqlFilter
namespace Sql

/-! ### Tokens and items -/

/-- A reserved word. -/
inductive Keyword where
  | glue (g : Glue)
  | not
  | like
  | isIn
  | as
  | cast
  deriving DecidableEq

/-- A sign. -/
inductive Sign where
  | opening
  | closing
  | comma
  | dot
  | arrow
  | concat
  | compare (c : Comparison)
  deriving DecidableEq

/-- What a text is made of. -/
inductive Token where
  | keyword (k : Keyword)
  | name (n : Name)
  /-- A string literal. -/
  | text (t : String)
  | number (digits : String)
  /-- A placeholder, with its number if it has one. -/
  | mark (number : Option Nat)
  | sign (s : Sign)
  /-- `::type` -/
  | castTo (type : String)
  deriving DecidableEq

/-- What a text is made of, with the placeholders bound and the parentheses read. -/
inductive Item where
  | token (t : Token)
  | value (v : Value)
  /-- Expressions in parentheses. -/
  | group (es : List Expr)
  /-- An expression with its type, in parentheses. -/
  | typed (e : Expr) (type : String)

/-- The level at which an item cuts the items around it; an item of level 0 does not. -/
def Item.level : Item → Nat
  | token (.sign .arrow) => 1
  | token (.sign .concat) => 2
  | token (.sign (.compare _)) => 3
  | token (.keyword .not) => 3
  | token (.keyword .like) => 3
  | token (.keyword .isIn) => 3
  | token (.keyword (.glue .and)) => 4
  | token (.keyword (.glue .or)) => 5
  | token (.sign .comma) => 6
  | token (.keyword .as) => 7
  | _ => 0

/-- What is between the items that cut at a level. -/
def cut (level : Nat) (items : List Item) : List (List Item) :=
  items.splitOnP (·.level == level)

/-! ### Levels -/

/-- An expression behind which there are only casts. -/
def casting (e : Expr) : List Item → Option Expr
  | [] => some e
  | .token (.castTo type) :: rest => casting (.cast e type) rest
  | _ => none

/-- A column behind some names, from the rest of its path. -/
def column (path : List Name) : List Item → Option Expr
  | .token (.sign .dot) :: .token (.name n) :: rest => column (path ++ [n]) rest
  | rest => casting (.column path) rest

/-- A name, value, literal or parenthesis, and its casts. -/
def factor : List Item → Option Expr
  | .value v :: rest => casting (.value v) rest
  | .token (.text t) :: rest => casting (.text t) rest
  | .token (.number n) :: rest => casting (.number n) rest
  | .group [e] :: rest => casting e rest
  | .token (.keyword .cast) :: .typed e type :: rest => casting (.cast e type) rest
  | .token (.name ⟨function, false⟩) :: .group es :: rest => casting (.call function es) rest
  | .token (.name n) :: rest => column [n] rest
  | _ => none

/-- A value in a document, behind its keys. -/
def document (items : List Item) : Option Expr :=
  match (cut 1 items).mapM factor with
  | some (e :: keys) => some (keys.foldl .key e)
  | _ => none

/-- One or more parts with a sign between them. -/
def operand (items : List Item) : Option Expr :=
  match (cut 2 items).mapM document with
  | some [e] => some e
  | some es => some (.concat es)
  | none => none

/-- A condition from its left side and what is behind it. -/
def relation (left : Expr) : List Item → Option Expr
  | [] => some left
  | .token (.sign (.compare c)) :: right => (operand right).map (.compare c left)
  | .token (.keyword .like) :: right => (operand right).map (.like false left)
  | .token (.keyword .not) :: .token (.keyword .like) :: right =>
    (operand right).map (.like true left)
  | [.token (.keyword .isIn), .group items] => some (.isIn left items)
  | _ => none

/-- A condition without connectives. -/
def predicate (items : List Item) : Option Expr :=
  (operand (items.takeWhile (·.level != 3))).bind fun left =>
    relation left (items.dropWhile (·.level != 3))

/-- Conditions with a connective between them; one condition is not joined. -/
def joined (glue : Glue) : List Expr → Expr
  | [e] => e
  | es => .join glue es

theorem joined_eq_join (glue : Glue) {es : List Expr} (h : es.length ≠ 1) :
    joined glue es = .join glue es := by
  unfold joined
  split
  · exact absurd rfl h
  · rfl

/-- Conditions with `AND` between them. -/
def conjunction (items : List Item) : Option Expr :=
  ((cut 4 items).mapM predicate).map (joined .and)

/-- Conditions with `OR` between them. -/
def disjunction (items : List Item) : Option Expr :=
  ((cut 5 items).mapM conjunction).map (joined .or)

/-- What stands between two parentheses. -/
def close (items : List Item) : Option Item :=
  match cut 7 items with
  | [items] => ((cut 6 items).mapM disjunction).map .group
  | [items, [.token (.name ⟨type, false⟩)]] => (disjunction items).map (.typed · type)
  | _ => none

/-! ### Items that do not cut -/

/-- Items of lower levels only. -/
def Below (level : Nat) (items : List Item) : Prop :=
  ∀ i ∈ items, i.level < level

theorem Below.mono {k l : Nat} (hkl : k ≤ l) {items : List Item} (h : Below k items) :
    Below l items :=
  fun i hi => Nat.lt_of_lt_of_le (h i hi) hkl

theorem Below.append {k : Nat} {is js : List Item} (hi : Below k is) (hj : Below k js) :
    Below k (is ++ js) :=
  List.forall_mem_append.2 ⟨hi, hj⟩

theorem Below.cons {k : Nat} {i : Item} {is : List Item} (his : Below k is) (hi : i.level < k) :
    Below k (i :: is) :=
  List.forall_mem_cons.2 ⟨hi, his⟩

theorem Below.intercalate {k : Nat} {sep : Item} (hsep : sep.level < k)
    {parts : List (List Item)} (h : ∀ items ∈ parts, Below k items) :
    Below k ([sep].intercalate parts) := by
  induction parts with
  | nil => exact fun i hi => by cases hi
  | cons items parts ih =>
    have hi := h items (List.mem_cons_self ..)
    cases parts with
    | nil => rwa [List.intercalate_singleton]
    | cons js parts =>
      have ih := ih fun items hm => h items (List.mem_cons_of_mem _ hm)
      rw [List.intercalate_cons_cons, List.append_assoc]
      exact hi.append (ih.cons hsep)

/-- Items of lower levels are in one piece. -/
theorem Below.cut {k : Nat} {items : List Item} (h : Below k items) : cut k items = [items] := by
  refine List.splitOnP_eq_singleton fun i hi => ?_
  have := h i hi
  exact beq_eq_false_iff_ne.2 (by omega)

/-- **Pieces are cut apart** at the items that were put between them. -/
theorem mapM_cut_intercalate {k : Nat} {i : Item} (hi : i.level = k)
    {read : List Item → Option Expr} {parts : List (List Item)} {es : List Expr}
    (h : List.Forall₂ (fun items e => Below k items ∧ read items = some e) parts es)
    (hne : parts ≠ []) : (cut k ([i].intercalate parts)).mapM read = some es := by
  induction h with
  | nil => exact absurd rfl hne
  | @cons items e parts es hp hps ih =>
    obtain ⟨hb, he⟩ := hp
    cases hps with
    | nil => simp [List.intercalate_singleton, hb.cut, he]
    | cons hq hqs =>
      have ih := ih (List.cons_ne_nil _ _)
      rw [List.intercalate_cons_cons, List.append_assoc, List.singleton_append, Sql.cut,
        List.splitOnP_append_cons_of_forall_mem _ _ (by simpa using hi)]
      · simp only [Sql.cut] at ih
        simp [he, ih]
      · intro j hj
        have := hb j hj
        exact beq_eq_false_iff_ne.2 (by omega)

/-! ### From level to level -/

section

variable {items : List Item} {e : Expr}

theorem document_of_below (h : Below 1 items) : document items = factor items := by
  unfold document
  rw [h.cut]
  cases hf : factor items <;> simp [hf]

theorem operand_of_below (h : Below 2 items) : operand items = document items := by
  unfold operand
  rw [h.cut]
  cases hf : document items <;> simp [hf]

theorem predicate_of_below (h : Below 3 items) : predicate items = operand items := by
  have hne : ∀ i ∈ items, (i.level != 3) = true := by
    intro i hi
    have := h i hi
    exact bne_iff_ne.2 (by omega)
  unfold predicate
  rw [List.takeWhile_eq_self_iff.2 hne, List.dropWhile_eq_nil_iff.2 hne]
  cases hf : operand items <;> simp [relation]

theorem conjunction_of_below (h : Below 4 items) : conjunction items = predicate items := by
  unfold conjunction
  rw [h.cut]
  cases hf : predicate items <;> simp [hf, joined]

theorem disjunction_of_below (h : Below 5 items) : disjunction items = conjunction items := by
  unfold disjunction
  rw [h.cut]
  cases hf : conjunction items <;> simp [hf, joined]

theorem close_of_below (h : Below 6 items) :
    close items = (disjunction items).map fun e => .group [e] := by
  unfold close
  rw [(h.mono (by omega)).cut]
  simp only [h.cut]
  cases hf : disjunction items <;> simp [hf]

end

/-! ### Pieces of a condition -/

/-- Items that are read as an expression and that nothing cuts. -/
structure IsFactor (items : List Item) (e : Expr) : Prop where
  below : Below 1 items
  factor_eq : factor items = some e

/-- Items that are read as a condition and that neither `AND` nor `OR` cuts. -/
structure IsPredicate (items : List Item) (e : Expr) : Prop where
  below : Below 4 items
  predicate_eq : predicate items = some e

section

variable {items : List Item} {e : Expr}

theorem IsFactor.operand_eq (h : IsFactor items e) : operand items = some e := by
  rw [operand_of_below (h.below.mono (by omega)), document_of_below h.below, h.factor_eq]

theorem IsFactor.predicate_eq (h : IsFactor items e) : predicate items = some e := by
  rw [predicate_of_below (h.below.mono (by omega)), h.operand_eq]

theorem IsFactor.isPredicate (h : IsFactor items e) : IsPredicate items e :=
  ⟨h.below.mono (by omega), h.predicate_eq⟩

theorem IsPredicate.disjunction_eq (h : IsPredicate items e) : disjunction items = some e := by
  rw [disjunction_of_below (h.below.mono (by omega)), conjunction_of_below h.below,
    h.predicate_eq]

/-- A bound value is an expression. -/
theorem isFactor_value (v : Value) : IsFactor [.value v] (.value v) :=
  ⟨fun i hi => by simp [List.mem_singleton.1 hi, Item.level], rfl⟩

/-- An expression in parentheses is that expression. -/
theorem isFactor_group (e : Expr) : IsFactor [.group [e]] e :=
  ⟨fun i hi => by simp [List.mem_singleton.1 hi, Item.level], rfl⟩

/-- A call of a function is an expression. -/
theorem isFactor_call (function : String) (arguments : List Expr) :
    IsFactor [.token (.name ⟨function, false⟩), .group arguments] (.call function arguments) :=
  ⟨fun i hi => by
    rcases List.mem_pair.1 hi with rfl | rfl <;> exact Nat.zero_lt_one, rfl⟩

/-- **What is behind the first comparison** of a condition is its right side. -/
theorem predicate_append {i : Item} {right : List Item} (h : IsFactor items e)
    (hi : i.level = 3) : predicate (items ++ i :: right) = relation e (i :: right) := by
  have hne : ∀ j ∈ items, (j.level != 3) = true := by
    intro j hj
    have := h.below j hj
    exact bne_iff_ne.2 (by omega)
  unfold predicate
  rw [List.takeWhile_append_of_pos hne, List.dropWhile_append_of_pos hne,
    List.takeWhile_cons_of_neg (by simp [hi]), List.dropWhile_cons_of_neg (by simp [hi]),
    List.append_nil, h.operand_eq]
  rfl

/-- **A comparison of a field** with what is behind its sign or word. -/
theorem IsFactor.isPredicate_relation {i : Item} {right : List Item} {condition : Expr}
    (h : IsFactor items e) (hi : i.level = 3) (hright : Below 4 right)
    (hrel : relation e (i :: right) = some condition) :
    IsPredicate (items ++ i :: right) condition :=
  ⟨(h.below.mono (by omega)).append (hright.cons (by omega)), by
    rw [predicate_append h hi, hrel]⟩

end

theorem below_of_forall₂ {parts : List (List Item)} {es : List Expr}
    (h : List.Forall₂ IsPredicate parts es) {items : List Item} (hi : items ∈ parts) :
    Below 4 items := by
  induction h with
  | nil => cases hi
  | cons hp hps ih =>
    rcases List.mem_cons.1 hi with rfl | hi
    · exact hp.below
    · exact ih hi

/-- **Conditions with a connective between them** are joined by it. -/
theorem disjunction_intercalate {glue : Glue} {parts : List (List Item)} {es : List Expr}
    (h : List.Forall₂ IsPredicate parts es) (hne : parts ≠ []) :
    disjunction ([Item.token (.keyword (.glue glue))].intercalate parts) =
      some (joined glue es) := by
  cases glue with
  | and =>
    have hcut := mapM_cut_intercalate (k := 4) (i := .token (.keyword (.glue .and))) rfl
      (h.imp fun items e h => ⟨h.below, h.predicate_eq⟩) hne
    have hbelow : Below 5 ([Item.token (.keyword (.glue .and))].intercalate parts) :=
      Below.intercalate (by decide) fun items hi => (below_of_forall₂ h hi).mono (by omega)
    rw [disjunction_of_below hbelow, conjunction, hcut]
    rfl
  | or =>
    have hcut := mapM_cut_intercalate (k := 5) (i := .token (.keyword (.glue .or))) rfl
      (h.imp fun items e h => ⟨h.below.mono (by omega), show conjunction items = some e by
        rw [conjunction_of_below h.below, h.predicate_eq]⟩) hne
    rw [disjunction, hcut]
    rfl

/-- Without parentheses, `AND` binds tighter than `OR`. -/
example (a b c : Value) :
    disjunction [.value a, .token (.keyword (.glue .or)), .value b,
        .token (.keyword (.glue .and)), .value c] =
      some (.join .or [.value a, .join .and [.value b, .value c]]) := rfl

/-- Joined conditions in parentheses. -/
theorem close_conditions {glue : Glue} {parts : List (List Item)} {es : List Expr}
    (h : List.Forall₂ IsPredicate parts es) (hne : parts ≠ []) :
    close ([Item.token (.keyword (.glue glue))].intercalate parts) =
      some (.group [joined glue es]) := by
  have hbelow : Below 6 ([Item.token (.keyword (.glue glue))].intercalate parts) := by
    refine Below.intercalate ?_ fun items hi => (below_of_forall₂ h hi).mono (by omega)
    cases glue <;> decide
  rw [close_of_below hbelow, disjunction_intercalate h hne]
  rfl

/-- **A list in parentheses.** -/
theorem close_list {parts : List (List Item)} {es : List Expr}
    (h : List.Forall₂ IsPredicate parts es) (hne : parts ≠ []) :
    close ([Item.token (.sign .comma)].intercalate parts) = some (.group es) := by
  have hbelow : Below 7 ([Item.token (.sign .comma)].intercalate parts) :=
    Below.intercalate (by decide) fun items hi => (below_of_forall₂ h hi).mono (by omega)
  have hcut := mapM_cut_intercalate (k := 6) (i := .token (.sign .comma)) rfl
    (h.imp fun items e h => ⟨h.below.mono (by omega), h.disjunction_eq⟩) hne
  unfold close
  rw [hbelow.cut]
  simp only [hcut]
  rfl

end Sql
end SqlFilter
