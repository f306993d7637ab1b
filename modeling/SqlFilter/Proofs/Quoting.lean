/-
# Outside the quotes

What Postgres writes for a reference quotes the names and the key.  `Postgres.outside` is
a text without what stands between quotes, and of the expression of a reference it leaves
the `Postgres.frame`: signs, words, and the type that the value is cast to
(`Postgres.shows_jsonExpr`).

| text | outside the quotes |
| --- | --- |
| `("cfg"->'it''s')::int` | `(->)::int` |
| `("t"."cfg"->'k')::text` | `(.->)::text` |
| `CAST(("cfg"->'born')::text AS DATE)` | `CAST((->)::text AS DATE)` |
| `("cfg"->'k')::text LIKE '"' \|\| $1 \|\| '%'` | `(->)::text LIKE  \|\| $1 \|\| ` |

An expression leaves no quote open, so what is behind it is seen as if it stood alone
(`Postgres.Shows`).  A condition is written around its field and does not look into it
(`Condition.sqlOn_postgres`).  So outside the quotes the condition on an expression is the
same condition on its frame (`Condition.outside_sqlOn`).  The text of a leaf is that of the
condition it asks for (`Leaf.run_compile_of_asks`), unless an operation writes it.
-/

import SqlFilter.Proofs.Fields
import SqlFilter.Proofs.Run

namespace SqlFilter

/-! ### Types -/

/-- The type that a value is cast to is a plain identifier, if the declared one is. -/
theorem FieldRef.isPlain_of_cast {ref : FieldRef}
    (h : ∀ type ∈ ref.type, Identifier.isPlain type = true) {type : String}
    (hcast : ref.cast = .to type) : Identifier.isPlain type = true := by
  rw [FieldRef.cast] at hcast
  split at hcast
  · cases hcast
    decide
  · cases hcast
  · cases hcast
    decide
  · rename_i declared _ _ hdeclared
    cases hcast
    exact h _ hdeclared

/-! ### Texts -/

namespace Postgres

/-- The characters of a text that stand outside of quotes; `inside` is the quote that is
open at the front of the text.  A quote that is written twice closes and opens again. -/
def outsideFrom : (inside : Option Char) → List Char → List Char
  | _, [] => []
  | none, c :: cs =>
    if c = '"' ∨ c = '\'' then outsideFrom (some c) cs else c :: outsideFrom none cs
  | some quote, c :: cs => if c = quote then outsideFrom none cs else outsideFrom (some quote) cs

/-- A text without what stands between quotes, and without the quotes. -/
def outside (text : String) : String :=
  String.ofList (outsideFrom none text.toList)

/-- A text without quotes. -/
def Unquoted (text : String) : Prop :=
  '"' ∉ text.toList ∧ '\'' ∉ text.toList

instance (text : String) : Decidable (Unquoted text) :=
  inferInstanceAs (Decidable (_ ∧ _))

/-- A text leaves no quote open, and `shown` is what stands outside of its quotes: what is
behind it is seen as if it stood alone. -/
def Shows (text shown : String) : Prop :=
  ∀ rest, outsideFrom none (text.toList ++ rest) = shown.toList ++ outsideFrom none rest

theorem Shows.append {a b shown shown' : String} (ha : Shows a shown) (hb : Shows b shown') :
    Shows (a ++ b) (shown ++ shown') := by
  intro rest
  rw [String.toList_append, List.append_assoc, ha, hb, String.toList_append, List.append_assoc]

/-- **Behind a text that leaves no quote open** the quotes are read anew. -/
theorem Shows.outside_append {a shown : String} (ha : Shows a shown) (b : String) :
    outside (a ++ b) = shown ++ outside b := by
  rw [outside, String.toList_append, ha, String.ofList_append, String.ofList_toList]
  rfl

theorem Shows.outside_eq {text shown : String} (h : Shows text shown) : outside text = shown := by
  have hempty := h.outside_append ""
  rwa [String.append_empty, show outside "" = "" from rfl, String.append_empty] at hempty

theorem Unquoted.append {a b : String} (ha : Unquoted a) (hb : Unquoted b) :
    Unquoted (a ++ b) := by
  rw [Unquoted, String.toList_append, List.mem_append, List.mem_append, not_or, not_or]
  exact ⟨⟨ha.1, hb.1⟩, ha.2, hb.2⟩

/-- **A text without quotes stands outside of them.** -/
theorem Unquoted.shows {text : String} (h : Unquoted text) : Shows text text := by
  have hchars : ∀ cs rest : List Char, '"' ∉ cs → '\'' ∉ cs →
      outsideFrom none (cs ++ rest) = cs ++ outsideFrom none rest := by
    intro cs rest hdouble hsingle
    induction cs with
    | nil => rfl
    | cons c cs ih =>
      rw [List.mem_cons, not_or] at hdouble hsingle
      have hc : ¬(c = '"' ∨ c = '\'') := not_or.2 ⟨Ne.symm hdouble.1, Ne.symm hsingle.1⟩
      rw [List.cons_append, outsideFrom, if_neg hc, ih hdouble.2 hsingle.2, List.cons_append]
  exact fun rest => hchars text.toList rest h.1 h.2

/-- **Nothing of an enclosed text stands outside its quotes.** -/
theorem shows_enclose {quote : Char} (hq : quote = '"' ∨ quote = '\'') (text : String) :
    Shows (enclose quote text) "" := by
  have hinside : ∀ cs rest : List Char,
      outsideFrom (some quote)
        (cs.flatMap (fun c => if c = quote then [c, c] else [c]) ++ quote :: rest) =
          outsideFrom none rest := by
    intro cs rest
    induction cs with
    | nil => simp [outsideFrom]
    | cons c cs ih =>
      rw [List.flatMap_cons, List.append_assoc]
      by_cases hc : c = quote
      · subst hc
        rw [if_pos rfl]
        simp only [List.cons_append, List.nil_append, outsideFrom, if_pos, hq, ih]
      · rw [if_neg hc, List.singleton_append, outsideFrom, if_neg hc, ih]
  intro rest
  rw [enclose, String.toList_ofList, List.cons_append, List.cons_append, List.append_assoc,
    List.singleton_append, outsideFrom, if_pos hq, hinside]
  rfl

/-! ### Expressions -/

/-- What stands outside the quotes of a reference's expression: signs and words, and the
type that the value is cast to. -/
def frame (ref : FieldRef) : String :=
  let extraction := if ref.table.isSome then "(.->)" else "(->)"
  match ref.cast with
  | .date => "CAST(" ++ extraction ++ "::text AS DATE)"
  | .to type => extraction ++ "::" ++ type

/-- The type that a value is cast to is not quoted, and needs no quotes. -/
theorem unquoted_of_cast {ref : FieldRef} (h : ∀ type ∈ ref.type, Identifier.isPlain type = true)
    {type : String} (hcast : ref.cast = .to type) : Unquoted type := by
  obtain ⟨c, cs, hname, hstart, hpart⟩ :=
    Identifier.exists_of_isPlain (FieldRef.isPlain_of_cast h hcast)
  have hpart : ∀ d ∈ type.toList, Identifier.isPart d = true := by
    rw [hname]
    refine List.forall_mem_cons.2 ⟨?_, hpart⟩
    rw [Identifier.isStart, Bool.or_eq_true] at hstart
    rw [Identifier.isPart, Char.isAlphanum, Bool.or_eq_true, Bool.or_eq_true]
    exact hstart.imp_left .inl
  exact ⟨fun hm => absurd (hpart _ hm) (by decide), fun hm => absurd (hpart _ hm) (by decide)⟩

theorem unquoted_frame {ref : FieldRef} (h : ∀ type ∈ ref.type, Identifier.isPlain type = true) :
    Unquoted (frame ref) := by
  rw [frame]
  rcases hcast : ref.cast with _ | type
  · cases ref.table.isSome <;> decide
  · have htype := unquoted_of_cast h hcast
    have hfront : Unquoted ((if ref.table.isSome then "(.->)" else "(->)") ++ "::") := by
      cases ref.table.isSome <;> decide
    exact hfront.append htype

/-- Of a column only the dot behind its table stands outside the quotes. -/
theorem shows_column (ref : FieldRef) :
    Shows (column ref) (if ref.table.isSome then "." else "") := by
  have hname : ∀ text, Shows (quoteName text) "" := shows_enclose (.inl rfl)
  have hdot : Shows "." "." := Unquoted.shows (by decide)
  rw [column]
  cases ref.table with
  | none => exact hname _
  | some table => exact ((hname _).append hdot).append (hname _)

theorem shows_extraction (ref : FieldRef) :
    Shows (extraction ref) (if ref.table.isSome then "(.->)" else "(->)") := by
  have hopen : Shows "(" "(" := Unquoted.shows (by decide)
  have harrow : Shows "->" "->" := Unquoted.shows (by decide)
  have hkey : Shows (quoteText ref.key) "" := shows_enclose (.inr rfl) _
  have hclose : Shows ")" ")" := Unquoted.shows (by decide)
  have h := (((hopen.append (shows_column ref)).append harrow).append hkey).append hclose
  rw [extraction]
  cases htable : ref.table.isSome <;> rw [htable] at h <;> exact h

/-- **Nothing of a reference stands outside the quotes but its type.** -/
theorem shows_jsonExpr {ref : FieldRef}
    (h : ∀ type ∈ ref.type, Identifier.isPlain type = true) :
    Shows (jsonExpr ref) (frame ref) := by
  have hextraction := shows_extraction ref
  rw [jsonExpr, frame]
  rcases hcast : ref.cast with _ | type
  · have hopen : Shows "CAST(" "CAST(" := Unquoted.shows (by decide)
    have hclose : Shows "::text AS DATE)" "::text AS DATE)" := Unquoted.shows (by decide)
    exact (hopen.append hextraction).append hclose
  · have hcolons : Shows "::" "::" := Unquoted.shows (by decide)
    exact (hextraction.append hcolons).append (unquoted_of_cast h hcast).shows

theorem unquoted_placeholder (n : Nat) : Unquoted (postgres.placeholder n).1 := by
  have hdigits : ∀ c ∈ (toString (n + 1)).toList, c.isDigit = true := by
    rw [show (toString (n + 1)).toList = Nat.toDigits 10 (n + 1) from Nat.toList_repr]
    exact fun c hc => Nat.isDigit_of_mem_toDigits (by decide) (by decide) hc
  have hnumber : Unquoted (toString (n + 1)) :=
    ⟨fun h => absurd (hdigits _ h) (by decide), fun h => absurd (hdigits _ h) (by decide)⟩
  exact Unquoted.append (by decide) hnumber

end Postgres

/-! ### Conditions -/

namespace Condition

variable {σ : Type}

/-- The text of a condition on a field's expression. -/
def sqlOn (d : Dialect σ) (s : σ) (field : FieldExpr) (c : Condition) : String :=
  ((c.write d s field).run d.placeholder s).1.sql

/-- **A condition is written around its field.**  The field's expression stands in front,
or twice between parentheses, and what is around it does not depend on it. -/
theorem sqlOn_postgres (c : Condition) (n : Nat) (isJson : Bool) :
    (∃ behind, ∀ field, c.sqlOn postgres n ⟨field, isJson⟩ = field ++ behind) ∨
      ∃ middle behind, Postgres.Unquoted middle ∧ ∀ field,
        c.sqlOn postgres n ⟨field, isJson⟩ = "( " ++ field ++ (middle ++ (field ++ behind)) := by
  cases c with
  | compare c v =>
    refine .inl ⟨" " ++ c.symbol ++ " " ++ (postgres.placeholder n).1, fun field => ?_⟩
    simp [sqlOn, write, writeComparison, Drawing.placeholder, Drawing.run, String.append_assoc]
  | pattern p negated v =>
    refine .inl ⟨likeOperator negated ++ Postgres.template p isJson (postgres.placeholder n).1,
      fun field => ?_⟩
    rw [sqlOn, write, Drawing.run_bind]
    simp [postgres, Drawing.placeholder, Drawing.run, String.append_assoc]
  | between negated start stop =>
    refine .inr ⟨" " ++ (rangeSides negated).1.symbol ++ " " ++ ((postgres.placeholder n).1 ++
        (rangeSides negated).2.1.separator),
      " " ++ (rangeSides negated).2.2.symbol ++ " " ++
        (postgres.placeholder (postgres.placeholder n).2).1 ++ " )", ?_, fun field => ?_⟩
    · have hsides : Postgres.Unquoted (" " ++ (rangeSides negated).1.symbol ++ " ") ∧
          Postgres.Unquoted (rangeSides negated).2.1.separator := by
        cases negated <;> decide
      exact hsides.1.append ((Postgres.unquoted_placeholder n).append hsides.2)
    · simp [sqlOn, write, writeComparison, Drawing.placeholder, Drawing.run, String.append_assoc]
  | member items =>
    refine .inl ⟨" IN(" ++ ",".intercalate
        ((Drawing.placeholders items.length).run postgres.placeholder n).1 ++ ")", fun field => ?_⟩
    rw [sqlOn, write, Drawing.run_bind]
    simp [postgres, listMembership, Drawing.run_bind, Drawing.run, String.append_assoc]

/-- **A condition shows no more than its field does.**  On two expressions that show the
same outside their quotes, it makes texts that show the same. -/
theorem outside_sqlOn {a b shown : String} (ha : Postgres.Shows a shown)
    (hb : Postgres.Shows b shown) (c : Condition) (n : Nat) (isJson : Bool) :
    Postgres.outside (c.sqlOn postgres n ⟨a, isJson⟩) =
      Postgres.outside (c.sqlOn postgres n ⟨b, isJson⟩) := by
  have hopen : Postgres.Shows "( " "( " := Postgres.Unquoted.shows (by decide)
  rcases c.sqlOn_postgres n isJson with ⟨behind, heq⟩ | ⟨middle, behind, hmiddle, heq⟩
  · rw [heq, heq, ha.outside_append, hb.outside_append]
  · rw [heq, heq, (hopen.append ha).outside_append, (hopen.append hb).outside_append,
      hmiddle.shows.outside_append, hmiddle.shows.outside_append, ha.outside_append,
      hb.outside_append]

/-- The field stands in front of the text of a condition, but for a parenthesis. -/
theorem exists_sqlOn_eq (c : Condition) (n : Nat) (field : FieldExpr) :
    ∃ before behind, c.sqlOn postgres n field = before ++ field.sql ++ behind ∧
      (before = "" ∨ before = "( ") := by
  rcases c.sqlOn_postgres n field.isJson with ⟨behind, heq⟩ | ⟨middle, behind, -, heq⟩
  · exact ⟨"", behind, by rw [heq field.sql, String.empty_append], .inl rfl⟩
  · exact ⟨"( ", _, heq field.sql, .inr rfl⟩

end Condition

/-! ### Leaves -/

/-- A field that cannot be resolved fails its leaf. -/
theorem Leaf.run_compile_of_resolve {σ : Type} {d : Dialect σ} {config : Config} {leaf : Leaf}
    {s : σ} {e : CompileError} (hf : leaf.field ≠ "")
    (hadmits : config.whitelist.admits leaf.field = true)
    (hresolve : d.resolve s leaf.field = .error e) :
    ((leaf.compile d config).run s).1 = .error e := by
  have hx : leaf.expression (d.resolve s) config = .error e := by
    rw [expression, hresolve]
    rfl
  rw [run_compile, plan_eq, if_neg (by simpa using hf), hadmits, if_neg (by decide), hx]
  rfl

/-- **The text of a leaf without a predicate** is that of the condition it asks for, on its
field as it is resolved. -/
theorem Leaf.run_compile_of_asks {σ : Type} {d : Dialect σ} {config : Config} {leaf : Leaf}
    {s : σ} {field : FieldExpr} {c : Condition} (hf : leaf.field ≠ "")
    (hadmits : config.whitelist.admits leaf.field = true)
    (hresolve : d.resolve s leaf.field = .ok field) (hpredicate : leaf.predicate = none)
    (h : leaf.Asks config c) :
    ((leaf.compile d config).run s).1 = .ok ⟨c.sqlOn d s field, c.values⟩ := by
  have hx : leaf.expression (d.resolve s) config = .ok field := by
    rw [expression, hresolve, hpredicate]
    rfl
  rw [run_compile, plan_of_asks hf hadmits hx h]
  simp only [Plan.run_write_condition]
  rw [← c.values_run_write d s field d.placeholder s]
  rfl

/-- **Only conditions and operations have a text**: where no operation is run, a leaf asks
for a condition or is written as nothing. -/
theorem Leaf.asks_of_run_compile {σ : Type} {d : Dialect σ} {config : Config} {leaf : Leaf}
    {s : σ} {c : Compiled} (hoperation : leaf.runsOperation config = false)
    (h : ((leaf.compile d config).run s).1 = .ok c) :
    c.sql = "" ∨ ∃ condition, leaf.Asks config condition := by
  rw [run_compile] at h
  cases hp : leaf.plan (d.resolve s) config with
  | error e =>
    rw [hp] at h
    cases h
  | ok plan =>
    rw [hp] at h
    rcases plan_cases hp with ⟨rfl, -⟩ | ⟨_, condition, -, -, hc, -⟩ | ⟨_, _, hruns, -⟩
    · obtain rfl : {} = c := Except.ok.inj h
      exact .inl rfl
    · exact .inr ⟨condition, hc⟩
    · cases hruns.symm.trans hoperation

end SqlFilter
