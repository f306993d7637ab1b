/-
# Reading fields and patterns

What is written differently in the two databases: the expressions of fields, and the
patterns.  All of it is read as what it is meant to be.  A plain name that is not reserved
is its column; the expression of a JSON reference is the key of a document with its casts,
whatever characters are in its names and its key; and a pattern is the atom of its kind.
-/

import SqlFilter.Proofs.Meaning
import SqlFilter.Proofs.Sql.Reading

namespace SqlFilter

open Sql (Machine Item Closes IsFactor IsPredicate)

variable {σ : Type}

/-! ### Quoted texts -/

namespace Sql

theorem quoted_cons_of_ne {quote c : Char} (h : c ≠ quote) (cs : List Char) :
    quoted quote (c :: cs) = (quoted quote cs).map fun p => (c :: p.1, p.2) := by
  cases cs with
  | nil => simp [quoted, h]
  | cons d cs => simp [quoted, h]

/-- **A quoted text is read back**, with every quote inside it. -/
theorem quoted_append {quote : Char} (hquote : quote ∉ Sql.closers)
    {rest : List Char} (hrest : Closes rest) (text : List Char) :
    quoted quote (text.flatMap (fun c => if c = quote then [c, c] else [c]) ++ quote :: rest) =
      some (text, rest) := by
  induction text with
  | nil =>
    cases rest with
    | nil => simp [quoted]
    | cons d cs =>
      have hd : d ≠ quote := fun e => hquote (e ▸ hrest d (by simp))
      simp [quoted, hd]
  | cons c text ih =>
    rw [List.flatMap_cons, List.append_assoc]
    by_cases hc : c = quote
    · subst hc
      rw [if_pos rfl]
      simp only [List.cons_append, List.nil_append, quoted, ↓reduceIte, ih]
      rfl
    · rw [if_neg hc, List.singleton_append, quoted_cons_of_ne hc, ih]
      rfl

end Sql

/-- An enclosed text is read as one quoted text. -/
theorem quoted_enclose {q : Char} (hq : q ∉ Sql.closers)
    {rest : List Char} (hrest : Closes rest) (text : String) :
    ∃ cs, (Postgres.enclose q text).toList ++ rest = q :: cs ∧
      Sql.quoted q cs = some (text.toList, rest) := by
  refine ⟨_, ?_, Sql.quoted_append hq hrest text.toList⟩
  rw [Postgres.enclose, String.toList_ofList, List.cons_append, List.cons_append,
    List.append_assoc, List.singleton_append]

/-- A string literal is the token of its text. -/
theorem startsWith_quoteText (text : String) {rest : List Char} (hrest : Closes rest) :
    Sql.StartsWith ((Postgres.quoteText text).toList ++ rest) (.text text) rest := by
  obtain ⟨cs, hcs, hquoted⟩ := quoted_enclose (q := '\'') (by decide) hrest text
  have h := Sql.startsWith_text hquoted
  rwa [String.ofList_toList, ← hcs] at h

/-- A delimited name is the token of the name. -/
theorem startsWith_quoteName (name : String) {rest : List Char} (hrest : Closes rest) :
    Sql.StartsWith ((Postgres.quoteName name).toList ++ rest) (.name ⟨name, true⟩) rest := by
  obtain ⟨cs, hcs, hquoted⟩ := quoted_enclose (q := '"') (by decide) hrest name
  have h := Sql.startsWith_name hquoted
  rwa [String.ofList_toList, ← hcs] at h

/-- A string literal is read as its text. -/
theorem spells_quoteText (text : String) :
    Spells (Postgres.quoteText text) [.token (.text text)] :=
  fun m _ hrest => m.run_of_startsWith (startsWith_quoteText text hrest)

/-- A delimited name is read as the name. -/
theorem spells_quoteName (name : String) :
    Spells (Postgres.quoteName name) [.token (.name ⟨name, true⟩)] :=
  fun m _ hrest => m.run_of_startsWith (startsWith_quoteName name hrest)

/-! ### Fields -/

/-- A plain name that is not reserved, in upper or lower case letters. -/
def IsColumn (name : String) : Prop :=
  Identifier.isPlain name = true ∧ Sql.reserved.lookup (name.toList.map Char.toUpper) = none

instance (name : String) : Decidable (IsColumn name) :=
  inferInstanceAs (Decidable (_ ∧ _))

/-- **A plain name is read as its column.** -/
theorem denotes_column {name : String} (h : IsColumn name) :
    Denotes name (Target.column name).expr := by
  obtain ⟨hplain, hfree⟩ := h
  have htoken : Sql.wordToken name.toList = .name ⟨name, false⟩ := by
    rw [Sql.wordToken, hfree, String.ofList_toList]
  have hspell := spells_word hplain
  rw [htoken] at hspell
  refine ⟨_, hspell, fun i hi => ?_, rfl⟩
  rw [List.mem_singleton.1 hi]
  exact Nat.zero_lt_one

/-- The items of a column behind its table. -/
def columnItems (ref : FieldRef) : List Item :=
  (ref.table.toList.flatMap fun table =>
    [.token (.name ⟨table, true⟩), .token (.sign .dot)]) ++ [.token (.name ⟨ref.column, true⟩)]

theorem spells_column (ref : FieldRef) : Spells (Postgres.column ref) (columnItems ref) := by
  rw [Postgres.column, columnItems]
  cases ref.table with
  | none => exact spells_quoteName ref.column
  | some table =>
    have hdot : Adds "." [.token (.sign .dot)] := fun m rest => m.run_dot rest
    exact ((spells_quoteName table).append ⟨'.', [], rfl, by decide⟩
      hdot).append_spells (spells_quoteName ref.column)

/-- **What is between the parentheses of an extraction** is the key of a document. -/
theorem close_extraction (ref : FieldRef) :
    Sql.close (columnItems ref ++ [.token (.sign .arrow), .token (.text ref.key)]) =
      some (.group [ref.source]) := by
  rw [columnItems, FieldRef.source]
  cases ref.table <;> rfl

/-- **An extraction is read as the key of a document.** -/
theorem adds_extraction (ref : FieldRef) :
    Adds (Postgres.extraction ref) [.group [ref.source]] := by
  have harrow : Adds "->" [.token (.sign .arrow)] := fun m rest => m.run_arrow rest
  have hinside := ((spells_column ref).append ⟨'-', _, rfl, by decide⟩
    harrow).append_spells (spells_quoteText ref.key)
  rw [List.append_assoc] at hinside
  have hclosed := opens_parenthesis.close hinside (close_extraction ref)
  rwa [← String.append_assoc, ← String.append_assoc] at hclosed

/-- A cast behind an expression is read with its type. -/
theorem spells_castTo {type : String} (h : Identifier.isPlain type = true) :
    Spells ("::" ++ type) [.token (.castTo type)] := by
  intro m rest hrest
  rw [String.toList_append]
  exact m.run_of_startsWith (Sql.startsWith_castTo h hrest)

/-- An extraction as text, cast to a date. -/
theorem denotes_date (ref : FieldRef) :
    Denotes ("CAST(" ++ Postgres.extraction ref ++ "::text AS DATE)")
      (.cast (.cast ref.source "text") "DATE") := by
  have hcast : Spells "CAST" [.token (.keyword .cast)] :=
    spells_word (by decide)
  have has : Adds ("AS" ++ " ") [.token (.keyword .as)] :=
    (spells_word (by decide)).blank
  have htype : Spells "DATE" [.token (.name ⟨"DATE", false⟩)] :=
    spells_word (by decide)
  have htext : Spells ("::" ++ "text") [.token (.castTo "text")] := spells_castTo (by decide)
  have hinside :=
    ((adds_extraction ref).append_spells htext).blank.append_spells (has.append_spells htype)
  have hclose : Sql.close ([] ++ ([.group [ref.source]] ++ [.token (.castTo "text")] ++
      ([.token (.keyword .as)] ++ [.token (.name ⟨"DATE", false⟩)]))) =
      some (.typed (.cast ref.source "text") "DATE") := rfl
  have hspell := (hcast.opens.close hinside hclose).spells
  have hsql : "CAST(" ++ Postgres.extraction ref ++ "::text AS DATE)" =
      "CAST" ++ "(" ++ (Postgres.extraction ref ++ ("::" ++ "text") ++ " " ++
        ("AS" ++ " " ++ "DATE")) ++ ")" := by
    rw [show "::text AS DATE)" = "::" ++ "text" ++ " " ++ ("AS" ++ " " ++ "DATE") ++ ")" from rfl]
    simp only [String.append_assoc]
    rfl
  rw [hsql]
  refine ⟨_, hspell, fun i hi => ?_, rfl⟩
  rcases List.mem_pair.1 hi with rfl | rfl <;> exact Nat.zero_lt_one

/-- **The expression of a reference is read as what the reference is to.** -/
theorem denotes_jsonExpr {ref : FieldRef}
    (h : ∀ type, ref.type = some type → Identifier.isPlain type = true) :
    Denotes (Postgres.jsonExpr ref) ref.target.expr := by
  have hto : ∀ type, Identifier.isPlain type = true →
      Denotes (Postgres.extraction ref ++ "::" ++ type) (.cast ref.source type) := by
    intro type htype
    have hspell := (adds_extraction ref).append_spells (spells_castTo htype)
    rw [← String.append_assoc] at hspell
    refine ⟨_, hspell, fun i hi => ?_, rfl⟩
    rcases List.mem_pair.1 hi with rfl | rfl <;> exact Nat.zero_lt_one
  rw [Postgres.jsonExpr, FieldRef.cast, FieldRef.target]
  cases ht : ref.type with
  | none => exact hto "text" (by decide)
  | some type =>
    by_cases hdate : type = "date"
    · subst hdate
      exact denotes_date ref
    · by_cases hnumber : type = "number"
      · subst hnumber
        exact hto "numeric" (by decide)
      · simpa [hdate, hnumber] using hto type (h type ht)

/-! ### Patterns -/

theorem relation_like {e right : Sql.Expr} {items : List Item} (negated : Bool)
    (h : Sql.operand items = some right) :
    Sql.relation e (likeItems negated ++ items) = some (.like negated e right) := by
  cases negated <;> simp [likeItems, Sql.relation, h]

/-- **A field and what it is `LIKE`** are read as one condition. -/
theorem isPredicate_like {items right : List Item} {e e' : Sql.Expr}
    (h : IsFactor items e) (negated : Bool) (hbelow : Sql.Below 3 right)
    (hright : Sql.operand right = some e') :
    IsPredicate (items ++ (likeItems negated ++ right)) (.like negated e e') := by
  have hrel := relation_like (e := e) negated hright
  cases negated with
  | false => exact h.isPredicate_relation rfl (hbelow.mono (by omega)) hrel
  | true =>
    exact h.isPredicate_relation rfl ((hbelow.mono (by omega)).cons (by decide)) hrel

namespace Postgres

/-- The texts before and behind the value in a pattern. -/
def affixes : Pattern → Bool → Option String × Option String
  | .contains, false => (some "%", some "%")
  | .contains, true => (some "\"%", some "%\"")
  | .beginsWith, false => (none, some "%")
  | .beginsWith, true => (some "\"", some "%")
  | .endsWith, false => (some "%", none)
  | .endsWith, true => (some "%", some "\"")

/-- The text before a value with which it is concatenated. -/
def before : Option String → String
  | none => ""
  | some t => quoteText t ++ " || "

/-- The template behind a value with which it is concatenated. -/
def behind : Option String → Template
  | none => []
  | some t => [.text (" || " ++ quoteText t)]

theorem pattern_eq (p : Pattern) (field : String) (negated isJson : Bool) :
    style.pattern p field negated isJson =
      .text (field ++ likeOperator negated ++ before (affixes p isJson).1) ::
        ([.mark] ++ behind (affixes p isJson).2) := by
  cases p <;> cases isJson <;> simp only [style, affixes, before, behind, String.append_empty] <;> rfl

/-- The sign of a concatenation between blanks. -/
theorem adds_concat : Adds " || " [.token (.sign .concat)] :=
  fun m _ => (Machine.run_blank _ _).trans ((m.run_concat _).trans (Machine.run_blank _ _))

theorem adds_before (a : Option String) :
    Adds (before a) (a.toList.flatMap fun t => [.token (.text t), .token (.sign .concat)]) := by
  cases a with
  | none => exact adds_empty
  | some t =>
    exact (spells_quoteText t).append ⟨' ', _, rfl, by decide⟩
      adds_concat

variable {σ : Type} {d : Dialect σ} {At : σ → Nat → Prop}

/-- A value is read with what is behind it. -/
theorem reads_behind (hd : d.Binds At) (v : Value) (b : Option String) :
    Template.Reads d At ([.mark] ++ behind b) [v]
      (.value v :: b.toList.flatMap fun t => [.token (.sign .concat), .token (.text t)]) := by
  cases b with
  | none => exact Template.reads_mark hd v
  | some t =>
    have hbehind : Template.Reads d At [.text (" || " ++ quoteText t)] [] _ :=
      Template.reads_text (adds_concat.append_spells (spells_quoteText t))
    have hstop : Stops " || " := ⟨' ', _, rfl, by decide⟩
    exact (Template.reads_mark hd v).append_text (hstop.append _) hbehind

/-- The parts of the text that a field is `LIKE`. -/
def patternParts (p : Pattern) (isJson : Bool) (v : Value) : List Sql.Expr :=
  (affixes p isJson).1.toList.map .text ++ .value v :: (affixes p isJson).2.toList.map .text

/-- **The patterns of Postgres** are read as a field that is `LIKE` a concatenation. -/
theorem reads_pattern (hd : d.Binds At) {field : String} {e : Sql.Expr} (hf : Denotes field e)
    (p : Pattern) (negated isJson : Bool) (v : Value) :
    ∃ items, Template.Reads d At (style.pattern p field negated isJson) [v] items ∧
      IsPredicate items (.like negated e (.concat (patternParts p isJson v))) := by
  obtain ⟨items, hspell, hfactor⟩ := hf
  have hreads := Template.Reads.cons_text
    ((hspell.like negated).append (adds_before (affixes p isJson).1))
    (reads_behind hd v (affixes p isJson).2)
  rw [List.append_assoc, List.append_assoc, ← pattern_eq] at hreads
  refine ⟨_, hreads, isPredicate_like hfactor negated ?_ ?_⟩
  · cases p <;> cases isJson <;> simp [affixes, Sql.Below, Sql.Item.level]
  · cases p <;> cases isJson <;> rfl

/-- The patterns of Postgres state what they look for. -/
theorem states_pattern (hd : d.Binds At) {field : String} {e : Sql.Expr} (hf : Denotes field e)
    (p : Pattern) (negated isJson : Bool) (v : Value) :
    Template.States d At (style.pattern p field negated isJson) [v] fun ρ =>
      ρ ⟨e, .pattern p negated isJson, [v]⟩ := by
  obtain ⟨items, hreads, hpredicate⟩ := reads_pattern hd hf p negated isJson v
  refine ⟨items, _, hreads, hpredicate, fun ρ => ?_⟩
  cases p <;> cases isJson <;> rfl

end Postgres

namespace MySql

variable {σ : Type} {d : Dialect σ} {At : σ → Nat → Prop}

variable (hd : d.Binds At) {field : String} {e : Sql.Expr}
include hd

/-- The position of a value in a field, compared with zero. -/
theorem reads_instr (hf : Denotes field e) (c : Comparison) (v : Value) :
    ∃ items, Template.Reads d At
        [.text ("INSTR" ++ "(" ++ (field ++ ", ")), .mark,
          .text ("" ++ ")" ++ ("" ++ " " ++ c.symbol ++ " " ++ "0"))] [v] items ∧
      IsPredicate items (.compare c (.call "INSTR" [e, .value v]) (.number "0")) := by
  obtain ⟨items, hspell, hfactor⟩ := hf
  have hinstr : Spells "INSTR" [.token (.name ⟨"INSTR", false⟩)] :=
    spells_word (by decide)
  have hzero : Spells "0" [.token (.number "0")] :=
    fun m rest hrest => m.run_number (w := []) (by decide) (by decide) (by decide) rfl hrest
  have hopens := hinstr.opens.append
    (hspell.append ⟨',', _, rfl, by decide⟩ adds_comma)
  have hlist := Sql.close_list (.cons hfactor.isPredicate
    (.cons (Sql.isFactor_value v).isPredicate .nil)) (List.cons_ne_nil _ _)
  have hclose : Sql.close ([] ++ (items ++ [.token (.sign .comma)]) ++ [.value v] ++ []) =
      some (.group [e, .value v]) := by
    simpa [List.intercalate_cons_cons, List.intercalate_singleton] using hlist
  have hsign := (adds_empty.spells.blank.symbol c).append_spells hzero
  have hreads := Template.Reads.enclosed hopens (Template.reads_mark hd v) adds_empty.spells
    ⟨')', [], rfl, by decide⟩ hclose hsign
  refine ⟨_, hreads, ?_⟩
  exact (Sql.isFactor_call "INSTR" [e, .value v]).isPredicate_relation rfl
    (fun i hi => by simp_all [Sql.Item.level]) rfl

/-- A field that is `LIKE` the concatenation of a value and a literal. -/
theorem reads_concat (hf : Denotes field e) (negated : Bool) {a b : String}
    {hs js : List Item} {v : Value} {es : List Sql.Expr} (ha : Adds a hs) (hb : Spells b js)
    (hstop : Stops (b ++ ")")) (hclose : Sql.close (hs ++ [.value v] ++ js) = some (.group es)) :
    ∃ items, Template.Reads d At
        [.text (field ++ likeOperator negated ++ ("CONCAT" ++ "(" ++ a)), .mark,
          .text (b ++ ")" ++ "")] [v] items ∧
      IsPredicate items (.like negated e (.call "CONCAT" es)) := by
  obtain ⟨items, hspell, hfactor⟩ := hf
  have hconcat : Spells "CONCAT" [.token (.name ⟨"CONCAT", false⟩)] :=
    spells_word (by decide)
  have hopens := (hspell.like negated).append_opens (hconcat.opens.append ha)
  have hreads := Template.Reads.enclosed hopens (Template.reads_mark hd v) hb hstop hclose
    adds_empty.spells
  have hcall := Sql.isFactor_call "CONCAT" es
  rw [List.append_assoc, List.append_assoc] at hreads
  exact ⟨_, hreads, isPredicate_like hfactor negated (hcall.below.mono (by omega))
    hcall.operand_eq⟩

omit hd in
/-- The condition of a pattern: the position of the value, or a concatenation. -/
def patternExpr (p : Pattern) (negated : Bool) (e : Sql.Expr) (v : Value) : Sql.Expr :=
  match p with
  | .contains =>
    .compare (if negated then .equal else .greater) (.call "INSTR" [e, .value v]) (.number "0")
  | .beginsWith => .like negated e (.call "CONCAT" [.value v, .text "%"])
  | .endsWith => .like negated e (.call "CONCAT" [.text "%", .value v])

/-- **The patterns of MySQL** are read as a position or a concatenation. -/
theorem reads_pattern (hf : Denotes field e) (p : Pattern) (negated isJson : Bool) (v : Value) :
    ∃ items, Template.Reads d At (style.pattern p field negated isJson) [v] items ∧
      IsPredicate items (patternExpr p negated e v) := by
  cases p with
  | contains =>
    have htext : style.pattern .contains field negated isJson =
        [.text ("INSTR" ++ "(" ++ (field ++ ", ")), .mark, .text ("" ++ ")" ++
          ("" ++ " " ++ (if negated then Comparison.equal else .greater).symbol ++ " " ++
            "0"))] := by
      cases negated <;> simp only [style] <;> rw [← String.append_assoc] <;> rfl
    rw [htext]
    exact reads_instr hd hf (if negated then .equal else .greater) v
  | beginsWith =>
    have hstop : Stops ", " := ⟨',', _, rfl, by decide⟩
    have hclose : Sql.close ([] ++ [.value v] ++
        ([.token (.sign .comma)] ++ [.token (.text "%")])) =
        some (.group [.value v, .text "%"]) := rfl
    obtain ⟨items, hreads, hpredicate⟩ := reads_concat hd hf negated adds_empty
      (adds_comma.append_spells (spells_quoteText "%")) ((hstop.append _).append _) hclose
    exact ⟨items, hreads, hpredicate⟩
  | endsWith =>
    have hliteral := (spells_quoteText "%").append ⟨',', _, rfl, by decide⟩ adds_comma
    have hclose : Sql.close ([.token (.text "%")] ++ [.token (.sign .comma)] ++ [.value v] ++ [])
        = some (.group [.text "%", .value v]) := rfl
    obtain ⟨items, hreads, hpredicate⟩ := reads_concat hd hf negated hliteral adds_empty.spells
      ⟨')', _, rfl, by decide⟩ hclose
    exact ⟨items, hreads, hpredicate⟩

/-- The patterns of MySQL state what they look for. -/
theorem states_pattern (hf : Denotes field e) (p : Pattern) (negated isJson : Bool) (v : Value) :
    Template.States d At (style.pattern p field negated isJson) [v] fun ρ =>
      ρ ⟨e, .pattern p negated false, [v]⟩ := by
  obtain ⟨items, hreads, hpredicate⟩ := reads_pattern hd hf p negated isJson v
  refine ⟨items, _, hreads, hpredicate, fun ρ => ?_⟩
  cases p <;> cases negated <;> rfl

end MySql

end SqlFilter
