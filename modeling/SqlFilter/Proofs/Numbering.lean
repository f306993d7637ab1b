/-
# Numbering

The placeholders of a Postgres statement can be read off its text: every `$` begins
one, and the digits behind it are its number (`dollarTokens`).  A statement with `n`
values has the placeholders `$1`, …, `$n`, in this order and each of them once.  In a
MySQL statement every `?` is a placeholder, and there are `n` of them.

The text could spoil this in two ways: a field could contain a `$`, or a digit could
stand behind a placeholder.  The first is excluded by hypothesis (`Leaf.Avoids`).  The
second does not happen, because no template of a dialect goes on with a digit behind a
mark (`Template.Spaced`).
-/

import SqlFilter.Proofs.Draft
import SqlFilter.Proofs.Fields

namespace SqlFilter

variable {σ : Type}

/-- What stands behind each `$` of a text: the longest run of digits there. -/
def dollarTokens : List Char → List (List Char)
  | [] => []
  | c :: cs => if c = '$' then cs.takeWhile Char.isDigit :: dollarTokens cs else dollarTokens cs

/-- There is a token for every `$`. -/
theorem length_dollarTokens (text : List Char) :
    (dollarTokens text).length = text.count '$' := by
  induction text with
  | nil => rfl
  | cons c cs ih =>
    by_cases hc : c = '$'
    · simp [dollarTokens, hc, ih]
    · simp [dollarTokens, hc, ih]

theorem dollarTokens_append {text : List Char} (h : '$' ∉ text) (rest : List Char) :
    dollarTokens (text ++ rest) = dollarTokens rest := by
  induction text with
  | nil => rfl
  | cons c cs ih =>
    have hc : c ≠ '$' := fun e => h (by simp [e])
    have hcs : '$' ∉ cs := fun hm => h (List.mem_cons_of_mem _ hm)
    rw [List.cons_append, dollarTokens, if_neg hc, ih hcs]

/-- A number is written in digits. -/
theorem isDigit_of_mem_toString {n : Nat} {c : Char} (h : c ∈ (toString n).toList) :
    c.isDigit = true := by
  have hr : (toString n).toList = Nat.toDigits 10 n := Nat.toList_repr
  rw [hr] at h
  exact Nat.isDigit_of_mem_toDigits (by omega) (by omega) h

/-- **A placeholder is one token**, if no digit follows it. -/
theorem dollarTokens_placeholder (n : Nat) {rest : List Char}
    (hrest : rest.takeWhile Char.isDigit = []) :
    dollarTokens (("$" ++ toString n).toList ++ rest) =
      (toString n).toList :: dollarTokens rest := by
  have hdollar : '$' ∉ (toString n).toList := by
    intro h
    exact absurd (isDigit_of_mem_toString h) (by decide)
  rw [String.toList_append, show "$".toList = ['$'] from rfl, List.singleton_append,
    List.cons_append, dollarTokens, if_pos rfl, dollarTokens_append hdollar,
    List.takeWhile_append_of_pos fun c hc => isDigit_of_mem_toString hc, hrest, List.append_nil]

/-! ### Other numbers -/

/-- A text in which every `$` with digits behind it is replaced, together with these digits,
by what `f` makes of them; `inNumber` tells whether such digits go on at the front of the
text. -/
def mapNumbers (f : List Char → List Char) : (inNumber : Bool) → List Char → List Char
  | _, [] => []
  | inNumber, c :: cs =>
    if inNumber && c.isDigit then mapNumbers f true cs
    else if c == '$' && cs.head?.any Char.isDigit then
      f (cs.takeWhile Char.isDigit) ++ mapNumbers f true cs
    else c :: mapNumbers f false cs

section

variable (f : List Char → List Char)

theorem mapNumbers_append {text : List Char} (h : '$' ∉ text) (rest : List Char) :
    mapNumbers f false (text ++ rest) = text ++ mapNumbers f false rest := by
  induction text with
  | nil => rfl
  | cons c cs ih =>
    have hc : (c == '$') = false := by
      simpa using fun e : c = '$' => h (by simp [e])
    have hcs : '$' ∉ cs := fun hm => h (List.mem_cons_of_mem _ hm)
    rw [List.cons_append, mapNumbers, Bool.false_and, hc, Bool.false_and, ih hcs]
    rfl

/-- The digits of a number are passed over. -/
theorem mapNumbers_digits {digits : List Char} (h : ∀ c ∈ digits, c.isDigit = true)
    {rest : List Char} (hrest : rest.takeWhile Char.isDigit = []) :
    mapNumbers f true (digits ++ rest) = mapNumbers f false rest := by
  induction digits with
  | nil =>
    cases rest with
    | nil => rfl
    | cons c cs =>
      have hc : c.isDigit = false := by
        by_contra hc
        simp [List.takeWhile_cons, hc] at hrest
      rw [List.nil_append, mapNumbers, mapNumbers, hc, Bool.and_false, Bool.and_false]
  | cons c cs ih =>
    have hc := h c (List.mem_cons_self ..)
    rw [List.cons_append, mapNumbers, hc]
    exact ih fun d hd => h d (List.mem_cons_of_mem _ hd)

/-- **A placeholder is replaced**, if no digit follows it. -/
theorem mapNumbers_placeholder (n : Nat) {rest : List Char}
    (hrest : rest.takeWhile Char.isDigit = []) :
    mapNumbers f false (("$" ++ toString n).toList ++ rest) =
      f (toString n).toList ++ mapNumbers f false rest := by
  have hdigits : ∀ c ∈ (toString n).toList, c.isDigit = true := fun c hc =>
    isDigit_of_mem_toString hc
  obtain ⟨d, ds, hn⟩ : ∃ d ds, (toString n).toList = d :: ds := by
    refine List.exists_cons_of_ne_nil fun hnil => ?_
    have hr : (toString n).toList = Nat.toDigits 10 n := Nat.toList_repr
    exact Nat.toDigits_ne_nil (hr ▸ hnil)
  have hd : d.isDigit = true := hdigits d (by rw [hn]; exact List.mem_cons_self ..)
  have htake : ((toString n).toList ++ rest).takeWhile Char.isDigit = (toString n).toList := by
    rw [List.takeWhile_append_of_pos hdigits, hrest, List.append_nil]
  have hhead : ((toString n).toList ++ rest).head?.any Char.isDigit = true := by
    rw [hn]
    exact hd
  rw [String.toList_append, show "$".toList = ['$'] from rfl, List.singleton_append,
    List.cons_append, mapNumbers, hhead, htake, mapNumbers_digits f hdigits hrest]
  rfl

end

/-! ### Templates that can be read back -/

namespace Template

/-- A template that does not go on with a digit. -/
def EndsDigits : Template → Prop
  | [] => True
  | .text a :: _ => ∃ c cs, a.toList = c :: cs ∧ c.isDigit = false
  | .mark :: _ => True

/-- A template whose texts do not contain a character, and which does not go on with a
digit behind a mark. -/
def Spaced (sigil : Char) : Template → Prop
  | [] => True
  | .text a :: t => sigil ∉ a.toList ∧ Spaced sigil t
  | .mark :: t => EndsDigits t ∧ Spaced sigil t

variable {sigil : Char}

theorem EndsDigits.append {t u : Template} (ht : t.EndsDigits) (hu : u.EndsDigits) : (t ++ u).EndsDigits := by
  match t with
  | [] => exact hu
  | .text _ :: _ => exact ht
  | .mark :: _ => trivial

theorem Spaced.append {t u : Template} (ht : t.Spaced sigil) (hu : u.Spaced sigil)
    (ho : u.EndsDigits) : (t ++ u).Spaced sigil := by
  induction t with
  | nil => exact hu
  | cons p t ih =>
    cases p with
    | text a => exact ⟨ht.1, ih ht.2⟩
    | mark => exact ⟨ht.1.append ho, ih ht.2⟩

theorem spaced_listed (hsigil : sigil ≠ ',') (n : Nat) : (listed n).Spaced sigil := by
  induction n using listed.induct with
  | case1 => trivial
  | case2 => exact ⟨trivial, trivial⟩
  | case3 n ih => exact ⟨⟨',', [], rfl, rfl⟩, by simpa using hsigil, ih⟩

/-- The text of a template that does not begin with a digit does not either. -/
theorem EndsDigits.takeWhile_render {t : Template} (ht : t.EndsDigits) (n : Nat) :
    (t.render postgres.placeholder n).1.toList.takeWhile Char.isDigit = [] := by
  match t with
  | [] => rfl
  | .text a :: t =>
    obtain ⟨c, cs, ha, hc⟩ := ht
    simp [render, ha, hc]
  | .mark :: t => simp [render, postgres]

/-- **Numbers are read back.**  From a template on Postgres, rendered from a number on,
the next numbers are read, one for each mark. -/
theorem Spaced.dollarTokens_render {t : Template} (ht : t.Spaced '$') (n : Nat) :
    dollarTokens (t.render postgres.placeholder n).1.toList =
      (List.range' (n + 1) t.marks).map fun k => (toString k).toList := by
  induction t generalizing n with
  | nil => rfl
  | cons p t ih =>
    cases p with
    | text a =>
      rw [render, String.toList_append, dollarTokens_append ht.1, ih ht.2, marks_text]
    | mark =>
      have h := dollarTokens_placeholder (n + 1) (ht.1.takeWhile_render (n + 1))
      rw [render, String.toList_append, marks_mark, List.range'_succ, List.map_cons, ← ih ht.2]
      exact h

/-- **Other numbers are another source.**  Let `state` be where another source stands when
the last number of Postgres is `n`.  With the numbers replaced as this source has them, the
Postgres text of a template is its text on this source. -/
theorem Spaced.mapNumbers_render {f : List Char → List Char} {source : σ → String × σ}
    (state : Nat → σ)
    (h : ∀ n, source (state n) = (String.ofList (f (toString (n + 1)).toList), state (n + 1)))
    {t : Template} (ht : t.Spaced '$') (n : Nat) :
    mapNumbers f false (t.render postgres.placeholder n).1.toList =
      (t.render source (state n)).1.toList := by
  induction t generalizing n with
  | nil => rfl
  | cons p t ih =>
    cases p with
    | text a =>
      rw [render, render, String.toList_append, String.toList_append, mapNumbers_append f ht.1,
        ih ht.2]
    | mark =>
      have hmark := mapNumbers_placeholder f (n + 1) (ht.1.takeWhile_render (n + 1))
      rw [ih ht.2] at hmark
      rw [render, render, String.toList_append, String.toList_append, h, String.toList_ofList]
      exact hmark

/-- A template on MySQL has a question mark for each mark. -/
theorem Spaced.count_render {t : Template} (ht : t.Spaced '?') (s : Unit) :
    (t.render mysql.placeholder s).1.toList.count '?' = t.marks := by
  induction t generalizing s with
  | nil => rfl
  | cons p t ih =>
    cases p with
    | text a =>
      rw [render, String.toList_append, List.count_append, List.count_eq_zero.2 ht.1, ih ht.2,
        marks_text, Nat.zero_add]
    | mark =>
      have h := ih ht.2 s
      rw [render, String.toList_append, List.count_append, marks_mark,
        show (mysql.placeholder s).1.toList.count '?' = 1 by simp [mysql], Nat.add_comm, ← h]

end Template

/-! ### The templates of filters -/

/-- A style whose patterns can be read back on every field that avoids a character. -/
def Style.Spaced (sigil : Char) (style : Style) : Prop :=
  ∀ p field negated isJson, sigil ∉ field.toList →
    (style.pattern p field negated isJson).Spaced sigil

theorem Postgres.style_spaced : Postgres.style.Spaced '$' := by
  intro p field negated isJson h
  cases p <;> cases negated <;> cases isJson <;>
    simp [Postgres.style, Template.Spaced, Template.EndsDigits, likeOperator, h]

theorem MySql.style_spaced : MySql.style.Spaced '?' := by
  intro p field negated isJson h
  cases p <;> cases negated <;>
    simp [MySql.style, Template.Spaced, Template.EndsDigits, likeOperator, h]

theorem Template.spaced_intercalate {sigil : Char} {sep : String} (hsep : sigil ∉ sep.toList)
    (hends : EndsDigits [.text sep]) {ts : List Template} (h : ∀ t ∈ ts, t.Spaced sigil) :
    Template.Spaced sigil ([Piece.text sep].intercalate ts) := by
  induction ts with
  | nil => trivial
  | cons t ts ih =>
    have ht := h t (List.mem_cons_self ..)
    cases ts with
    | nil => rwa [List.intercalate_singleton]
    | cons u us =>
      have ih := ih fun t ht => h t (List.mem_cons_of_mem _ ht)
      rw [List.intercalate_cons_cons, List.append_assoc]
      exact ht.append ⟨hsep, ih⟩ hends

variable {sigil : Char}

/-- A character that no keyword, sign or parenthesis of a condition contains. -/
def IsSigil (sigil : Char) : Prop :=
  sigil ∉ " ()<>=,ANDORIN".toList

instance (sigil : Char) : Decidable (IsSigil sigil) :=
  inferInstanceAs (Decidable (_ ∉ _))

theorem Glue.spaced_weave (hsigil : IsSigil sigil) (glue : Glue) {ts : List Template}
    (h : ∀ t ∈ ts, t.Spaced sigil) : (glue.weave ts).Spaced sigil := by
  have hj : Template.Spaced sigil ([Piece.text glue.separator].intercalate ts) := by
    simp [IsSigil] at hsigil
    refine Template.spaced_intercalate ?_ ?_ h <;>
      cases glue <;> simp [separator, Template.EndsDigits, hsigil]
  rw [weave]
  split
  · simp [IsSigil] at hsigil
    refine ⟨by simp [hsigil], hj.append ⟨by simp [hsigil], trivial⟩ ⟨' ', _, rfl, rfl⟩⟩
  · exact hj

namespace Condition

theorem spaced_comparisonPieces (hsigil : IsSigil sigil) {field : String}
    (hf : sigil ∉ field.toList) (c : Comparison) :
    Template.Spaced sigil (comparisonPieces field c) := by
  simp [IsSigil] at hsigil
  refine ⟨?_, trivial, trivial⟩
  cases c <;> simp [Comparison.symbol, hf, hsigil]

theorem spaced_pieces (hsigil : IsSigil sigil) {style : Style} (hs : style.Spaced sigil)
    {field : FieldExpr} (hf : sigil ∉ field.sql.toList) (c : Condition) :
    (c.pieces style field).Spaced sigil := by
  have hc := spaced_comparisonPieces hsigil hf
  simp [IsSigil] at hsigil
  cases c with
  | compare c v => exact hc c
  | pattern p negated v => exact hs p field.sql negated field.isJson hf
  | between negated start stop =>
    have hclose : Template.Spaced sigil [.text " )"] := ⟨by simp [hsigil], trivial⟩
    refine ⟨by simp [hsigil], (hc _).append ⟨?_, (hc _).append hclose ⟨' ', _, rfl, rfl⟩⟩ ?_⟩
    · cases negated <;> simp [rangeSides, Glue.separator, hsigil]
    · cases negated <;> exact ⟨' ', _, rfl, rfl⟩
  | member items =>
    refine ⟨by simp [hf, hsigil], ?_⟩
    refine (Template.spaced_listed (by simp [hsigil]) _).append ?_ ⟨')', _, rfl, rfl⟩
    exact ⟨by simp [hsigil], trivial⟩

end Condition

/-! ### Fields -/

/-- A character stands neither in the field of a leaf nor in what the leaf's predicate
makes of the field. -/
structure Leaf.Avoids (resolve : String → Except CompileError FieldExpr) (config : Config)
    (sigil : Char) (leaf : Leaf) : Prop where
  field : sigil ∉ leaf.field.toList
  predicate : ∀ name wrapper field sql, leaf.predicate = some name →
    config.predicates.find? name = some wrapper → resolve leaf.field = .ok field →
      wrapper field.sql name = .ok sql → sigil ∉ sql.toList

/-- Resolving does not bring in a character. -/
def Avoided (resolve : String → Except CompileError FieldExpr) (sigil : Char) : Prop :=
  ∀ raw field, resolve raw = .ok field → sigil ∉ raw.toList → sigil ∉ field.sql.toList

theorem Leaf.Avoids.expression {resolve : String → Except CompileError FieldExpr}
    (hr : Avoided resolve sigil) {config : Config} {leaf : Leaf}
    (h : leaf.Avoids resolve config sigil) {field : FieldExpr}
    (hx : leaf.expression resolve config = .ok field) : sigil ∉ field.sql.toList := by
  rw [Leaf.expression] at hx
  cases hf : resolve leaf.field with
  | error e => rw [hf] at hx; cases hx
  | ok raw =>
    rw [hf] at hx
    change wrap config leaf.predicate raw = .ok field at hx
    cases hp : leaf.predicate with
    | none =>
      rw [hp] at hx
      obtain rfl := Except.ok.inj hx
      exact hr _ _ hf h.field
    | some name =>
      rw [hp, wrap] at hx
      cases hw : config.predicates.find? name with
      | none => simp [hw] at hx
      | some wrapper =>
        simp only [hw] at hx
        cases hs : wrapper raw.sql name with
        | error e => rw [hs] at hx; cases hx
        | ok sql =>
          rw [hs] at hx
          obtain rfl := Except.ok.inj hx
          exact h.predicate name wrapper raw sql hp hw hf hs

theorem mysql_avoided (sigil : Char) : Avoided (mysql.resolve ()) sigil := by
  intro raw field h hraw
  rw [mysql_resolve] at h
  obtain rfl := Except.ok.inj h
  exact hraw

theorem postgres_avoided : Avoided (postgres.resolve 0) '$' := by
  intro raw field h hraw
  rcases postgres_resolve_eq_ok h with ⟨-, rfl⟩ | ⟨ref, hp, rfl, -⟩
  · exact hraw
  · exact Postgres.not_mem_jsonExpr (by decide) (FieldRef.lacks_of_parse hp hraw)

/-! ### Statements -/

/-- The template of a filter can be read back, if its fields avoid the sigil. -/
theorem Node.draft_spaced (hsigil : IsSigil sigil) {style : Style} (hs : style.Spaced sigil)
    (hr : Avoided style.resolve sigil) {config : Config} {node : Node} {t : Draft}
    (hn : ∀ leaf ∈ node.leaves, leaf.Avoids style.resolve config sigil)
    (h : node.draft style config = .ok t) : t.pieces.Spaced sigil := by
  refine draft_induction (P := fun _ t => t.pieces.Spaced sigil) h ?_ ?_
  · intro leaf hl u hu
    rcases leaf.draft_eq_ok hu with ⟨rfl, -⟩ | ⟨field, c, -, hx, -, rfl⟩
    · trivial
    · exact c.spaced_pieces hsigil hs ((hn leaf hl).expression hr hx)
  · intro glue rules ts hts
    refine glue.spaced_weave hsigil fun p hp => ?_
    obtain ⟨u, hu, rfl⟩ := List.mem_map.1 (List.mem_of_mem_filter hp)
    exact forall_of_forall₂ hts u hu

/-- **Statements are numbered exactly.**  Let a filter run no configured operation, and
let it compile to a text and `n` values.  On Postgres, if neither a field nor the result
of a predicate contains a `$`, the tokens of the text are `$1`, …, `$n`, in this order,
and there is no other `$`.  On MySQL, if neither a field nor the result of a predicate
contains a `?`, the text contains `n` of them. -/
theorem compile_numbers_exactly :
    (∀ (config : Config) (node : Node) (s : Nat) (c : Compiled) (t : Nat),
      (∀ leaf ∈ node.leaves, leaf.runsOperation config = false) →
        (∀ leaf ∈ node.leaves, leaf.Avoids (postgres.resolve s) config '$') →
          compile postgres config node s = (.ok c, t) →
            dollarTokens c.sql.toList =
              (List.range c.values.length).map (fun i => (toString (i + 1)).toList) ∧
            c.sql.toList.count '$' = c.values.length) ∧
      ∀ (config : Config) (node : Node) (s : Unit) (c : Compiled) (t : Unit),
        (∀ leaf ∈ node.leaves, leaf.runsOperation config = false) →
          (∀ leaf ∈ node.leaves, leaf.Avoids (mysql.resolve s) config '?') →
            compile mysql config node s = (.ok c, t) →
              c.sql.toList.count '?' = c.values.length := by
  constructor
  · intro config node s c t hn ha h
    obtain ⟨draft, hd, rfl⟩ := compile_eq_ok postgres_writes hn h
    have hs := node.draft_spaced (by decide) Postgres.style_spaced postgres_avoided ha hd
    have hv := (node.draft_sound postgres_writes hd).marks_eq
    have ht := hs.dollarTokens_render 0
    have htokens : dollarTokens (draft.compiled postgres.placeholder 0).1.sql.toList =
        (List.range draft.values.length).map fun i => (toString (i + 1)).toList := by
      rw [Draft.compiled, ht, hv, List.range'_eq_map_range, List.map_map]
      exact List.map_congr_left fun i _ => by simp [Nat.add_comm]
    refine ⟨htokens, ?_⟩
    rw [← length_dollarTokens]
    exact (congrArg List.length htokens).trans (by simp [Draft.compiled])
  · intro config node s c t hn ha h
    obtain ⟨draft, hd, rfl⟩ := compile_eq_ok mysql_writes hn h
    have hs := node.draft_spaced (by decide) MySql.style_spaced (mysql_avoided '?') ha hd
    exact (hs.count_render _).trans (node.draft_sound mysql_writes hd).marks_eq

/-- A predicate that writes a field in lower case. -/
def lowerPredicate : Predicate := fun field _ => .ok ("lower(" ++ field ++ ")")

/-- A range, a list of values behind a predicate, and a key of a JSON column that are
joined take the numbers from 1 to 5, also if an earlier statement stopped at 7. -/
theorem compile_numbers_exactly_joined :
    dollarTokens ("( ( a > $1 AND a < $2 ) OR lower(b) IN($3,$4) OR " ++
        "(\"c\"->'d')::text LIKE '\"%' || $5 || '%\"' )").toList =
      [['1'], ['2'], ['3'], ['4'], ['5']] ∧
    "( INSTR(a, ?) > 0 AND b IN(?,?) )".toList.count '?' = 3 := by
  refine ⟨(compile_numbers_exactly.1 { predicates := ⟨[("lower", lowerPredicate)]⟩ }
    (.group .or
      [.leaf { field := "a", operator := "between",
               operand := some (.range (some (.int 1)) (some (.int 2))) },
        .leaf { field := "b", includes := some [.int 3, .int 4], predicate := some "lower" },
        .leaf { field := "json:c.d", operator := "contains",
                operand := some (.scalar (.str "x")) }])
    7 _ _ ?_ ?_ rfl).1, compile_numbers_exactly.2 {}
    (.group .and
      [.leaf { field := "a", operator := "contains", operand := some (.scalar (.str "x")) },
        .leaf { field := "b", includes := some [.int 3, .int 4] }])
    () _ _ ?_ ?_ rfl⟩
  · simp only [Node.leaves, leavesAll]
    decide
  · intro leaf hl
    simp only [Node.leaves, leavesAll, List.append_nil, List.cons_append, List.nil_append,
      List.mem_cons, List.not_mem_nil, or_false] at hl
    rcases hl with rfl | rfl | rfl
    · exact ⟨by decide, fun _ _ _ _ h => by cases h⟩
    · refine ⟨by decide, fun name wrapper field sql hn hw hf hs => ?_⟩
      obtain rfl := Option.some.inj hn
      obtain rfl := Option.some.inj hw
      obtain rfl := Except.ok.inj hf
      obtain rfl := Except.ok.inj hs
      decide
    · exact ⟨by decide, fun _ _ _ _ h => by cases h⟩
  · simp only [Node.leaves, leavesAll]
    decide
  · intro leaf hl
    simp only [Node.leaves, leavesAll, List.append_nil, List.cons_append, List.nil_append,
      List.mem_cons, List.not_mem_nil, or_false] at hl
    rcases hl with rfl | rfl <;> exact ⟨by decide, fun _ _ _ _ h => by cases h⟩

end SqlFilter
