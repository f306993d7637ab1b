/-
# Reading templates

A template is read as some items (`Template.Reads`) if the machine adds them, wherever it
stands, whatever follows the text, and whichever placeholders were drawn before; it is
only asked that the values of the template are the next ones.  Templates are read piece by
piece, so this is all that has to be known of a piece.

A template states a condition (`Template.States`) if what it is read as has the truth of
the condition.
-/

import SqlFilter.Proofs.Draft
import SqlFilter.Proofs.Sql.Reader

namespace SqlFilter

open Sql (Machine Item Closes IsFactor IsPredicate)

variable {σ : Type}

/-- A dialect whose placeholders are bound in the order in which they are drawn, where
`At s n` says that `n` placeholders are drawn in a state. -/
structure Dialect.Binds (d : Dialect σ) (At : σ → Nat → Prop) : Prop where
  run_placeholder : ∀ {s : σ} {m : Machine} {v : Value} {rest : List Char}, At s m.drawn →
    m.values[m.drawn]? = some v → Closes rest →
      m.run ((d.placeholder s).1.toList ++ rest) = (m.push [.value v] 1).run rest
  at_placeholder : ∀ {s : σ} {n : Nat}, At s n → At (d.placeholder s).2 (n + 1)

theorem postgres_binds : postgres.Binds (· = ·) where
  run_placeholder hs hv hrest := by
    subst hs
    exact Machine.run_dollar hv hrest
  at_placeholder hs := by
    subst hs
    rfl

theorem mysql_binds : mysql.Binds fun _ _ => True where
  run_placeholder _ hv _ := by simpa [mysql] using Machine.run_question hv _
  at_placeholder _ := trivial

/-! ### Texts -/

/-- A text that is read as some items, if it ends behind them. -/
def Spells (text : String) (items : List Item) : Prop :=
  ∀ (m : Machine) (rest : List Char), Closes rest →
    m.run (text.toList ++ rest) = (m.push items 0).run rest

/-- A text that is read as some items, whatever is behind it. -/
def Adds (text : String) (items : List Item) : Prop :=
  ∀ (m : Machine) (rest : List Char), m.run (text.toList ++ rest) = (m.push items 0).run rest

/-- A text that is read as some items, an open parenthesis, and items behind it. -/
def Opens (text : String) (items inside : List Item) : Prop :=
  ∀ (m : Machine) (rest : List Char),
    m.run (text.toList ++ rest) = ((m.push items 0).opened.push inside 0).run rest

/-- A text before which another one ends. -/
def Stops (text : String) : Prop :=
  ∃ c cs, text.toList = c :: cs ∧ c ∈ Sql.closers

section

variable {a b c : String} {hs is js ks : List Item}

theorem Stops.closes (h : Stops a) (rest : List Char) : Closes (a.toList ++ rest) := by
  obtain ⟨c, cs, ha, hc⟩ := h
  rw [ha]
  exact Sql.closes_cons hc _

theorem Stops.append (h : Stops a) (b : String) : Stops (a ++ b) := by
  obtain ⟨c, cs, ha, hc⟩ := h
  exact ⟨c, cs ++ b.toList, by rw [String.toList_append, ha, List.cons_append], hc⟩

theorem Adds.spells (ha : Adds a is) : Spells a is :=
  fun m rest _ => ha m rest

theorem Adds.append (ha : Adds a is) (hb : Adds b js) : Adds (a ++ b) (is ++ js) := by
  intro m rest
  rw [String.toList_append, List.append_assoc, ha, hb, Machine.push_push]

theorem Adds.append_spells (ha : Adds a is) (hb : Spells b js) : Spells (a ++ b) (is ++ js) := by
  intro m rest hrest
  rw [String.toList_append, List.append_assoc, ha, hb _ _ hrest, Machine.push_push]

theorem Adds.append_opens (ha : Adds a is) (hb : Opens b js ks) : Opens (a ++ b) (is ++ js) ks := by
  intro m rest
  rw [String.toList_append, List.append_assoc, ha, hb, Machine.push_push]

theorem Opens.append (ha : Opens a is js) (hb : Adds b ks) : Opens (a ++ b) is (js ++ ks) := by
  intro m rest
  rw [String.toList_append, List.append_assoc, ha, hb, Machine.push_push]

/-- A text ends before one that closes it. -/
theorem Spells.append (ha : Spells a is) (hstop : Stops b) (hb : Adds b js) :
    Adds (a ++ b) (is ++ js) := by
  intro m rest
  rw [String.toList_append, List.append_assoc, ha _ _ (hstop.closes rest), hb, Machine.push_push]

theorem adds_empty : Adds "" [] := by
  intro m rest
  rw [Machine.push_nil]
  rfl

theorem adds_blank : Adds " " [] := by
  intro m rest
  rw [Machine.push_nil]
  exact m.run_blank rest

theorem adds_comma : Adds ", " [.token (.sign .comma)] := by
  intro m rest
  exact (m.run_comma _).trans (Machine.run_blank _ _)

theorem Spells.blank (ha : Spells a is) : Adds (a ++ " ") is := by
  have h := ha.append ⟨' ', [], rfl, by decide⟩ adds_blank
  rwa [List.append_nil] at h

/-- The sign of a comparison between blanks. -/
theorem Adds.symbol (ha : Adds a is) (c : Comparison) :
    Adds (a ++ c.symbol ++ " ") (is ++ [.token (.sign (.compare c))]) := by
  have hc : Adds (c.symbol ++ " ") [.token (.sign (.compare c))] := by
    intro m rest
    rw [String.toList_append, List.append_assoc]
    exact m.run_symbol c rest
  rw [String.append_assoc]
  exact ha.append hc

/-- A word is a keyword or a name. -/
theorem spells_word {w : String} (hw : Identifier.isPlain w = true) :
    Spells w [.token (Sql.wordToken w.toList)] :=
  fun m _ hrest => m.run_word hw hrest

/-- The words of a pattern match. -/
def likeItems (negated : Bool) : List Item :=
  if negated then [.token (.keyword .not), .token (.keyword .like)] else [.token (.keyword .like)]

theorem adds_like (negated : Bool) : Adds (likeOperator negated) (likeItems negated) := by
  have hlike : Adds ("LIKE" ++ " ") [.token (.keyword .like)] :=
    (spells_word (by decide)).blank
  have hnot : Adds ("NOT" ++ " ") [.token (.keyword .not)] :=
    (spells_word (by decide)).blank
  cases negated with
  | false => exact adds_blank.append hlike
  | true => exact adds_blank.append (hnot.append hlike)

/-- A field before the words of a pattern match. -/
theorem Spells.like (ha : Spells a is) (negated : Bool) :
    Adds (a ++ likeOperator negated) (is ++ likeItems negated) := by
  refine ha.append ?_ (adds_like negated)
  cases negated <;> exact ⟨' ', _, rfl, by decide⟩

/-- A text, behind which a parenthesis opens. -/
theorem Spells.opens (ha : Spells a is) : Opens (a ++ "(") is [] := by
  intro m rest
  have hstop : Stops "(" := ⟨'(', [], rfl, by decide⟩
  rw [String.toList_append, List.append_assoc, ha _ _ (hstop.closes rest), Machine.push_nil]
  exact Machine.run_opening _ _

theorem opens_parenthesis : Opens "(" [] [] :=
  adds_empty.spells.opens

/-- **The text that closes a parenthesis**, from the end of its inside on. -/
theorem run_closed {item : Item} (hb : Spells b js) (hclose : Sql.close (is ++ js) = some item)
    (m : Machine) (k : Nat) (rest : List Char) :
    (m.opened.push is k).run ((b ++ ")").toList ++ rest) = (m.push [item] k).run rest := by
  have hend : Closes (')' :: rest) := Sql.closes_cons (by decide) _
  rw [String.toList_append, List.append_assoc,
    show ")".toList ++ rest = ')' :: rest from rfl, hb _ _ hend, Machine.push_push, Nat.add_zero,
    Machine.run_closing hclose]

/-- A parenthesis, from the text that opens it and its inside. -/
theorem Opens.close {item : Item} (ha : Opens a is hs) (hb : Spells b js)
    (hclose : Sql.close (hs ++ js) = some item) : Adds (a ++ b ++ ")") (is ++ [item]) := by
  intro m rest
  rw [String.append_assoc, String.toList_append, List.append_assoc, ha, run_closed hb hclose,
    Machine.push_push]

end

namespace Template

/-- A template that is read as some items, with the next values bound. -/
def Reads (d : Dialect σ) (At : σ → Nat → Prop) (t : Template) (values : List Value)
    (items : List Item) : Prop :=
  ∀ (s : σ) (m : Machine) (rest : List Char), At s m.drawn →
    values <+: m.values.drop m.drawn → Closes rest →
      m.run ((t.render d.placeholder s).1.toList ++ rest) =
          (m.push items values.length).run rest ∧
        At (t.render d.placeholder s).2 (m.drawn + values.length)

variable {d : Dialect σ} {At : σ → Nat → Prop}

theorem prefix_drop_append {vs ws all : List Value} {n : Nat}
    (h : vs ++ ws <+: all.drop n) : vs <+: all.drop n ∧ ws <+: all.drop (n + vs.length) := by
  obtain ⟨more, h⟩ := h
  rw [List.append_assoc] at h
  refine ⟨⟨ws ++ more, h⟩, more, ?_⟩
  rw [← List.drop_drop, ← h, List.drop_left]

/-- A mark is read as the next value. -/
theorem reads_mark (hd : d.Binds At) (v : Value) : Reads d At [.mark] [v] [.value v] := by
  intro s m rest hs hv hrest
  have hget : m.values[m.drawn]? = some v := by
    obtain ⟨more, h⟩ := hv
    have hg : (m.values.drop m.drawn)[0]? = m.values[m.drawn + 0]? := List.getElem?_drop
    rw [← h] at hg
    simpa using hg.symm
  rw [render, render, String.append_empty]
  exact ⟨hd.run_placeholder hs hget hrest, hd.at_placeholder hs⟩

/-- A text is read on its own. -/
theorem reads_text {a : String} {items : List Item} (ha : Spells a items) :
    Reads d At [.text a] [] items := by
  intro s m rest hs _ hrest
  rw [render, render, String.append_empty]
  exact ⟨ha m rest hrest, hs⟩

/-- A text is read before a template, if it ends wherever it stands. -/
theorem Reads.cons_text {a : String} {t : Template} {values : List Value} {is js : List Item}
    (ha : Adds a is) (ht : Reads d At t values js) : Reads d At (.text a :: t) values (is ++ js) := by
  intro s m rest hs hv hrest
  obtain ⟨hrun, hat⟩ := ht s (m.push is 0) rest hs hv hrest
  rw [render, String.toList_append, List.append_assoc, ha, hrun, Machine.push_push, Nat.zero_add]
  exact ⟨rfl, hat⟩

/-- **Templates are read one after the other**, if the first one ends before the text of
the second one. -/
theorem Reads.append_text {b : String} {t u : Template} {vs ws : List Value}
    {is js : List Item} (ht : Reads d At t vs is) (hb : Stops b)
    (hu : Reads d At (.text b :: u) ws js) :
    Reads d At (t ++ .text b :: u) (vs ++ ws) (is ++ js) := by
  intro s m rest hs hv hrest
  obtain ⟨hvs, hws⟩ := prefix_drop_append hv
  have hclose : Closes ((render d.placeholder (.text b :: u) (render d.placeholder t s).2).1.toList
      ++ rest) := by
    rw [render, String.toList_append, List.append_assoc]
    exact hb.closes _
  obtain ⟨hrun, hat⟩ := ht s m _ hs hvs hclose
  obtain ⟨hrun', hat'⟩ := hu _ (m.push is vs.length) rest hat hws hrest
  rw [render_append, String.toList_append, List.append_assoc, hrun, hrun', Machine.push_push,
    List.length_append]
  refine ⟨rfl, ?_⟩
  rw [← Nat.add_assoc]
  exact hat'

/-- **A parenthesis is read** from its inside, where the text before it may begin the
inside, and the text behind it may end the inside and go on. -/
theorem Reads.enclosed {a b c : String} {t : Template} {values : List Value}
    {hs is js ks ls : List Item} {item : Item} (ha : Opens a is hs) (ht : Reads d At t values js)
    (hb : Spells b ks) (hstop : Stops (b ++ ")")) (hclose : Sql.close (hs ++ js ++ ks) = some item)
    (hc : Spells c ls) :
    Reads d At (.text a :: t ++ [.text (b ++ ")" ++ c)]) values (is ++ item :: ls) := by
  intro s m rest hs' hv hrest
  obtain ⟨hrun, hat⟩ := ht s ((m.push is 0).opened.push hs 0) ((b ++ ")" ++ c).toList ++ rest) hs' hv
    ((hstop.append c).closes rest)
  rw [List.cons_append, render, render_append, render, render, String.append_empty,
    String.toList_append, String.toList_append, List.append_assoc, List.append_assoc, ha, hrun,
    Machine.push_push, Nat.zero_add, String.toList_append, List.append_assoc,
    run_closed hb hclose, hc _ _ hrest, Machine.push_push, Machine.push_push, Nat.zero_add]
  exact ⟨rfl, hat⟩

/-- Values with commas between them are read as a list. -/
theorem reads_listed (hd : d.Binds At) {values : List Value} :
    Reads d At (listed values.length) values
      ([Item.token (.sign .comma)].intercalate (values.map ([.value ·]))) := by
  induction values with
  | nil =>
    intro s m rest hs _ _
    exact ⟨by simp [listed, render, Machine.push], hs⟩
  | cons v vs ih =>
    cases vs with
    | nil => exact reads_mark hd v
    | cons w ws =>
      have hcomma : Adds "," [.token (.sign .comma)] := fun m cs => m.run_comma cs
      exact (reads_mark hd v).append_text ⟨',', [], rfl, by decide⟩ (Reads.cons_text hcomma ih)

end Template

/-! ### Statements -/

namespace Template

variable {d : Dialect σ} {At : σ → Nat → Prop}

/-- A template that is read as a condition; `f` says from the atoms whether it holds. -/
def States (d : Dialect σ) (At : σ → Nat → Prop) (t : Template) (values : List Value)
    (f : (Sql.Atom → Bool) → Bool) : Prop :=
  ∃ items e, Reads d At t values items ∧ IsPredicate items e ∧ ∀ ρ, e.truth ρ = some (f ρ)

/-- **A statement is read as the condition of its template**, if its numbering starts
anew. -/
theorem Reads.read_eq {t : Template} {values : List Value} {items : List Item} {e : Sql.Expr}
    (h : Reads d At t values items) (hitems : IsPredicate items e) {s : σ} (hs : At s 0) :
    Sql.read values (t.render d.placeholder s).1 = some (some e) := by
  obtain ⟨hrun, -⟩ := h s { values := values } [] hs (List.prefix_refl _) (fun c hc => by cases hc)
  have hne : items ≠ [] := by
    rintro rfl
    have hnone : Sql.predicate [] = none := rfl
    rw [hitems.predicate_eq] at hnone
    cases hnone
  rw [List.append_nil] at hrun
  rw [Sql.read, hrun, Sql.Machine.run]
  simp [Sql.Machine.push, Sql.Machine.result, hne, hitems.disjunction_eq]

/-- A condition with its template and values. -/
structure Part where
  template : Template
  values : List Value
  truth : (Sql.Atom → Bool) → Bool

/-- A part states its condition. -/
def Part.Stated (d : Dialect σ) (At : σ → Nat → Prop) (p : Part) : Prop :=
  p.template.States d At p.values p.truth

/-- Parts with a connective between them are read one after the other. -/
theorem reads_intercalate (glue : Glue) {parts : List Part} (h : ∀ p ∈ parts, p.Stated d At)
    (hne : parts ≠ []) :
    ∃ itemss es, List.Forall₂ IsPredicate itemss es ∧ itemss ≠ [] ∧ es.length = parts.length ∧
      Reads d At ([Piece.text glue.separator].intercalate (parts.map (·.template)))
        (parts.flatMap (·.values))
        ([Item.token (.keyword (.glue glue))].intercalate itemss) ∧
      ∀ ρ, Sql.truthAll ρ es = some (parts.map (·.truth ρ)) := by
  induction parts with
  | nil => exact absurd rfl hne
  | cons p parts ih =>
    obtain ⟨items, e, hreads, hitems, htruth⟩ := h p (List.mem_cons_self ..)
    cases parts with
    | nil =>
      refine ⟨[items], [e], .cons hitems .nil, List.cons_ne_nil _ _, rfl, ?_, fun ρ => ?_⟩
      · simpa [List.intercalate_singleton] using hreads
      · simp [Sql.truthAll, htruth]
    | cons q parts =>
      obtain ⟨itemss, es, hall, hne, hlen, hrest, htruths⟩ :=
        ih (fun p hp => h p (List.mem_cons_of_mem _ hp)) (List.cons_ne_nil _ _)
      refine ⟨items :: itemss, e :: es, .cons hitems hall, List.cons_ne_nil _ _, by simp [hlen],
        ?_, fun ρ => ?_⟩
      · have hsep : Adds glue.separator [.token (.keyword (.glue glue))] :=
          fun m cs => m.run_separator glue cs
        have hstop : Stops glue.separator := by
          cases glue <;> exact ⟨' ', _, rfl, by decide⟩
        have hjoined := hreads.append_text hstop (Reads.cons_text hsep hrest)
        obtain ⟨js, jss, rfl⟩ := List.exists_cons_of_ne_nil hne
        simpa [List.intercalate_cons_cons, List.append_assoc] using hjoined
      · simp [Sql.truthAll, htruth, htruths]

/-- **Joined parts** state that all or that any of them hold. -/
theorem states_weave (glue : Glue) {parts : List Part} (h : ∀ p ∈ parts, p.Stated d At)
    (hne : parts ≠ []) :
    States d At (glue.weave (parts.map (·.template))) (parts.flatMap (·.values))
      fun ρ => glue.holds (parts.map (·.truth ρ)) := by
  rcases parts with _ | ⟨p, _ | ⟨q, parts⟩⟩
  · exact absurd rfl hne
  · have hp := h p (List.mem_cons_self ..)
    have hholds : ∀ b, glue.holds [b] = b := by cases glue <;> simp [Glue.holds]
    simpa [Glue.weave, List.intercalate_singleton, hholds] using
      show States d At p.template p.values p.truth from hp
  · obtain ⟨itemss, es, hall, hne, hlen, hreads, htruths⟩ := reads_intercalate glue h hne
    have hclose : Sql.close ([Item.token (.keyword (.glue glue))].intercalate itemss) =
        some (.group [Sql.joined glue es]) := Sql.close_conditions hall hne
    rw [Sql.joined_eq_join glue (by simp [hlen])] at hclose
    have hopens : Opens ("(" ++ " ") [] [] := opens_parenthesis.append adds_blank
    have henclosed := Reads.enclosed hopens hreads adds_blank.spells ⟨' ', _, rfl, by decide⟩
      (by rwa [List.append_nil]) adds_empty.spells
    refine ⟨_, _, ?_, (Sql.isFactor_group (.join glue es)).isPredicate, fun ρ => ?_⟩
    · rw [Glue.weave, if_pos (by simp)]
      exact henclosed
    · rw [Sql.Expr.truth, htruths]
      rfl

end Template

/-! ### Conditions -/

/-- A text that is read as an expression. -/
def Denotes (text : String) (e : Sql.Expr) : Prop :=
  ∃ items, Spells text items ∧ IsFactor items e

namespace Condition

variable {d : Dialect σ} {At : σ → Nat → Prop} (hd : d.Binds At) {field : String} {e : Sql.Expr}
include hd

/-- A comparison is read as one. -/
theorem states_comparison (hf : Denotes field e) (c : Comparison) (v : Value) :
    Template.States d At (comparisonPieces field c) [v] fun ρ => ρ ⟨e, .compare c, [v]⟩ := by
  obtain ⟨items, hspell, hfactor⟩ := hf
  have hreads := Template.Reads.cons_text (hspell.blank.symbol c) (Template.reads_mark hd v)
  have hright := Sql.isFactor_value v
  have hrel : Sql.relation e [.token (.sign (.compare c)), .value v] =
      some (.compare c e (.value v)) := by
    rw [Sql.relation, hright.operand_eq]
    rfl
  rw [List.append_assoc] at hreads
  exact ⟨_, .compare c e (.value v), hreads,
    hfactor.isPredicate_relation rfl (hright.below.mono (by omega)) hrel, fun ρ => rfl⟩

/-- **A range is read as its two comparisons.** -/
theorem states_between (hf : Denotes field e) (style : Style) (isJson negated : Bool)
    (start stop : Value) :
    Template.States d At ((between negated start stop).pieces style ⟨field, isJson⟩) [start, stop]
      fun ρ => (rangeSides negated).2.1.holds
        [ρ ⟨e, .compare (rangeSides negated).1, [start]⟩,
          ρ ⟨e, .compare (rangeSides negated).2.2, [stop]⟩] := by
  have hsides : ∀ p ∈ [
      Template.Part.mk (comparisonPieces field (rangeSides negated).1) [start]
        fun ρ => ρ ⟨e, .compare (rangeSides negated).1, [start]⟩,
      Template.Part.mk (comparisonPieces field (rangeSides negated).2.2) [stop]
        fun ρ => ρ ⟨e, .compare (rangeSides negated).2.2, [stop]⟩],
      p.Stated d At := by
    intro p hp
    rcases List.mem_pair.1 hp with rfl | rfl
    · exact states_comparison hd hf _ start
    · exact states_comparison hd hf _ stop
  exact Template.states_weave (rangeSides negated).2.1 hsides (List.cons_ne_nil _ _)

/-- **A membership is read as one.** -/
theorem states_member (hf : Denotes field e) (style : Style) (isJson : Bool)
    {values : List Value} (hne : values ≠ []) :
    Template.States d At ((member values).pieces style ⟨field, isJson⟩) values
      fun ρ => ρ ⟨e, .member, values⟩ := by
  obtain ⟨items, hspell, hfactor⟩ := hf
  have hin : Spells "IN" [.token (.keyword .isIn)] :=
    spells_word (by decide)
  have hlist : Sql.close ([Item.token (.sign .comma)].intercalate (values.map ([.value ·]))) =
      some (.group (values.map .value)) := by
    refine Sql.close_list ?_ (by simpa using hne)
    rw [List.forall₂_map_left_iff, List.forall₂_map_right_iff, List.forall₂_same]
    exact fun v _ => (Sql.isFactor_value v).isPredicate
  have hreads := Template.Reads.enclosed (hspell.blank.append_opens hin.opens)
    (Template.reads_listed hd) adds_empty.spells ⟨')', _, rfl, by decide⟩
    (by rwa [List.append_nil]) adds_empty.spells
  have htext : field ++ " IN(" = field ++ " " ++ ("IN" ++ "(") := by
    rw [String.append_assoc]
    rfl
  have hlevel : Sql.Below 4 [Item.group (values.map .value)] := by
    intro i hi
    simp [List.mem_singleton.1 hi, Sql.Item.level]
  rw [List.append_assoc, ← htext] at hreads
  refine ⟨_, .isIn e (values.map .value), hreads, hfactor.isPredicate_relation rfl hlevel rfl,
    fun ρ => ?_⟩
  have hatom : (Sql.Expr.isIn e (values.map .value)).atom? = some ⟨e, .member, values⟩ := by
    rw [Sql.Expr.atom?, Sql.mapM_value?]
    rfl
  rw [Sql.Expr.truth, hatom]
  · rfl
  · rintro glue parts ⟨⟩

end Condition

end SqlFilter
