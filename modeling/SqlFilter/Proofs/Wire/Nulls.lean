/-
# No operand is `NULL`

On the wire `null` stands for what is absent.  So a filter that is read has no operand that
is the one value `NULL`, and no range with a `NULL` for a bound (`Operand.Present`):

| `null` | is taken for absent by |
| --- | --- |
| `filter`, `value` of a node, `filter` of a `condition` | `Written.readOptional` |
| `start`, `end` of a range | `Operand.boundOfJson` |

A document that is not `null` has another value, because there is a value for every number
of a text (`Value.ofJson_eq_null_iff`).  What is read for the fields of a node is kept in
`NodeRecord.Given`, which every field keeps (`NodeRecord.Given.readNodeField`).
-/

import SqlFilter.Proofs.Wire.Values

namespace SqlFilter

open Json (Problem Written NumbersFit)

/-! ### Invariants of records -/

namespace Json
namespace Written

variable {κ ρ : Type} {read : κ → Written → ρ → Except Problem ρ} {P : ρ → Prop}

theorem mem_itemFields {keys : List κ} {items : List Written} {stop : Option Problem}
    {p : κ × Written} (h : p ∈ (itemFields keys items stop).given) : p.2 ∈ items := by
  induction keys generalizing items with
  | nil => cases items <;> cases h
  | cons key keys ih =>
    cases items with
    | nil => cases h
    | cons w ws =>
      rcases List.mem_cons.1 h with rfl | h
      · exact List.mem_cons_self ..
      · exact List.mem_cons_of_mem _ (ih h)

theorem mem_memberFields [DecidableEq κ] {shape : Shape κ} {seen : List κ}
    {members : List (Lexeme String × Written)} {stop : Option Problem} {p : κ × Written}
    (h : p ∈ (memberFields shape seen members stop).given) : ∃ m ∈ members, m.2 = p.2 := by
  induction members generalizing seen with
  | nil => cases h
  | cons m members ih =>
    have hlater : ∀ {seen}, p ∈ (memberFields shape seen members stop).given →
        ∃ m' ∈ m :: members, m'.2 = p.2 := by
      intro seen hp
      obtain ⟨m', hm', heq⟩ := ih hp
      exact ⟨m', List.mem_cons_of_mem _ hm', heq⟩
    rw [memberFields] at h
    repeat' split at h
    · cases h
    · cases h
    · rcases List.mem_cons.1 h with rfl | h
      · exact ⟨m, List.mem_cons_self .., rfl⟩
      · exact hlater h
    · cases h
    · exact hlater h
    · cases h

/-- The fields of a sound tree. -/
theorem sound_recordFields [DecidableEq κ] {shape : Shape κ} {w : Written} {fields : Fields κ}
    (hw : w.Sound) (h : w.recordFields shape = .ok fields) : ∀ p ∈ fields.given, p.2.Sound := by
  intro p hp
  cases hw with
  | array hitems stop =>
    obtain rfl := Except.ok.inj h
    exact hitems _ (mem_itemFields hp)
  | object _ hmembers stop =>
    obtain rfl := Except.ok.inj h
    obtain ⟨m, hm, heq⟩ := mem_memberFields hp
    exact heq ▸ hmembers m hm
  | _ => cases h

/-- What every one of some fields keeps. -/
theorem foldlM_induction {given : List (κ × Written)} {start record : ρ} (hstart : P start)
    (hkeep : ∀ p ∈ given, ∀ r r', P r → read p.1 p.2 r = .ok r' → P r')
    (h : given.foldlM (fun record (key, w) => read key w record) start = .ok record) :
    P record := by
  induction given generalizing start with
  | nil =>
    obtain rfl := Except.ok.inj h
    exact hstart
  | cons p given ih =>
    obtain ⟨hp, hgiven⟩ := List.forall_mem_cons.1 hkeep
    rw [List.foldlM_cons] at h
    obtain ⟨next, hnext, h⟩ := exists_of_bind_eq_ok h
    exact ih (hp start next hstart hnext) hgiven h

/-- **What every field keeps** holds of the record. -/
theorem readRecord_induction [DecidableEq κ] {shape : Shape κ} {start record : ρ} {w : Written}
    (hw : w.Sound) (hstart : P start)
    (hkeep : ∀ key v r r', v.Sound → P r → read key v r = .ok r' → P r')
    (h : w.readRecord shape start read = .ok record) : P record := by
  obtain ⟨fields, hfields, h⟩ := exists_of_bind_eq_ok h
  obtain ⟨result, hresult, h⟩ := exists_of_bind_eq_ok h
  obtain rfl := eq_of_ended h
  have hsound := sound_recordFields hw hfields
  exact foldlM_induction hstart (fun p hp r r' => hkeep p.1 p.2 r r' (hsound p hp)) hresult

/-- What may be `null`, and is there, is not `null`. -/
theorem readOptional_eq_ok_some {α : Type} {reader : Written → Except Problem α} {w : Written}
    {a : α} (h : w.readOptional reader = .ok (some a)) : w ≠ .null ∧ reader w = .ok a := by
  have hmap : ∀ x : Except Problem α, x.map some = .ok (some a) → x = .ok a := by
    intro x hx
    obtain ⟨b, rfl⟩ := exists_of_map_eq_ok hx
    obtain rfl := Option.some.inj (Except.ok.inj hx)
    rfl
  cases w with
  | null => cases h
  | _ => exact ⟨Written.noConfusion, hmap _ h⟩

/-- Only `null` is read as the document `null`. -/
theorem eq_null_of_readJson {depth : Nat} {w : Written} (h : w.readJson depth = .ok .null) :
    w = .null := by
  cases w with
  | null => rfl
  | bool b =>
    rw [readJson] at h
    cases h
  | number n =>
    rw [readJson] at h
    obtain ⟨v, hv⟩ := exists_of_map_eq_ok h
    rw [hv] at h
    cases h
  | string s =>
    rw [readJson] at h
    obtain ⟨v, hv⟩ := exists_of_map_eq_ok h
    rw [hv] at h
    cases h
  | array items stop =>
    cases depth <;> rw [readJson] at h
    · cases h
    · obtain ⟨docs, -, h⟩ := exists_of_bind_eq_ok h
      cases eq_of_ended h
  | object members stop =>
    cases depth <;> rw [readJson] at h
    · cases h
    · obtain ⟨all, -, h⟩ := exists_of_bind_eq_ok h
      cases h
  | fault p =>
    rw [readJson] at h
    cases h

end Written

/-! ### Documents that are given -/

/-- A document of a text that is there: it is not `null`, and its numbers fit. -/
structure IsGiven (j : Json) : Prop where
  ne_null : j ≠ .null
  numbersFit : j.NumbersFit

/-- What may be absent is a document that is there. -/
theorem isGiven_of_readOptional {depth : Nat} {w : Written} {o : Option Json} (hw : w.Sound)
    (h : w.readOptional (Written.readJson depth) = .ok o) : ∀ j, o = some j → j.IsGiven := by
  rintro j rfl
  obtain ⟨hne, hread⟩ := Written.readOptional_eq_ok_some h
  refine ⟨?_, Written.numbersFit_of_readJson hw hread⟩
  rintro rfl
  exact hne (Written.eq_null_of_readJson hread)

end Json

/-! ### Operands -/

/-- An operand is not `NULL`, nor is a bound of it. -/
def Operand.Present : Operand → Prop
  | scalar v => v ≠ .null
  | range start stop => start ≠ some .null ∧ stop ≠ some .null
  | list _ => True

theorem Operand.bound_ne_null (v : Option Value) : bound v ≠ some .null := by
  intro h
  obtain ⟨-, hnull⟩ := Option.filter_eq_some_iff.1 h
  cases hnull

/-- **The operand of a document that is there** is present. -/
theorem Json.IsGiven.present {j : Json} (h : j.IsGiven) : (Operand.ofJson j).Present := by
  have hscalar : Value.ofJson j ≠ .null := fun hnull =>
    h.ne_null ((Value.ofJson_eq_null_iff h.numbersFit).1 hnull)
  cases j with
  | obj members => exact ⟨Operand.bound_ne_null _, Operand.bound_ne_null _⟩
  | arr items => trivial
  | _ => exact hscalar

/-- All operands of a filter are present. -/
def Node.OperandsPresent (node : Node) : Prop :=
  ∀ leaf ∈ node.leaves, ∀ operand, leaf.operand = some operand → operand.Present

namespace Wire

/-- The operand of a `condition` is given by a document that is there. -/
def ConditionRecord.Given (raw : ConditionRecord) : Prop :=
  ∀ j, raw.filter = some j → j.IsGiven

theorem ConditionRecord.given_empty : ({} : ConditionRecord).Given := by
  intro j hj
  cases hj

theorem ConditionRecord.Given.readConditionField {depth : Nat} {key : ConditionKey} {v : Written}
    {raw raw' : ConditionRecord} (hv : v.Sound) (h : raw.Given)
    (hread : readConditionField depth key v raw = .ok raw') : raw'.Given := by
  cases key with
  | type =>
    obtain ⟨o, -, hread⟩ := Json.exists_of_bind_eq_ok hread
    obtain rfl := Except.ok.inj hread
    exact h
  | filter =>
    obtain ⟨o, ho, hread⟩ := Json.exists_of_bind_eq_ok hread
    obtain rfl := Except.ok.inj hread
    exact Json.isGiven_of_readOptional hv ho

theorem given_of_readCondition {depth : Nat} {w : Written} {raw : ConditionRecord} (hw : w.Sound)
    (h : readCondition depth w = .ok raw) : raw.Given := by
  cases depth with
  | zero => cases h
  | succ depth =>
    have hkeep : ∀ key v r r', v.Sound → r.Given →
        readConditionField depth key v r = .ok r' → r'.Given :=
      fun _ _ _ _ hv hr => hr.readConditionField hv
    exact Written.readRecord_induction hw ConditionRecord.given_empty hkeep h

/-- What a node is made of: children whose operands are present, and documents that are
there. -/
structure NodeRecord.Given (raw : NodeRecord) : Prop where
  rules : ∀ rules, raw.rules = some rules → ∀ node ∈ rules, node.OperandsPresent
  condition : ∀ c, raw.condition = some c → c.Given
  filter : ∀ j, raw.filter = some j → j.IsGiven
  value : ∀ j, raw.value = some j → j.IsGiven

theorem NodeRecord.given_empty : ({} : NodeRecord).Given := by
  constructor <;>
    (intro x hx
     cases hx)

/-- **Every field** keeps what a node is made of. -/
theorem NodeRecord.Given.readNodeField {readRules : Written → Except Problem (List Node)}
    {depth : Nat} {key : NodeKey} {v : Written} {raw raw' : NodeRecord} (hv : v.Sound)
    (hrules : ∀ rules, readRules v = .ok rules → ∀ node ∈ rules, node.OperandsPresent)
    (h : raw.Given) (hread : readNodeField readRules depth key v raw = .ok raw') : raw'.Given := by
  cases key <;>
    (obtain ⟨o, ho, hread⟩ := Json.exists_of_bind_eq_ok hread
     obtain rfl := Except.ok.inj hread)
  case rules =>
    refine { h with rules := ?_ }
    rintro rules rfl
    exact hrules rules (Written.readOptional_eq_ok_some ho).2
  case condition =>
    refine { h with condition := ?_ }
    rintro c rfl
    exact given_of_readCondition hv (Written.readOptional_eq_ok_some ho).2
  case filter => exact { h with filter := Json.isGiven_of_readOptional hv ho }
  case value => exact { h with value := Json.isGiven_of_readOptional hv ho }
  all_goals exact { h with }

/-- The operand of a leaf is given by a document that is there. -/
theorem NodeRecord.Given.question {raw : NodeRecord} (h : raw.Given) :
    ∀ j, raw.question.2 = some j → j.IsGiven := by
  intro j hj
  rw [NodeRecord.question] at hj
  split at hj
  · exact h.condition _ ‹_› j hj
  · rcases Option.or_eq_some_iff.1 hj with hfilter | ⟨-, hvalue⟩
    · exact h.filter j hfilter
    · exact h.value j hvalue
  · exact h.value j hj
  · exact h.value j hj

/-- **The operands of a node** are present. -/
theorem NodeRecord.Given.toNode {raw : NodeRecord} (h : raw.Given) :
    raw.toNode.OperandsPresent := by
  intro leaf hleaf operand hoperand
  rw [NodeRecord.toNode] at hleaf
  cases hrules : raw.rules with
  | some rules =>
    rw [hrules] at hleaf
    obtain ⟨rule, hrule, hmem⟩ := mem_leavesAll.1 hleaf
    exact h.rules rules hrules rule hrule leaf hmem operand hoperand
  | none =>
    rw [hrules] at hleaf
    obtain rfl := List.mem_singleton.1 hleaf
    obtain ⟨j, hj, rfl⟩ := Option.map_eq_some_iff.1 hoperand
    exact (h.question j hj).present

mutual

/-- **A node that is read** has only operands that are present. -/
theorem operandsPresent_of_readNode : ∀ (depth : Nat) {w : Written} {node : Node}, w.Sound →
    readNode depth w = .ok node → node.OperandsPresent
  | 0, w, node, _, h => by
    rw [readNode] at h
    cases h
  | depth + 1, w, node, hw, h => by
    rw [readNode] at h
    obtain ⟨raw, hraw, h⟩ := Json.exists_of_bind_eq_ok h
    obtain rfl := Except.ok.inj h
    have hgiven : raw.Given := by
      refine Written.readRecord_induction hw NodeRecord.given_empty (fun key v r r' hv hr => ?_) hraw
      exact hr.readNodeField hv fun rules hrules => operandsPresent_of_readRules depth hv hrules
    exact hgiven.toNode

theorem operandsPresent_of_readRules : ∀ (depth : Nat) {w : Written} {rules : List Node}, w.Sound →
    readRules depth w = .ok rules → ∀ node ∈ rules, node.OperandsPresent
  | 0, w, rules, _, h => by
    rw [readRules] at h
    cases h
  | depth + 1, w, rules, hw, h => by
    rw [readRules] at h
    intro node hnode
    cases hw with
    | array hitems stop =>
      obtain ⟨results, hresults, h⟩ := Json.exists_of_bind_eq_ok h
      obtain rfl := Written.eq_of_ended h
      obtain ⟨item, hitem, hread⟩ := Json.exists_mem_of_mapM_eq_ok hresults node hnode
      exact operandsPresent_of_readNode depth (hitems item hitem) hread
    | _ => cases h

end

end Wire

/-- **A filter of a text** has no operand that is `NULL` and no range with a `NULL` bound. -/
theorem Node.operandsPresent_of_parse {text : String} {node : Node}
    (h : Node.parse text = .ok node) : node.OperandsPresent :=
  Wire.operandsPresent_of_readNode _ (Json.Written.sound_tree text) (Json.read_eq_ok h).2

end SqlFilter
