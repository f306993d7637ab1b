/-
# `null` means absent

On the wire a member that is `null` says what a missing member says.  `Omits` leaves one
`null` out of a document, and a document is read as the same filter, or refused for the same
reason, however often this is done (`Node.parse_of_omits`).

| left out | of | why nothing changes |
| --- | --- | --- |
| a field | a node, a `condition` | the field of the record stays unset (`Place.readRecord_drop`) |
| `start`, `end` | an object under `filter` or `value` | a bound that is `null` is absent (`alike_readJson_of_omitsBound`) |

A field is left out only where no other member gives it; otherwise the object is refused as
long as it has both.  The second row changes the document that is read for an operand, but
not its sense, and this is all that a node makes of it (`NodeRecord.SameSense.toNode`).
-/

import SqlFilter.Proofs.Wire.Nulls
import SqlFilter.Proofs.Wire.Places
import SqlFilter.Proofs.Wire.RoundTrip

namespace SqlFilter

open Json (Problem Lexeme Written Place Alike)

namespace Wire

/-! ### What is left out -/

/-- A bound that is `null` is left out of an object that has it once. -/
inductive OmitsBound : Written → Written → Prop
  | bound (p : Place) {n : String} (hn : p.Named n) (hbound : n = "start" ∨ n = "end")
      (honly : p.Only (· = n)) : OmitsBound (p.fill .null) p.drop

/-- One `null` is left out of a `condition`: a field that it gives once, or a bound of an
operand. -/
inductive OmitsInCondition : Written → Written → Prop
  | field (p : Place) {n : String} {key : ConditionKey} (hn : p.Named n)
      (hkey : conditionShape.ofName? n = some key)
      (honly : p.Only (conditionShape.ofName? · = some key)) :
      OmitsInCondition (p.fill .null) p.drop
  | bound (p : Place) {n : String} (hn : p.Named n) (hname : n = "filter" ∨ n = "value")
      {w w' : Written} (h : OmitsBound w w') : OmitsInCondition (p.fill w) (p.fill w')

/-- One `null` is left out of a node: a field that it gives once, a bound of an operand,
something of its `condition`, or something of one of its children. -/
inductive Omits : Written → Written → Prop
  | field (p : Place) {n : String} {key : NodeKey} (hn : p.Named n)
      (hkey : nodeShape.ofName? n = some key) (honly : p.Only (nodeShape.ofName? · = some key)) :
      Omits (p.fill .null) p.drop
  | bound (p : Place) {n : String} (hn : p.Named n) (hname : n = "filter" ∨ n = "value")
      {w w' : Written} (h : OmitsBound w w') : Omits (p.fill w) (p.fill w')
  | condition (p : Place) (hn : p.Named "condition") {w w' : Written}
      (h : OmitsInCondition w w') : Omits (p.fill w) (p.fill w')
  | child (p : Place) {n : String} (hn : p.Named n) (hname : n = "rules" ∨ n = "data")
      (before after : List Written) (stop : Option Problem) {w w' : Written} (h : Omits w w') :
      Omits (p.fill (.array (before ++ w :: after) stop))
        (p.fill (.array (before ++ w' :: after) stop))

end Wire

/-! ### Bounds -/

namespace Json

/-- What stands under a name depends on no other member. -/
theorem lookup_foldl_congr {key : String} {members all all' : List (String × Json)}
    (h : all.lookup key = all'.lookup key) :
    (members.foldl (fun all m => insertMember m.1 m.2 all) all).lookup key =
      (members.foldl (fun all m => insertMember m.1 m.2 all) all').lookup key := by
  induction members generalizing all all' with
  | nil => exact h
  | cons m members ih =>
    refine ih ?_
    rw [lookup_insertMember, lookup_insertMember, h]

theorem lookup_foldl_of_forall_ne {key : String} {members all : List (String × Json)}
    (h : ∀ m ∈ members, m.1 ≠ key) :
    (members.foldl (fun all m => insertMember m.1 m.2 all) all).lookup key = all.lookup key := by
  induction members generalizing all with
  | nil => rfl
  | cons m members ih =>
    obtain ⟨hfirst, hrest⟩ := List.forall_mem_cons.1 h
    exact (ih hrest).trans ((lookup_insertMember ..).trans (if_neg hfirst.symm))

end Json

/-- **A `null` among the members** gives the same operand as no such member. -/
theorem Operand.ofJson_insert_null {name : String} {before after : List (String × Json)}
    (hbefore : ∀ m ∈ before, m.1 ≠ name) (hafter : ∀ m ∈ after, m.1 ≠ name) :
    Operand.ofJson (Json.ofMembers (before ++ (name, .null) :: after)) =
      Operand.ofJson (Json.ofMembers (before ++ after)) := by
  let all := before.foldl (fun all m => Json.insertMember m.1 m.2 all) []
  let put (all : List (String × Json)) :=
    after.foldl (fun all m => Json.insertMember m.1 m.2 all) all
  have hbound : ∀ key, boundOfJson (put (Json.insertMember name .null all)) key =
      boundOfJson (put all) key := by
    intro key
    by_cases hkey : key = name
    · -- under the name stands `null` on one side and nothing on the other
      subst hkey
      have hnull : (put (Json.insertMember key .null all)).lookup key = some .null :=
        (Json.lookup_foldl_of_forall_ne hafter).trans
          ((Json.lookup_insertMember ..).trans (if_pos rfl))
      have hnone : (put all).lookup key = none :=
        (Json.lookup_foldl_of_forall_ne hafter).trans (Json.lookup_foldl_of_forall_ne hbefore)
      rw [boundOfJson, boundOfJson, hnull, hnone]
      rfl
    · have hsame : (put (Json.insertMember name .null all)).lookup key = (put all).lookup key :=
        Json.lookup_foldl_congr ((Json.lookup_insertMember ..).trans (if_neg hkey))
      rw [boundOfJson, boundOfJson, hsame]
  have hput : before.foldl (fun all m => Json.insertMember m.1 m.2 all) [] = all := rfl
  simp only [Json.ofMembers, List.foldl_append, List.foldl_cons, Operand.ofJson, hput]
  exact congrArg₂ Operand.range (hbound "start") (hbound "end")

namespace Wire

/-- Members that are read have the names that are written. -/
theorem forall_ne_of_mapM {depth : Nat} {n : String} {members : List (Lexeme String × Written)}
    {docs : List (String × Json)} (h : ∀ m ∈ members, ∀ k, m.1.value = .ok k → ¬k = n)
    (hdocs : (members.mapM fun (name, w) => do
      let name ← name.value
      return (name, ← Written.readJson depth w)) = Except.ok docs) : ∀ d ∈ docs, d.1 ≠ n := by
  intro d hd
  obtain ⟨m, hm, hread⟩ := Json.exists_mem_of_mapM_eq_ok hdocs d hd
  obtain ⟨name, hname, hread⟩ := Json.exists_of_bind_eq_ok hread
  obtain ⟨value, -, hread⟩ := Json.exists_of_bind_eq_ok hread
  obtain rfl := Except.ok.inj hread
  exact h m hm name hname

/-- **A bound that is left out** leaves the operand as it is. -/
theorem alike_readJson_of_omitsBound {w w' : Written} (h : OmitsBound w w') (depth : Nat) :
    Alike (fun j j' => Operand.ofJson j = Operand.ofJson j') (w.readJson depth)
      (w'.readJson depth) := by
  obtain ⟨p, hn, -, honly⟩ := h
  cases depth with
  | zero => exact .error _
  | succ depth =>
    have hbefore := fun m hm => honly m (List.mem_append_left p.after hm)
    have hafter := fun m hm => honly m (List.mem_append_right p.before hm)
    rw [Place.fill, Place.drop, Written.readJson, Written.readJson, Written.readMembers,
      Written.readMembers, List.mapM_append, List.mapM_append, List.mapM_cons]
    have hnull : Written.readJson depth .null = .ok .null := by rw [Written.readJson]
    simp only [hn.value, hnull]
    cases hb : p.before.mapM fun (name, w) => do
      let name ← name.value
      return (name, ← Written.readJson depth w) with
    | error e => exact .error e
    | ok before =>
      cases ha : p.after.mapM fun (name, w) => do
        let name ← name.value
        return (name, ← Written.readJson depth w) with
      | error e => exact .error e
      | ok after =>
        cases p.stop with
        | some e => exact .error e
        | none =>
          exact .ok (Operand.ofJson_insert_null (forall_ne_of_mapM hbefore hb)
            (forall_ne_of_mapM hafter ha))

theorem OmitsBound.sound {w w' : Written} (h : OmitsBound w w') (hw : w.Sound) : w'.Sound := by
  obtain ⟨p, -, -, -⟩ := h
  exact (Place.sound_fill_iff.1 hw).1

theorem OmitsBound.skip_eq {w w' : Written} (h : OmitsBound w w') (hw : w.Sound) :
    w.skip = w'.skip := by
  obtain ⟨p, hn, -, -⟩ := h
  exact Place.skip_fill_null hw hn

/-- What may be absent, and is there on both sides, is read alike up to `f`. -/
theorem alike_readOptional {α β : Type} {f : α → β} {reader : Written → Except Problem α}
    {w w' : Written} (hw : w ≠ .null) (hw' : w' ≠ .null)
    (h : Alike (fun a b => f a = f b) (reader w) (reader w')) :
    Alike (fun o o' => o.map f = o'.map f) (w.readOptional reader) (w'.readOptional reader) := by
  have hmap : ∀ w ≠ Written.null, w.readOptional reader = (reader w).map some := by
    intro w hw
    cases w with
    | null => exact absurd rfl hw
    | _ => rfl
  rw [hmap w hw, hmap w' hw']
  exact h.map fun a b hab => congrArg some hab

/-- An operand that may be absent, on both sides of an omission. -/
theorem OmitsBound.alike_readOptional {w w' : Written} (h : OmitsBound w w') (depth : Nat) :
    Alike (fun o o' => o.map Operand.ofJson = o'.map Operand.ofJson)
      (w.readOptional (Written.readJson depth)) (w'.readOptional (Written.readJson depth)) := by
  have hread := alike_readJson_of_omitsBound h depth
  obtain ⟨p, -, -, -⟩ := h
  exact Wire.alike_readOptional Written.noConfusion Written.noConfusion hread

/-! ### Conditions -/

namespace ConditionRecord

/-- What a node makes of a `condition`: the operator and the operand. -/
def sense (raw : ConditionRecord) : Option String × Option Operand :=
  (raw.type, raw.filter.map Operand.ofJson)

variable {depth : Nat} {key : ConditionKey} {w w' : Written} {raw raw' : ConditionRecord}

theorem readConditionField_null (h : ({} : ConditionRecord).IsAs key raw) :
    readConditionField depth key .null raw = .ok raw := by
  cases raw
  cases key <;>
    (cases h
     rfl)

theorem isAs_readConditionField {k : ConditionKey} (hk : k ≠ key)
    (h : ({} : ConditionRecord).IsAs key raw)
    (hread : readConditionField depth k w raw = .ok raw') :
    ({} : ConditionRecord).IsAs key raw' := by
  cases k <;>
    (obtain ⟨o, -, hread⟩ := Json.exists_of_bind_eq_ok hread
     obtain rfl := Except.ok.inj hread
     cases key <;> first | exact h | exact absurd rfl hk)

/-- A field is read alike into records of one sense. -/
theorem alike_readConditionField (h : raw.sense = raw'.sense) :
    Alike (fun a b => a.sense = b.sense) (readConditionField depth key w raw)
      (readConditionField depth key w raw') := by
  obtain ⟨htype, hfilter⟩ := Prod.mk.inj h
  cases key with
  | type => exact .bind_self fun o => .ok (congrArg (o, ·) hfilter)
  | filter => exact .bind_self fun o => .ok (congrArg (·, o.map Operand.ofJson) htype)

end ConditionRecord

theorem OmitsInCondition.sound {w w' : Written} (h : OmitsInCondition w w') (hw : w.Sound) :
    w'.Sound := by
  cases h with
  | field p => exact (Place.sound_fill_iff.1 hw).1
  | bound p hn hname h =>
    obtain ⟨hdrop, hskips, hvalue⟩ := Place.sound_fill_iff.1 hw
    exact Place.sound_fill_iff.2 ⟨hdrop, hskips, h.sound hvalue⟩

theorem OmitsInCondition.ne_null {w w' : Written} (h : OmitsInCondition w w') :
    w ≠ .null ∧ w' ≠ .null := by
  cases h <;> exact ⟨Written.noConfusion, Written.noConfusion⟩

/-- **A `condition`** has the same sense without a `null`. -/
theorem alike_readCondition {w w' : Written} (h : OmitsInCondition w w') (hw : w.Sound)
    (depth : Nat) :
    Alike (fun a b => a.sense = b.sense) (readCondition depth w) (readCondition depth w') := by
  cases depth with
  | zero => cases h <;> exact .error _
  | succ depth =>
    have hkeep : ∀ k v r r', ConditionRecord.sense r = ConditionRecord.sense r' →
        Alike (fun a b => a.sense = b.sense) (readConditionField depth k v r)
          (readConditionField depth k v r') :=
      fun _ _ _ _ => ConditionRecord.alike_readConditionField
    cases h with
    | @field p n key hn hkey honly =>
      have hsame : (p.fill .null).readRecord conditionShape {} (readConditionField depth) =
          p.drop.readRecord conditionShape {} (readConditionField depth) :=
        p.readRecord_drop hn hkey honly (({} : ConditionRecord).IsAs key) (by cases key <;> rfl)
          (fun _ => ConditionRecord.readConditionField_null)
          (fun _ _ _ _ => ConditionRecord.isAs_readConditionField)
      rw [readCondition, readCondition, hsame]
      exact .of_self fun _ _ => rfl
    | bound p hn hname h =>
      have hvalue := (Place.sound_fill_iff.1 hw).2.2
      rcases hname with rfl | rfl
      · have hkey : conditionShape.ofName? "filter" = some .filter := rfl
        refine p.alike_readRecord_fill hn hkey hkeep (fun r r' hr => ?_) rfl
        obtain ⟨htype, -⟩ := Prod.mk.inj hr
        exact (h.alike_readOptional depth).bind fun o o' ho => .ok (Prod.ext htype ho)
      · exact p.alike_readRecord_fill_other hn rfl hkeep (h.skip_eq hvalue) rfl

/-! ### Nodes -/

/-- Two records of one sense: they differ at most in the documents of their operands, and
these give the same operands. -/
structure NodeRecord.SameSense (raw raw' : NodeRecord) : Prop where
  glue : raw.glue = raw'.glue
  rules : raw.rules = raw'.rules
  field : raw.field = raw'.field
  aliasName : raw.aliasName = raw'.aliasName
  predicate : raw.predicate = raw'.predicate
  includes : raw.includes = raw'.includes
  condition : raw.condition.map ConditionRecord.sense = raw'.condition.map ConditionRecord.sense
  type : raw.type = raw'.type
  filter : raw.filter.map Operand.ofJson = raw'.filter.map Operand.ofJson
  value : raw.value.map Operand.ofJson = raw'.value.map Operand.ofJson

namespace NodeRecord

variable {depth : Nat} {key : NodeKey} {w : Written} {raw raw' : NodeRecord}
  {rulesOf : Written → Except Problem (List Node)}

theorem SameSense.refl (raw : NodeRecord) : raw.SameSense raw := by
  constructor <;> rfl

/-- Only a string has the operand of a string. -/
theorem eq_str_of_ofJson {j : Json} {s : String} (h : Operand.ofJson j = Operand.ofJson (.str s)) :
    j = .str s := by
  cases j with
  | str t =>
    cases h
    rfl
  | num n =>
    have hv : Value.ofNumber n = .str s := Operand.scalar.inj h
    cases n with
    | float x => cases hv
    | int n =>
      rw [Value.ofNumber] at hv
      repeat' split at hv
      all_goals cases hv
  | _ => cases h

/-- The operator is in `filter` only if this is a string. -/
theorem question_of_not_str (hcondition : raw.condition = none) (htype : raw.type = none)
    (hfilter : ∀ s, raw.filter ≠ some (.str s)) : raw.question = ("", raw.value) := by
  rw [question, hcondition, htype]
  split
  case h_3 heq => exact absurd heq (hfilter _)
  all_goals first | rfl | contradiction

/-- **The operator and the operand** are the same in records of one sense. -/
theorem SameSense.question (h : raw.SameSense raw') :
    raw.question.1 = raw'.question.1 ∧
      raw.question.2.map Operand.ofJson = raw'.question.2.map Operand.ofJson := by
  have hstr : ∀ {o o' : Option Json} {s : String}, o.map Operand.ofJson = o'.map Operand.ofJson →
      o' = some (.str s) → o = some (.str s) := by
    rintro o o' s ho rfl
    obtain ⟨j, rfl, hj⟩ := Option.map_eq_some_iff.1 ho
    exact congrArg some (eq_str_of_ofJson hj)
  cases hc' : raw'.condition with
  | some c' =>
    obtain ⟨c, hc, hsense⟩ := Option.map_eq_some_iff.1 (h.condition.trans (congrArg _ hc'))
    obtain ⟨htype, hfilter⟩ := Prod.mk.inj hsense
    simp only [NodeRecord.question, hc, hc']
    exact ⟨congrArg (·.getD "") htype, hfilter⟩
  | none =>
    have hc : raw.condition = none :=
      Option.map_eq_none_iff.1 (h.condition.trans (congrArg _ hc'))
    cases ht' : raw'.type with
    | some name =>
      simp only [NodeRecord.question, hc, hc', h.type.trans ht', ht', Option.map_or, h.filter,
        h.value, and_self]
    | none =>
      have ht : raw.type = none := h.type.trans ht'
      by_cases hs : ∃ s, raw'.filter = some (.str s)
      · obtain ⟨s, hs'⟩ := hs
        simp only [NodeRecord.question, hc, hc', ht, ht', hstr h.filter hs', hs', h.value, and_self]
      · have hs' : ∀ s, raw'.filter ≠ some (.str s) := fun s heq => hs ⟨s, heq⟩
        have hs : ∀ s, raw.filter ≠ some (.str s) := fun s heq => hs' s (hstr h.filter.symm heq)
        rw [question_of_not_str hc ht hs, question_of_not_str hc' ht' hs']
        exact ⟨rfl, h.value⟩

/-- **A node** is made of the sense of its record. -/
theorem SameSense.toNode (h : raw.SameSense raw') : raw.toNode = raw'.toNode := by
  obtain ⟨hoperator, hoperand⟩ := h.question
  rw [NodeRecord.toNode, NodeRecord.toNode, h.rules, h.glue]
  cases raw'.rules with
  | some rules => rfl
  | none =>
    simp only [h.field, h.includes, h.aliasName, h.predicate, hoperator, hoperand]

/-- A field is read alike into records of one sense. -/
theorem SameSense.readNodeField (h : raw.SameSense raw') :
    Alike SameSense (readNodeField rulesOf depth key w raw)
      (readNodeField rulesOf depth key w raw') := by
  cases key with
  | glue => exact .bind_self fun o => .ok { h with glue := rfl }
  | rules => exact .bind_self fun o => .ok { h with rules := rfl }
  | field => exact .bind_self fun o => .ok { h with field := rfl }
  | aliasName => exact .bind_self fun o => .ok { h with aliasName := rfl }
  | predicate => exact .bind_self fun o => .ok { h with predicate := rfl }
  | includes => exact .bind_self fun o => .ok { h with includes := rfl }
  | condition => exact .bind_self fun o => .ok { h with condition := rfl }
  | type => exact .bind_self fun o => .ok { h with type := rfl }
  | filter => exact .bind_self fun o => .ok { h with filter := rfl }
  | value => exact .bind_self fun o => .ok { h with value := rfl }

theorem readNodeField_null (h : ({} : NodeRecord).IsAs key raw) :
    readNodeField rulesOf depth key .null raw = .ok raw := by
  cases raw
  cases key <;>
    (cases h
     rfl)

theorem isAs_readNodeField {k : NodeKey} (hk : k ≠ key) (h : ({} : NodeRecord).IsAs key raw)
    (hread : Wire.readNodeField rulesOf depth k w raw = .ok raw') :
    ({} : NodeRecord).IsAs key raw' := by
  cases k <;>
    (obtain ⟨o, -, hread⟩ := Json.exists_of_bind_eq_ok hread
     obtain rfl := Except.ok.inj hread
     cases key <;> first | exact h | exact absurd rfl hk)

end NodeRecord

/-- **A node whose record keeps its sense** is read as the same node: the value of a field is
replaced by one that is read alike. -/
theorem readNode_fill {p : Place} {n : String} {key : NodeKey} {w w' : Written} (hn : p.Named n)
    (hkey : nodeShape.ofName? n = some key)
    (hread : ∀ depth r r', NodeRecord.SameSense r r' →
      Alike NodeRecord.SameSense (readNodeField (readRules depth) depth key w r)
        (readNodeField (readRules depth) depth key w' r')) (depth : Nat) :
    readNode depth (p.fill w) = readNode depth (p.fill w') := by
  cases depth with
  | zero =>
    rw [readNode, readNode]
    rfl
  | succ depth =>
    have hrecord := p.alike_readRecord_fill hn hkey
      (fun _ _ _ _ h => h.readNodeField) (hread depth) (NodeRecord.SameSense.refl {})
    rw [readNode, readNode]
    exact Alike.eq (hrecord.bind fun _ _ h => .ok h.toNode)

theorem Omits.sound {w w' : Written} (h : Omits w w') (hw : w.Sound) : w'.Sound := by
  induction h with
  | field p => exact (Place.sound_fill_iff.1 hw).1
  | bound p hn hname h =>
    obtain ⟨hdrop, hskips, hvalue⟩ := Place.sound_fill_iff.1 hw
    exact Place.sound_fill_iff.2 ⟨hdrop, hskips, h.sound hvalue⟩
  | condition p hn h =>
    obtain ⟨hdrop, hskips, hvalue⟩ := Place.sound_fill_iff.1 hw
    exact Place.sound_fill_iff.2 ⟨hdrop, hskips, h.sound hvalue⟩
  | child p hn hname before after stop _ ih =>
    obtain ⟨hdrop, hskips, hvalue⟩ := Place.sound_fill_iff.1 hw
    refine Place.sound_fill_iff.2 ⟨hdrop, hskips, ?_⟩
    simp only [Written.sound_array_iff, List.forall_mem_append, List.forall_mem_cons] at hvalue ⊢
    exact ⟨hvalue.1, ih hvalue.2.1, hvalue.2.2⟩

/-- **A document is read as the same filter**, or refused for the same reason, without a
`null`. -/
theorem readNode_of_omits {w w' : Written} (h : Omits w w') (hw : w.Sound) (depth : Nat) :
    readNode depth w = readNode depth w' := by
  induction h generalizing depth with
  | @field p n key hn hkey honly =>
    cases depth with
    | zero =>
      rw [readNode, readNode]
      rfl
    | succ depth =>
      have hsame : (p.fill .null).readRecord nodeShape {} (readNodeField (readRules depth) depth) =
          p.drop.readRecord nodeShape {} (readNodeField (readRules depth) depth) :=
        p.readRecord_drop hn hkey honly (({} : NodeRecord).IsAs key) (by cases key <;> rfl)
          (fun _ => NodeRecord.readNodeField_null)
          (fun _ _ _ _ => NodeRecord.isAs_readNodeField)
      rw [readNode, readNode, hsame]
  | bound p hn hname h =>
    rcases hname with rfl | rfl
    · have hkey : nodeShape.ofName? "filter" = some .filter := rfl
      refine readNode_fill hn hkey (fun depth r r' hr => ?_) depth
      exact (h.alike_readOptional depth).bind fun o o' ho => .ok { hr with filter := ho }
    · have hkey : nodeShape.ofName? "value" = some .value := rfl
      refine readNode_fill hn hkey (fun depth r r' hr => ?_) depth
      exact (h.alike_readOptional depth).bind fun o o' ho => .ok { hr with value := ho }
  | condition p hn h =>
    have hvalue := (Place.sound_fill_iff.1 hw).2.2
    have hkey : nodeShape.ofName? "condition" = some .condition := rfl
    refine readNode_fill hn hkey (fun depth r r' hr => ?_) depth
    have hoptional := alike_readOptional h.ne_null.1 h.ne_null.2 (alike_readCondition h hvalue depth)
    exact hoptional.bind fun o o' ho => .ok { hr with condition := ho }
  | @child p n hn hname before after stop w w' _ ih =>
    have hitem : w.Sound :=
      Written.sound_array_iff.1 (Place.sound_fill_iff.1 hw).2.2 w
        (List.mem_append_right _ (List.mem_cons_self ..))
    have hkey : nodeShape.ofName? n = some .rules := by
      rcases hname with rfl | rfl <;> rfl
    have hrules : ∀ depth, readRules depth (.array (before ++ w :: after) stop) =
        readRules depth (.array (before ++ w' :: after) stop) := by
      intro depth
      cases depth with
      | zero => rfl
      | succ depth =>
        simp only [readRules, Written.readItems, List.mapM_append, List.mapM_cons, ih hitem depth]
    refine readNode_fill hn hkey (fun depth r r' hr => ?_) depth
    have hfield : readNodeField (readRules depth) depth .rules (.array (before ++ w :: after) stop) r =
        readNodeField (readRules depth) depth .rules (.array (before ++ w' :: after) stop) r := by
      simp only [readNodeField, Written.readOptional, hrules depth]
    rw [hfield]
    exact hr.readNodeField

/-- The same for any number of omissions, one after the other. -/
theorem readNode_of_reflTransGen {w w' : Written} (h : Relation.ReflTransGen Omits w w')
    (hw : w.Sound) (depth : Nat) : readNode depth w = readNode depth w' := by
  induction h using Relation.ReflTransGen.head_induction_on with
  | refl => rfl
  | head hstep _ ih => exact (readNode_of_omits hstep hw depth).trans (ih (hstep.sound hw))

end Wire

open Wire

/-- **`null` means absent.**  Leave out of a text any number of members that are `null`: a
field of a node or of a `condition` that its object gives once, and `start` and `end` of an
object under `filter` or `value` of a node or a `condition`, for nodes at any depth.  Then
the text is read as the same filter, or refused for the same reason.  And a filter that is
read has no operand that is the one value `NULL`, and no range with a `NULL` for a bound. -/
theorem Node.parse_of_omits :
    (∀ text text', Relation.ReflTransGen Omits (Written.tree text) (Written.tree text') →
        Written.isWhole text = Written.isWhole text' → Node.parse text = Node.parse text') ∧
      ∀ text node, Node.parse text = .ok node → ∀ leaf ∈ node.leaves,
        leaf.operand ≠ some (.scalar .null) ∧
          ∀ start stop, leaf.operand = some (.range start stop) →
            start ≠ some .null ∧ stop ≠ some .null := by
  refine ⟨fun text text' homits hwhole => ?_, fun text node hparse leaf hleaf => ?_⟩
  · have hread := readNode_of_reflTransGen homits (Written.sound_tree text) Json.maxDepth
    rw [Node.parse, Node.parse, Json.read_eq, Json.read_eq, hread, hwhole]
  · have hpresent := Node.operandsPresent_of_parse hparse leaf hleaf
    refine ⟨fun hscalar => hpresent _ hscalar rfl, fun start stop hrange => ?_⟩
    exact hpresent _ hrange

/-- A group of two leaves, with a field and a bound that are `null`. -/
def nullText : String :=
  "\x7b\"data\":[\x7b\"glue\":null\x7d,\x7b\"value\":\x7b\"start\":null\x7d\x7d]\x7d"

/-- The same text without a `null`. -/
def omittedText : String :=
  "\x7b\"data\":[\x7b\x7d,\x7b\"value\":\x7b\x7d\x7d]\x7d"

/-- An object with one member. -/
def onlyMember (name : String) : Place :=
  ⟨[], ⟨.ok name, .ok ()⟩, [], none⟩

/-- The trees of both texts, for the trees of the two leaves. -/
def pairTree (first second : Written) : Written :=
  (onlyMember "data").fill (.array [first, (onlyMember "value").fill second] none)

/-- Both texts are read as the group of a leaf without an operand and one whose range is open
on both sides. -/
theorem Node.parse_of_omits_nullText :
    Node.parse nullText =
        .ok (.group .and [.leaf {}, .leaf { operand := some (.range none none) }]) ∧
      Node.parse nullText = Node.parse omittedText ∧
      ∀ node, Node.parse nullText = .ok node → ∀ leaf ∈ node.leaves,
        leaf.operand ≠ some (.scalar .null) := by
  have hnull : Written.ofText nullText =
      (pairTree ((onlyMember "glue").fill .null) ((onlyMember "start").fill .null), some []) := by
    cbv
  have homitted : Written.ofText omittedText =
      (pairTree (onlyMember "glue").drop (onlyMember "start").drop, some []) := by
    cbv
  have hfield : Omits (pairTree ((onlyMember "glue").fill .null) ((onlyMember "start").fill .null))
      (pairTree (onlyMember "glue").drop ((onlyMember "start").fill .null)) :=
    .child (onlyMember "data") rfl (.inr rfl) [] [_] none
      (.field (onlyMember "glue") rfl rfl (List.forall_mem_nil _))
  have hbound : Omits (pairTree (onlyMember "glue").drop ((onlyMember "start").fill .null))
      (pairTree (onlyMember "glue").drop (onlyMember "start").drop) :=
    .child (onlyMember "data") rfl (.inr rfl) [_] [] none
      (.bound (onlyMember "value") rfl (.inr rfl)
        (.bound (onlyMember "start") rfl (.inl rfl) (List.forall_mem_nil _)))
  have hparse : Node.parse nullText =
      .ok (.group .and [.leaf {}, .leaf { operand := some (.range none none) }]) := by
    rw [parse_of_ofText hnull]
    cbv
  have homits : Relation.ReflTransGen Omits (Written.tree nullText) (Written.tree omittedText) := by
    rw [Written.tree, Written.tree, hnull, homitted]
    exact (Relation.ReflTransGen.single hfield).tail hbound
  have hwhole : Written.isWhole nullText = Written.isWhole omittedText := by
    rw [Written.isWhole, Written.isWhole, hnull, homitted]
  exact ⟨hparse, Node.parse_of_omits.1 _ _ homits hwhole,
    fun node hnode leaf hleaf => (Node.parse_of_omits.2 _ node hnode leaf hleaf).1⟩

end SqlFilter
