/-
# Filters are found again

Reading undoes writing: a text that spells one of the documents of a filter is read as this
filter (`Node.parse_of_isWritten`).  So no text is written for two filters, an empty group
is not taken for a leaf, and an empty list of membership values not for none.  Nothing is
asked of floating point numbers: a text spells none that is not finite.

A node is a record, and is read field by field (`Json.Written.exists_readRecord`).  For
each of the ways to write a leaf there is one record that the reader ends with, the
*target*: it has what the parts of the object say and nothing else.  What is left is that
the target is meant as the leaf (`Wire.NodeRecord.toNode`).
-/

import Mathlib
import SqlFilter.Proofs.Wire.Encodings
import SqlFilter.Proofs.Wire.Reading

namespace SqlFilter

open Json (Holds Written)
open Json.Written (Settles Slot)

namespace Wire

/-! ### Conditions -/

namespace ConditionRecord

/-- A field of a `condition` is that of the target. -/
def IsAs (target : ConditionRecord) : ConditionKey → ConditionRecord → Prop
  | .type, raw => raw.type = target.type
  | .filter, raw => raw.filter = target.filter

/-- A tree is read as a field of the target. -/
def IsRead (target : ConditionRecord) (depth : Nat) (w : Written) : ConditionKey → Prop
  | .type => w.readOptional Written.readString = .ok target.type
  | .filter => w.readOptional (Written.readJson depth) = .ok target.filter

end ConditionRecord

/-- Reading a field of a `condition` settles it, and only it. -/
theorem settles_readConditionField {target : ConditionRecord} {depth : Nat} {w : Written}
    {key : ConditionKey} (h : target.IsRead depth w key) :
    Settles target.IsAs key (readConditionField depth key w) := by
  intro raw
  cases key <;>
    (refine ⟨_, congrArg (Functor.map _) h, rfl, fun k hk => ?_⟩
     cases k <;> first | exact rfl | exact hk)

/-- A `condition` is read as its operator and its operand. -/
theorem readCondition_of_holds {depth : Nat} {members : List (String × Json)}
    {word : Option String} {operand : Option Json}
    (h : Holds members [("type", word.map .str), ("filter", operand)])
    (hne : operand ≠ some .null) (hdepth : (Json.obj members).depth ≤ depth) {w : Written}
    (hw : w.document? = some (.obj members)) :
    readCondition depth w = .ok ⟨word, operand.map Json.canonical⟩ := by
  cases depth with
  | zero => cases hdepth
  | succ depth =>
    have hoperand : ∀ j, operand = some j → j.depth ≤ depth := by
      rintro j rfl
      exact h.depth_le (Nat.le_of_succ_le_succ hdepth)
        (List.mem_cons_of_mem _ (List.mem_cons_self ..))
    let target : ConditionRecord := ⟨word, operand.map Json.canonical⟩
    have hrecord : ∃ raw, w.readRecord conditionShape {} (readConditionField depth) = .ok raw ∧
        ∀ key, target.IsAs key raw := by
      refine Written.exists_readRecord conditionShape target.IsAs {} (readConditionField depth)
        [⟨"type", .type, word.map .str⟩, ⟨"filter", .filter, operand⟩] h ?_ ?_ ?_ ?_ ?_ hw
      · exact List.forall_mem_cons.2 ⟨rfl, List.forall_mem_singleton.2 rfl⟩
      · simp
      · refine List.forall_mem_cons.2 ⟨fun w hw => ?_, List.forall_mem_singleton.2 fun w hw => ?_⟩
        · exact settles_readConditionField (Written.readOptional_readString hw)
        · exact settles_readConditionField (Written.readOptional_readJson hw hne hoperand)
      · exact List.forall_mem_cons.2 ⟨fun h => (Option.map_eq_none_iff.1 h).symm,
          List.forall_mem_singleton.2 fun h => (Option.map_eq_none_iff.2 h).symm⟩
      · intro key
        cases key <;> simp
    obtain ⟨raw, hraw, hall⟩ := hrecord
    have htype : raw.type = word := hall .type
    have hfilter : raw.filter = operand.map Json.canonical := hall .filter
    rw [readCondition, hraw, ← htype, ← hfilter]

/-! ### Nodes -/

namespace NodeRecord

/-- A field of a node is that of the target. -/
def IsAs (target : NodeRecord) : NodeKey → NodeRecord → Prop
  | .glue, raw => raw.glue = target.glue
  | .rules, raw => raw.rules = target.rules
  | .field, raw => raw.field = target.field
  | .aliasName, raw => raw.aliasName = target.aliasName
  | .predicate, raw => raw.predicate = target.predicate
  | .includes, raw => raw.includes = target.includes
  | .condition, raw => raw.condition = target.condition
  | .type, raw => raw.type = target.type
  | .filter, raw => raw.filter = target.filter
  | .value, raw => raw.value = target.value

theorem eq_of_isAs {target raw : NodeRecord} (h : ∀ key, target.IsAs key raw) : raw = target := by
  have hglue : raw.glue = target.glue := h .glue
  have hrules : raw.rules = target.rules := h .rules
  have hfield : raw.field = target.field := h .field
  have haliasName : raw.aliasName = target.aliasName := h .aliasName
  have hpredicate : raw.predicate = target.predicate := h .predicate
  have hincludes : raw.includes = target.includes := h .includes
  have hcondition : raw.condition = target.condition := h .condition
  have htype : raw.type = target.type := h .type
  have hfilter : raw.filter = target.filter := h .filter
  have hvalue : raw.value = target.value := h .value
  cases raw
  cases target
  simp_all only

/-- A tree is read as a field of the target. -/
def IsRead (target : NodeRecord) (depth : Nat) (w : Written) : NodeKey → Prop
  | .glue => w.readOptional Written.readString = .ok target.glue
  | .rules => w.readOptional (readRules depth) = .ok target.rules
  | .field => w.readOptional Written.readString = .ok target.field
  | .aliasName => w.readOptional Written.readString = .ok target.aliasName
  | .predicate => w.readOptional Written.readString = .ok target.predicate
  | .includes =>
    w.readOptional (Written.readList Written.readJson depth) = .ok target.includes
  | .condition => w.readOptional (readCondition depth) = .ok target.condition
  | .type => w.readOptional Written.readString = .ok target.type
  | .filter => w.readOptional (Written.readJson depth) = .ok target.filter
  | .value => w.readOptional (Written.readJson depth) = .ok target.value

/-- Reading a field settles it, and only it. -/
theorem settles_readNodeField {target : NodeRecord} {depth : Nat} {w : Written} {key : NodeKey}
    (h : target.IsRead depth w key) :
    Settles target.IsAs key (readNodeField (readRules depth) depth key w) := by
  intro raw
  -- a field is put in its place by a map over what is read, and the others stay
  cases key <;>
    (refine ⟨_, congrArg (Functor.map _) h, rfl, fun k hk => ?_⟩
     cases k <;> first | exact rfl | exact hk)

theorem isAs_of_isRead_null {target : NodeRecord} {depth : Nat} {key : NodeKey}
    (h : target.IsRead depth .null key) : target.IsAs key {} := by
  cases key <;> exact Except.ok.inj h

end NodeRecord

/-- **A node is read as its target**, if each part of its object is read as the field of the
target and the target has no other fields. -/
theorem readNode_of_fields (target : NodeRecord) (fields : List (Slot NodeKey)) {depth : Nat}
    {members : List (String × Json)} (h : Holds members (fields.map Slot.part))
    (hname : ∀ f ∈ fields, nodeShape.ofName? f.name = some f.key)
    (hnodup : (fields.map Slot.key).Nodup)
    (hread : ∀ f ∈ fields, ∀ w, w.document? = some (f.doc.getD .null) →
      target.IsRead depth w f.key)
    (hother : ∀ key, key ∈ fields.map Slot.key ∨ target.IsAs key {}) {w : Written}
    (hw : w.document? = some (.obj members)) :
    readNode (depth + 1) w = .ok target.toNode := by
  have habsent : ∀ f ∈ fields, f.doc = none → target.IsAs f.key {} := by
    intro f hf hdoc
    refine NodeRecord.isAs_of_isRead_null (hread f hf .null ?_)
    rw [hdoc]
    rfl
  obtain ⟨raw, hraw, hall⟩ := Written.exists_readRecord nodeShape target.IsAs {}
    (readNodeField (readRules depth) depth) fields h hname hnodup
    (fun f hf w hw => NodeRecord.settles_readNodeField (hread f hf w hw)) habsent hother hw
  rw [readNode, hraw, NodeRecord.eq_of_isAs hall]
  rfl

/-! ### Questions -/

/-- The keys of a leaf that do not belong to its question. -/
def leafKeys : List NodeKey := [.field, .aliasName, .predicate, .includes]

/-- The parts of an object that ask the question of a leaf, and the record they are read
as. -/
structure Asks (depth : Nat) (fields : List (Slot NodeKey)) (question : NodeRecord) : Prop where
  name : ∀ f ∈ fields, nodeShape.ofName? f.name = some f.key
  nodup : (leafKeys ++ fields.map Slot.key).Nodup
  read : ∀ f ∈ fields, ∀ w, w.document? = some (f.doc.getD .null) → question.IsRead depth w f.key
  other : ∀ key, key ∈ leafKeys ++ fields.map Slot.key ∨ question.IsAs key {}
  rules : question.rules = none

section

variable {operator : String} {operand : Option Json} {depth : Nat}

theorem asks_condition {word : Option String} {members : List (String × Json)}
    (h : Holds members [("type", word.map .str), ("filter", operand)])
    (hnull : operand ≠ some .null) (hdepth : (Json.obj members).depth ≤ depth) :
    Asks depth [⟨"condition", .condition, some (.obj members)⟩]
      { condition := some ⟨word, operand.map Json.canonical⟩ } where
  name := List.forall_mem_singleton.2 rfl
  nodup := by simp [leafKeys]
  read := by
    refine List.forall_mem_singleton.2 fun w hw => ?_
    show w.readOptional (readCondition depth) = .ok ((some (Json.obj members)).map
      fun _ => (⟨word, operand.map Json.canonical⟩ : ConditionRecord))
    refine Written.readOptional_of_document? hw (fun h => by cases h) ?_
    rintro j ⟨⟩ hw
    exact readCondition_of_holds h hnull hdepth hw
  other key := by cases key <;> first | exact .inr rfl | exact .inl (by simp [leafKeys])
  rules := rfl

/-- The operand is read as it is, wherever it stands. -/
def OperandIsRead (depth : Nat) (operand : Option Json) : Prop :=
  ∀ w : Written, w.document? = some (operand.getD .null) →
    w.readOptional (Written.readJson depth) = .ok (operand.map Json.canonical)

theorem asks_typeFilter (hread : OperandIsRead depth operand) :
    Asks depth [⟨"type", .type, some (.str operator)⟩, ⟨"filter", .filter, operand⟩]
      { type := some operator, filter := operand.map Json.canonical } where
  name := List.forall_mem_cons.2 ⟨rfl, List.forall_mem_singleton.2 rfl⟩
  nodup := by simp [leafKeys]
  read := List.forall_mem_cons.2
    ⟨fun _ hw => Written.readOptional_readString (o := some operator) hw,
      List.forall_mem_singleton.2 hread⟩
  other key := by cases key <;> first | exact .inr rfl | exact .inl (by simp [leafKeys])
  rules := rfl

theorem asks_typeValue (hread : OperandIsRead depth operand) :
    Asks depth [⟨"type", .type, some (.str operator)⟩, ⟨"value", .value, operand⟩]
      { type := some operator, value := operand.map Json.canonical } where
  name := List.forall_mem_cons.2 ⟨rfl, List.forall_mem_singleton.2 rfl⟩
  nodup := by simp [leafKeys]
  read := List.forall_mem_cons.2
    ⟨fun _ hw => Written.readOptional_readString (o := some operator) hw,
      List.forall_mem_singleton.2 hread⟩
  other key := by cases key <;> first | exact .inr rfl | exact .inl (by simp [leafKeys])
  rules := rfl

/-- An operator that is written as a `filter` is read as a document first. -/
theorem asks_filterValue {word : Option String} (hread : OperandIsRead depth operand) :
    Asks depth [⟨"filter", .filter, word.map .str⟩, ⟨"value", .value, operand⟩]
      { filter := word.map .str, value := operand.map Json.canonical } where
  name := List.forall_mem_cons.2 ⟨rfl, List.forall_mem_singleton.2 rfl⟩
  nodup := by simp [leafKeys]
  read := by
    refine List.forall_mem_cons.2 ⟨fun w hw => ?_, List.forall_mem_singleton.2 hread⟩
    have hword : (word.map Json.str).map Json.canonical = word.map .str := by
      cases word <;> rfl
    have hfilter : w.readOptional (Written.readJson depth) = .ok (word.map .str) :=
      hword ▸ Written.readOptional_readJson hw (by cases word <;> simp)
        (by cases word <;> simp [Json.depth])
    exact hfilter
  other key := by cases key <;> first | exact .inr rfl | exact .inl (by simp [leafKeys])
  rules := rfl

/-- **Each way to write a question** gives back its operator and its operand. -/
theorem exists_asks {parts : List (String × Option Json)} (h : Question operator operand parts)
    (hnull : operand ≠ some .null)
    (hdepth : ∀ name j, (name, some j) ∈ parts → j.depth ≤ depth) :
    ∃ fields question, fields.map Slot.part = parts ∧ Asks depth fields question ∧
      question.question = (operator, operand.map Json.canonical) := by
  have hread : ∀ name, (name, operand) ∈ parts → OperandIsRead depth operand := by
    intro name hname w hw
    exact Written.readOptional_readJson hw hnull fun j hj => hdepth name j (hj ▸ hname)
  cases h with
  | @condition word members hword hm =>
    have hdepth := hdepth "condition" (.obj members) (List.mem_cons_self ..)
    exact ⟨_, _, rfl, asks_condition hm hnull hdepth, Prod.ext hword rfl⟩
  | typeFilter =>
    exact ⟨_, _, rfl, asks_typeFilter (hread "filter" (by simp)), Prod.ext rfl Option.or_none⟩
  | typeValue =>
    exact ⟨_, _, rfl, asks_typeValue (hread "value" (by simp)), Prod.ext rfl Option.none_or⟩
  | @filterValue word hword =>
    refine ⟨_, _, rfl, asks_filterValue (hread "value" (by simp)), ?_⟩
    rw [← hword]
    cases word <;> rfl

end

/-! ### Leaves -/

section

variable (leaf : Leaf) (field : Option String)

/-- The parts of a leaf's object that are not its question, as fields. -/
def leafFields : List (Slot NodeKey) :=
  [⟨"field", .field, field.map .str⟩, ⟨"alias", .aliasName, leaf.aliasName.map .str⟩,
    ⟨"predicate", .predicate, leaf.predicate.map .str⟩,
    ⟨"includes", .includes, (leaf.includes.map Value.toJsonItems).map .arr⟩]

/-- What a leaf's object is read as, where `question` is what its question is read as. -/
def leafTarget (question : NodeRecord) : NodeRecord :=
  { question with
    field := field
    aliasName := leaf.aliasName
    predicate := leaf.predicate
    includes := leaf.includes.map Value.toJsonItems }

variable {leaf field}

theorem isRead_leafTarget {question : NodeRecord} {depth : Nat} {w : Written} {key : NodeKey}
    (hkey : key ∉ leafKeys) (h : question.IsRead depth w key) :
    (leafTarget leaf field question).IsRead depth w key := by
  cases key <;> first | exact h | exact absurd (by decide) hkey

theorem isAs_leafTarget {question : NodeRecord} {key : NodeKey} (hkey : key ∉ leafKeys)
    (h : question.IsAs key {}) : (leafTarget leaf field question).IsAs key {} := by
  cases key <;> first | exact h | exact absurd (by decide) hkey

theorem isRead_leafFields {question : NodeRecord} {depth : Nat}
    (hdepth : ∀ name j, (name, some j) ∈ leaf.parts field → j.depth ≤ depth) :
    ∀ f ∈ leafFields leaf field, ∀ w, w.document? = some (f.doc.getD .null) →
      (leafTarget leaf field question).IsRead depth w f.key := by
  have hincludes : ∀ w, w.document? =
      some (((leaf.includes.map Value.toJsonItems).map Json.arr).getD .null) →
        (leafTarget leaf field question).IsRead depth w .includes := by
    intro w hw
    have hread := Written.readOptional_readList hw fun docs hdocs =>
      hdepth "includes" (.arr docs) (by simp [Leaf.parts, hdocs])
    have hitems : (leaf.includes.map Value.toJsonItems).map Json.canonicalItems =
        leaf.includes.map Value.toJsonItems := by
      rw [Option.map_map]
      exact congrArg (leaf.includes.map ·) (funext Value.canonicalItems_toJsonItems)
    exact hread.trans (congrArg Except.ok hitems)
  simp only [leafFields, List.forall_mem_cons]
  exact ⟨fun w hw => Written.readOptional_readString hw,
    fun w hw => Written.readOptional_readString hw,
    fun w hw => Written.readOptional_readString hw, hincludes,
    fun _ h => absurd h List.not_mem_nil⟩

/-- A leaf is meant by its target. -/
theorem toNode_leafTarget {question : NodeRecord} {operand : Option Json}
    (hfield : field.getD "" = leaf.field) (hrules : question.rules = none)
    (hquestion : question.question = (leaf.operator, operand))
    (hoperand : operand.map Operand.ofJson = leaf.operand) :
    (leafTarget leaf field question).toNode = .leaf leaf := by
  have hincludes : (leaf.includes.map Value.toJsonItems).map Value.ofJsonItems =
      leaf.includes := by
    rw [Option.map_map]
    exact (congrArg (leaf.includes.map ·) (funext Value.ofJsonItems_toJsonItems)).trans
      Option.map_id'
  have hrules : (leafTarget leaf field question).rules = none := hrules
  have hquestion : (leafTarget leaf field question).question = (leaf.operator, operand) := hquestion
  simp only [NodeRecord.toNode, hrules, hquestion, hoperand]
  simp only [leafTarget, hfield, hincludes]

/-- **A leaf is found again** in its object. -/
theorem readNode_of_leaf {members : List (String × Json)} {depth : Nat}
    (hleaf : leaf.IsWritten members) (hu : ∀ operand ∈ leaf.operand, operand.Unambiguous)
    (hdepth : Json.depthMembers members ≤ depth) {w : Written}
    (hw : w.document? = some (.obj members)) : readNode (depth + 1) w = .ok (.leaf leaf) := by
  obtain ⟨hfield, hoperand, hquestion, h⟩ := hleaf
  rename_i field operand parts
  have hback : operand ≠ some .null ∧
      (operand.map Json.canonical).map Operand.ofJson = leaf.operand := by
    generalize leaf.operand = original at hoperand hu
    cases hoperand with
    | none => exact ⟨(fun h => by cases h), rfl⟩
    | some h =>
      obtain ⟨hne, hback⟩ := Operand.ofJson_of_isWritten (hu _ rfl) h
      exact ⟨fun h => hne (Option.some.inj h), congrArg some hback⟩
  -- the object is that of the leaf's own parts and of its question, whichever that is
  obtain ⟨fields, question, rfl, hasks, hanswer⟩ := exists_asks hquestion hback.1
    fun name j hj => h.depth_le hdepth (List.mem_append_right _ hj)
  have hmap : (leafFields leaf field ++ fields).map Slot.part =
      leaf.parts field ++ fields.map Slot.part := by
    rw [List.map_append]
    rfl
  have hkeys : (leafFields leaf field ++ fields).map Slot.key =
      leafKeys ++ fields.map Slot.key := by
    rw [List.map_append]
    rfl
  have hname : ∀ f ∈ leafFields leaf field ++ fields, nodeShape.ofName? f.name = some f.key := by
    rw [List.forall_mem_append]
    refine ⟨?_, hasks.name⟩
    simp only [leafFields, List.forall_mem_cons]
    exact ⟨rfl, rfl, rfl, rfl, fun _ h => absurd h List.not_mem_nil⟩
  have hread : ∀ f ∈ leafFields leaf field ++ fields, ∀ w,
      w.document? = some (f.doc.getD .null) →
        (leafTarget leaf field question).IsRead depth w f.key := by
    rw [List.forall_mem_append]
    refine ⟨isRead_leafFields fun name j hj => h.depth_le hdepth (List.mem_append_left _ hj), ?_⟩
    intro f hf w hw
    have hkey : f.key ∉ leafKeys := fun hmem =>
      (List.nodup_append.1 hasks.nodup).2.2 f.key hmem f.key (List.mem_map_of_mem hf) rfl
    exact isRead_leafTarget hkey (hasks.read f hf w hw)
  rw [readNode_of_fields _ _ (hmap ▸ h) hname (hkeys ▸ hasks.nodup) hread ?_ hw,
    toNode_leafTarget hfield hasks.rules hanswer hback.2]
  rw [hkeys]
  intro key
  by_cases hkey : key ∈ leafKeys
  · exact .inl (List.mem_append_left _ hkey)
  · exact (hasks.other key).imp_right (isAs_leafTarget hkey)

end

/-! ### Groups -/

/-- A group is found again in its object, if its children are in theirs. -/
theorem readNode_of_group {glue : Glue} {rules : List Node} {word : Option String} {name : String}
    {docs : List Json} {members : List (String × Json)} {depth : Nat}
    (hword : glue.IsSpelled word) (hname : name = "rules" ∨ name = "data")
    (h : Holds members [("glue", word.map .str), (name, some (.arr docs))])
    (hrules : ∀ w, w.document? = some (.arr docs) → readRules depth w = .ok rules) {w : Written}
    (hw : w.document? = some (.obj members)) :
    readNode (depth + 1) w = .ok (.group glue rules) := by
  have hkey : nodeShape.ofName? name = some .rules := by
    rcases hname with rfl | rfl <;> rfl
  refine (readNode_of_fields { glue := word, rules := some rules }
    [⟨"glue", .glue, word.map .str⟩, ⟨name, .rules, some (.arr docs)⟩] h ?_ ?_ ?_ ?_ hw).trans ?_
  · exact List.forall_mem_cons.2 ⟨rfl, List.forall_mem_singleton.2 hkey⟩
  · simp
  · refine List.forall_mem_cons.2 ⟨fun w hw => Written.readOptional_readString hw,
      List.forall_mem_singleton.2 fun w hw => ?_⟩
    show w.readOptional (readRules depth) = .ok ((some (Json.arr docs)).map fun _ => rules)
    refine Written.readOptional_of_document? hw (fun h => by cases h) ?_
    rintro j ⟨⟩ hw
    exact hrules w hw
  · intro key
    cases key <;> first | exact .inr rfl | exact .inl (by simp)
  · exact congrArg (fun glue => Except.ok (Node.group glue rules)) (Glue.ofName_of_isSpelled hword)

end Wire

/-- **Reading undoes writing.** -/
theorem Node.readNode_of_isWritten {node : Node} {j : Json}
    (hu : ∀ leaf ∈ node.leaves, ∀ operand ∈ leaf.operand, operand.Unambiguous)
    (hj : node.IsWritten j) {depth : Nat} (hdepth : j.depth ≤ depth) {w : Written}
    (hw : w.document? = some j) : Wire.readNode depth w = .ok node := by
  induction node generalizing j depth w with
  | leaf leaf =>
    obtain ⟨hleaf⟩ | _ := hj
    cases depth with
    | zero => cases hdepth
    | succ depth =>
      exact Wire.readNode_of_leaf hleaf (hu leaf (List.mem_singleton.2 rfl))
        (Nat.le_of_succ_le_succ hdepth) hw
  | group glue rules ih =>
    obtain _ | ⟨hword, hname, hrules, h⟩ := hj
    rename_i word name docs members
    cases depth with
    | zero => cases hdepth
    | succ depth =>
      have hdocs : (Json.arr docs).depth ≤ depth :=
        h.depth_le (Nat.le_of_succ_le_succ hdepth) (List.mem_cons_of_mem _ (List.mem_cons_self ..))
      refine Wire.readNode_of_group hword hname h (fun w hw => ?_) hw
      -- the array of the children is a level of its own
      cases depth with
      | zero => cases hdocs
      | succ depth =>
        have hdocs := Json.depthItems_le_iff.1 (Nat.le_of_succ_le_succ hdocs)
        have hread := Written.readItems_of_document? hrules
          (fun w rule hr j hj hwritten hw =>
            ih rule hr (Node.forall_leaves_of_mem hu hr) hwritten (hdocs j hj) hw) hw
        rw [Wire.readRules, hread, List.map_id']

/-- **A filter is found again in each text that is written for it.** -/
theorem Node.parse_of_isWritten {node : Node} {j : Json} {text : String}
    (hu : ∀ leaf ∈ node.leaves, ∀ operand ∈ leaf.operand, operand.Unambiguous)
    (hj : node.IsWritten j) (hdepth : j.depth ≤ Json.maxDepth) (htext : Json.Spells text j) :
    Node.parse text = .ok node :=
  Json.read_of_spells htext fun _ hw => Node.readNode_of_isWritten hu hj hdepth hw

/-- A leaf whose range is open below. -/
def ageLeaf : Leaf :=
  { field := "age", operator := "between", operand := some (.range none (some (.int 65))) }

/-- A leaf with an empty list of membership values. -/
def countLeaf : Leaf :=
  { field := "n", operator := "less", operand := some (.scalar (.int 3)), includes := some [] }

/-- A filter of two leaves and an empty group. -/
def mixedFilter : Node :=
  .group .or [.leaf ageLeaf, .group .and [], .leaf countLeaf]

/-- The members of an object for the first leaf, which asks by a `condition`. -/
def ageMembers : List (String × Json) :=
  [("condition", .obj [("filter", .obj [("end", .num (.int 65))]), ("type", .str "between")]),
    ("field", .str "age")]

/-- The members of an object for the last leaf, which asks by `filter` and `value`. -/
def countMembers : List (String × Json) :=
  [("field", .str "n"), ("includes", .arr []), ("filter", .str "less"), ("value", .num (.int 3))]

/-- A document for the filter. -/
def mixedDocument : Json :=
  .obj [("glue", .str "Or"),
    ("data", .arr [.obj ageMembers, .obj [("rules", .arr [])], .obj countMembers])]

/-- A text for the document. -/
def mixedText : String :=
  "\x7b\"glue\":\"Or\",\"data\":[
  \x7b\"condition\":\x7b\"filter\":\x7b\"end\":65\x7d,\"type\":\"between\"\x7d,\"field\":\"age\"\x7d,
  \x7b\"rules\":[]\x7d,
  \x7b\"field\":\"n\",\"includes\":[],\"filter\":\"less\",\"value\":3\x7d]\x7d"

theorem isWritten_ageMembers : ageLeaf.IsWritten ageMembers := by
  have hfield : (some "age").getD "" = ageLeaf.field := rfl
  have hrange : Operand.IsWritten (.range none (some (.int 65))) (.obj [("end", .num (.int 65))]) :=
    .range (Json.holds_given [("start", none), ("end", some (.num (.int 65)))] (by simp))
  have hword : (some "between").getD "" = ageLeaf.operator := rfl
  have hinner := Json.holds_given
    [("type", some (.str "between")), ("filter", some (.obj [("end", .num (.int 65))]))] (by simp)
  have hparts := Json.holds_given (ageLeaf.parts (some "age") ++ [("condition", some (.obj
    [("filter", .obj [("end", .num (.int 65))]), ("type", .str "between")]))])
      (by simp [Leaf.parts])
  exact .intro hfield (.some hrange) (.condition hword (hinner.perm (.swap ..)))
    (hparts.perm (.swap ..))

theorem isWritten_countMembers : countLeaf.IsWritten countMembers := by
  have hfield : (some "n").getD "" = countLeaf.field := rfl
  have hword : (some "less").getD "" = countLeaf.operator := rfl
  have hparts := Json.holds_given (countLeaf.parts (some "n") ++
    [("filter", some (.str "less")), ("value", some (.num (.int 3)))]) (by simp [Leaf.parts])
  exact .intro hfield (.some (.scalar (.int 3))) (.filterValue hword) hparts

theorem isWritten_mixedDocument : mixedFilter.IsWritten mixedDocument := by
  have hor : Glue.or.IsSpelled (some "Or") := by
    show "Or".toList.map Char.toLower = "or".toList
    decide
  have hand : Glue.and.IsSpelled none := rfl
  have hempty : Node.IsWritten (.group .and []) (.obj [("rules", .arr [])]) :=
    .group hand (.inl rfl) .nil
      (Json.holds_given [("glue", none), ("rules", some (.arr []))] (by simp))
  have hparts := Json.holds_given [("glue", some (.str "Or")), ("data", some (.arr
    [.obj ageMembers, .obj [("rules", .arr [])], .obj countMembers]))] (by simp)
  exact .group hor (.inr rfl) (.cons (.leaf isWritten_ageMembers) (.cons hempty
    (.cons (.leaf isWritten_countMembers) .nil))) hparts

theorem spells_mixedText : Json.Spells mixedText mixedDocument :=
  ⟨(Written.ofText mixedText).1, [], by cbv, rfl, by cbv⟩

/-- A text with two of the ways to ask, a range whose start is left out, and the word `Or`. -/
theorem Node.parse_of_isWritten_mixed :
    mixedFilter.IsWritten mixedDocument ∧ Json.Spells mixedText mixedDocument ∧
      Node.parse mixedText = .ok mixedFilter := by
  refine ⟨isWritten_mixedDocument, spells_mixedText,
    Node.parse_of_isWritten ?_ isWritten_mixedDocument (by decide) spells_mixedText⟩
  simp [mixedFilter, ageLeaf, countLeaf, Node.leaves, leavesAll, Operand.Unambiguous]

end SqlFilter
