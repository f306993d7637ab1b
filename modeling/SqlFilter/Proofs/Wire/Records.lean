/-
# Records as arrays

A filter is a document of objects: the document itself, the children of its groups and the
`condition`s of its leaves.  But whatever is read as a record may be written as an array of
its fields, and so a filter is read from arrays too.  What is said here is how far this
goes:

* a record is an object, or an array that is not longer than the record has fields
  (`Written.IsRecordOf`); nothing else is read as one (`Written.readRecord_eq_ok`);
* in a document that is read as a filter, all nodes and all `condition`s that are not `null`
  are such records (`Wire.everywhere_of_readNode`), so they are all objects if and only if
  none of them is an array;
* an array is read as the object that gives its items under the names of the fields, in
  their order (`Wire.readNode_array`).

So the array without items is the leaf that asks for nothing, as the empty object is.
-/

import Mathlib
import SqlFilter.Dialect.Postgres
import SqlFilter.Filter.Compile
import SqlFilter.Wire.Filter

namespace SqlFilter
namespace Json

/-- What comes of the first of two steps that succeed together. -/
theorem exists_of_bind_eq_ok {ε α β : Type} {x : Except ε α} {f : α → Except ε β} {b : β}
    (h : x >>= f = .ok b) : ∃ a, x = .ok a ∧ f a = .ok b := by
  cases x with
  | error e => cases h
  | ok a => exact ⟨a, rfl, h⟩

theorem exists_of_map_eq_ok {ε α β : Type} {x : Except ε α} {f : α → β} {b : β}
    (h : x.map f = .ok b) : ∃ a, x = .ok a := by
  cases x with
  | error e => cases h
  | ok a => exact ⟨a, rfl⟩

/-- Items that are read together are read one by one. -/
theorem exists_of_mapM_eq_ok {ε α β : Type} {read : α → Except ε β} {items : List α}
    {results : List β} (h : items.mapM read = .ok results) :
    ∀ item ∈ items, ∃ result, read item = .ok result := by
  induction items generalizing results with
  | nil => exact fun item hitem => absurd hitem List.not_mem_nil
  | cons item items ih =>
    rw [List.mapM_cons] at h
    obtain ⟨first, hfirst, h⟩ := exists_of_bind_eq_ok h
    obtain ⟨rest, hrest, -⟩ := exists_of_bind_eq_ok h
    exact List.forall_mem_cons.2 ⟨⟨first, hfirst⟩, ih hrest⟩

/-- What is read together is read from the items. -/
theorem exists_mem_of_mapM_eq_ok {ε α β : Type} {read : α → Except ε β} {items : List α}
    {results : List β} (h : items.mapM read = .ok results) :
    ∀ result ∈ results, ∃ item ∈ items, read item = .ok result := by
  induction items generalizing results with
  | nil =>
    obtain rfl := Except.ok.inj h
    exact fun result hresult => absurd hresult List.not_mem_nil
  | cons item items ih =>
    rw [List.mapM_cons] at h
    obtain ⟨first, hfirst, h⟩ := exists_of_bind_eq_ok h
    obtain ⟨rest, hrest, h⟩ := exists_of_bind_eq_ok h
    obtain rfl := Except.ok.inj h
    refine List.forall_mem_cons.2 ⟨⟨item, List.mem_cons_self .., hfirst⟩, fun result hresult => ?_⟩
    obtain ⟨source, hsource, hread⟩ := ih hrest result hresult
    exact ⟨source, List.mem_cons_of_mem _ hsource, hread⟩

namespace Written

variable {α κ ρ : Type}

/-- The tree of a text. -/
def tree (text : String) : Written :=
  (ofText text).1

/-! ### Records -/

/-- What a record gives for its fields, in the order of the text. -/
def given (shape : Shape κ) : Written → List (κ × Written)
  | array items _ => shape.order.zip items
  | object members _ => members.filterMap fun m =>
      (m.1.value.toOption.bind shape.ofName?).map (·, m.2)
  | _ => []

/-- What may be read as a record: an object, or an array with at most an item for each
field.  Nothing is wrong at its end. -/
inductive IsRecordOf (shape : Shape κ) : Written → Prop
  | object {members : List (Lexeme String × Written)} : IsRecordOf shape (.object members none)
  | array {items : List Written} (h : items.length ≤ shape.order.length) :
    IsRecordOf shape (.array items none)

theorem IsRecordOf.isObject_iff {shape : Shape κ} {w : Written} (h : w.IsRecordOf shape) :
    w.isObject = true ↔ w.isArray = false := by
  cases h <;> exact ⟨fun _ => by trivial, fun _ => by trivial⟩

theorem itemFields_of_stop {keys : List κ} {items : List Written} {stop : Option Problem}
    (h : (itemFields keys items stop).stop = none) :
    stop = none ∧ items.length ≤ keys.length ∧
      (itemFields keys items stop).given = keys.zip items := by
  induction items generalizing keys with
  | nil => cases keys <;> exact ⟨h, Nat.zero_le _, rfl⟩
  | cons w ws ih =>
    cases keys with
    | nil => cases h
    | cons key keys =>
      obtain ⟨hstop, hlength, hgiven⟩ := ih h
      exact ⟨hstop, Nat.succ_le_succ hlength, congrArg ((key, w) :: ·) hgiven⟩

theorem given_object_cons {shape : Shape κ} {m : Lexeme String × Written} {name : String}
    (h : m.1.value = .ok name) (ms : List (Lexeme String × Written)) (stop : Option Problem) :
    (object (m :: ms) stop).given shape =
      ((shape.ofName? name).map (·, m.2)).toList ++ (object ms stop).given shape := by
  rw [given, given, List.filterMap_cons, h]
  cases hkey : shape.ofName? name <;> simp [Except.toOption, hkey]

theorem memberFields_of_stop [DecidableEq κ] {shape : Shape κ} {seen : List κ}
    {members : List (Lexeme String × Written)} {stop : Option Problem}
    (h : (memberFields shape seen members stop).stop = none) :
    stop = none ∧ (memberFields shape seen members stop).given =
      (Written.object members stop).given shape := by
  induction members generalizing seen with
  | nil => exact ⟨h, rfl⟩
  | cons m ms ih =>
    cases hname : m.1.value with
    | error p => simp [memberFields, hname] at h
    | ok name =>
      rw [given_object_cons hname]
      cases hkey : shape.ofName? name with
      | some key =>
        by_cases hseen : key ∈ seen
        · simp [memberFields, hname, hkey, hseen] at h
        · simp only [memberFields, hname, hkey, if_neg hseen] at h ⊢
          obtain ⟨hstop, hgiven⟩ := ih h
          exact ⟨hstop, congrArg ((key, m.2) :: ·) hgiven⟩
      | none =>
        cases hskips : shape.skipsOthers with
        | false => simp [memberFields, hname, hkey, hskips] at h
        | true =>
          cases hskip : m.2.skip with
          | error p => simp [memberFields, hname, hkey, hskips, hskip] at h
          | ok u =>
            simp only [memberFields, hname, hkey, hskips, hskip, if_pos] at h ⊢
            exact ih h

/-- A record whose fields are read one after the other. -/
theorem exists_of_foldlM_eq_ok {read : κ → Written → ρ → Except Problem ρ}
    {fields : List (κ × Written)} {start record : ρ}
    (h : fields.foldlM (fun record (key, w) => read key w record) start = .ok record) :
    ∀ p ∈ fields, ∃ before after, read p.1 p.2 before = .ok after := by
  induction fields generalizing start with
  | nil => exact fun p hp => absurd hp List.not_mem_nil
  | cons p fields ih =>
    rw [List.foldlM_cons] at h
    obtain ⟨next, hnext, h⟩ := exists_of_bind_eq_ok h
    exact List.forall_mem_cons.2 ⟨⟨start, next, hnext⟩, ih h⟩

/-- **What is read as a record** is one, and each of its fields is read. -/
theorem readRecord_eq_ok [DecidableEq κ] {shape : Shape κ} {start record : ρ}
    {read : κ → Written → ρ → Except Problem ρ} {w : Written}
    (h : w.readRecord shape start read = .ok record) :
    w.IsRecordOf shape ∧
      ∀ p ∈ w.given shape, ∃ before after, read p.1 p.2 before = .ok after := by
  obtain ⟨fields, hfields, h⟩ := exists_of_bind_eq_ok h
  obtain ⟨result, hresult, h⟩ := exists_of_bind_eq_ok h
  have hstop : fields.stop = none := by
    cases hs : fields.stop with
    | none => rfl
    | some p => rw [hs] at h; cases h
  cases w with
  | array items stop =>
    obtain rfl := Except.ok.inj hfields
    obtain ⟨rfl, hlength, hgiven⟩ := itemFields_of_stop hstop
    rw [given, ← hgiven]
    exact ⟨.array hlength, exists_of_foldlM_eq_ok hresult⟩
  | object members stop =>
    obtain rfl := Except.ok.inj hfields
    obtain ⟨rfl, hgiven⟩ := memberFields_of_stop hstop
    rw [← hgiven]
    exact ⟨.object, exists_of_foldlM_eq_ok hresult⟩
  | _ => cases hfields

/-- **What may be `null`** is `null` or is read. -/
theorem readOptional_eq_ok {read : Written → Except Problem α} {w : Written} {o : Option α}
    (h : w.readOptional read = .ok o) : w = .null ∨ ∃ a, read w = .ok a := by
  cases w with
  | null => exact .inl rfl
  | _ => exact .inr (exists_of_map_eq_ok h)

theorem readItems_eq_ok {read : Written → Except Problem α} {w : Written} {results : List α}
    (h : w.readItems read = .ok results) :
    ∃ items, w = .array items none ∧ ∀ item ∈ items, ∃ result, read item = .ok result := by
  cases w with
  | array items stop =>
    obtain ⟨read, hread, h⟩ := exists_of_bind_eq_ok h
    cases stop with
    | none => exact ⟨items, rfl, exists_of_mapM_eq_ok hread⟩
    | some p => cases h
  | _ => cases h

/-! ### Arrays for objects -/

/-- The object that gives items under names, in their order. -/
def named (names : List String) (items : List Written) (stop : Option Problem) : Written :=
  .object (names.zipWith (fun name item => (⟨.ok name, .ok ()⟩, item)) items) stop

theorem memberFields_named [DecidableEq κ] {shape : Shape κ} {names : List String} {keys : List κ}
    (h : names.map shape.ofName? = keys.map some) (hnodup : keys.Nodup) {seen : List κ}
    (hseen : ∀ key ∈ keys, key ∉ seen) {items : List Written} (hlength : items.length ≤ keys.length)
    (stop : Option Problem) :
    memberFields shape seen
        (names.zipWith (fun name item => (⟨.ok name, .ok ()⟩, item)) items) stop =
      itemFields keys items stop := by
  induction items generalizing names keys seen with
  | nil =>
    rw [List.zipWith_nil_right]
    cases keys <;> rfl
  | cons item items ih =>
    obtain _ | ⟨key, keys⟩ := keys
    · cases hlength
    obtain _ | ⟨name, names⟩ := names
    · cases h
    obtain ⟨hname, h⟩ := List.cons.inj h
    obtain ⟨hfirst, hnodup⟩ := List.nodup_cons.1 hnodup
    have hrest : ∀ k ∈ keys, k ∉ key :: seen := by
      intro k hk hmem
      rcases List.mem_cons.1 hmem with rfl | hmem
      · exact hfirst hk
      · exact hseen k (List.mem_cons_of_mem _ hk) hmem
    have ih := ih h hnodup hrest (Nat.le_of_succ_le_succ hlength)
    simp only [List.zipWith_cons_cons, memberFields, hname,
      if_neg (hseen key (List.mem_cons_self ..)), ih]
    rfl

/-- **An array is read as the object** that gives its items under the names of the fields. -/
theorem readRecord_array [DecidableEq κ] {shape : Shape κ} {names : List String}
    (h : names.map shape.ofName? = shape.order.map some)
    (hnodup : shape.order.Nodup) (start : ρ) (read : κ → Written → ρ → Except Problem ρ)
    {items : List Written} (hlength : items.length ≤ shape.order.length) (stop : Option Problem) :
    (array items stop).readRecord shape start read =
      (named names items stop).readRecord shape start read := by
  have hfields : (array items stop).recordFields shape =
      (named names items stop).recordFields shape := by
    rw [named, recordFields, recordFields,
      memberFields_named h hnodup (fun key _ => List.not_mem_nil) hlength]
  rw [readRecord, readRecord, hfields]

end Written
end Json

/-! ### Filters -/

namespace Wire

open Json (Problem Written)

/-- The names of the fields of a node, in their order. -/
def nodeNames : List String :=
  ["glue", "rules", "field", "alias", "predicate", "includes", "condition", "type", "filter",
    "value"]

/-- The names of the fields of a `condition`, in their order. -/
def conditionNames : List String :=
  ["type", "filter"]

/-- The places of a document at which a node stands, if it is read as a filter. -/
inductive NodeIn (document : Written) : Written → Prop
  | root : NodeIn document document
  | child {w item : Written} {items : List Written} {stop : Option Problem}
    (h : NodeIn document w) (hrules : (.rules, .array items stop) ∈ w.given nodeShape)
    (hitem : item ∈ items) : NodeIn document item

/-- A field of a node stands in a document. -/
def FieldIn (key : NodeKey) (document w : Written) : Prop :=
  ∃ node, NodeIn document node ∧ (key, w) ∈ node.given nodeShape

/-- `P` holds of all nodes of a document, and `Q` of every `condition` that is not `null`. -/
structure Everywhere (P Q : Written → Prop) (document : Written) : Prop where
  node : ∀ w, NodeIn document w → P w
  condition : ∀ w, FieldIn .condition document w → w ≠ .null → Q w

theorem readCondition_eq_ok {depth : Nat} {w : Written} {raw : ConditionRecord}
    (h : readCondition depth w = .ok raw) : w.IsRecordOf conditionShape := by
  cases depth with
  | zero => cases h
  | succ depth => exact (Written.readRecord_eq_ok h).1

theorem readRules_eq_ok {depth : Nat} {w : Written} {rules : List Node}
    (h : readRules depth w = .ok rules) :
    ∃ items, w = .array items none ∧
      ∀ item ∈ items, ∃ depth node, readNode depth item = .ok node := by
  cases depth with
  | zero => rw [readRules] at h; cases h
  | succ depth =>
    rw [readRules] at h
    obtain ⟨items, rfl, hitems⟩ := Written.readItems_eq_ok h
    exact ⟨items, rfl, fun item hitem => ⟨depth, hitems item hitem⟩⟩

/-- What a node that is read gives for its children is `null` or an array of nodes that are
read, and what it gives for its `condition` is `null` or a record. -/
theorem readNode_eq_ok {depth : Nat} {w : Written} {node : Node} (h : readNode depth w = .ok node) :
    w.IsRecordOf nodeShape ∧
      (∀ rules, (.rules, rules) ∈ w.given nodeShape → rules = .null ∨
        ∃ items, rules = .array items none ∧
          ∀ item ∈ items, ∃ depth node, readNode depth item = .ok node) ∧
      ∀ condition, (.condition, condition) ∈ w.given nodeShape → condition = .null ∨
        condition.IsRecordOf conditionShape := by
  cases depth with
  | zero => rw [readNode] at h; cases h
  | succ depth =>
    rw [readNode] at h
    obtain ⟨raw, hraw, -⟩ := Json.exists_of_bind_eq_ok h
    obtain ⟨hrecord, hgiven⟩ := Written.readRecord_eq_ok hraw
    refine ⟨hrecord, fun rules hrules => ?_, fun condition hcondition => ?_⟩
    · obtain ⟨before, after, hread⟩ := hgiven _ hrules
      obtain ⟨o, ho, -⟩ := Json.exists_of_bind_eq_ok hread
      exact (Written.readOptional_eq_ok ho).imp_right fun ⟨_, hread⟩ => readRules_eq_ok hread
    · obtain ⟨before, after, hread⟩ := hgiven _ hcondition
      obtain ⟨o, ho, -⟩ := Json.exists_of_bind_eq_ok hread
      exact (Written.readOptional_eq_ok ho).imp_right fun ⟨_, hread⟩ => readCondition_eq_ok hread

/-- Where a filter is read, all of its nodes are. -/
theorem exists_readNode_of_nodeIn {depth : Nat} {document : Written} {node : Node}
    (h : readNode depth document = .ok node) {w : Written} (hw : NodeIn document w) :
    ∃ depth node, readNode depth w = .ok node := by
  induction hw with
  | root => exact ⟨depth, node, h⟩
  | child _ hrules hitem ih =>
    obtain ⟨depth, node, hread⟩ := ih
    obtain hnull | ⟨items, harray, hitems⟩ := (readNode_eq_ok hread).2.1 _ hrules
    · cases hnull
    · cases harray
      exact hitems _ hitem

/-- **Where a filter is read, there are records** at the places of nodes and of `condition`s. -/
theorem everywhere_of_readNode {depth : Nat} {document : Written} {node : Node}
    (h : readNode depth document = .ok node) :
    Everywhere (Written.IsRecordOf nodeShape) (Written.IsRecordOf conditionShape) document where
  node w hw := by
    obtain ⟨depth, node, hread⟩ := exists_readNode_of_nodeIn h hw
    exact (readNode_eq_ok hread).1
  condition w hw hne := by
    obtain ⟨node, hnode, hgiven⟩ := hw
    obtain ⟨depth, result, hread⟩ := exists_readNode_of_nodeIn h hnode
    exact ((readNode_eq_ok hread).2.2 w hgiven).resolve_left hne

/-- Where a filter is read, the children of a group are an array. -/
theorem rules_of_readNode {depth : Nat} {document : Written} {node : Node}
    (h : readNode depth document = .ok node) {w : Written} (hw : FieldIn .rules document w) :
    w = .null ∨ w.isArray = true := by
  obtain ⟨node, hnode, hgiven⟩ := hw
  obtain ⟨depth, result, hread⟩ := exists_readNode_of_nodeIn h hnode
  refine ((readNode_eq_ok hread).2.1 w hgiven).imp_right ?_
  rintro ⟨items, rfl, -⟩
  rfl

/-- Records are all objects if none of them is an array. -/
theorem Everywhere.isObject_iff {document : Written} {shape : Written.Shape NodeKey}
    {shape' : Written.Shape ConditionKey}
    (h : Everywhere (Written.IsRecordOf shape) (Written.IsRecordOf shape') document) :
    Everywhere (·.isObject = true) (·.isObject = true) document ↔
      Everywhere (·.isArray = false) (·.isArray = false) document := by
  constructor
  · intro hobject
    exact ⟨fun w hw => (h.node w hw).isObject_iff.1 (hobject.node w hw),
      fun w hw hne => (h.condition w hw hne).isObject_iff.1 (hobject.condition w hw hne)⟩
  · intro harray
    exact ⟨fun w hw => (h.node w hw).isObject_iff.2 (harray.node w hw),
      fun w hw hne => (h.condition w hw hne).isObject_iff.2 (harray.condition w hw hne)⟩

/-- **An array is read as a node** like the object that gives its items under the names of
the fields. -/
theorem readNode_array (depth : Nat) {items : List Written}
    (hlength : items.length ≤ nodeNames.length) (stop : Option Problem) :
    readNode depth (.array items stop) = readNode depth (.named nodeNames items stop) := by
  cases depth with
  | zero =>
    rw [readNode, readNode]
    rfl
  | succ depth =>
    have hnames : nodeNames.map nodeShape.ofName? = nodeShape.order.map some := rfl
    rw [readNode, readNode, Written.readRecord_array hnames (by decide) _ _ hlength]

/-- The same for a `condition`. -/
theorem readCondition_array (depth : Nat) {items : List Written}
    (hlength : items.length ≤ conditionNames.length) (stop : Option Problem) :
    readCondition depth (.array items stop) =
      readCondition depth (.named conditionNames items stop) := by
  cases depth with
  | zero => rfl
  | succ depth =>
    have hnames : conditionNames.map conditionShape.ofName? = conditionShape.order.map some := rfl
    exact Written.readRecord_array hnames (by decide) _ _ hlength stop

end Wire

open Json (Written)
open Wire

/-- **Filters are read from records.**  A text either is refused, or its nodes and its
`condition`s that are not `null` are objects, or arrays without more items than there are
fields, and the children of its groups stand in arrays.  So they are all objects if and only
if none of them is an array.  And where one of them is an array, it is read as the object
that gives its items under the names of the fields, in the order of the fields. -/
theorem Node.parse_reads_records (text : String) :
    (∃ p, Node.parse text = .error p) ∨
      Everywhere (Written.IsRecordOf nodeShape) (Written.IsRecordOf conditionShape)
          (Written.tree text) ∧
        (∀ w, FieldIn .rules (Written.tree text) w → w = .null ∨ w.isArray = true) ∧
        (Everywhere (·.isObject = true) (·.isObject = true) (Written.tree text) ↔
          Everywhere (·.isArray = false) (·.isArray = false) (Written.tree text)) ∧
        (∀ items stop, NodeIn (Written.tree text) (.array items stop) → ∀ depth,
          readNode depth (.array items stop) = readNode depth (.named nodeNames items stop)) ∧
        ∀ items stop, FieldIn .condition (Written.tree text) (.array items stop) → ∀ depth,
          readCondition depth (.array items stop) =
            readCondition depth (.named conditionNames items stop) := by
  cases hparse : Node.parse text with
  | error p => exact .inl ⟨p, rfl⟩
  | ok node =>
    obtain ⟨result, hread, -⟩ := Json.exists_of_bind_eq_ok hparse
    have hrecords := everywhere_of_readNode hread
    refine .inr ⟨hrecords, fun w hw => rules_of_readNode hread hw, hrecords.isObject_iff,
      fun items stop hw depth => ?_, fun items stop hw depth => ?_⟩
    · obtain _ | hlength := hrecords.node _ hw
      exact readNode_array depth hlength none
    · obtain _ | hlength := hrecords.condition _ hw (fun h => nomatch h)
      exact readCondition_array depth hlength none

/-- A text with nothing after its document is read as the tree of the document. -/
theorem Node.parse_of_ofText {text : String} {w : Written}
    (h : Written.ofText text = (w, some [])) : Node.parse text = readNode Json.maxDepth w := by
  rw [parse, Json.read, h]
  show (readNode Json.maxDepth w >>= fun node => .ok node) = _
  cases readNode Json.maxDepth w <;> rfl

/-- The array of a connective and of children, one of them an array, is read as the object
that has them as members. -/
theorem Node.parse_reads_records_group :
    Node.parse "[\"or\",[[]]]" = .ok (.group .or [.leaf {}]) ∧
      Node.parse "[\"or\",[[]]]" = Node.parse "\x7b\"glue\":\"or\",\"rules\":[[]]\x7d" := by
  have harray : Written.ofText "[\"or\",[[]]]" =
      (.array [.string ⟨.ok "or", .ok ()⟩, .array [.array [] none] none] none, some []) := by
    cbv
  have hobject : Written.ofText "\x7b\"glue\":\"or\",\"rules\":[[]]\x7d" =
      (.named nodeNames
        [.string ⟨.ok "or", .ok ()⟩, .array [.array [] none] none] none, some []) := by
    cbv
  have hparse : Node.parse "[\"or\",[[]]]" = .ok (.group .or [.leaf {}]) := by
    rw [parse_of_ofText harray]
    cbv
  refine ⟨hparse, ?_⟩
  obtain ⟨p, hp⟩ | ⟨-, -, -, hnode, -⟩ := Node.parse_reads_records "[\"or\",[[]]]"
  · cases hparse.symm.trans hp
  · rw [parse_of_ofText harray, parse_of_ofText hobject]
    refine hnode _ _ ?_ _
    rw [Written.tree, harray]
    exact .root

/-- **An array can be a filter**: without items it is the leaf that asks for nothing, so
what is read as a filter is not always made of objects, and compiles to no text. -/
theorem Node.parse_empty_array :
    Node.parse "[]" = .ok (.leaf {}) ∧
      ¬Everywhere (·.isObject = true) (·.isObject = true) (Written.tree "[]") ∧
      (compile postgres {} (.leaf {}) 0).1 = .ok {} := by
  have htext : Written.ofText "[]" = (.array [] none, some []) := by
    cbv
  refine ⟨?_, fun h => ?_, rfl⟩
  · rw [parse_of_ofText htext, Json.maxDepth, readNode]
    rfl
  · have hroot := h.node _ .root
    rw [Written.tree, htext] at hroot
    exact nomatch hroot

end SqlFilter
