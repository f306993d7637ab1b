/-
# The two readings of a value

A value is read from a document in two ways.  `Value.ofJson` has a value for every
document.  `Value.ofPlainJson?` stands for a reading that knows nothing but the kinds of
values and their order: it tries one kind after the other and takes the first that has a
place for the document (`byVariants?`).

| document | tried before | taken by |
| --- | --- | --- |
| an integer of 64 bits with a sign | `null`, `bool` | `int` |
| another number | `null`, `bool`, `int` | `float` |
| an array | all other kinds | `arr`, if every item is read |
| an object | all kinds | none |

On documents without objects both readings give the same value (`ofPlainJson?_eq_some`), and
an object, however deep, leaves the second without one (`ofPlainJson?_eq_none`).  What the
first gives is told by `Value.Reads`, one case for each kind of document.
-/

import SqlFilter.Proofs.Wire.Encodings
import SqlFilter.Proofs.Wire.Numbers

namespace SqlFilter

/-! ### One kind after the other -/

/-- The kinds of values. -/
inductive Variant where
  | null
  | bool
  | int
  | float
  | str
  | arr

namespace Variant

/-- The kinds in the order in which they are tried. -/
def inOrder : List Variant :=
  [.null, .bool, .int, .float, .str, .arr]

/-- What one kind makes of a document; a number of any size is a `float`.  `items` is what
the items of an array are read as, if each of them can be read. -/
def read? (items : Option (List Value)) : Variant → Json → Option Value
  | .null, .null => some .null
  | .bool, .bool b => some (.bool b)
  | .int, .num (.int n) =>
    if -2 ^ 63 ≤ n ∧ n < 2 ^ 63 then some (.int (Int64.ofInt n)) else none
  | .float, .num (.int n) => (Decimal.nearest? (decide (n < 0)) n.natAbs 0).map .float
  | .float, .num (.float x) => some (.float x)
  | .str, .str s => some (.str s)
  | .arr, .arr _ => items.map .arr
  | _, _ => none

end Variant

namespace Value

mutual

/-- The value of a document, of the first kind that has a place for it. -/
def byVariants? : Json → Option Value
  | .arr items => Variant.inOrder.findSome? (·.read? (byVariantsItems? items) (.arr items))
  | j => Variant.inOrder.findSome? (·.read? none j)

/-- The values of documents, if each of them has one. -/
def byVariantsItems? : List Json → Option (List Value)
  | [] => some []
  | j :: js => do return (← byVariants? j) :: (← byVariantsItems? js)

end

theorem byVariants?_arr (items : List Json) :
    byVariants? (.arr items) = (byVariantsItems? items).map arr := by
  simp [byVariants?, Variant.inOrder, Variant.read?]

/-- An integer of 64 bits with a sign is an `int`. -/
theorem ofNumber_of_small {n : Int} (h : -2 ^ 63 ≤ n ∧ n < 2 ^ 63) :
    ofNumber (.int n) = int (Int64.ofInt n) := by
  have hmin : Int64.minValue.toInt = -2 ^ 63 := by decide
  have hmax : Int64.maxValue.toInt = 2 ^ 63 - 1 := by decide
  exact if_pos ⟨by omega, by omega⟩

/-- An integer of another size is the nearest `float`. -/
theorem ofNumber_of_large {n : Int} (h : ¬(-2 ^ 63 ≤ n ∧ n < 2 ^ 63)) {x : Float}
    (hx : Decimal.nearest? (decide (n < 0)) n.natAbs 0 = some x) :
    ofNumber (.int n) = float x := by
  have hmin : Int64.minValue.toInt = -2 ^ 63 := by decide
  have hmax : Int64.maxValue.toInt = 2 ^ 63 - 1 := by decide
  rw [ofNumber, if_neg fun hrange => h ⟨by omega, by omega⟩, hx]

/-- Integers are tried as `int` before they are tried as `float`. -/
theorem byVariants?_num {n : Json.Number} (hn : n.Fits) :
    byVariants? (.num n) = some (ofNumber n) := by
  cases n with
  | float x => rfl
  | int n =>
    by_cases hsmall : -2 ^ 63 ≤ n ∧ n < 2 ^ 63
    · rw [ofNumber_of_small hsmall]
      simp only [byVariants?, Variant.inOrder, List.findSome?_cons, Variant.read?, if_pos hsmall]
    · obtain ⟨x, hx⟩ := hn.exists_nearest?
      rw [ofNumber_of_large hsmall hx]
      simp only [byVariants?, Variant.inOrder, List.findSome?_cons, Variant.read?, if_neg hsmall,
        hx, Option.map_some]

/-- **The second reading tries one kind after the other.** -/
theorem byVariants?_eq {j : Json} (hj : j.NumbersFit) : byVariants? j = ofPlainJson? j := by
  induction hj with
  | null => rfl
  | bool b => rfl
  | num hn => exact byVariants?_num hn
  | str s => rfl
  | @arr items _ ih =>
    have hitems : byVariantsItems? items = ofPlainJsonItems? items := by
      clear * - ih
      induction items with
      | nil => rfl
      | cons j js ihs =>
        obtain ⟨hfirst, hrest⟩ := List.forall_mem_cons.1 ih
        rw [byVariantsItems?, ofPlainJsonItems?, hfirst, ihs hrest]
    rw [byVariants?_arr, ofPlainJson?, hitems]
  | obj => rfl

end Value

/-! ### Objects -/

/-- A document is an object, or an object stands in it. -/
inductive Json.HoldsObject : Json → Prop
  | obj (members : List (String × Json)) : HoldsObject (.obj members)
  | arr {items : List Json} {j : Json} (hmem : j ∈ items) (hj : HoldsObject j) :
      HoldsObject (.arr items)

namespace Value

mutual

/-- **Without an object** both readings give the same value. -/
theorem ofPlainJson?_eq_some : ∀ j : Json, ¬j.HoldsObject → ofPlainJson? j = some (ofJson j)
  | .null, _ => rfl
  | .bool _, _ => rfl
  | .num _, _ => rfl
  | .str _, _ => rfl
  | .arr items, h => by
    have hitems := ofPlainJsonItems?_eq_some items fun j hmem hj => h (.arr hmem hj)
    rw [ofPlainJson?, hitems, ofJson, Option.map_some]
  | .obj members, h => absurd (.obj members) h

theorem ofPlainJsonItems?_eq_some : ∀ items : List Json, (∀ j ∈ items, ¬j.HoldsObject) →
    ofPlainJsonItems? items = some (ofJsonItems items)
  | [], _ => rfl
  | j :: js, h => by
    obtain ⟨hfirst, hrest⟩ := List.forall_mem_cons.1 h
    rw [ofPlainJsonItems?, ofPlainJson?_eq_some j hfirst, ofPlainJsonItems?_eq_some js hrest]
    rfl

end

/-- Items are not read together if one of them is not read. -/
theorem ofPlainJsonItems?_eq_none {items : List Json} {j : Json} (hmem : j ∈ items)
    (hj : ofPlainJson? j = none) : ofPlainJsonItems? items = none := by
  induction items with
  | nil => cases hmem
  | cons first rest ih =>
    rw [ofPlainJsonItems?]
    rcases List.mem_cons.1 hmem with rfl | hrest
    · rw [hj]
      rfl
    · rw [ih hrest]
      cases ofPlainJson? first <;> rfl

/-- **An object**, however deep, leaves the second reading without a value. -/
theorem ofPlainJson?_eq_none {j : Json} (h : j.HoldsObject) : ofPlainJson? j = none := by
  induction h with
  | obj members => rfl
  | arr hmem _ ih => rw [ofPlainJson?, ofPlainJsonItems?_eq_none hmem ih, Option.map_none]

/-! ### What is read -/

/-- What a document is read as, for each kind of document: an integer is an `int` if it is
one of the integers with 64 bits and a sign, and otherwise the nearest `float`; the items of
an array are read one by one; and an object is read as its text, wherever it stands. -/
inductive Reads : Json → Value → Prop
  | null : Reads .null null
  | bool (b : Bool) : Reads (.bool b) (bool b)
  | int (i : Int64) : Reads (.num (.int i.toInt)) (int i)
  | largeInt {n : Int} (hn : ¬(-2 ^ 63 ≤ n ∧ n < 2 ^ 63)) {x : Float}
      (hx : Decimal.nearest? (decide (n < 0)) n.natAbs 0 = some x) : Reads (.num (.int n)) (float x)
  | float (x : Float) : Reads (.num (.float x)) (float x)
  | str (s : String) : Reads (.str s) (str s)
  | arr {items : List Json} {values : List Value} (hlength : items.length = values.length)
      (h : ∀ (i : Nat) (hi : i < items.length) (hv : i < values.length),
        Reads items[i] values[i]) : Reads (.arr items) (arr values)
  | obj (members : List (String × Json)) :
      Reads (.obj members) (str (Json.obj members).compactText)

theorem ofJsonItems_eq_map (items : List Json) : ofJsonItems items = items.map ofJson := by
  induction items with
  | nil => rfl
  | cons j js ih => rw [ofJsonItems, ih, List.map_cons]

/-- The value of a number that fits. -/
theorem reads_ofNumber {n : Json.Number} (hn : n.Fits) : Reads (.num n) (ofNumber n) := by
  cases n with
  | float x => exact .float x
  | int n =>
    by_cases hsmall : -2 ^ 63 ≤ n ∧ n < 2 ^ 63
    · have htoInt : (Int64.ofInt n).toInt = n := Int64.toInt_ofInt_of_le hsmall.1 hsmall.2
      have hint := Reads.int (Int64.ofInt n)
      rwa [htoInt, ← ofNumber_of_small hsmall] at hint
    · obtain ⟨x, hx⟩ := hn.exists_nearest?
      rw [ofNumber_of_large hsmall hx]
      exact .largeInt hsmall hx

/-- **Every document has the value** that belongs to its kind. -/
theorem reads_ofJson {j : Json} (hj : j.NumbersFit) : Reads j (ofJson j) := by
  induction hj with
  | null => exact .null
  | bool b => exact .bool b
  | num hn => exact reads_ofNumber hn
  | str s => exact .str s
  | @arr items _ ih =>
    rw [ofJson, ofJsonItems_eq_map]
    refine .arr (List.length_map _).symm fun i hi hv => ?_
    rw [List.getElem_map]
    exact ih items[i] (List.getElem_mem hi)
  | obj members => exact .obj _

/-- Only one value belongs to a document. -/
theorem eq_of_reads {j : Json} {v : Value} (h : Reads j v) : ofJson j = v := by
  induction h with
  | null => rfl
  | bool b => rfl
  | int i => exact ofNumber_toInt i
  | largeInt hn hx => exact ofNumber_of_large hn hx
  | float x => rfl
  | str s => rfl
  | @arr items values hlength _ ih =>
    rw [ofJson, ofJsonItems_eq_map]
    refine congrArg Value.arr (List.ext_getElem ?_ fun i hi hv => ?_)
    · rw [List.length_map, hlength]
    · rw [List.getElem_map]
      exact ih i (by simpa using hi) hv
  | obj members => rfl

theorem ofJson_eq_iff {j : Json} (hj : j.NumbersFit) {v : Value} : ofJson j = v ↔ Reads j v :=
  ⟨fun h => h ▸ reads_ofJson hj, eq_of_reads⟩

/-- The documents of the value `NULL`. -/
theorem ofJson_eq_null_iff {j : Json} (hj : j.NumbersFit) : ofJson j = null ↔ j = .null := by
  rw [ofJson_eq_iff hj]
  constructor
  · rintro ⟨⟩
    rfl
  · rintro rfl
    exact .null

/-- The documents of an integer. -/
theorem ofJson_eq_int_iff {j : Json} (hj : j.NumbersFit) {i : Int64} :
    ofJson j = int i ↔ j = .num (.int i.toInt) := by
  rw [ofJson_eq_iff hj]
  constructor
  · rintro ⟨⟩
    rfl
  · rintro rfl
    exact .int i

/-- The documents of the floating point numbers. -/
theorem exists_ofJson_eq_float_iff {j : Json} (hj : j.NumbersFit) :
    (∃ x, ofJson j = float x) ↔ ∃ n, j = .num n ∧ ∀ i : Int64, n ≠ .int i.toInt := by
  constructor
  · rintro ⟨x, hx⟩
    cases (ofJson_eq_iff hj).1 hx with
    | @largeInt n hn _ hx =>
      refine ⟨_, rfl, fun i hi => hn ?_⟩
      obtain rfl := Json.Number.int.inj hi
      exact ⟨i.le_toInt, i.toInt_lt⟩
    | float x => exact ⟨_, rfl, fun i hi => nomatch hi⟩
  · rintro ⟨n, rfl, hn⟩
    cases hv : ofJson (.num n) with
    | float x => exact ⟨x, rfl⟩
    | int i =>
      obtain h := Json.num.inj ((ofJson_eq_int_iff hj).1 hv)
      exact absurd h (hn i)
    | _ => exact nomatch (ofJson_eq_iff hj).1 hv

/-- A text whose document is known is read as a value of the second reading. -/
theorem read_readPlain {text : String} {j : Json} (h : Json.parse text = .ok j) :
    Json.read readPlain text = (ofPlainJson? j).elim (.error .mismatch) .ok := by
  obtain ⟨hwhole, hread⟩ := Json.read_eq_ok h
  rw [Json.read_of_isWhole hwhole, readPlain, hread]
  simp only [bind, Except.bind]
  cases ofPlainJson? j <;> rfl

/-- **The two readings of a value agree.**  The second reading takes the first kind, in
their order, that has a place for a document.  Where no object stands in the document it
gives the value that the first reading gives, and where one stands, at any depth, it gives
none; and so it is with a text of the document.  The first reading gives every document a
value, by its kind: `NULL` for `null` alone, an `int` for exactly the integers of 64 bits
with a sign, with their value, a `float` for every other number, an array of as many values
in the same order for an array, and a text for an object, wherever it stands.  The numbers
of a document are the integers that 64 bits hold, with or without a sign, and the floating
point numbers, as they are in every document of a text. -/
theorem readings_agree :
    (∀ j : Json, j.NumbersFit →
      ofPlainJson? j = byVariants? j ∧
        (¬j.HoldsObject → byVariants? j = some (ofJson j)) ∧
        (j.HoldsObject → byVariants? j = none) ∧
        (∀ v, ofJson j = v ↔ Reads j v) ∧
        (ofJson j = null ↔ j = .null) ∧
        (∀ i, ofJson j = int i ↔ j = .num (.int i.toInt)) ∧
        ((∃ x, ofJson j = float x) ↔ ∃ n, j = .num n ∧ ∀ i : Int64, n ≠ .int i.toInt)) ∧
      ∀ text j, Json.parse text = .ok j → j.NumbersFit ∧
        Json.read readPlain text = (byVariants? j).elim (.error .mismatch) .ok := by
  refine ⟨fun j hj => ?_, fun text j hparse => ?_⟩
  · have heq := byVariants?_eq hj
    exact ⟨heq.symm, fun h => heq.trans (ofPlainJson?_eq_some j h),
      fun h => heq.trans (ofPlainJson?_eq_none h), fun v => ofJson_eq_iff hj,
      ofJson_eq_null_iff hj, fun i => ofJson_eq_int_iff hj, exists_ofJson_eq_float_iff hj⟩
  · have hj := Json.numbersFit_of_parse hparse
    rw [byVariants?_eq hj]
    exact ⟨hj, read_readPlain hparse⟩

/-- The integers on both sides of the limit of 64 bits with a sign. -/
def limits : Json :=
  .arr [.num (.int (2 ^ 63 - 1)), .num (.int (2 ^ 63))]

theorem numbersFit_limits : limits.NumbersFit :=
  .arr (List.forall_mem_cons.2 ⟨.num (by decide), List.forall_mem_singleton.2 (.num (by decide))⟩)

theorem not_holdsObject_limits : ¬limits.HoldsObject := by
  intro h
  obtain _ | ⟨hmem, hj⟩ := h
  rcases List.mem_cons.1 hmem with rfl | hmem
  · cases hj
  · obtain rfl := List.mem_singleton.1 hmem
    cases hj

/-- The integer behind the limit is a `float`, both readings agree on both integers, and an
object beside them is refused by one reading only. -/
theorem readings_agree_limits :
    (∃ x, ofJson (.num (.int (2 ^ 63))) = float x) ∧
      byVariants? limits = some (ofJson limits) ∧
      byVariants? (.arr [limits, .obj []]) = none ∧
      Json.read readPlain "[1,\x7b\x7d]" = .error .mismatch := by
  have hfit : (Json.arr [limits, .obj []]).NumbersFit :=
    .arr (List.forall_mem_cons.2 ⟨numbersFit_limits,
      List.forall_mem_singleton.2 (.obj (List.forall_mem_nil _))⟩)
  have hbehind : (Json.num (.int (2 ^ 63))).NumbersFit := .num (by decide)
  have hparse : Json.parse "[1,\x7b\x7d]" = .ok (.arr [.num (.int 1), .obj []]) := by
    cbv
  obtain ⟨-, -, -, -, -, -, hfloat⟩ := readings_agree.1 _ hbehind
  obtain ⟨-, hagree, -⟩ := readings_agree.1 _ numbersFit_limits
  obtain ⟨-, -, hnone, -⟩ := readings_agree.1 _ hfit
  obtain ⟨-, hread⟩ := readings_agree.2 _ _ hparse
  refine ⟨hfloat.2 ⟨_, rfl, fun i hi => ?_⟩, hagree not_holdsObject_limits,
    hnone (.arr (List.mem_cons_of_mem _ (List.mem_singleton.2 rfl)) (.obj [])), hread⟩
  have hlimit : i.toInt < 2 ^ 63 := i.toInt_lt
  have hn : (2 : Int) ^ 63 = i.toInt := Json.Number.int.inj hi
  omega

end Value
end SqlFilter
