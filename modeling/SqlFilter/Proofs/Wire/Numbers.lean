/-
# What a text gives

A number of a text is an integer that 64 bits hold, with or without a sign, or a floating
point number (`Number.Fits`).  Such an integer is far from the end of the range of binary64,
so there is always a nearest floating point number (`Decimal.isSome_nearest?`), and no
number ends up as `NULL`.

| | |
| --- | --- |
| a numeral | denotes a number that fits (`Numeral.fits_value`) |
| a numeral with digits for 64 bits | is scaled as it is written (`Numeral.decimal_eq`) |
| a string that can be read | can be passed over, too (`Written.skips_scanString`) |
| the tree of a text | is sound: both hold wherever they apply (`Written.sound_tree`) |
| the document of a text | holds only numbers that fit (`Json.numbersFit_of_parse`) |
-/

import SqlFilter.Proofs.Wire.Records

namespace SqlFilter

/-! ### Integers are in the range of binary64 -/

namespace Decimal

theorem roundHalfEven_le (num den : Nat) : roundHalfEven num den ≤ num / den + 1 := by
  simp only [roundHalfEven]
  split
  · omega
  · split <;> omega

theorem pow2_eq (e : Nat) : pow2 e = 2 ^ e :=
  rfl

/-- The exponent of the first bit of an integer. -/
theorem binaryExponent_one {n : Nat} (hn : n ≠ 0) : binaryExponent n 1 = n.log2 := by
  have hle : 2 ^ n.log2 ≤ n := Nat.log2_self_le hn
  have hlog : Nat.log2 1 = 0 := by decide
  simp [binaryExponent, hlog, pow2_eq, Nat.not_lt.2 hle]

/-- An integer is less than `2 ^ 53` units of its mantissa. -/
theorem scaled_lt {n : Nat} (x : Int) (hx : x = (n.log2 : Int) - 52) :
    n * pow2 (-x).toNat / pow2 x.toNat < 2 ^ 53 := by
  have hlt : n < 2 ^ (n.log2 + 1) := Nat.lt_log2_self
  rw [pow2_eq, pow2_eq, Nat.div_lt_iff_lt_mul (Nat.two_pow_pos _)]
  rcases Nat.le_total n.log2 52 with hsmall | hlarge
  · have hup : n.log2 + 1 + (-x).toNat = 53 := by omega
    have hdown : x.toNat = 0 := by omega
    calc n * 2 ^ (-x).toNat
        < 2 ^ (n.log2 + 1) * 2 ^ (-x).toNat := Nat.mul_lt_mul_of_pos_right hlt (Nat.two_pow_pos _)
      _ = 2 ^ 53 * 2 ^ x.toNat := by rw [← Nat.pow_add, hup, hdown, Nat.pow_zero, Nat.mul_one]
  · have hup : (-x).toNat = 0 := by omega
    have hdown : n.log2 + 1 = 53 + x.toNat := by omega
    calc n * 2 ^ (-x).toNat
        = n := by rw [hup, Nat.pow_zero, Nat.mul_one]
      _ < 2 ^ (n.log2 + 1) := hlt
      _ = 2 ^ 53 * 2 ^ x.toNat := by rw [hdown, Nat.pow_add]

/-- The bits of a 64-bit integer are those of a finite number. -/
theorem nearestBits_lt {n : Nat} (hn : n ≠ 0) (hlt : n < 2 ^ 64) :
    nearestBits n 1 < infinityBits := by
  have hlog : n.log2 < 64 := (Nat.log2_lt hn).2 hlt
  have hexponent : max (binaryExponent n 1 - 52) (-1074) = (n.log2 : Int) - 52 := by
    rw [binaryExponent_one hn]
    omega
  have hmantissa : roundHalfEven (n * pow2 (-((n.log2 : Int) - 52)).toNat)
      (pow2 ((n.log2 : Int) - 52).toNat) ≤ 2 ^ 53 :=
    Nat.le_trans (roundHalfEven_le _ _) (scaled_lt _ rfl)
  have hcarry : ((n.log2 : Int) - 52 + 1074).toNat * 2 ^ 52 ≤ 1085 * 2 ^ 52 :=
    Nat.mul_le_mul_right _ (by omega)
  simp only [nearestBits, hexponent, Nat.one_mul, infinityBits, pow2_eq 52]
  omega

/-- **A 64-bit integer has a nearest floating point number.** -/
theorem isSome_nearest? {n : Nat} (negative : Bool) (hlt : n < 2 ^ 64) :
    (nearest? negative n 0).isSome = true := by
  by_cases hn : n = 0
  · simp [nearest?, Nearest.bits?, hn]
  · have hdigits : (Nat.toDigits 10 n).length ≤ 20 :=
      (Nat.length_toDigits_le_iff (by decide) (by decide)).2 (by omega)
    have hleast : ¬((Nat.toDigits 10 n).length : Int) < -323 := by omega
    have hgreatest : ¬310 ≤ ((Nat.toDigits 10 n).length : Int) := by omega
    simp [nearest?, Nearest.bits?, hn, hleast, hgreatest, pow10, nearestBits_lt hn hlt]

end Decimal

/-! ### Numbers that fit -/

namespace Json

/-- Whether a number is one that a document may hold: an integer fits 64 bits with a sign
or without. -/
def Number.Fits : Number → Prop
  | .int n => -2 ^ 63 ≤ n ∧ n < 2 ^ 64
  | .float _ => True

instance : ∀ n : Number, Decidable n.Fits
  | .int n => inferInstanceAs (Decidable (-2 ^ 63 ≤ n ∧ n < 2 ^ 64))
  | .float _ => inferInstanceAs (Decidable True)

/-- **An integer that fits** has a nearest floating point number. -/
theorem Number.Fits.exists_nearest? {n : Int} (hn : (Number.int n).Fits) :
    ∃ x, Decimal.nearest? (decide (n < 0)) n.natAbs 0 = some x := by
  obtain ⟨hlower, hupper⟩ := hn
  have habs : n.natAbs < 2 ^ 64 := by omega
  exact Option.isSome_iff_exists.1 (Decimal.isSome_nearest? _ habs)

namespace Numeral

theorem le_ofDigitChars (digits : List Char) (n : Nat) : n ≤ Nat.ofDigitChars 10 digits n := by
  induction digits generalizing n with
  | nil => exact Nat.le_refl n
  | cons c cs ih =>
    rw [Nat.ofDigitChars_cons]
    exact Nat.le_trans (by omega) (ih _)

/-- Digits that 64 bits hold are all taken up. -/
theorem takeUp_ofNatLT {m : Nat} (hm : m < UInt64.size) {digits : List Char}
    (h : Nat.ofDigitChars 10 digits m < UInt64.size) :
    takeUp (.ofNatLT m hm) digits = (.ofNatLT _ h, []) := by
  induction digits generalizing m with
  | nil => simp only [takeUp, Nat.ofDigitChars_nil]
  | cons c cs ih =>
    have hfirst : Nat.ofDigitChars 10 [c] m < UInt64.size :=
      Nat.lt_of_le_of_lt (le_ofDigitChars cs _) h
    simp only [takeUp, UInt64.toNat_ofNatLT, dif_pos hfirst]
    exact ih hfirst h

/-- **A numeral whose digits 64 bits hold** is scaled as it is written: it is rounded at the
two steps and not before. -/
theorem decimal_eq {n : Numeral}
    (h : ofDigits (n.whole ++ n.fraction.getD []) < UInt64.size) :
    n.decimal = (.ofNatLT _ h, n.writtenExponent - (n.fraction.getD []).length) := by
  have hall : ofDigits (n.whole ++ n.fraction.getD []) =
      Nat.ofDigitChars 10 (n.fraction.getD []) (ofDigits n.whole) := Nat.ofDigitChars_append 0
  have hwhole : ofDigits n.whole < UInt64.size :=
    Nat.lt_of_le_of_lt (le_ofDigitChars (n.fraction.getD []) _) (hall ▸ h)
  have hhigh : takeUp 0 n.whole = (.ofNatLT _ hwhole, []) := takeUp_ofNatLT (by decide) hwhole
  have hlow := takeUp_ofNatLT hwhole (hall ▸ h)
  simp only [decimal, hhigh, hlow, hall]
  simp

/-- At times the two steps miss the nearest number. -/
example : Numeral.toFloat? ⟨false, "97".toList, some "45365320034685".toList, none⟩ ≠
    Decimal.nearest? false 9745365320034685 (-14) := by
  decide +kernel

end Numeral

/-- **A numeral** denotes a number that fits. -/
theorem Numeral.fits_value {n : Numeral} {v : Number} (h : n.value = some v) : v.Fits := by
  rw [Numeral.value] at h
  cases hi : n.toInt? with
  | none =>
    rw [hi] at h
    obtain ⟨x, -, rfl⟩ := Option.map_eq_some_iff.1 h
    trivial
  | some i =>
    rw [hi] at h
    obtain rfl := Option.some.inj h
    have hmin : Int64.minValue.toInt = -2 ^ 63 := by decide
    have hsize : (UInt64.size : Int) = 2 ^ 64 := by decide
    simp only [Numeral.toInt?] at hi
    split at hi
    · split at hi
      · obtain ⟨hbounds, hi⟩ := Option.ite_none_right_eq_some.1 hi
        obtain rfl := Option.some.inj hi
        simp only [Number.Fits]
        omega
      · obtain ⟨hbound, hi⟩ := Option.ite_none_right_eq_some.1 hi
        obtain rfl := Option.some.inj hi
        simp only [Number.Fits]
        omega
    · cases hi

/-! ### Names that can be passed over -/

/-- What can be read can be passed over. -/
def Lexeme.Skips {α : Type} (l : Lexeme α) : Prop :=
  ∀ a, l.value = .ok a → l.skipped = .ok ()

/-- Pieces are decoded only before a closing quote. -/
theorem Quoted.eq_ok_of_decode {ending : Except Problem Unit} {pieces : List Piece}
    {chars : List Char} (h : decode ending pieces = .ok chars) : ending = .ok () := by
  cases ending with
  | ok u => rfl
  | error p =>
    fun_induction decode (.error p) pieces generalizing chars with
    | case2 c ps ih =>
      obtain ⟨rest, hrest⟩ := exists_of_map_eq_ok h
      exact ih hrest
    | case7 high _ _ low qs _ ih =>
      obtain ⟨rest, hrest⟩ := exists_of_map_eq_ok h
      exact ih hrest
    | case9 unit ps _ _ ih =>
      obtain ⟨rest, hrest⟩ := exists_of_map_eq_ok h
      exact ih hrest
    | _ => cases h

/-! ### Trees and documents -/

/-- All numbers of a document fit. -/
inductive NumbersFit : Json → Prop
  | null : NumbersFit .null
  | bool (b : Bool) : NumbersFit (.bool b)
  | num {n : Number} (h : n.Fits) : NumbersFit (.num n)
  | str (s : String) : NumbersFit (.str s)
  | arr {items : List Json} (h : ∀ j ∈ items, NumbersFit j) : NumbersFit (.arr items)
  | obj {members : List (String × Json)} (h : ∀ m ∈ members, NumbersFit m.2) :
      NumbersFit (.obj members)

namespace Written

/-- What holds of the tree of every text: a number that can be read fits, and the name of a
member that can be read can be passed over. -/
inductive Sound : Written → Prop
  | null : Sound .null
  | bool (b : Bool) : Sound (.bool b)
  | number {n : Lexeme Number} (h : ∀ v, n.value = .ok v → v.Fits) : Sound (.number n)
  | string (s : Lexeme String) : Sound (.string s)
  | array {items : List Written} (h : ∀ w ∈ items, Sound w) (stop : Option Problem) :
      Sound (.array items stop)
  | object {members : List (Lexeme String × Written)} (hnames : ∀ m ∈ members, m.1.Skips)
      (h : ∀ m ∈ members, Sound m.2) (stop : Option Problem) : Sound (.object members stop)
  | fault (p : Problem) : Sound (.fault p)

theorem sound_array_iff {items : List Written} {stop : Option Problem} :
    (array items stop).Sound ↔ ∀ w ∈ items, w.Sound := by
  constructor
  · rintro (_ | _ | _ | _ | hitems | _ | _)
    exact hitems
  · exact fun hitems => .array hitems stop

theorem sound_object_iff {members : List (Lexeme String × Written)} {stop : Option Problem} :
    (object members stop).Sound ↔ ∀ m ∈ members, m.1.Skips ∧ m.2.Sound := by
  constructor
  · rintro (_ | _ | _ | _ | _ | ⟨hnames, hvalues⟩ | _)
    exact fun m hm => ⟨hnames m hm, hvalues m hm⟩
  · exact fun h => .object (fun m hm => (h m hm).1) (fun m hm => (h m hm).2) stop

theorem sound_scanWord {value : Written} (h : value.Sound) (word text : List Char) :
    (scanWord value word text).1.Sound := by
  rw [scanWord]
  split
  · exact h
  · exact .fault _

theorem sound_scanNumber (text : List Char) : (scanNumber text).1.Sound := by
  refine .number fun v hv => ?_
  split at hv
  · cases hv
  · split at hv
    · rename_i hvalue
      cases hv
      exact Numeral.fits_value hvalue
    · cases hv

/-- **A string that can be read** can be passed over. -/
theorem skips_scanString (text : List Char) : (scanString text).1.Skips := by
  intro s hs
  obtain ⟨chars, hchars⟩ := exists_of_map_eq_ok hs
  exact Quoted.eq_ok_of_decode hchars

/-- What holds of the items of a scan holds of them by any name. -/
theorem forall_mem_of_eq {α β : Type} {p : α → Prop} {scanned : List α × β} {items : List α}
    {rest : β} (heq : scanned = (items, rest)) (h : ∀ a ∈ scanned.1, p a) : ∀ a ∈ items, p a := by
  subst heq
  exact h

mutual

/-- **A tree that is scanned** is sound; so are the items and the members that are scanned
for it. -/
theorem sound_scanValue : ∀ (fuel : Nat) (text : List Char), (scanValue fuel text).1.Sound
  | 0, _ => .fault _
  | fuel + 1, text => by
    rw [scanValue]
    repeat' split
    · exact .fault _
    · exact .string _
    · exact .array (List.forall_mem_nil _) _
    · exact .array (List.forall_mem_nil _) _
    · rename_i heq
      exact .array (forall_mem_of_eq heq (sound_scanItems fuel _)) _
    · exact .object (List.forall_mem_nil _) (List.forall_mem_nil _) _
    · exact .object (List.forall_mem_nil _) (List.forall_mem_nil _) _
    · rename_i heq
      exact sound_object_iff.2 (forall_mem_of_eq heq (sound_scanMembers fuel _))
    · exact sound_scanWord .null _ _
    · exact sound_scanWord (.bool _) _ _
    · exact sound_scanWord (.bool _) _ _
    · exact sound_scanNumber _
    · exact .fault _

theorem sound_scanItems : ∀ (fuel : Nat) (text : List Char),
    ∀ w ∈ (scanItems fuel text).1, w.Sound
  | 0, _ => List.forall_mem_nil _
  | fuel + 1, text => by
    have hitem := sound_scanValue fuel text
    rw [scanItems]
    split <;> rename_i heq <;> rw [heq] at hitem
    · exact List.forall_mem_singleton.2 hitem
    repeat' split
    · exact List.forall_mem_singleton.2 hitem
    · exact List.forall_mem_singleton.2 hitem
    · rename_i heq
      exact List.forall_mem_cons.2 ⟨hitem, forall_mem_of_eq heq (sound_scanItems fuel _)⟩
    · exact List.forall_mem_singleton.2 hitem

theorem sound_scanMembers : ∀ (fuel : Nat) (text : List Char),
    ∀ m ∈ (scanMembers fuel text).1, m.1.Skips ∧ m.2.Sound
  | 0, _ => List.forall_mem_nil _
  | fuel + 1, text => by
    rw [scanMembers]
    split
    · exact List.forall_mem_nil _
    split
    case isFalse => exact List.forall_mem_nil _
    rename_i cs _ _
    have hname := skips_scanString cs
    split <;> rename_i heq <;> rw [heq] at hname
    · exact List.forall_mem_singleton.2 ⟨hname, .fault _⟩
    rename_i rest
    have hvalue := sound_scanColonValue fuel rest
    split <;> rename_i heq <;> rw [heq] at hvalue
    · exact List.forall_mem_singleton.2 ⟨hname, hvalue⟩
    repeat' split
    · exact List.forall_mem_singleton.2 ⟨hname, hvalue⟩
    · exact List.forall_mem_singleton.2 ⟨hname, hvalue⟩
    · rename_i heq
      exact List.forall_mem_cons.2
        ⟨⟨hname, hvalue⟩, forall_mem_of_eq heq (sound_scanMembers fuel _)⟩
    · exact List.forall_mem_singleton.2 ⟨hname, hvalue⟩

theorem sound_scanColonValue : ∀ (fuel : Nat) (text : List Char),
    (scanColonValue fuel text).1.Sound
  | 0, _ => .fault _
  | fuel + 1, text => by
    rw [scanColonValue]
    repeat' split
    · exact .fault _
    · exact sound_scanValue fuel _
    · exact .fault _

end

/-- **The tree of a text** is sound. -/
theorem sound_tree (text : String) : (tree text).Sound :=
  sound_scanValue _ _

end Written

/-! ### Documents that are read -/

theorem mem_insertMember {name : String} {value : Json} {members : List (String × Json)}
    {m : String × Json} (h : m ∈ insertMember name value members) :
    m = (name, value) ∨ m ∈ members := by
  induction members with
  | nil => exact .inl (List.mem_singleton.1 h)
  | cons first rest ih =>
    obtain ⟨k, v⟩ := first
    rw [insertMember] at h
    split at h
    · exact List.mem_cons.1 h
    · split at h
      · exact (List.mem_cons.1 h).imp_right (List.mem_cons_of_mem _)
      · rcases List.mem_cons.1 h with rfl | h
        · exact .inr (List.mem_cons_self ..)
        · exact (ih h).imp_right (List.mem_cons_of_mem _)

/-- Nothing is in an object but its members as they were written. -/
theorem mem_of_mem_ofMembers {members : List (String × Json)} {m : String × Json}
    {all : List (String × Json)}
    (h : m ∈ members.foldl (fun all m => insertMember m.1 m.2 all) all) :
    m ∈ all ∨ m ∈ members := by
  induction members generalizing all with
  | nil => exact .inl h
  | cons first members ih =>
    rcases ih h with hall | hmem
    · rcases mem_insertMember hall with rfl | hmem
      · exact .inr (List.mem_cons_self ..)
      · exact .inl hmem
    · exact .inr (List.mem_cons_of_mem _ hmem)

/-- What a sound end gives is what was read before it. -/
theorem Written.eq_of_ended {α : Type} {stop : Option Problem} {result given : α}
    (h : ended stop result = .ok given) : given = result := by
  cases stop with
  | none => exact (Except.ok.inj h).symm
  | some p => cases h

theorem numbersFit_ofMembers {members : List (String × Json)}
    (h : ∀ m ∈ members, m.2.NumbersFit) : (ofMembers members).NumbersFit :=
  .obj fun m hm => (mem_of_mem_ofMembers hm).elim (fun h => absurd h List.not_mem_nil) (h m)

namespace Written

/-- **What is read as a document** holds only numbers that fit. -/
theorem numbersFit_of_readJson {depth : Nat} {w : Written} {j : Json} (hw : w.Sound)
    (h : w.readJson depth = .ok j) : j.NumbersFit := by
  induction hw generalizing depth j with
  | null =>
    rw [readJson] at h
    obtain rfl := Except.ok.inj h
    exact .null
  | bool b =>
    rw [readJson] at h
    obtain rfl := Except.ok.inj h
    exact .bool b
  | number hn =>
    rw [readJson] at h
    obtain ⟨v, hv⟩ := exists_of_map_eq_ok h
    rw [hv] at h
    obtain rfl := Except.ok.inj h
    exact .num (hn v hv)
  | string s =>
    rw [readJson] at h
    obtain ⟨v, hv⟩ := exists_of_map_eq_ok h
    rw [hv] at h
    obtain rfl := Except.ok.inj h
    exact .str v
  | array _ stop ih =>
    cases depth with
    | zero =>
      rw [readJson] at h
      cases h
    | succ depth =>
      rw [readJson] at h
      obtain ⟨docs, hdocs, h⟩ := exists_of_bind_eq_ok h
      obtain rfl := eq_of_ended h
      refine .arr fun doc hdoc => ?_
      obtain ⟨item, hitem, hread⟩ := exists_mem_of_mapM_eq_ok hdocs doc hdoc
      exact ih item hitem hread
  | object _ _ stop ih =>
    cases depth with
    | zero =>
      rw [readJson] at h
      cases h
    | succ depth =>
      rw [readJson] at h
      obtain ⟨all, hall, h⟩ := exists_of_bind_eq_ok h
      obtain rfl := Except.ok.inj h
      obtain ⟨docs, hdocs, hall⟩ := exists_of_bind_eq_ok hall
      obtain rfl := eq_of_ended hall
      refine numbersFit_ofMembers fun doc hdoc => ?_
      obtain ⟨member, hmember, hread⟩ := exists_mem_of_mapM_eq_ok hdocs doc hdoc
      obtain ⟨name, -, hread⟩ := exists_of_bind_eq_ok hread
      obtain ⟨value, hvalue, hread⟩ := exists_of_bind_eq_ok hread
      obtain rfl := Except.ok.inj hread
      exact ih member hmember hvalue
  | fault p =>
    rw [readJson] at h
    cases h

end Written

/-- Whether nothing but blanks stands behind the document of a text. -/
def Written.isWhole (text : String) : Bool :=
  ((ofText text).2.getD []).all isBlank

/-- A text is read as its tree is, as long as the tree is of the whole text. -/
theorem read_eq {α : Type} (reader : Written → Except Problem α) (text : String) :
    read reader text = reader (Written.tree text) >>= fun result =>
      if Written.isWhole text then .ok result else .error .malformed :=
  rfl

theorem read_of_isWhole {α : Type} {reader : Written → Except Problem α} {text : String}
    (h : Written.isWhole text = true) : read reader text = reader (Written.tree text) := by
  rw [read_eq, h]
  cases reader (Written.tree text) <;> rfl

/-- A text that is read is whole. -/
theorem read_eq_ok {α : Type} {reader : Written → Except Problem α} {text : String} {result : α}
    (h : read reader text = .ok result) :
    Written.isWhole text = true ∧ reader (Written.tree text) = .ok result := by
  rw [read_eq] at h
  obtain ⟨result', hresult, h⟩ := exists_of_bind_eq_ok h
  by_cases hwhole : Written.isWhole text = true
  · rw [hresult]
    exact ⟨hwhole, (if_pos hwhole).symm.trans h⟩
  · cases (if_neg hwhole).symm.trans h

/-- **The document of a text** holds only numbers that fit. -/
theorem numbersFit_of_parse {text : String} {j : Json} (h : parse text = .ok j) : j.NumbersFit :=
  Written.numbersFit_of_readJson (Written.sound_tree text) (read_eq_ok h).2

end Json
end SqlFilter
