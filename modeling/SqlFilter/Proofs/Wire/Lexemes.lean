/-
# Numbers and strings that are read back

What the writer writes is not read alone: behind a number stands a comma, a bracket, a blank,
or nothing, and the scan has to stop there.  `EndsValue` says of a text that it can stand
behind a value; none of these texts goes on with a number (`EndsValue.stops`).

| written | scanned up to what follows as |
| --- | --- |
| an integer (`writeInt`) | the numeral of its digits, which denotes it if it fits |
| a character of a string (`escapeChar`) | one piece: itself, or a unit below the blank |
| a string (`writeString`) | its pieces, which are decoded as the string |

A control character without a letter is written with the four digits of its unit.  Such a
unit is no surrogate, so it is never taken together with what follows
(`Quoted.scan_escapeChar`), and a string is decoded one character at a time.
-/

import SqlFilter.Json.Writer
import SqlFilter.Proofs.Wire.Numbers

namespace SqlFilter
namespace Json

/-! ### Blanks and ends -/

/-- A text of blanks. -/
def Blank (text : List Char) : Prop :=
  ∀ c ∈ text, isBlank c = true

theorem skipBlanks_append {gap : List Char} (h : Blank gap) (text : List Char) :
    skipBlanks (gap ++ text) = skipBlanks text :=
  List.dropWhile_append_of_pos h

theorem skipBlanks_cons {c : Char} (h : isBlank c = false) (cs : List Char) :
    skipBlanks (c :: cs) = c :: cs :=
  List.dropWhile_cons_of_neg (by simp [h])

/-- A text that can stand behind a value: nothing, a blank, a comma or a closing bracket. -/
def EndsValue (rest : List Char) : Prop :=
  ∀ c ∈ rest.head?, isBlank c = true ∨ c = ',' ∨ c = ']' ∨ c = '\x7d'

theorem endsValue_nil : EndsValue [] := by
  simp [EndsValue]

theorem endsValue_cons {c : Char} (h : c = ',' ∨ c = ']' ∨ c = '\x7d') (cs : List Char) :
    EndsValue (c :: cs) := by
  intro d hd
  obtain rfl : c = d := by simpa using hd
  exact .inr h

theorem EndsValue.append_blank {gap rest : List Char} (h : EndsValue rest) (hgap : Blank gap) :
    EndsValue (gap ++ rest) := by
  cases gap with
  | nil => exact h
  | cons c gap =>
    intro d hd
    obtain rfl : c = d := by simpa using hd
    exact .inl (hgap c (List.mem_cons_self ..))

/-- What can stand behind a value does not go on with a number. -/
theorem EndsValue.stops {rest : List Char} (h : EndsValue rest) :
    ∀ c ∈ rest.head?, c.isDigit = false ∧ c ≠ '.' ∧ c ≠ 'e' ∧ c ≠ 'E' := by
  intro c hc
  rcases h c hc with hblank | rfl | rfl | rfl
  · simp only [isBlank, Bool.or_eq_true, beq_iff_eq] at hblank
    rcases hblank with ((rfl | rfl) | rfl) | rfl <;> decide
  all_goals decide

/-! ### Integers -/

namespace Numeral

/-- A number is written with at least one digit. -/
theorem exists_toDigits_eq_cons (n : Nat) :
    ∃ c cs, Nat.toDigits 10 n = c :: cs ∧ c.isDigit = true := by
  obtain ⟨c, cs, hcs⟩ := List.exists_cons_of_ne_nil (Nat.toDigits_ne_nil (n := n) (b := 10))
  refine ⟨c, cs, hcs, Nat.isDigit_of_mem_toDigits (b := 10) (n := n) (by decide) (by decide) ?_⟩
  rw [hcs]
  exact List.mem_cons_self ..

/-- The digits of a number begin with a zero only if they are no more than that. -/
theorem head?_toDigits_ne {n : Nat} (hn : n ≠ 0) : (Nat.toDigits 10 n).head? ≠ some '0' := by
  induction n using Nat.strongRecOn with
  | ind n ih =>
    by_cases hlt : n < 10
    · have hdigit : ∀ k < 10, k ≠ 0 → k.digitChar ≠ '0' := by decide
      rw [Nat.toDigits_of_lt_base hlt, List.head?_cons]
      exact fun h => hdigit n hlt hn (Option.some.inj h)
    · rw [Nat.toDigits_of_base_le (by decide) (by omega),
        List.head?_append_of_ne_nil _ Nat.toDigits_ne_nil]
      exact ih (n / 10) (by omega) (by omega)

theorem scanDigits_append (atEnd : Problem) {digits rest : List Char} (hne : digits ≠ [])
    (hdigits : ∀ c ∈ digits, c.isDigit = true) (hrest : EndsValue rest) :
    scanDigits atEnd (digits ++ rest) = .ok (digits, rest) := by
  have hcut : ∀ ds : List Char, (∀ c ∈ ds, c.isDigit = true) →
      (ds ++ rest).takeWhile Char.isDigit = ds ∧ (ds ++ rest).dropWhile Char.isDigit = rest := by
    intro ds hds
    rw [List.takeWhile_append_of_pos hds, List.dropWhile_append_of_pos hds]
    cases rest with
    | nil => simp
    | cons c cs => simp [(hrest.stops c rfl).1]
  cases digits with
  | nil => exact absurd rfl hne
  | cons c cs =>
    obtain ⟨hc, hcs⟩ := List.forall_mem_cons.1 hdigits
    rw [List.cons_append, scanDigits, if_pos hc, (hcut cs hcs).1, (hcut cs hcs).2]

theorem scanWhole_toDigits (atEnd : Problem) (n : Nat) {rest : List Char} (hrest : EndsValue rest) :
    scanWhole atEnd (Nat.toDigits 10 n ++ rest) = .ok (Nat.toDigits 10 n, rest) := by
  have hdigits : ∀ c ∈ Nat.toDigits 10 n, c.isDigit = true :=
    fun c hc => Nat.isDigit_of_mem_toDigits (by decide) (by decide) hc
  rw [scanWhole, scanDigits_append atEnd Nat.toDigits_ne_nil hdigits hrest]
  simp only [bind, Except.bind]
  split
  · rename_i second others heq
    by_cases hn : n = 0
    · subst hn
      cases heq
    · exact absurd (by rw [heq, List.head?_cons]) (head?_toDigits_ne hn)
  · rfl

theorem scanFraction_of_endsValue (atEnd : Problem) {rest : List Char} (hrest : EndsValue rest) :
    scanFraction atEnd rest = .ok (none, rest) := by
  unfold scanFraction
  split
  · exact absurd rfl (hrest.stops '.' rfl).2.1
  · rfl

theorem scanExponent_of_endsValue (atEnd : Problem) {rest : List Char} (hrest : EndsValue rest) :
    scanExponent atEnd rest = .ok (none, rest) := by
  cases rest with
  | nil => rfl
  | cons c cs =>
    obtain ⟨-, -, he, hE⟩ := hrest.stops c rfl
    rw [scanExponent, if_neg (by simp [he, hE])]

/-- An integer as it is written. -/
def ofInt (n : Int) : Numeral where
  negative := decide (n < 0)
  whole := Nat.toDigits 10 n.natAbs

/-- **An integer is scanned as it is written.** -/
theorem scan_writeInt (atEnd : Problem) (n : Int) {rest : List Char} (hrest : EndsValue rest) :
    scan atEnd (writeInt n ++ rest) = .ok (ofInt n, rest) := by
  have hwhole := scanWhole_toDigits atEnd n.natAbs hrest
  by_cases hn : n < 0
  · rw [writeInt, if_pos hn, List.cons_append, scan]
    simp only [hwhole, scanFraction_of_endsValue atEnd hrest, scanExponent_of_endsValue atEnd hrest,
      bind, Except.bind, pure, Except.pure, ofInt, hn, decide_true]
  · have hunsigned : ∀ cs, Nat.toDigits 10 n.natAbs ++ rest ≠ '-' :: cs := by
      intro cs heq
      obtain ⟨c, ds, hds, hc⟩ := exists_toDigits_eq_cons n.natAbs
      rw [hds, List.cons_append] at heq
      obtain ⟨rfl, -⟩ := List.cons.inj heq
      cases hc
    rw [writeInt, if_neg hn, scan]
    · simp only [hwhole, scanFraction_of_endsValue atEnd hrest,
        scanExponent_of_endsValue atEnd hrest, bind, Except.bind, pure, Except.pure, ofInt, hn,
        decide_false]
    · exact hunsigned

/-- **An integer that fits is what its numeral denotes.** -/
theorem value_ofInt {n : Int} (h : (Number.int n).Fits) : (ofInt n).value = some (.int n) := by
  obtain ⟨hlower, hupper⟩ := h
  have hmin : Int64.minValue.toInt = -2 ^ 63 := by decide
  have hsize : (UInt64.size : Int) = 2 ^ 64 := by decide
  have hdigits : (ofDigits (Nat.toDigits 10 n.natAbs) : Int) = n.natAbs := by
    rw [ofDigits, Nat.ofDigitChars_ten_toDigits]
  have hint : (ofInt n).toInt? = some n := by
    simp only [toInt?, ofInt, hdigits, hmin, hsize, decide_eq_true_eq]
    split
    · rw [if_pos (by omega)]
      exact congrArg some (by omega)
    · rw [if_pos (by omega)]
      exact congrArg some (by omega)
  rw [value, hint]

end Numeral

/-! ### Strings -/

namespace Quoted

/-- An escape letter stands for the character it is written for. -/
theorem unescape?_of_escapeLetter? {c letter : Char} (h : escapeLetter? c = some letter) :
    letter ≠ 'u' ∧ unescape? letter = some c := by
  unfold escapeLetter? at h
  split at h <;> cases h <;> exact ⟨by decide, rfl⟩

theorem hexValue?_of_lt {n : Nat} (h : n < 0x20) :
    hexValue? ['0', '0', Nat.digitChar (n / 16), Nat.digitChar (n % 16)] = some n := by
  have hall : ∀ k < 0x20,
      hexValue? ['0', '0', Nat.digitChar (k / 16), Nat.digitChar (k % 16)] = some k := by
    decide
  exact hall n h

/-- **A character is scanned as one piece**, which is decoded as this character. -/
theorem scan_escapeChar (c : Char) (text : List Char) :
    ∃ p, scan (escapeChar c ++ text) = (scan text).cons p ∧
      ∀ ps, decode (.ok ()) (p :: ps) = (decode (.ok ()) ps).map (c :: ·) := by
  rw [escapeChar]
  cases hletter : escapeLetter? c with
  | some letter =>
    obtain ⟨hu, hc⟩ := unescape?_of_escapeLetter? hletter
    refine ⟨.char c, ?_, fun ps => rfl⟩
    show scan ('\\' :: letter :: text) = _
    rw [scan, if_neg (by decide), if_pos rfl, scanEscape.eq_def]
    simp only [if_neg hu, hc]
  | none =>
    have hquote : c ≠ '"' := by
      rintro rfl
      cases hletter
    have hbackslash : c ≠ '\\' := by
      rintro rfl
      cases hletter
    by_cases hcontrol : c.toNat < 0x20
    · refine ⟨.unit c.toNat, ?_, fun ps => ?_⟩
      · rw [if_pos hcontrol]
        show scan ('\\' :: 'u' :: '0' :: '0' :: Nat.digitChar (c.toNat / 16) ::
          Nat.digitChar (c.toNat % 16) :: text) = _
        rw [scan, if_neg (by decide), if_pos rfl, scanEscape, if_pos rfl]
        simp only [hexValue?_of_lt hcontrol]
      · have hlow : isLow c.toNat = false := by
          rw [isLow, decide_eq_false_iff_not]
          omega
        have hhigh : isHigh c.toNat = false := by
          rw [isHigh, decide_eq_false_iff_not]
          omega
        rw [decode.eq_def]
        simp only [hlow, hhigh, Bool.false_eq_true, ↓reduceIte, Char.ofNat_toNat]
    · refine ⟨.char c, ?_, fun ps => rfl⟩
      rw [if_neg hcontrol, List.singleton_append, scan, if_neg hquote, if_neg hbackslash,
        if_neg hcontrol]

/-- **A string is scanned to its closing quote**, and decoded as it is. -/
theorem scan_flatMap_escapeChar (chars rest : List Char) :
    ∃ ps, scan (chars.flatMap escapeChar ++ '"' :: rest) = ⟨ps, .ok rest⟩ ∧
      decode (.ok ()) ps = .ok chars := by
  induction chars with
  | nil => exact ⟨[], by simp [scan], rfl⟩
  | cons c cs ih =>
    obtain ⟨ps, hscan, hdecode⟩ := ih
    obtain ⟨p, hp, hdecoded⟩ := scan_escapeChar c (cs.flatMap escapeChar ++ '"' :: rest)
    refine ⟨p :: ps, ?_, ?_⟩
    · rw [List.flatMap_cons, List.append_assoc, hp, hscan]
      rfl
    · rw [hdecoded, hdecode]
      rfl

end Quoted

namespace Written

theorem scanString_append (s : String) (rest : List Char) :
    scanString (s.toList.flatMap escapeChar ++ '"' :: rest) = (⟨.ok s, .ok ()⟩, some rest) := by
  obtain ⟨ps, hscan, hdecode⟩ := Quoted.scan_flatMap_escapeChar s.toList rest
  have hvalue : (Quoted.scan (s.toList.flatMap escapeChar ++ '"' :: rest)).value = .ok s := by
    rw [hscan]
    show (Quoted.decode (.ok ()) ps).map String.ofList = .ok s
    rw [hdecode]
    exact congrArg Except.ok String.ofList_toList
  rw [scanString, hvalue, hscan]
  rfl

theorem scanNumber_append {n : Int} (h : (Number.int n).Fits) {rest : List Char}
    (hrest : EndsValue rest) :
    scanNumber (writeInt n ++ rest) = (.number ⟨.ok (.int n), .ok ()⟩, some rest) := by
  rw [scanNumber, Numeral.scan_writeInt _ n hrest, Numeral.scan_writeInt _ n hrest]
  simp only [Numeral.value_ofInt h]
  rfl

end Written
end Json
end SqlFilter
