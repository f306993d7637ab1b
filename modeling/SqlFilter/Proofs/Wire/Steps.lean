/-
# How many steps a scan takes

A document is scanned with a number of steps that bounds the recursion, and a scan that
runs out of steps would report a text that ends too early.  It never does.  What a part of
the scan leaves is shorter than what it was given (`Written.shortens_scanValue`), so the
steps that are needed are counted by the length of the text alone:

| scan of | steps that are enough for `n` characters |
| --- | --- |
| a value | `2 n + 1` |
| the items of an array | `2 n + 2` |
| the members of an object | `2 n + 1` |
| a colon and a value | `2 n + 1` |

With so many steps or more the result is the same (`Written.scanValue_congr`), and
`Written.ofText` has more (`Written.ofText_eq`).
-/

import SqlFilter.Proofs.Wire.Records

namespace SqlFilter
namespace Json

/-! ### Lexemes -/

theorem length_skipBlanks_le (text : List Char) : (skipBlanks text).length ≤ text.length :=
  (List.dropWhile_suffix isBlank).length_le

/-- Behind the blanks and a character a text is shorter. -/
theorem length_lt_of_skipBlanks {text cs : List Char} {c : Char}
    (h : skipBlanks text = c :: cs) : cs.length < text.length := by
  have hle := length_skipBlanks_le text
  rw [h, List.length_cons] at hle
  exact hle

theorem length_expectWord {word text rest : List Char} (h : expectWord word text = .ok rest) :
    rest.length ≤ text.length := by
  fun_induction expectWord word text with
  | case1 text =>
    obtain rfl := Except.ok.inj h
    exact Nat.le_refl _
  | case3 word c text ih => exact Nat.le_succ_of_le (ih h)
  | _ => cases h

namespace Quoted

mutual

/-- A string ends behind its front. -/
theorem length_scan : ∀ (text : List Char) {rest : List Char}, (scan text).rest = .ok rest →
    rest.length < text.length
  | [], _, h => nomatch h
  | c :: cs, rest, h => by
    rw [scan] at h
    split at h
    · obtain rfl := Except.ok.inj h
      exact Nat.lt_succ_self _
    split at h
    · exact Nat.lt_succ_of_lt (length_scanEscape cs h)
    split at h
    · cases h
    · exact Nat.lt_succ_of_lt (length_scan cs h)

theorem length_scanEscape : ∀ (text : List Char) {rest : List Char},
    (scanEscape text).rest = .ok rest → rest.length < text.length
  | [], _, h => nomatch h
  | e :: cs, rest, h => by
    unfold scanEscape at h
    split at h
    · split at h
      · split at h
        · rename_i tail _ _ _
          exact Nat.lt_trans (length_scan tail h) (by simp only [List.length_cons]; omega)
        · cases h
      · cases h
    · split at h
      · exact Nat.lt_succ_of_lt (length_scan cs h)
      · cases h

end

end Quoted

namespace Numeral

theorem length_scanDigits {atEnd : Problem} {text digits rest : List Char}
    (h : scanDigits atEnd text = .ok (digits, rest)) : rest.length < text.length := by
  unfold scanDigits at h
  split at h
  · cases h
  · rename_i c cs
    split at h
    · obtain ⟨-, rfl⟩ := Prod.mk.inj (Except.ok.inj h)
      exact Nat.lt_succ_of_le (List.dropWhile_suffix _).length_le
    · cases h

theorem length_scanWhole {atEnd : Problem} {text digits rest : List Char}
    (h : scanWhole atEnd text = .ok (digits, rest)) : rest.length < text.length := by
  obtain ⟨⟨ds, behind⟩, hdigits, h⟩ := exists_of_bind_eq_ok h
  have hlt := length_scanDigits hdigits
  simp only at h
  split at h
  · cases h
  · obtain ⟨-, rfl⟩ := Prod.mk.inj (Except.ok.inj h)
    exact hlt

theorem length_scanFraction {atEnd : Problem} {text rest : List Char}
    {fraction : Option (List Char)} (h : scanFraction atEnd text = .ok (fraction, rest)) :
    rest.length ≤ text.length := by
  unfold scanFraction at h
  split at h
  · obtain ⟨⟨ds, behind⟩, hdigits, h⟩ := exists_of_bind_eq_ok h
    obtain ⟨-, rfl⟩ := Prod.mk.inj (Except.ok.inj h)
    exact Nat.le_succ_of_le (Nat.le_of_lt (length_scanDigits hdigits))
  · obtain ⟨-, rfl⟩ := Prod.mk.inj (Except.ok.inj h)
    exact Nat.le_refl _

theorem length_scanSign_le (text : List Char) : (scanSign text).2.length ≤ text.length := by
  unfold scanSign
  split
  · exact Nat.le_succ _
  · exact Nat.le_succ _
  · exact Nat.le_refl _

theorem length_scanExponent {atEnd : Problem} {text rest : List Char}
    {exponent : Option (Bool × List Char)} (h : scanExponent atEnd text = .ok (exponent, rest)) :
    rest.length ≤ text.length := by
  unfold scanExponent at h
  split at h
  · rename_i c cs
    split at h
    · obtain ⟨⟨ds, behind⟩, hdigits, h⟩ := exists_of_bind_eq_ok h
      obtain ⟨-, rfl⟩ := Prod.mk.inj (Except.ok.inj h)
      have hsign := length_scanSign_le cs
      have hlt := length_scanDigits hdigits
      exact Nat.le_succ_of_le (Nat.le_of_lt (Nat.lt_of_lt_of_le hlt hsign))
    · obtain ⟨-, rfl⟩ := Prod.mk.inj (Except.ok.inj h)
      exact Nat.le_refl _
  · obtain ⟨-, rfl⟩ := Prod.mk.inj (Except.ok.inj h)
    exact Nat.le_refl _

/-- A numeral has at least one digit. -/
theorem length_scan {atEnd : Problem} {text rest : List Char} {n : Numeral}
    (h : scan atEnd text = .ok (n, rest)) : rest.length < text.length := by
  unfold scan at h
  split at h
  rename_i negative unsigned hsign
  have hunsigned : unsigned.length ≤ text.length := by
    split at hsign <;> cases hsign
    · exact Nat.le_succ _
    · exact Nat.le_refl _
  obtain ⟨⟨whole, behind⟩, hwhole, h⟩ := exists_of_bind_eq_ok h
  obtain ⟨⟨fraction, after⟩, hfraction, h⟩ := exists_of_bind_eq_ok h
  obtain ⟨⟨exponent, last⟩, hexponent, h⟩ := exists_of_bind_eq_ok h
  obtain ⟨-, rfl⟩ := Prod.mk.inj (Except.ok.inj h)
  calc last.length
      ≤ after.length := length_scanExponent hexponent
    _ ≤ behind.length := length_scanFraction hfraction
    _ < unsigned.length := length_scanWhole hwhole
    _ ≤ text.length := hunsigned

end Numeral

/-! ### Parts of a document -/

namespace Written

/-- What a part of the scan leaves is shorter than the text. -/
def Shortens (rest : Option (List Char)) (text : List Char) : Prop :=
  ∀ behind ∈ rest, behind.length < text.length

theorem shortens_none (text : List Char) : Shortens none text :=
  fun _ h => nomatch h

theorem shortens_some {rest text : List Char} : Shortens (some rest) text ↔
    rest.length < text.length := by
  simp [Shortens]

theorem shortens_scanWord (value : Written) (word : List Char) {text cs : List Char} {c : Char}
    (h : skipBlanks text = c :: cs) : Shortens (scanWord value word cs).2 text := by
  rw [scanWord]
  split
  · rename_i rest hrest
    exact shortens_some.2 (Nat.lt_of_le_of_lt (length_expectWord hrest) (length_lt_of_skipBlanks h))
  · exact shortens_none _

theorem shortens_scanString (text : List Char) : Shortens (scanString text).2 text := by
  intro behind h
  rw [scanString] at h
  cases hrest : (Quoted.scan text).rest with
  | error p => rw [hrest] at h; cases h
  | ok rest =>
    rw [hrest] at h
    obtain rfl := Option.some.inj h
    exact Quoted.length_scan text hrest

theorem shortens_scanNumber (text : List Char) : Shortens (scanNumber text).2 text := by
  intro behind h
  rw [scanNumber] at h
  cases hscan : Numeral.scan .malformed text with
  | error p => rw [hscan] at h; cases h
  | ok p =>
    rw [hscan] at h
    obtain rfl := Option.some.inj h
    exact Numeral.length_scan hscan

mutual

/-- **What is left behind a value** is shorter than the text; so is what is left behind the
items of an array and the members of an object. -/
theorem shortens_scanValue : ∀ (fuel : Nat) (text : List Char),
    Shortens (scanValue fuel text).2 text
  | 0, _ => shortens_none _
  | fuel + 1, text => by
    rw [scanValue]
    split
    · exact shortens_none _
    rename_i c cs htext
    have hcs := length_lt_of_skipBlanks htext
    split
    · exact fun behind h => Nat.lt_trans (shortens_scanString cs behind h) hcs
    split
    · split
      · exact shortens_none _
      rename_i d ds hds
      have hds := length_lt_of_skipBlanks hds
      split
      · exact shortens_some.2 (Nat.lt_trans hds hcs)
      · have hitems := shortens_scanItems fuel (d :: ds)
        exact fun behind h => Nat.lt_trans (Nat.lt_of_lt_of_le (hitems behind h) hds) hcs
    split
    · split
      · exact shortens_none _
      rename_i d ds hds
      have hds := length_lt_of_skipBlanks hds
      split
      · exact shortens_some.2 (Nat.lt_trans hds hcs)
      · have hmembers := shortens_scanMembers fuel (d :: ds)
        exact fun behind h => Nat.lt_trans (Nat.lt_of_lt_of_le (hmembers behind h) hds) hcs
    split
    · exact shortens_scanWord _ _ htext
    split
    · exact shortens_scanWord _ _ htext
    split
    · exact shortens_scanWord _ _ htext
    split
    · have hnumber := shortens_scanNumber (c :: cs)
      exact fun behind h => Nat.lt_of_lt_of_le (hnumber behind h) hcs
    · exact shortens_none _

theorem shortens_scanItems : ∀ (fuel : Nat) (text : List Char),
    Shortens (scanItems fuel text).2.2 text
  | 0, _ => shortens_none _
  | fuel + 1, text => by
    have hitem := shortens_scanValue fuel text
    rw [scanItems]
    split <;> rename_i heq <;> rw [heq] at hitem
    · exact shortens_none _
    rename_i rest
    have hrest := shortens_some.1 hitem
    split
    · exact shortens_none _
    rename_i c cs hcs
    have hcs := Nat.lt_trans (length_lt_of_skipBlanks hcs) hrest
    split
    · exact shortens_some.2 hcs
    split
    · exact fun behind h => Nat.lt_trans (shortens_scanItems fuel cs behind h) hcs
    · exact shortens_none _

theorem shortens_scanMembers : ∀ (fuel : Nat) (text : List Char),
    Shortens (scanMembers fuel text).2.2 text
  | 0, _ => shortens_none _
  | fuel + 1, text => by
    rw [scanMembers]
    split
    · exact shortens_none _
    rename_i q cs htext
    have hcs := length_lt_of_skipBlanks htext
    split
    case isFalse => exact shortens_none _
    have hname := shortens_scanString cs
    split <;> rename_i heq <;> rw [heq] at hname
    · exact shortens_none _
    rename_i rest
    have hrest := Nat.lt_trans (shortens_some.1 hname) hcs
    have hvalue := shortens_scanColonValue fuel rest
    split <;> rename_i heq <;> rw [heq] at hvalue
    · exact shortens_none _
    rename_i behind
    have hbehind := Nat.lt_trans (shortens_some.1 hvalue) hrest
    split
    · exact shortens_none _
    rename_i c cs hcs
    have hcs := Nat.lt_trans (length_lt_of_skipBlanks hcs) hbehind
    split
    · exact shortens_some.2 hcs
    split
    · exact fun last h => Nat.lt_trans (shortens_scanMembers fuel cs last h) hcs
    · exact shortens_none _

theorem shortens_scanColonValue : ∀ (fuel : Nat) (text : List Char),
    Shortens (scanColonValue fuel text).2 text
  | 0, _ => shortens_none _
  | fuel + 1, text => by
    rw [scanColonValue]
    split
    · exact shortens_none _
    rename_i c cs htext
    split
    · exact fun behind h =>
        Nat.lt_trans (shortens_scanValue fuel cs behind h) (length_lt_of_skipBlanks htext)
    · exact shortens_none _

end

/-! ### Enough steps -/

mutual

/-- **A value is scanned alike** with any number of steps that is enough. -/
theorem scanValue_congr : ∀ {fuel fuel' : Nat} {text : List Char},
    2 * text.length < fuel → 2 * text.length < fuel' → scanValue fuel text = scanValue fuel' text
  | fuel + 1, fuel' + 1, text, h, h' => by
    rw [scanValue, scanValue]
    cases htext : skipBlanks text with
    | nil => rfl
    | cons c cs =>
      have hcs := length_lt_of_skipBlanks htext
      cases hinside : skipBlanks cs with
      | nil => simp only [hinside]
      | cons d ds =>
        have hds := length_lt_of_skipBlanks hinside
        have hitems : scanItems fuel (d :: ds) = scanItems fuel' (d :: ds) :=
          scanItems_congr (by rw [List.length_cons]; omega) (by rw [List.length_cons]; omega)
        have hmembers : scanMembers fuel (d :: ds) = scanMembers fuel' (d :: ds) :=
          scanMembers_congr (by rw [List.length_cons]; omega) (by rw [List.length_cons]; omega)
        simp only [hinside, hitems, hmembers]

theorem scanItems_congr : ∀ {fuel fuel' : Nat} {text : List Char},
    2 * text.length + 1 < fuel → 2 * text.length + 1 < fuel' →
      scanItems fuel text = scanItems fuel' text
  | fuel + 1, fuel' + 1, text, h, h' => by
    have hitem : scanValue fuel text = scanValue fuel' text :=
      scanValue_congr (by omega) (by omega)
    have hshort := shortens_scanValue fuel' text
    rw [scanItems, scanItems, hitem]
    rcases hvalue : scanValue fuel' text with ⟨item, _ | rest⟩
    · rfl
    rw [hvalue] at hshort
    have hrest := shortens_some.1 hshort
    cases hbehind : skipBlanks rest with
    | nil => simp only [hbehind]
    | cons c cs =>
      have hcs := length_lt_of_skipBlanks hbehind
      have hitems : scanItems fuel cs = scanItems fuel' cs :=
        scanItems_congr (by omega) (by omega)
      simp only [hbehind, hitems]

theorem scanMembers_congr : ∀ {fuel fuel' : Nat} {text : List Char},
    2 * text.length < fuel → 2 * text.length < fuel' →
      scanMembers fuel text = scanMembers fuel' text
  | fuel + 1, fuel' + 1, text, h, h' => by
    rw [scanMembers, scanMembers]
    cases htext : skipBlanks text with
    | nil => rfl
    | cons q cs =>
      have hcs := length_lt_of_skipBlanks htext
      have hshort := shortens_scanString cs
      rcases hname : scanString cs with ⟨name, _ | rest⟩
      · simp only [hname]
      rw [hname] at hshort
      have hrest := shortens_some.1 hshort
      have hcolon : scanColonValue fuel rest = scanColonValue fuel' rest :=
        scanColonValue_congr (by omega) (by omega)
      have hshort := shortens_scanColonValue fuel' rest
      rcases hvalue : scanColonValue fuel' rest with ⟨value, _ | behind⟩
      · simp only [hname, hcolon, hvalue]
      rw [hvalue] at hshort
      have hbehind := shortens_some.1 hshort
      cases hnext : skipBlanks behind with
      | nil => simp only [hname, hcolon, hvalue, hnext]
      | cons c ds =>
        have hds := length_lt_of_skipBlanks hnext
        have hmembers : scanMembers fuel ds = scanMembers fuel' ds :=
          scanMembers_congr (by omega) (by omega)
        simp only [hname, hcolon, hvalue, hnext, hmembers]

theorem scanColonValue_congr : ∀ {fuel fuel' : Nat} {text : List Char},
    2 * text.length < fuel → 2 * text.length < fuel' →
      scanColonValue fuel text = scanColonValue fuel' text
  | fuel + 1, fuel' + 1, text, h, h' => by
    rw [scanColonValue, scanColonValue]
    cases htext : skipBlanks text with
    | nil => rfl
    | cons c cs =>
      have hcs := length_lt_of_skipBlanks htext
      have hvalue : scanValue fuel cs = scanValue fuel' cs :=
        scanValue_congr (by omega) (by omega)
      simp only [hvalue]

end

/-- **The steps of the scan of a text are enough**: with more of them the document and the
text after it are the same. -/
theorem ofText_eq {text : String} {fuel : Nat} (h : 2 * text.toList.length < fuel) :
    ofText text = scanValue fuel text.toList :=
  scanValue_congr (by omega) h

end Written

end Json
end SqlFilter
