/-
# Texts of values, arrays and objects

`Written.IsTextOf text j` says that `text` is a text of the document `j` wherever it stands:
whatever follows, if it can stand behind a value, the scan stops right behind `text` with a
tree that spells `j`.  Such texts are put together from such texts:

| document | its text | lemma |
| --- | --- | --- |
| `null`, a truth value | a word | `isTextOf_word` |
| a string, an integer | as it is written | `isTextOf_str`, `isTextOf_int` |
| an array | its items, with commas between them | `isTextOf_array` |
| an object | its members, with commas between them | `isTextOf_object` |

The blanks behind an opening bracket, a comma and a colon and those in front of a closing
bracket are parameters of the last two lemmas, so these hold in every layout.  The items of
an array are scanned one by one (`scanItems_separated`): behind an item stands a comma or the
closing bracket, and both can stand behind a value.  Members are scanned in the same way
(`scanMembers_separated`).
-/

import SqlFilter.Proofs.Wire.Documents
import SqlFilter.Proofs.Wire.Lexemes

namespace SqlFilter
namespace Json

namespace Written

/-! ### Values -/

theorem scanValue_append {gap : List Char} (h : Blank gap) (fuel : Nat) (text : List Char) :
    scanValue fuel (gap ++ text) = scanValue fuel text := by
  cases fuel with
  | zero => rfl
  | succ fuel => rw [scanValue, scanValue, skipBlanks_append h]

theorem scanItems_append {gap : List Char} (h : Blank gap) (fuel : Nat) (text : List Char) :
    scanItems fuel (gap ++ text) = scanItems fuel text := by
  cases fuel with
  | zero => rfl
  | succ fuel => rw [scanItems, scanItems, scanValue_append h]

theorem scanMembers_append {gap : List Char} (h : Blank gap) (fuel : Nat) (text : List Char) :
    scanMembers fuel (gap ++ text) = scanMembers fuel text := by
  cases fuel with
  | zero => rfl
  | succ fuel => rw [scanMembers, scanMembers, skipBlanks_append h]

/-- **A text is that of a document**, wherever it stands: it begins like a value, and it is
scanned as the document up to what ends the value. -/
structure IsTextOf (text : List Char) (j : Json) : Prop where
  head : ∃ c cs, text = c :: cs ∧ isBlank c = false ∧ c ≠ ']'
  scan : ∀ (fuel : Nat) (rest : List Char), text.length ≤ fuel → EndsValue rest →
    ∃ w, scanValue fuel (text ++ rest) = (w, some rest) ∧ w.document? = some j

theorem expectWord_append (word rest : List Char) : expectWord word (word ++ rest) = .ok rest := by
  induction word with
  | nil => rfl
  | cons w word ih => rw [List.cons_append, expectWord, if_pos rfl, ih]

/-- A word is the text of what it stands for. -/
theorem isTextOf_word {c : Char} {word : List Char} {value : Written} {j : Json}
    (hblank : isBlank c = false) (hclosing : c ≠ ']')
    (hscan : ∀ fuel cs, scanValue (fuel + 1) (c :: cs) = scanWord value word cs)
    (hj : value.document? = some j) : IsTextOf (c :: word) j where
  head := ⟨c, word, rfl, hblank, hclosing⟩
  scan fuel rest hfuel _ := by
    obtain ⟨fuel, rfl⟩ := Nat.exists_eq_add_of_le' (Nat.le_trans (Nat.le_add_left 1 _) hfuel)
    refine ⟨value, ?_, hj⟩
    rw [List.cons_append, hscan, scanWord, expectWord_append]

theorem isTextOf_null : IsTextOf nullWord .null :=
  isTextOf_word (by decide) (by decide)
    (fun _ _ => by rw [scanValue, skipBlanks_cons (by decide)]; rfl) rfl

theorem isTextOf_bool (b : Bool) : IsTextOf (writeBool b) (.bool b) := by
  cases b
  · exact isTextOf_word (by decide) (by decide)
      (fun _ _ => by rw [scanValue, skipBlanks_cons (by decide)]; rfl) rfl
  · exact isTextOf_word (by decide) (by decide)
      (fun _ _ => by rw [scanValue, skipBlanks_cons (by decide)]; rfl) rfl

theorem isTextOf_str (s : String) : IsTextOf (writeString s) (.str s) where
  head := ⟨'"', _, rfl, by decide, by decide⟩
  scan fuel rest hfuel _ := by
    obtain ⟨fuel, rfl⟩ := Nat.exists_eq_add_of_le' (Nat.le_trans (Nat.le_add_left 1 _) hfuel)
    refine ⟨.string ⟨.ok s, .ok ()⟩, ?_, rfl⟩
    have htext : writeString s ++ rest = '"' :: (s.toList.flatMap escapeChar ++ '"' :: rest) := by
      simp [writeString]
    rw [htext, scanValue, skipBlanks_cons (by decide)]
    simp only [scanString_append]
    rfl

/-- An integer begins with its sign or with a digit. -/
theorem exists_writeInt_eq_cons (n : Int) :
    ∃ c cs, writeInt n = c :: cs ∧ (c = '-' ∨ c.isDigit = true) := by
  rw [writeInt]
  split
  · exact ⟨'-', _, rfl, .inl rfl⟩
  · obtain ⟨c, cs, hcs, hc⟩ := Numeral.exists_toDigits_eq_cons n.natAbs
    exact ⟨c, cs, hcs, .inr hc⟩

theorem isTextOf_int {n : Int} (h : (Number.int n).Fits) :
    IsTextOf (writeInt n) (.num (.int n)) := by
  obtain ⟨c, cs, htext, hc⟩ := exists_writeInt_eq_cons n
  have hne : ∀ d : Char, d.isDigit = false → d ≠ '-' → c ≠ d := by
    rintro d hdigit hminus rfl
    exact hc.elim hminus fun h => Bool.false_ne_true (hdigit.symm.trans h)
  have hblank : isBlank c = false := by
    simp [isBlank, hne ' ' (by decide) (by decide), hne '\t' (by decide) (by decide),
      hne '\n' (by decide) (by decide), hne '\r' (by decide) (by decide)]
  refine ⟨⟨c, cs, htext, hblank, hne ']' (by decide) (by decide)⟩, fun fuel rest hfuel hrest => ?_⟩
  rw [htext] at hfuel
  obtain ⟨fuel, rfl⟩ := Nat.exists_eq_add_of_le' (Nat.le_trans (Nat.le_add_left 1 _) hfuel)
  refine ⟨.number ⟨.ok (.int n), .ok ()⟩, ?_, rfl⟩
  rw [htext, List.cons_append, scanValue, skipBlanks_cons hblank]
  simp only
  rw [if_neg (hne '"' (by decide) (by decide)), if_neg (hne '[' (by decide) (by decide)),
    if_neg (hne '\x7b' (by decide) (by decide)), if_neg (hne 'n' (by decide) (by decide)),
    if_neg (hne 't' (by decide) (by decide)), if_neg (hne 'f' (by decide) (by decide)), if_pos hc,
    ← List.cons_append, ← htext, scanNumber_append h hrest]

/-! ### Arrays -/

/-- Texts after the first one, each after a comma and a gap. -/
def separated (gap : List Char) (others : List (List Char)) : List Char :=
  others.flatMap fun text => ',' :: (gap ++ text)

@[simp] theorem separated_nil (gap : List Char) : separated gap [] = [] := rfl

@[simp] theorem separated_cons (gap text : List Char) (others : List (List Char)) :
    separated gap (text :: others) = ',' :: (gap ++ (text ++ separated gap others)) := by
  simp [separated]

/-- What follows an item or a member can stand behind a value. -/
theorem endsValue_separated (gap : List Char) {after : List Char} (hafter : Blank after)
    (others : List (List Char)) {close : Char} (hclose : close = ']' ∨ close = '\x7d')
    (rest : List Char) : EndsValue (separated gap others ++ (after ++ close :: rest)) := by
  cases others with
  | nil =>
    show EndsValue (after ++ close :: rest)
    exact (endsValue_cons (.inr hclose) rest).append_blank hafter
  | cons text others => exact endsValue_cons (.inl rfl) _

/-- Behind the last text stands the closing bracket. -/
theorem skipBlanks_separated_nil {gap after : List Char} (hafter : Blank after) {close : Char}
    (hclose : close = ']' ∨ close = '\x7d') (rest : List Char) :
    skipBlanks (separated gap [] ++ (after ++ close :: rest)) = close :: rest := by
  show skipBlanks (after ++ close :: rest) = _
  rw [skipBlanks_append hafter, skipBlanks_cons]
  rcases hclose with rfl | rfl <;> decide

/-- Behind any other text stands a comma. -/
theorem skipBlanks_separated_cons (gap text : List Char) (others : List (List Char))
    (rest : List Char) :
    skipBlanks (separated gap (text :: others) ++ rest) =
      ',' :: (gap ++ (text ++ (separated gap others ++ rest))) := by
  rw [separated_cons, List.cons_append, skipBlanks_cons (by decide), List.append_assoc,
    List.append_assoc]

theorem length_separated_cons (first text gap : List Char) (others : List (List Char)) :
    (first ++ separated gap (text :: others)).length =
      first.length + (gap.length + (text ++ separated gap others).length + 1) := by
  simp

/-- **Items are scanned one by one** up to the closing bracket. -/
theorem scanItems_separated {gap after : List Char} (hgap : Blank gap) (hafter : Blank after)
    {first : List Char} {j : Json} (hfirst : IsTextOf first j) {others : List (List Char)}
    {js : List Json} (hothers : List.Forall₂ IsTextOf others js) (fuel : Nat)
    (hfuel : (first ++ separated gap others).length < fuel) (rest : List Char) :
    ∃ ws, scanItems fuel (first ++ (separated gap others ++ (after ++ ']' :: rest))) =
        (ws, none, some rest) ∧ itemDocuments? ws = some (j :: js) := by
  induction hothers generalizing first j fuel with
  | nil =>
    obtain ⟨fuel, rfl⟩ : ∃ f, fuel = f + 1 := ⟨fuel - 1, by omega⟩
    obtain ⟨w, hscan, hw⟩ := hfirst.scan fuel _ (by simp at hfuel; omega)
      (endsValue_separated gap hafter [] (.inl rfl) rest)
    refine ⟨[w], ?_, ?_⟩
    · rw [scanItems, hscan]
      simp only [skipBlanks_separated_nil hafter (.inl rfl), ↓reduceIte]
    · rw [itemDocuments?, hw]
      rfl
  | @cons text j' others js htext hothers ih =>
    obtain ⟨fuel, rfl⟩ : ∃ f, fuel = f + 1 := ⟨fuel - 1, by omega⟩
    have hlength := length_separated_cons first text gap others
    obtain ⟨w, hscan, hw⟩ := hfirst.scan fuel _ (by omega)
      (endsValue_separated gap hafter (text :: others) (.inl rfl) rest)
    obtain ⟨ws, hitems, hws⟩ := ih htext fuel (by omega)
    refine ⟨w :: ws, ?_, ?_⟩
    · rw [scanItems, hscan]
      simp only [↓reduceIte, skipBlanks_separated_cons, scanItems_append hgap, hitems]
      rw [if_neg (by decide)]
    · rw [itemDocuments?, hw, hws]
      rfl

/-- The text of an array without items. -/
theorem isTextOf_nil : IsTextOf ['[', ']'] (.arr []) where
  head := ⟨'[', [']'], rfl, by decide, by decide⟩
  scan fuel rest hfuel _ := by
    obtain ⟨fuel, rfl⟩ : ∃ f, fuel = f + 1 := ⟨fuel - 1, by simp at hfuel; omega⟩
    refine ⟨.array [] none, ?_, rfl⟩
    show scanValue (fuel + 1) ('[' :: ']' :: rest) = _
    rw [scanValue, skipBlanks_cons (by decide)]
    simp only [skipBlanks_cons (show isBlank ']' = false by decide)]
    rfl

/-- **The text of an array**: its items with commas between them, and blanks around them. -/
theorem isTextOf_array {gap after : List Char} (hgap : Blank gap) (hafter : Blank after)
    {first : List Char} {j : Json} (hfirst : IsTextOf first j) {others : List (List Char)}
    {js : List Json} (hothers : List.Forall₂ IsTextOf others js) :
    IsTextOf ('[' :: (gap ++ (first ++ (separated gap others ++ (after ++ [']'])))))
      (.arr (j :: js)) where
  head := ⟨'[', _, rfl, by decide, by decide⟩
  scan fuel rest hfuel _ := by
    obtain ⟨c, cs, hc, hblank, hclosing⟩ := hfirst.head
    have hlength : ('[' :: (gap ++ (first ++ (separated gap others ++ (after ++ [']']))))).length =
        (first ++ separated gap others).length + gap.length + after.length + 2 := by
      simp
      omega
    obtain ⟨fuel, rfl⟩ : ∃ f, fuel = f + 1 := ⟨fuel - 1, by omega⟩
    obtain ⟨ws, hitems, hws⟩ := scanItems_separated hgap hafter hfirst hothers fuel (by omega) rest
    have htail : gap ++ (first ++ (separated gap others ++ (after ++ [']']))) ++ rest =
        gap ++ (first ++ (separated gap others ++ (after ++ ']' :: rest))) := by
      simp
    have hopen : skipBlanks (gap ++ (first ++ (separated gap others ++ (after ++ ']' :: rest)))) =
        c :: (cs ++ (separated gap others ++ (after ++ ']' :: rest))) := by
      rw [skipBlanks_append hgap, hc, List.cons_append, skipBlanks_cons hblank]
    rw [hc, List.cons_append] at hitems
    refine ⟨.array ws none, ?_, ?_⟩
    · rw [List.cons_append, htail, scanValue, skipBlanks_cons (by decide)]
      simp only [hopen, if_neg hclosing, hitems]
      rfl
    · rw [document?, hws]
      rfl

/-! ### Objects -/

/-- A member, with a gap behind its colon. -/
def memberText (colon : List Char) (name : String) (value : List Char) : List Char :=
  writeString name ++ ':' :: (colon ++ value)

/-- A text is that of a member. -/
def IsMemberTextOf (colon text : List Char) (m : String × Json) : Prop :=
  ∃ value, text = memberText colon m.1 value ∧ IsTextOf value m.2

/-- The name of a member is scanned before its colon, and its value behind it. -/
theorem IsMemberTextOf.scan {colon text : List Char} {m : String × Json}
    (h : IsMemberTextOf colon text m) (hcolon : Blank colon) (fuel : Nat) {rest : List Char}
    (hfuel : text.length ≤ fuel) (hrest : EndsValue rest) :
    ∃ cs value w, text ++ rest = '"' :: cs ∧ scanString cs = (⟨.ok m.1, .ok ()⟩, some value) ∧
      scanColonValue fuel value = (w, some rest) ∧ w.document? = some m.2 := by
  obtain ⟨value, rfl, hvalue⟩ := h
  have hlength : (memberText colon m.1 value).length =
      (m.1.toList.flatMap escapeChar).length + colon.length + value.length + 3 := by
    simp [memberText, writeString]
    omega
  obtain ⟨fuel, rfl⟩ : ∃ f, fuel = f + 1 := ⟨fuel - 1, by omega⟩
  obtain ⟨w, hscan, hw⟩ := hvalue.scan fuel rest (by omega) hrest
  refine ⟨m.1.toList.flatMap escapeChar ++ '"' :: ':' :: (colon ++ (value ++ rest)),
    ':' :: (colon ++ (value ++ rest)), w, ?_, scanString_append _ _, ?_, hw⟩
  · simp [memberText, writeString]
  · rw [scanColonValue, skipBlanks_cons (by decide)]
    simp only [↓reduceIte, scanValue_append hcolon, hscan]

/-- **Members are scanned one by one** up to the closing brace. -/
theorem scanMembers_separated {gap colon after : List Char} (hgap : Blank gap)
    (hcolon : Blank colon) (hafter : Blank after) {first : List Char} {m : String × Json}
    (hfirst : IsMemberTextOf colon first m) {others : List (List Char)}
    {ms : List (String × Json)} (hothers : List.Forall₂ (IsMemberTextOf colon) others ms)
    (fuel : Nat) (hfuel : (first ++ separated gap others).length < fuel) (rest : List Char) :
    ∃ ws, scanMembers fuel (first ++ (separated gap others ++ (after ++ '\x7d' :: rest))) =
        (ws, none, some rest) ∧ memberDocuments? ws = some (m :: ms) := by
  induction hothers generalizing first m fuel with
  | nil =>
    obtain ⟨fuel, rfl⟩ : ∃ f, fuel = f + 1 := ⟨fuel - 1, by omega⟩
    obtain ⟨cs, value, w, htext, hname, hscan, hw⟩ :=
      hfirst.scan hcolon fuel (by simp at hfuel; omega)
        (endsValue_separated gap hafter [] (.inr rfl) rest)
    refine ⟨[(⟨.ok m.1, .ok ()⟩, w)], ?_, ?_⟩
    · rw [htext, scanMembers, skipBlanks_cons (by decide)]
      simp only [↓reduceIte, hname, hscan, skipBlanks_separated_nil hafter (.inr rfl)]
    · rw [memberDocuments?, hw]
      rfl
  | @cons text m' others ms htext hothers ih =>
    obtain ⟨fuel, rfl⟩ : ∃ f, fuel = f + 1 := ⟨fuel - 1, by omega⟩
    have hlength := length_separated_cons first text gap others
    obtain ⟨cs, value, w, hcs, hname, hscan, hw⟩ := hfirst.scan hcolon fuel (by omega)
      (endsValue_separated gap hafter (text :: others) (.inr rfl) rest)
    obtain ⟨ws, hmembers, hws⟩ := ih htext fuel (by omega)
    refine ⟨(⟨.ok m.1, .ok ()⟩, w) :: ws, ?_, ?_⟩
    · rw [hcs, scanMembers, skipBlanks_cons (by decide)]
      simp only [↓reduceIte, hname, hscan, skipBlanks_separated_cons, scanMembers_append hgap,
        hmembers]
      rw [if_neg (by decide)]
    · rw [memberDocuments?, hw, hws]
      rfl

/-- The text of an object without members. -/
theorem isTextOf_object_nil : IsTextOf ['\x7b', '\x7d'] (.obj []) where
  head := ⟨'\x7b', ['\x7d'], rfl, by decide, by decide⟩
  scan fuel rest hfuel _ := by
    obtain ⟨fuel, rfl⟩ : ∃ f, fuel = f + 1 := ⟨fuel - 1, by simp at hfuel; omega⟩
    refine ⟨.object [] none, ?_, rfl⟩
    show scanValue (fuel + 1) ('\x7b' :: '\x7d' :: rest) = _
    rw [scanValue, skipBlanks_cons (by decide)]
    simp only [skipBlanks_cons (show isBlank '\x7d' = false by decide)]
    rfl

/-- **The text of an object**: its members with commas between them, and blanks around
them. -/
theorem isTextOf_object {gap colon after : List Char} (hgap : Blank gap) (hcolon : Blank colon)
    (hafter : Blank after) {first : List Char} {m : String × Json}
    (hfirst : IsMemberTextOf colon first m) {others : List (List Char)}
    {ms : List (String × Json)} (hothers : List.Forall₂ (IsMemberTextOf colon) others ms) :
    IsTextOf ('\x7b' :: (gap ++ (first ++ (separated gap others ++ (after ++ ['\x7d'])))))
      (.obj (m :: ms)) where
  head := ⟨'\x7b', _, rfl, by decide, by decide⟩
  scan fuel rest hfuel _ := by
    have hlength :
        ('\x7b' :: (gap ++ (first ++ (separated gap others ++ (after ++ ['\x7d']))))).length =
          (first ++ separated gap others).length + gap.length + after.length + 2 := by
      simp
      omega
    obtain ⟨fuel, rfl⟩ : ∃ f, fuel = f + 1 := ⟨fuel - 1, by omega⟩
    obtain ⟨ws, hmembers, hws⟩ := scanMembers_separated hgap hcolon hafter hfirst hothers fuel
      (by omega) rest
    obtain ⟨cs, hcs⟩ : ∃ cs, first = '"' :: cs := by
      obtain ⟨value, rfl, -⟩ := hfirst
      exact ⟨_, rfl⟩
    have htail : gap ++ (first ++ (separated gap others ++ (after ++ ['\x7d']))) ++ rest =
        gap ++ (first ++ (separated gap others ++ (after ++ '\x7d' :: rest))) := by
      simp
    have hopen : skipBlanks
          (gap ++ (first ++ (separated gap others ++ (after ++ '\x7d' :: rest)))) =
        '"' :: (cs ++ (separated gap others ++ (after ++ '\x7d' :: rest))) := by
      rw [skipBlanks_append hgap, hcs, List.cons_append, skipBlanks_cons (by decide)]
    rw [hcs, List.cons_append] at hmembers
    refine ⟨.object ws none, ?_, ?_⟩
    · rw [List.cons_append, htail, scanValue, skipBlanks_cons (by decide)]
      simp only [hopen, hmembers]
      rfl
    · rw [document?, hws]
      rfl

end Written
end Json
end SqlFilter
