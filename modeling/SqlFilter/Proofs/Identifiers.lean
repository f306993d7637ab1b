/-
# The language of plain identifiers

A plain identifier is a word (`Identifier.IsWord`) of at most 63 characters:

| place | characters |
| --- | --- |
| the first one | ASCII letters and the underscore (`Identifier.Opening`) |
| all others | the same and ASCII digits (`Identifier.Inner`) |

The test counts bytes and not characters.  All characters of a word are printable ASCII
(`Identifier.Inner.printable`), so a word has as many bytes as characters
(`Identifier.IsWord.utf8ByteSize_eq`) and both limits draw the same line.  A text with a
character of several bytes is no word, however short it is.
-/

import Mathlib.Data.String.Basic
import SqlFilter.Identifier

namespace SqlFilter
namespace Identifier

/-! ### Characters -/

/-- An ASCII letter or an underscore. -/
def Opening (c : Char) : Prop :=
  'a' ≤ c ∧ c ≤ 'z' ∨ 'A' ≤ c ∧ c ≤ 'Z' ∨ c = '_'

/-- An ASCII letter, an ASCII digit or an underscore. -/
def Inner (c : Char) : Prop :=
  Opening c ∨ '0' ≤ c ∧ c ≤ '9'

theorem isStart_eq_true_iff {c : Char} : isStart c = true ↔ Opening c := by
  have hupper : c.isUpper = true ↔ 'A' ≤ c ∧ c ≤ 'Z' := decide_eq_true_iff
  have hlower : c.isLower = true ↔ 'a' ≤ c ∧ c ≤ 'z' := by
    show (decide ('a' ≤ c) && decide (c ≤ 'z')) = true ↔ _
    rw [Bool.and_eq_true, decide_eq_true_iff, decide_eq_true_iff]
  show ((c.isUpper || c.isLower) || c == '_') = true ↔ _
  rw [Bool.or_eq_true, Bool.or_eq_true, hupper, hlower, beq_iff_eq, Opening]
  exact or_assoc.trans or_left_comm

theorem isPart_eq_true_iff {c : Char} : isPart c = true ↔ Inner c := by
  have hdigit : c.isDigit = true ↔ '0' ≤ c ∧ c ≤ '9' := by
    show (decide ('0' ≤ c) && decide (c ≤ '9')) = true ↔ _
    rw [Bool.and_eq_true, decide_eq_true_iff, decide_eq_true_iff]
  have hpart : isPart c = true ↔ isStart c = true ∨ c.isDigit = true := by
    show ((c.isAlpha || c.isDigit) || c == '_') = true ↔ (c.isAlpha || c == '_') = true ∨ _
    rw [Bool.or_eq_true, Bool.or_eq_true, Bool.or_eq_true]
    exact or_right_comm
  rw [hpart, isStart_eq_true_iff, hdigit, Inner]

/-- **The characters of an identifier are printable ASCII.** -/
theorem Inner.printable {c : Char} (h : Inner c) : 0x20 < c.toNat ∧ c.toNat < 0x80 := by
  simp only [Inner, Opening, Char.le_def, UInt32.le_iff_toNat_le] at h
  rcases h with (⟨hlower, hupper⟩ | ⟨hlower, hupper⟩ | rfl) | ⟨hlower, hupper⟩
  · exact ⟨Nat.lt_of_lt_of_le (by decide) hlower, Nat.lt_of_le_of_lt hupper (by decide)⟩
  · exact ⟨Nat.lt_of_lt_of_le (by decide) hlower, Nat.lt_of_le_of_lt hupper (by decide)⟩
  · decide
  · exact ⟨Nat.lt_of_lt_of_le (by decide) hlower, Nat.lt_of_le_of_lt hupper (by decide)⟩

/-- The signs with which a text would leave the place of a type: quotes, the dot, the
colon, parentheses and the semicolon. -/
def signs : List Char :=
  ['"', '\'', '\x60', '.', ':', '(', ')', ';']

theorem Inner.not_mem_signs {c : Char} (h : Inner c) : c ∉ signs := by
  have hsigns : (signs.all fun d => !isPart d) = true := by decide
  intro hmem
  have hpart := List.all_eq_true.1 hsigns c hmem
  rw [isPart_eq_true_iff.2 h] at hpart
  cases hpart

/-! ### Words -/

/-- A word of any length. -/
structure IsWord (text : String) : Prop where
  ne_empty : text ≠ ""
  opening : ∀ c ∈ text.toList.head?, Opening c
  inner : ∀ c ∈ text.toList.tail, Inner c

namespace IsWord

variable {text : String}

theorem inner_of_mem (h : IsWord text) {c : Char} (hc : c ∈ text.toList) : Inner c := by
  cases htext : text.toList with
  | nil => simp [htext] at hc
  | cons first rest =>
    rw [htext] at hc
    rcases List.mem_cons.1 hc with rfl | hc
    · exact .inl (h.opening _ (by simp [htext]))
    · exact h.inner _ (by simpa [htext] using hc)

/-- **A word has as many bytes as characters.** -/
theorem utf8ByteSize_eq (h : IsWord text) : text.utf8ByteSize = text.length := by
  have hsize : ∀ chars : List Char, (∀ c ∈ chars, Inner c) →
      String.utf8Len chars = chars.length := by
    intro chars
    induction chars with
    | nil => exact fun _ => rfl
    | cons c cs ih =>
      intro hchars
      obtain ⟨hc, hcs⟩ := List.forall_mem_cons.1 hchars
      have hone : c.utf8Size = 1 :=
        Char.utf8Size_eq_one_iff.2 (UInt32.le_iff_toNat_le.2 (Nat.le_of_lt_succ hc.printable.2))
      rw [String.utf8Len_cons, ih hcs, hone, List.length_cons]
  rw [← String.utf8Len_toList, hsize _ fun c hc => h.inner_of_mem hc, String.length_toList]

end IsWord

/-- The test asks for a word, and limits its bytes. -/
theorem isPlain_eq_true_iff {text : String} :
    isPlain text = true ↔ IsWord text ∧ text.utf8ByteSize ≤ maxBytes := by
  rw [isPlain, Bool.and_eq_true, decide_eq_true_eq, and_comm]
  refine and_congr_left fun _ => ?_
  cases htext : text.toList with
  | nil =>
    have hempty : text = "" := String.toList_eq_nil_iff.1 htext
    exact iff_of_false Bool.false_ne_true fun h => h.ne_empty hempty
  | cons first rest =>
    have hne : text ≠ "" := fun h => by simp [h] at htext
    simp only [Bool.and_eq_true, isStart_eq_true_iff, List.all_eq_true, isPart_eq_true_iff]
    constructor
    · rintro ⟨hfirst, hrest⟩
      exact ⟨hne, by simpa [htext] using hfirst, by simpa [htext] using hrest⟩
    · intro h
      exact ⟨h.opening first (by simp [htext]), fun c hc => h.inner c (by simpa [htext] using hc)⟩

/-- **Plain identifiers are exactly the documented ones.**  A text is plain if and only if
it has between 1 and 63 characters, the first one an ASCII letter or an underscore and all
others these or ASCII digits.  A limit of 63 bytes and one of 63 characters admit the same
words.  And all characters of a plain identifier are ASCII, none of them is blank or a
control character, and none is a sign. -/
theorem isPlain_exactly (text : String) :
    (isPlain text = true ↔
        (1 ≤ text.length ∧ text.length ≤ 63) ∧ (∀ c ∈ text.toList.head?, Opening c) ∧
          ∀ c ∈ text.toList.tail, Inner c) ∧
      (IsWord text ∧ text.utf8ByteSize ≤ maxBytes ↔ IsWord text ∧ text.length ≤ 63) ∧
      (isPlain text = true →
        ∀ c ∈ text.toList, (0x20 < c.toNat ∧ c.toNat < 0x80) ∧ c ∉ signs) := by
  have hlimits : IsWord text ∧ text.utf8ByteSize ≤ maxBytes ↔ IsWord text ∧ text.length ≤ 63 :=
    and_congr_right fun h => by rw [h.utf8ByteSize_eq, maxBytes]
  have hlength : 1 ≤ text.length ↔ text ≠ "" := by
    rw [Nat.one_le_iff_ne_zero, ← String.length_toList, ne_eq, List.length_eq_zero_iff,
      String.toList_eq_nil_iff]
  refine ⟨?_, hlimits, fun h c hc => ?_⟩
  · rw [isPlain_eq_true_iff, hlimits, hlength]
    constructor
    · rintro ⟨⟨hne, hopening, hinner⟩, hle⟩
      exact ⟨⟨hne, hle⟩, hopening, hinner⟩
    · rintro ⟨⟨hne, hle⟩, hopening, hinner⟩
      exact ⟨⟨hne, hopening, hinner⟩, hle⟩
  · have hinner := (isPlain_eq_true_iff.1 h).1.inner_of_mem hc
    exact ⟨hinner.printable, hinner.not_mem_signs⟩

/-- At the limit: 63 letters are plain and have no semicolon among them, and 62 letters and
one of two bytes are not, though they are 63 characters. -/
theorem isPlain_exactly_limit :
    (isPlain (String.ofList (List.replicate 63 'x')) = true ∧
        ';' ∉ (String.ofList (List.replicate 63 'x')).toList) ∧
      isPlain (String.ofList (List.replicate 62 'x' ++ ['é'])) = false := by
  have hplain : isPlain (String.ofList (List.replicate 63 'x')) = true := by
    refine (isPlain_exactly _).1.2 ⟨?_, ?_, ?_⟩
    · rw [String.length_ofList, List.length_replicate]
      decide
    · simp [Opening]
    · simp [Opening, Inner]
  refine ⟨⟨hplain, fun hmem => ((isPlain_exactly _).2.2 hplain _ hmem).2 (by decide)⟩, ?_⟩
  rw [Bool.eq_false_iff]
  intro h
  have hascii := ((isPlain_exactly _).2.2 h 'é' (by simp)).1.2
  exact absurd hascii (by decide)

end Identifier
end SqlFilter
