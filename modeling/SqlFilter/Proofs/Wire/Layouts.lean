/-
# Documents that are read back

A document is written as a text and read from a text, and this module closes the circle for
documents without floating point numbers (`Json.Integral`): the text of such a document, in
either layout, spells it.  The compact text (`Written.isTextOf_compact`) has no blanks, and
the one over several lines (`Written.isTextOf_pretty`) has a line break behind every opening
bracket and every comma.

A compact text holds no line break (`newline_notMem_compact`): a string escapes every line
break in it, and nothing else has any.

Readers open a limited number of arrays and objects.  A document within the limit is read,
and one that is nested too deeply is refused (`Written.readJson_of_lt_depth`).  So a text that
spells a document is read as this document at each limit that the document keeps and as
nothing at any other limit (`Json.ReadsAs`), and never as another document (`ReadsAs.unique`).
-/

import SqlFilter.Proofs.Wire.Reading
import SqlFilter.Proofs.Wire.Texts

namespace SqlFilter
namespace Json

/-! ### Documents as they are written -/

/-- A document without floating point numbers whose integers fit. -/
inductive Integral : Json → Prop
  | null : Integral .null
  | bool (b : Bool) : Integral (.bool b)
  | int {n : Int} (h : (Number.int n).Fits) : Integral (.num (.int n))
  | str (s : String) : Integral (.str s)
  | arr {items : List Json} (h : ∀ j ∈ items, Integral j) : Integral (.arr items)
  | obj {members : List (String × Json)} (h : ∀ m ∈ members, Integral m.2) :
      Integral (.obj members)

theorem compactItems_cons (j : Json) (js : List Json) :
    compactItems (j :: js) = compact j ++ Written.separated [] (js.map compact) := by
  induction js generalizing j with
  | nil => simp [compactItems]
  | cons k js ih => simp [compactItems, ih]

theorem compactMembers_cons (m : String × Json) (ms : List (String × Json)) :
    compactMembers (m :: ms) = Written.memberText [] m.1 (compact m.2) ++
      Written.separated [] (ms.map fun m => Written.memberText [] m.1 (compact m.2)) := by
  induction ms generalizing m with
  | nil => simp [compactMembers, Written.memberText]
  | cons n ms ih => simp [compactMembers, ih, Written.memberText]

theorem prettyItems_eq (level : Nat) (js : List Json) :
    prettyItems level js = Written.separated (lineBreak level) (js.map (pretty level)) := by
  induction js with
  | nil => rfl
  | cons j js ih => simp [prettyItems, ih]

theorem prettyMembers_eq (level : Nat) (ms : List (String × Json)) :
    prettyMembers level ms = Written.separated (lineBreak level)
      (ms.map fun m => Written.memberText [' '] m.1 (pretty level m.2)) := by
  induction ms with
  | nil => rfl
  | cons m ms ih => simp [prettyMembers, ih, Written.memberText]

theorem blank_nil : Blank [] := by
  simp [Blank]

theorem blank_lineBreak (level : Nat) : Blank (lineBreak level) := by
  intro c hc
  rcases List.mem_cons.1 hc with rfl | hc
  · rfl
  · rw [List.eq_of_mem_replicate hc]
    rfl

namespace Written

/-- Items and their texts, one by one. -/
theorem forall₂_isTextOf {write : Json → List Char} {items : List Json}
    (h : ∀ j ∈ items, IsTextOf (write j) j) : List.Forall₂ IsTextOf (items.map write) items :=
  List.forall₂_map_left_iff.2 (List.forall₂_same.2 h)

/-- Members and their texts, one by one. -/
theorem forall₂_isMemberTextOf {colon : List Char} {write : Json → List Char}
    {members : List (String × Json)} (h : ∀ m ∈ members, IsTextOf (write m.2) m.2) :
    List.Forall₂ (IsMemberTextOf colon) (members.map fun m => memberText colon m.1 (write m.2))
      members :=
  List.forall₂_map_left_iff.2 (List.forall₂_same.2 fun m hm => ⟨write m.2, rfl, h m hm⟩)

/-- **The compact text** of a document is its text. -/
theorem isTextOf_compact {j : Json} (h : j.Integral) : IsTextOf (compact j) j := by
  induction h with
  | null => exact isTextOf_null
  | bool b => exact isTextOf_bool b
  | int h => exact isTextOf_int h
  | str s => exact isTextOf_str s
  | @arr items _ ih =>
    cases items with
    | nil => exact isTextOf_nil
    | cons j js =>
      obtain ⟨hj, hjs⟩ := List.forall_mem_cons.1 ih
      have htext := isTextOf_array blank_nil blank_nil hj (forall₂_isTextOf hjs)
      rw [compact, compactItems_cons]
      simpa using htext
  | @obj members _ ih =>
    cases members with
    | nil => exact isTextOf_object_nil
    | cons m ms =>
      obtain ⟨hm, hms⟩ := List.forall_mem_cons.1 ih
      have htext := isTextOf_object blank_nil blank_nil blank_nil ⟨compact m.2, rfl, hm⟩
        (forall₂_isMemberTextOf hms)
      rw [compact, compactMembers_cons]
      simpa using htext

/-- **The text over several lines** of a document is its text, at each level. -/
theorem isTextOf_pretty {j : Json} (h : j.Integral) (level : Nat) :
    IsTextOf (pretty level j) j := by
  induction h generalizing level with
  | null => exact isTextOf_null
  | bool b => exact isTextOf_bool b
  | int h => exact isTextOf_int h
  | str s => exact isTextOf_str s
  | @arr items _ ih =>
    cases items with
    | nil => exact isTextOf_nil
    | cons j js =>
      obtain ⟨hj, hjs⟩ := List.forall_mem_cons.1 ih
      have htext := isTextOf_array (blank_lineBreak (level + 1)) (blank_lineBreak level)
        (hj (level + 1)) (forall₂_isTextOf fun k hk => hjs k hk (level + 1))
      rw [pretty, prettyItems_eq]
      simpa using htext
  | @obj members _ ih =>
    cases members with
    | nil => exact isTextOf_object_nil
    | cons m ms =>
      obtain ⟨hm, hms⟩ := List.forall_mem_cons.1 ih
      have hcolon : Blank [' '] := by simp [Blank, isBlank]
      have htext := isTextOf_object (blank_lineBreak (level + 1)) hcolon (blank_lineBreak level)
        ⟨pretty (level + 1) m.2, rfl, hm (level + 1)⟩
        (forall₂_isMemberTextOf fun n hn => hms n hn (level + 1))
      rw [pretty, prettyMembers_eq]
      simpa [memberText] using htext

/-- A text of a document spells it. -/
theorem IsTextOf.spells {text : List Char} {j : Json} (h : IsTextOf text j) :
    Spells (String.ofList text) j := by
  obtain ⟨w, hscan, hw⟩ := h.scan (4 * text.length + 4) [] (by omega) endsValue_nil
  refine ⟨w, [], ?_, rfl, hw⟩
  rw [List.append_nil] at hscan
  rw [ofText, String.toList_ofList]
  exact hscan

end Written

theorem spells_compactText {j : Json} (h : j.Integral) : Spells j.compactText j :=
  (Written.isTextOf_compact h).spells

theorem spells_prettyText {j : Json} (h : j.Integral) : Spells j.prettyText j :=
  (Written.isTextOf_pretty h 0).spells

/-! ### Line breaks -/

theorem newline_notMem_escapeChar (c : Char) : '\n' ∉ escapeChar c := by
  rw [escapeChar]
  cases hletter : escapeLetter? c with
  | some letter =>
    have hne : letter ≠ '\n' := by
      unfold escapeLetter? at hletter
      split at hletter <;> cases hletter <;> decide
    simpa using hne.symm
  | none =>
    have hc : c ≠ '\n' := by
      rintro rfl
      cases hletter
    by_cases hcontrol : c.toNat < 0x20
    · have hall : ∀ n < 0x20, '\n' ∉
          ['\\', 'u', '0', '0', Nat.digitChar (n / 16), Nat.digitChar (n % 16)] := by
        decide
      simp only [hcontrol, ↓reduceIte]
      exact hall c.toNat hcontrol
    · simpa [hcontrol] using hc.symm

theorem newline_notMem_writeString (s : String) : '\n' ∉ writeString s := by
  have hchars : '\n' ∉ s.toList.flatMap escapeChar := by
    intro h
    obtain ⟨c, -, hc⟩ := List.mem_flatMap.1 h
    exact newline_notMem_escapeChar c hc
  simpa [writeString] using hchars

theorem newline_notMem_writeInt (n : Int) : '\n' ∉ writeInt n := by
  have hdigits : '\n' ∉ Nat.toDigits 10 n.natAbs := fun h =>
    absurd (Nat.isDigit_of_mem_toDigits (by decide) (by decide) h) (by decide)
  rw [writeInt]
  split
  · simpa using hdigits
  · exact hdigits

/-- Texts with commas between them hold no more line breaks than the texts. -/
theorem newline_notMem_separated {others : List (List Char)} (h : ∀ text ∈ others, '\n' ∉ text) :
    '\n' ∉ Written.separated [] others := by
  simpa [Written.separated] using h

/-- **A compact text** is a single line. -/
theorem newline_notMem_compact {j : Json} (h : j.Integral) : '\n' ∉ compact j := by
  induction h with
  | null => decide
  | bool b => cases b <;> decide
  | int _ => exact newline_notMem_writeInt _
  | str s => exact newline_notMem_writeString s
  | @arr items _ ih =>
    cases items with
    | nil => decide
    | cons j js =>
      obtain ⟨hj, hjs⟩ := List.forall_mem_cons.1 ih
      have hothers := newline_notMem_separated (List.forall_mem_map.2 hjs)
      rw [compact, compactItems_cons]
      simp [hj, hothers]
  | @obj members _ ih =>
    have hmember : ∀ m ∈ members, '\n' ∉ Written.memberText [] m.1 (compact m.2) := fun m hm => by
      simp [Written.memberText, newline_notMem_writeString, ih m hm]
    cases members with
    | nil => decide
    | cons m ms =>
      obtain ⟨hm, hms⟩ := List.forall_mem_cons.1 hmember
      have hothers := newline_notMem_separated (List.forall_mem_map.2 hms)
      rw [compact, compactMembers_cons]
      simp [hm, hothers]

/-! ### Reading a text back -/

namespace Written

variable {α : Type}

/-- Items that are read one by one fail together if some item fails, and no item in another
way; `R` says what an item stands for. -/
theorem mapM_eq_error {ε α β γ : Type} {read : α → Except ε β} {R : α → γ → Prop} {p : ε}
    {items : List α} {things : List γ} (h : List.Forall₂ R items things)
    (hread : ∀ item thing, R item thing → (∃ b, read item = .ok b) ∨ read item = .error p)
    (hsome : ∃ thing ∈ things, ∀ item, R item thing → read item = .error p) :
    items.mapM read = .error p := by
  induction h with
  | nil => simp at hsome
  | @cons item thing items things hitem _ ih =>
    rw [List.mapM_cons]
    rcases hread item thing hitem with ⟨b, hb⟩ | hp
    · obtain ⟨other, hother, hfails⟩ := hsome
      rcases List.mem_cons.1 hother with rfl | hother
      · cases hb.symm.trans (hfails item hitem)
      · rw [hb, ih ⟨other, hother, hfails⟩]
        rfl
    · rw [hp]
      rfl

/-- The members of an object fail together in the same way. -/
theorem readMembers_eq_error {read : Written → Except Problem α} {p : Problem}
    {members : List (Lexeme String × Written)} {docs : List (String × Json)}
    (h : List.Forall₂ SpellsMember members docs)
    (hread : ∀ w j, w.document? = some j → (∃ a, read w = .ok a) ∨ read w = .error p)
    (hsome : ∃ d ∈ docs, ∀ w, w.document? = some d.2 → read w = .error p) :
    readMembers read members none = .error p := by
  have hmapM : members.mapM (fun m => do
      let name ← m.1.value
      return (name, ← read m.2)) = Except.error p := by
    refine mapM_eq_error h (fun m d hm => ?_) ?_
    · rcases hread m.2 d.2 hm.2 with ⟨a, ha⟩ | hp
      · exact .inl ⟨(d.1, a), by rw [hm.1, ha]; rfl⟩
      · exact .inr (by rw [hm.1, hp]; rfl)
    · obtain ⟨d, hd, hfails⟩ := hsome
      exact ⟨d, hd, fun m hm => by rw [hm.1, hfails m.2 hm.2]; rfl⟩
  exact congrArg (· >>= ended none) hmapM

/-- **A document that is nested too deeply** is not read. -/
theorem readJson_of_lt_depth {depth : Nat} {w : Written} {j : Json} (h : w.document? = some j)
    (hdepth : depth < j.depth) : w.readJson depth = .error .malformed := by
  induction depth generalizing w j with
  | zero =>
    cases j with
    | arr docs =>
      obtain ⟨items, rfl, -⟩ := eq_array_of_document? h
      rw [readJson]
    | obj docs =>
      obtain ⟨members, rfl, -⟩ := eq_object_of_document? h
      rw [readJson]
    | _ => cases hdepth
  | succ depth ih =>
    -- a part is read or too deep, and some part is too deep
    have hpart : ∀ (w : Written) (j : Json), w.document? = some j →
        (∃ j', w.readJson depth = .ok j') ∨ w.readJson depth = .error .malformed := by
      intro w j hw
      rcases Nat.lt_or_ge depth j.depth with hlt | hle
      · exact .inr (ih hw hlt)
      · exact .inl ⟨_, readJson_of_document? hw hle⟩
    cases j with
    | arr docs =>
      obtain ⟨items, rfl, hitems⟩ := eq_array_of_document? h
      have hdeep : ∃ j ∈ docs, depth < j.depth := by
        by_contra! hle
        exact absurd (depthItems_le_iff.2 hle) (Nat.not_le.2 (Nat.lt_of_succ_lt_succ hdepth))
      obtain ⟨j, hj, hlt⟩ := hdeep
      rw [readJson, mapM_eq_error hitems hpart ⟨j, hj, fun w hw => ih hw hlt⟩]
      rfl
    | obj docs =>
      obtain ⟨members, rfl, hmembers⟩ := eq_object_of_document? h
      have hdeep : ∃ m ∈ docs, depth < m.2.depth := by
        by_contra! hle
        exact absurd (depthMembers_le_iff.2 hle) (Nat.not_le.2 (Nat.lt_of_succ_lt_succ hdepth))
      obtain ⟨m, hm, hlt⟩ := hdeep
      rw [readJson, readMembers_eq_error hmembers hpart ⟨m, hm, fun w hw => ih hw hlt⟩]
      rfl
    | _ => cases hdepth

end Written

/-- **A text that is read as a document and nothing else**: at each limit of nesting that the
document keeps it is read as this document, and at any other limit it is refused. -/
def ReadsAs (text : String) (j : Json) : Prop :=
  ∀ depth, read (Written.readJson depth) text =
    if j.depth ≤ depth then .ok j else .error .malformed

/-- **A text is read as what it spells**, if the members of each object stand in the order of
their names, each name once. -/
theorem Spells.readsAs {text : String} {j : Json} (h : Spells text j) (hj : j.canonical = j) :
    ReadsAs text j := by
  intro depth
  obtain ⟨w, rest, htext, hblank, hw⟩ := h
  have hwhole : Written.isWhole text = true := by
    rw [Written.isWhole, htext]
    exact hblank
  rw [read_of_isWhole hwhole, Written.tree, htext]
  split
  · rename_i hdepth
    rw [Written.readJson_of_document? hw hdepth, hj]
  · rename_i hdepth
    rw [Written.readJson_of_lt_depth hw (Nat.lt_of_not_le hdepth)]

/-- Such a text is read as its document at the limit of `parse`. -/
theorem ReadsAs.parse_eq {text : String} {j : Json} (h : ReadsAs text j) :
    parse text = if j.depth ≤ maxDepth then .ok j else .error .malformed :=
  h maxDepth

/-- A text is read as one document. -/
theorem ReadsAs.unique {text : String} {j k : Json} (hj : ReadsAs text j) (hk : ReadsAs text k) :
    j = k := by
  have h := (hj (max j.depth k.depth)).symm.trans (hk (max j.depth k.depth))
  rw [if_pos (Nat.le_max_left ..), if_pos (Nat.le_max_right ..)] at h
  exact Except.ok.inj h

end Json
end SqlFilter
