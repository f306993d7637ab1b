/-
# What the command prints can be read back

The command prints a compiled filter in one of two layouts, and either of them says what the
filter is.

As plain text the SQL text comes first, just as it is, and it may well hold line breaks and
lines that look like a line of values.  The values stand behind it on one line, so the *last*
line break of the output is where the SQL text ends (`toList_print_text`).  It is the last
one because the values are written compactly, and a compact text holds no line break.

| layout | the SQL text is | the values are |
| --- | --- | --- |
| `text` | what stands before the last line break | read from the line behind it |
| `json` | read as the member `sql` | read as the member `values` |

The values are read as the same documents in both layouts, and each document as the value it
was written for (`Value.ofJsonItems_toJsonItems`), because a value of each kind is written as
a document of its own kind.  A reader opens a limited number of arrays, `Json.parse` no more
than `Json.maxDepth`, and the JSON layout has the values one deeper than the line of plain
text has them (`parse_print`).  Floating point numbers are left out throughout
(`Value.FloatFree`): one that is not finite is written like `NULL`.
-/

import SqlFilter.CommandLine.Report
import SqlFilter.Proofs.Wire.Encodings
import SqlFilter.Proofs.Wire.Layouts

namespace SqlFilter

/-! ### Values without floating point numbers -/

namespace Value

/-- A value without floating point numbers. -/
inductive FloatFree : Value → Prop
  | null : FloatFree null
  | bool (b : Bool) : FloatFree (bool b)
  | int (i : Int64) : FloatFree (int i)
  | str (s : String) : FloatFree (str s)
  | arr {items : List Value} (h : ∀ v ∈ items, FloatFree v) : FloatFree (arr items)

theorem toJsonItems_eq_map (vs : List Value) : toJsonItems vs = vs.map toJson := by
  induction vs with
  | nil => rfl
  | cons v vs ih => rw [toJsonItems, ih, List.map_cons]

/-- An integer of 64 bits with a sign fits. -/
theorem fits_toInt (i : Int64) : (Json.Number.int i.toInt).Fits := by
  have hlower := i.minValue_le_toInt
  have hupper := i.toInt_le
  have hmin : Int64.minValue.toInt = -2 ^ 63 := by decide
  have hmax : Int64.maxValue.toInt = 2 ^ 63 - 1 := by decide
  exact ⟨by omega, by omega⟩

theorem FloatFree.integral {v : Value} (h : v.FloatFree) : v.toJson.Integral := by
  induction h with
  | null => exact .null
  | bool b => exact .bool b
  | int i => exact .int (fits_toInt i)
  | str s => exact .str s
  | arr _ ih =>
    rw [toJson, toJsonItems_eq_map]
    exact .arr (List.forall_mem_map.2 ih)

end Value

/-- A compiled filter without floating point numbers among its values. -/
def Compiled.FloatFree (c : Compiled) : Prop :=
  ∀ v ∈ c.values, v.FloatFree

namespace Compiled

/-- The values of a compiled filter as a document. -/
def valuesDocument (c : Compiled) : Json :=
  .arr (Value.toJsonItems c.values)

theorem FloatFree.integral {c : Compiled} (h : c.FloatFree) : c.valuesDocument.Integral := by
  rw [valuesDocument, Value.toJsonItems_eq_map]
  exact .arr (List.forall_mem_map.2 fun v hv => (h v hv).integral)

theorem canonical_valuesDocument (c : Compiled) :
    c.valuesDocument.canonical = c.valuesDocument :=
  congrArg Json.arr (Value.canonicalItems_toJsonItems c.values)

/-- The document of a compiled filter has its members in the order of their names. -/
theorem canonical_toJson (c : Compiled) : c.toJson.canonical = c.toJson := by
  have hlt : ¬ "values" < "sql" := by decide
  have hne : "values" ≠ "sql" := by decide
  show Json.ofMembers [("sql", .str c.sql), ("values", c.valuesDocument.canonical)] = _
  rw [canonical_valuesDocument, Json.ofMembers]
  simp [Json.insertMember, toJson, valuesDocument, hlt, hne]

/-- The line of values is read as the values. -/
theorem FloatFree.readsAs_values {c : Compiled} (h : c.FloatFree) :
    Json.ReadsAs c.valuesDocument.compactText c.valuesDocument :=
  (Json.spells_compactText h.integral).readsAs c.canonical_valuesDocument

theorem FloatFree.readsAs_prettyText {c : Compiled} (h : c.FloatFree) :
    Json.ReadsAs c.toJson.prettyText c.toJson := by
  refine (Json.spells_prettyText (.obj ?_)).readsAs c.canonical_toJson
  exact List.forall_mem_cons.2 ⟨.str c.sql, List.forall_mem_cons.2 ⟨h.integral, by simp⟩⟩

/-- The values are one deeper in the document of a compiled filter. -/
theorem depth_toJson (c : Compiled) : c.toJson.depth = c.valuesDocument.depth + 1 := by
  simp [toJson, valuesDocument, Json.depth, Json.depthMembers]

/-- A compiled filter is determined by its SQL text and the document of its values. -/
theorem eq_of_valuesDocument_eq {c c' : Compiled} (hsql : c'.sql = c.sql)
    (hvalues : c'.valuesDocument = c.valuesDocument) : c' = c := by
  have hitems : Value.toJsonItems c'.values = Value.toJsonItems c.values := Json.arr.inj hvalues
  have hv : c'.values = c.values := by
    rw [← Value.ofJsonItems_toJsonItems c'.values, hitems, Value.ofJsonItems_toJsonItems]
  cases c
  cases c'
  cases hsql
  cases hv
  rfl

end Compiled

/-! ### Output -/

namespace CommandLine

/-- A text is cut at its last line break in one way. -/
theorem eq_of_cut {before after before' after' : List Char} (hafter : '\n' ∉ after)
    (hafter' : '\n' ∉ after') (h : before ++ '\n' :: after = before' ++ '\n' :: after') :
    before = before' ∧ after = after' := by
  -- the last line break is the first one from behind
  have hcut : ∀ before after : List Char, '\n' ∉ after →
      FieldRef.cut '\n' (before ++ '\n' :: after).reverse =
        some (after.reverse, before.reverse) := fun before after hafter =>
    FieldRef.cut_eq_some_iff.2 ⟨by simp, by simpa using hafter⟩
  have heq := (hcut before after hafter).symm.trans (h ▸ hcut before' after' hafter')
  simpa [and_comm] using heq

/-- The last line of plain text: the mark, and the values. -/
def lastLine (c : Compiled) : List Char :=
  valuesMark.toList ++ c.valuesDocument.compact

theorem toList_print_text (c : Compiled) :
    (Format.text.print c).toList = c.sql.toList ++ '\n' :: lastLine c := by
  show (plainText c).toList = _
  simp [plainText, lastLine, Json.compactText, Compiled.valuesDocument]

theorem newline_notMem_lastLine {c : Compiled} (h : c.FloatFree) : '\n' ∉ lastLine c := by
  have hmark : '\n' ∉ valuesMark.toList := by decide
  simp [lastLine, hmark, Json.newline_notMem_compact h.integral]

/-- **The last line break ends the SQL text.** -/
theorem cut_print_text {c : Compiled} (h : c.FloatFree) {before after : List Char}
    (hafter : '\n' ∉ after) :
    (Format.text.print c).toList = before ++ '\n' :: after ↔
      before = c.sql.toList ∧ after = lastLine c := by
  rw [toList_print_text]
  constructor
  · intro heq
    exact eq_of_cut hafter (newline_notMem_lastLine h) heq.symm
  · rintro ⟨rfl, rfl⟩
    rfl

/-- **Each layout determines the filter.** -/
theorem print_injective {c c' : Compiled} (h : c.FloatFree) (h' : c'.FloatFree) {format : Format}
    (heq : format.print c' = format.print c) : c' = c := by
  cases format with
  | text =>
    have hcut := congrArg String.toList heq
    rw [toList_print_text c', eq_comm, cut_print_text h (newline_notMem_lastLine h')] at hcut
    obtain ⟨hsql, hline⟩ := hcut
    have htext : c'.valuesDocument.compactText = c.valuesDocument.compactText :=
      congrArg String.ofList (List.append_cancel_left hline)
    have hread := h'.readsAs_values
    rw [htext] at hread
    exact Compiled.eq_of_valuesDocument_eq (String.toList_injective hsql)
      (hread.unique h.readsAs_values)
  | json =>
    have hread := h'.readsAs_prettyText
    rw [show c'.toJson.prettyText = c.toJson.prettyText from heq] at hread
    have hdocument := hread.unique h.readsAs_prettyText
    simp only [Compiled.toJson, Json.obj.injEq, List.cons.injEq, Prod.mk.injEq, true_and,
      and_true, Json.str.injEq] at hdocument
    exact Compiled.eq_of_valuesDocument_eq hdocument.1 hdocument.2

/-- **What is printed says what the filter is**, whatever its SQL text holds.  In both layouts
the values are read as the same documents, and these as the values.  Plain text has the SQL
text before its last line break, wherever the SQL text itself may have line breaks, and behind
it a single line of the mark and the values.  And no other filter without floating point
numbers is printed alike. -/
theorem print_determines (c : Compiled) (h : c.FloatFree) :
    ∃ docs : List Json, Value.ofJsonItems docs = c.values ∧
      (∃ line : String, line = (Json.arr docs).compactText ∧ '\n' ∉ line.toList ∧
        Json.ReadsAs line (.arr docs) ∧
        ∀ before after : String, '\n' ∉ after.toList →
          (Format.text.print c = before ++ "\n" ++ after ↔
            before = c.sql ∧ after = "-- values: " ++ line)) ∧
      Json.ReadsAs (Format.json.print c) (.obj [("sql", .str c.sql), ("values", .arr docs)]) ∧
      ∀ (format : Format) (c' : Compiled), c'.FloatFree →
        format.print c' = format.print c → c' = c := by
  refine ⟨Value.toJsonItems c.values, Value.ofJsonItems_toJsonItems c.values,
    ⟨c.valuesDocument.compactText, rfl, ?_, h.readsAs_values, fun before after hafter => ?_⟩,
    h.readsAs_prettyText, fun format c' h' => print_injective h h'⟩
  · rw [Json.compactText, String.toList_ofList]
    exact Json.newline_notMem_compact h.integral
  · have hcut : (Format.text.print c).toList = before.toList ++ '\n' :: after.toList ↔
        before.toList = c.sql.toList ∧ after.toList = lastLine c :=
      cut_print_text h hafter
    have htext : (before ++ "\n" ++ after).toList = before.toList ++ '\n' :: after.toList := by
      simp
    have hline : ("-- values: " ++ c.valuesDocument.compactText).toList = lastLine c := by
      simp [lastLine, valuesMark, Json.compactText]
    rw [← String.toList_inj, htext, hcut, ← hline, String.toList_inj, String.toList_inj]

/-- **What is printed is parsed**, unless its values are nested too deeply for the reader. -/
theorem parse_print (c : Compiled) (h : c.FloatFree) :
    Json.parse c.valuesDocument.compactText =
        (if c.valuesDocument.depth ≤ Json.maxDepth then .ok c.valuesDocument
          else .error .malformed) ∧
      Json.parse (Format.json.print c) =
        if c.valuesDocument.depth < Json.maxDepth then .ok c.toJson else .error .malformed := by
  refine ⟨h.readsAs_values.parse_eq, ?_⟩
  have hparse := h.readsAs_prettyText.parse_eq
  rw [c.depth_toJson] at hparse
  exact hparse

/-- A filter whose SQL text ends like plain text does. -/
def imitation : Compiled where
  sql := "a = $1\n-- values: [1]"
  values := [.str "\n\"", .arr [.null, .int (-1)]]

/-- The imitation is not taken for the values. -/
theorem print_determines_imitation :
    imitation.FloatFree ∧
      Format.text.print imitation =
        "a = $1\n-- values: [1]\n-- values: [\"\\n\\\"\",[null,-1]]" ∧
      ∀ before after : String, '\n' ∉ after.toList →
        Format.text.print imitation = before ++ "\n" ++ after →
          before = imitation.sql ∧ after = "-- values: [\"\\n\\\"\",[null,-1]]" := by
  have hfree : imitation.FloatFree := by
    intro v hv
    simp only [imitation, List.mem_cons, List.not_mem_nil, or_false] at hv
    rcases hv with rfl | rfl
    · exact .str _
    · refine .arr fun v hv => ?_
      simp only [List.mem_cons, List.not_mem_nil, or_false] at hv
      rcases hv with rfl | rfl
      · exact .null
      · exact .int _
  have hprint : Format.text.print imitation =
      imitation.sql ++ "\n" ++ "-- values: [\"\\n\\\"\",[null,-1]]" := by
    decide
  obtain ⟨docs, -, ⟨line, -, -, -, hcut⟩, -, -⟩ := print_determines imitation hfree
  refine ⟨hfree, hprint, fun before after hafter heq => ?_⟩
  obtain ⟨hbefore, hline⟩ := (hcut before after hafter).1 heq
  obtain ⟨-, hexpected⟩ := (hcut _ _ (by decide)).1 hprint
  exact ⟨hbefore, hline.trans hexpected.symm⟩

end CommandLine
end SqlFilter
