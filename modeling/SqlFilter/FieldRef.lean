/-
# References into JSON columns

A field is usually the name of a column.  It may also name one key of the
document in a JSON column, and the type to read it as:

```text
[table.]json:column.key[:type]
```

The text is cut at its dots into at most three parts.  Of two parts, the first
carries the marker `json:` and the column; of three, the second does and the
first is the table.  Column and key are not empty.  The key ends at the first
colon of the last part.  Behind a table, key and type may hold dots; without
one there is no dot left for them.  Every other text is an ordinary column
(`parse` gives `none`).
-/

namespace SqlFilter

/-- A reference to a key of the document in a JSON column. -/
structure FieldRef where
  table : Option String := none
  column : String
  key : String
  /-- The declared type, as written. -/
  type : Option String := none
  deriving DecidableEq, Inhabited

namespace FieldRef

/-- The marker in front of the column. -/
def marker : String := "json:"

/-- What a value is cast to when no type is declared. -/
def defaultType : String := "text"

/-- How a value that was taken out of a document is cast. -/
inductive Cast where
  /-- To text, and then to a date. -/
  | date
  | to (type : String)
  deriving DecidableEq

/-- The cast of a reference.  `date` and `number` are names of this format;
every other type is the database's own. -/
def cast (ref : FieldRef) : Cast :=
  match ref.type with
  | none => .to defaultType
  | some "date" => .date
  | some "number" => .to "numeric"
  | some type => .to type

/-- A text before and after the first `sep`, if it holds one. -/
def cut (sep : Char) (text : List Char) : Option (List Char × List Char) :=
  match text.dropWhile (· ≠ sep) with
  | [] => none
  | _ :: rest => some (text.takeWhile (· ≠ sep), rest)

/-- A text is cut at its first separator and nowhere else. -/
theorem cut_eq_some_iff {sep : Char} {text before after : List Char} :
    cut sep text = some (before, after) ↔ text = before ++ sep :: after ∧ sep ∉ before := by
  induction text generalizing before after with
  | nil => simp [cut]
  | cons c cs ih =>
    by_cases h : c = sep
    · subst h
      cases before with
      | nil => simp [cut]
      | cons b bs => simp +contextual [cut]
    · have step : cut sep (c :: cs) = (cut sep cs).map fun p => (c :: p.1, p.2) := by
        simp only [cut, ne_eq, h, not_false_eq_true, decide_true, List.dropWhile_cons_of_pos,
          List.takeWhile_cons_of_pos]
        split <;> rfl
      rw [step, Option.map_eq_some_iff]
      cases before with
      | nil => simp [h]
      | cons b bs =>
        constructor
        · rintro ⟨⟨x, y⟩, hxy, heq⟩
          obtain ⟨rfl, hmem⟩ := ih.1 hxy
          simp only [Prod.mk.injEq, List.cons.injEq] at heq
          obtain ⟨⟨rfl, rfl⟩, rfl⟩ := heq
          exact ⟨rfl, by simp [hmem, Ne.symm h]⟩
        · rintro ⟨heq, hmem⟩
          simp only [List.cons_append, List.cons.injEq] at heq
          obtain ⟨rfl, rfl⟩ := heq
          exact ⟨(bs, after), ih.2 ⟨rfl, fun hm => hmem (List.mem_cons_of_mem _ hm)⟩, rfl⟩

theorem cut_eq_none_iff {sep : Char} {text : List Char} : cut sep text = none ↔ sep ∉ text := by
  induction text with
  | nil => simp [cut]
  | cons c cs ih =>
    by_cases h : c = sep
    · simp [cut, h]
    · have h' : sep ≠ c := fun e => h e.symm
      simp only [List.mem_cons, h', false_or, ← ih]
      simp only [cut, ne_eq, h, not_false_eq_true, decide_true, List.dropWhile_cons_of_pos]
      split <;> simp_all

/-- The key and the declared type: cut at the first colon. -/
def keyAndType (text : List Char) : List Char × Option (List Char) :=
  match cut ':' text with
  | some (key, type) => (key, some type)
  | none => (text, none)

/-- A reference from its parts, where `marked` is the part that carries the
marker. -/
def ofParts (table : Option (List Char)) (marked last : List Char) : Option FieldRef :=
  match marker.toList.isPrefixOf? marked with
  | none => none
  | some column =>
    let (key, type) := keyAndType last
    if column.isEmpty || key.isEmpty then none
    else some
      { table := table.map String.ofList
        column := String.ofList column
        key := String.ofList key
        type := type.map String.ofList }

/-- The reference that a field is, if it is one. -/
def parse (raw : String) : Option FieldRef :=
  match cut '.' raw.toList with
  | none => none
  | some (first, rest) =>
    match cut '.' rest with
    | none => ofParts none first rest
    | some (second, third) => ofParts (some first) second third

end FieldRef
end SqlFilter
