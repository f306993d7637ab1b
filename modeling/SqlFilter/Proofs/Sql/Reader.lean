/-
# Reading SQL conditions

A text is read from left to right by a machine with a stack (`Machine`).  Its tokens are
added to the items of the innermost parenthesis, and a closing parenthesis makes one
item of them (`Machine.shift`).  Quoted text is one token, whatever it contains.

Placeholders are bound to the values as they are read: `$n` to the value of that number,
and `?` to the value of its place in the order of the placeholders (`Machine.bound`).
-/

import SqlFilter.Identifier
import SqlFilter.Proofs.Sql.Grammar

namespace SqlFilter
namespace Sql

/-! ### Tokens -/

/-- The reserved words of conditions. -/
def reserved : List (List Char × Keyword) :=
  [("AND".toList, .glue .and), ("OR".toList, .glue .or), ("NOT".toList, .not),
    ("LIKE".toList, .like), ("IN".toList, .isIn), ("AS".toList, .as), ("CAST".toList, .cast)]

/-- A word is reserved or a name; letter case does not count. -/
def wordToken (word : List Char) : Token :=
  match reserved.lookup (word.map Char.toUpper) with
  | some k => .keyword k
  | none => .name ⟨String.ofList word, false⟩

/-- What is left of a quoted text behind its opening quote: the text, in which a quote is
written twice, and the rest behind the closing quote. -/
def quoted (quote : Char) : List Char → Option (List Char × List Char)
  | [] => none
  | [c] => if c = quote then some ([], []) else none
  | c :: d :: cs =>
    if c = quote then
      if d = quote then (quoted quote cs).map fun p => (quote :: p.1, p.2)
      else some ([], d :: cs)
    else (quoted quote (d :: cs)).map fun p => (c :: p.1, p.2)

/-- The sign that begins with a character, and the text behind it. -/
def sign? (c : Char) (cs : List Char) : Option (Sign × List Char) :=
  match c, cs with
  | '(', cs => some (.opening, cs)
  | ')', cs => some (.closing, cs)
  | ',', cs => some (.comma, cs)
  | '.', cs => some (.dot, cs)
  | '-', '>' :: cs => some (.arrow, cs)
  | '|', '|' :: cs => some (.concat, cs)
  | '=', cs => some (.compare .equal, cs)
  | '<', '>' :: cs => some (.compare .notEqual, cs)
  | '<', '=' :: cs => some (.compare .lessOrEqual, cs)
  | '<', cs => some (.compare .less, cs)
  | '>', '=' :: cs => some (.compare .greaterOrEqual, cs)
  | '>', cs => some (.compare .greater, cs)
  | _, _ => none

/-- The token that begins with a character, and the text behind it.

The word behind `::` is the name of a type and is not looked up among the `reserved`
words, as no other word can stand there.  What is between quotes is not looked into: a
quoted name may be any text, a reserved word and the empty text included. -/
def token? (c : Char) (cs : List Char) : Option (Token × List Char) :=
  if Identifier.isStart c then
    some (wordToken (c :: cs.takeWhile Identifier.isPart), cs.dropWhile Identifier.isPart)
  else if c.isDigit then
    some (.number (String.ofList (c :: cs.takeWhile Char.isDigit)), cs.dropWhile Char.isDigit)
  else
    match c, cs with
    | '\'', cs => (quoted '\'' cs).map fun p => (.text (String.ofList p.1), p.2)
    | '"', cs => (quoted '"' cs).map fun p => (.name ⟨String.ofList p.1, true⟩, p.2)
    | '?', cs => some (.mark none, cs)
    | '$', d :: cs =>
      if d.isDigit then
        some (.mark (some (Nat.ofDigitChars 10 (d :: cs.takeWhile Char.isDigit) 0)),
          cs.dropWhile Char.isDigit)
      else none
    | ':', ':' :: d :: cs =>
      if Identifier.isStart d then
        some (.castTo (String.ofList (d :: cs.takeWhile Identifier.isPart)),
          cs.dropWhile Identifier.isPart)
      else none
    | c, cs => (sign? c cs).map fun p => (.sign p.1, p.2)

theorem length_quoted {quote : Char} {cs text rest : List Char}
    (h : quoted quote cs = some (text, rest)) : rest.length ≤ cs.length := by
  induction cs using quoted.induct quote generalizing text with
  | case1 => cases h
  | case2 =>
    simp only [quoted, ↓reduceIte, Option.some.injEq, Prod.mk.injEq] at h
    simp [← h.2]
  | case3 c hc => simp [quoted, hc] at h
  | case4 cs ih =>
    simp only [quoted, ↓reduceIte] at h
    obtain ⟨⟨t, r⟩, hq, hp⟩ := Option.map_eq_some_iff.1 h
    obtain ⟨rfl, rfl⟩ := Prod.mk.inj hp
    exact Nat.le_succ_of_le (Nat.le_succ_of_le (ih hq))
  | case5 d cs hd =>
    simp only [quoted, ↓reduceIte, hd, Option.some.injEq, Prod.mk.injEq] at h
    simp [← h.2]
  | case6 c d cs hc ih =>
    rw [quoted, if_neg hc] at h
    obtain ⟨⟨t, r⟩, hq, hp⟩ := Option.map_eq_some_iff.1 h
    obtain ⟨rfl, rfl⟩ := Prod.mk.inj hp
    exact Nat.le_succ_of_le (ih hq)

theorem length_sign? {c : Char} {cs rest : List Char} {s : Sign}
    (h : sign? c cs = some (s, rest)) : rest.length ≤ cs.length := by
  unfold sign? at h
  split at h <;> cases h <;> first
    | exact le_rfl
    | exact Nat.le_succ _

/-- A token is taken off the front of a text. -/
theorem length_token? {c : Char} {cs rest : List Char} {t : Token}
    (h : token? c cs = some (t, rest)) : rest.length ≤ cs.length := by
  have hdrop : ∀ (p : Char → Bool) (text : List Char), (text.dropWhile p).length ≤ text.length :=
    fun p text => (List.dropWhile_suffix p).length_le
  unfold token? at h
  split_ifs at h
  · obtain ⟨-, rfl⟩ := Prod.mk.inj (Option.some.inj h)
    exact hdrop _ _
  · obtain ⟨-, rfl⟩ := Prod.mk.inj (Option.some.inj h)
    exact hdrop _ _
  · split at h
    · obtain ⟨p, hq, hp⟩ := Option.map_eq_some_iff.1 h
      obtain ⟨-, rfl⟩ := Prod.mk.inj hp
      exact length_quoted hq
    · obtain ⟨p, hq, hp⟩ := Option.map_eq_some_iff.1 h
      obtain ⟨-, rfl⟩ := Prod.mk.inj hp
      exact length_quoted hq
    · obtain ⟨-, rfl⟩ := Prod.mk.inj (Option.some.inj h)
      exact le_rfl
    · split_ifs at h
      obtain ⟨-, rfl⟩ := Prod.mk.inj (Option.some.inj h)
      exact Nat.le_succ_of_le (hdrop _ _)
    · split_ifs at h
      obtain ⟨-, rfl⟩ := Prod.mk.inj (Option.some.inj h)
      exact Nat.le_succ_of_le (Nat.le_succ_of_le (hdrop _ _))
    · obtain ⟨p, hs, hp⟩ := Option.map_eq_some_iff.1 h
      obtain ⟨-, rfl⟩ := Prod.mk.inj hp
      exact length_sign? hs

/-! ### The machine -/

/-- How far a text is read. -/
structure Machine where
  /-- The values of the statement. -/
  values : List Value
  /-- How many placeholders there were. -/
  drawn : Nat := 0
  /-- The items before each open parenthesis, those of the innermost one first. -/
  outer : List (List Item) := []
  /-- The items behind the innermost open parenthesis. -/
  items : List Item := []

namespace Machine

/-- The value of a placeholder: that of its number, or the next one. -/
def bound (m : Machine) : Option Nat → Option Value
  | none => m.values[m.drawn]?
  | some 0 => none
  | some (n + 1) => m.values[n]?

/-- Adds items and placeholders. -/
def push (m : Machine) (items : List Item) (drawn : Nat) : Machine :=
  { m with items := m.items ++ items, drawn := m.drawn + drawn }

/-- Opens a parenthesis. -/
def opened (m : Machine) : Machine :=
  { m with outer := m.items :: m.outer, items := [] }

/-- The machine after a token. -/
def shift (m : Machine) : Token → Option Machine
  | .sign .opening => some m.opened
  | .sign .closing =>
    match m.outer with
    | [] => none
    | before :: outer =>
      (close m.items).map fun item => { m with outer := outer, items := before ++ [item] }
  | .mark number => (m.bound number).map fun v => m.push [.value v] 1
  | t => some (m.push [.token t] 0)

/-- Reads a text. -/
def run (m : Machine) : List Char → Option Machine
  | [] => some m
  | c :: cs =>
    if c.isWhitespace then m.run cs
    else
      match _h : token? c cs with
      | none => none
      | some (t, rest) =>
        match m.shift t with
        | none => none
        | some m => m.run rest
termination_by cs => cs.length
decreasing_by
  · exact Nat.lt_succ_self _
  · exact Nat.lt_succ_of_le (length_token? _h)

/-- What was read, if all parentheses are closed and each value has its placeholder:
nothing, or a condition. -/
def result (m : Machine) : Option (Option Expr) :=
  if m.outer.isEmpty && m.drawn == m.values.length then
    if m.items.isEmpty then some none else (disjunction m.items).map some
  else none

end Machine

/-- The condition that a text states of its values; there is none in an empty text. -/
def read (values : List Value) (text : String) : Option (Option Expr) :=
  (Machine.run { values := values } text.toList).bind Machine.result

/-- Whether a text holds, if `ρ` says which atoms do.  The outer `none` is a text that is
no condition, and the inner one a text that asks for nothing. -/
def holds (ρ : Atom → Bool) (values : List Value) (text : String) : Option (Option Bool) :=
  (read values text).bind fun
    | none => some none
    | some e => (e.truth ρ).map some

/-! ### Runs -/

/-- The characters before which a word, a number or a quoted text ends. -/
def closers : List Char :=
  [' ', '(', ')', ',', '.', '-', ':']

/-- A text in front of which a word, a number or a quoted text ends. -/
def Closes (rest : List Char) : Prop :=
  ∀ c ∈ rest.head?, c ∈ closers

theorem closes_cons {c : Char} (h : c ∈ closers) (cs : List Char) :
    Closes (c :: cs) := by
  intro d hd
  obtain rfl : c = d := by simpa using hd
  exact h

theorem Closes.takeWhile_append {p : Char → Bool}
    (hp : closers.any p = false) {text rest : List Char}
    (hrest : Closes rest) (htext : ∀ c ∈ text, p c = true) :
    (text ++ rest).takeWhile p = text ∧ (text ++ rest).dropWhile p = rest := by
  rw [List.takeWhile_append_of_pos htext, List.dropWhile_append_of_pos htext]
  cases rest with
  | nil => simp
  | cons c cs =>
    have hc : ¬ p c = true := List.any_eq_false.1 hp c (hrest c (by simp))
    simp [hc]

theorem isWhitespace_of_isStart {c : Char} (h : Identifier.isStart c = true) :
    c.isWhitespace = false := by
  by_contra hw
  have hw : c = ' ' ∨ c = '\t' ∨ c = '\r' ∨ c = '\n' := by
    simpa only [Char.isWhitespace, Bool.not_eq_false, Bool.or_eq_true, decide_eq_true_eq, or_assoc]
      using hw
  rcases hw with rfl | rfl | rfl | rfl <;> exact absurd h (by decide)

/-- A text begins with a token; `rest` is the text behind it. -/
def StartsWith (text : List Char) (t : Token) (rest : List Char) : Prop :=
  ∃ c cs, text = c :: cs ∧ c.isWhitespace = false ∧ token? c cs = some (t, rest)

/-- A word is one token. -/
theorem startsWith_word {w : String} (hw : Identifier.isPlain w = true) {rest : List Char}
    (hrest : Closes rest) : StartsWith (w.toList ++ rest) (wordToken w.toList) rest := by
  obtain ⟨c, cs, hcs, hc, hpart⟩ := Identifier.exists_of_isPlain hw
  obtain ⟨htake, hdrop⟩ := hrest.takeWhile_append (p := Identifier.isPart) (by decide) hpart
  refine ⟨c, cs ++ rest, by rw [hcs, List.cons_append], isWhitespace_of_isStart hc, ?_⟩
  unfold token?
  rw [if_pos hc, htake, hdrop, hcs]

/-- A string literal is one token. -/
theorem startsWith_text {text rest cs : List Char} (h : quoted '\'' cs = some (text, rest)) :
    StartsWith ('\'' :: cs) (.text (String.ofList text)) rest :=
  ⟨'\'', cs, rfl, by decide, by simp [token?, h, Identifier.isStart]⟩

/-- A delimited name is one token. -/
theorem startsWith_name {text rest cs : List Char} (h : quoted '"' cs = some (text, rest)) :
    StartsWith ('"' :: cs) (.name ⟨String.ofList text, true⟩) rest :=
  ⟨'"', cs, rfl, by decide, by simp [token?, h, Identifier.isStart]⟩

/-- A cast is one token with its type. -/
theorem startsWith_castTo {type : String} (htype : Identifier.isPlain type = true)
    {rest : List Char} (hrest : Closes rest) :
    StartsWith (':' :: ':' :: (type.toList ++ rest)) (.castTo type) rest := by
  obtain ⟨c, cs, hcs, hc, hpart⟩ := Identifier.exists_of_isPlain htype
  obtain ⟨htake, hdrop⟩ := hrest.takeWhile_append (p := Identifier.isPart) (by decide) hpart
  refine ⟨':', ':' :: c :: (cs ++ rest), by rw [hcs, List.cons_append], by decide, ?_⟩
  unfold token?
  rw [if_neg (by decide), if_neg (by decide)]
  simp only [hc, ↓reduceIte, htake, hdrop, ← hcs, String.ofList_toList]

namespace Machine

@[simp] theorem push_push (m : Machine) (is js : List Item) (j k : Nat) :
    (m.push is j).push js k = m.push (is ++ js) (j + k) := by
  simp [push, Nat.add_assoc]

@[simp] theorem push_nil (m : Machine) : m.push [] 0 = m := by
  simp [push]

/-- A blank is skipped. -/
@[simp] theorem run_blank (m : Machine) (cs : List Char) : m.run (' ' :: cs) = m.run cs := by
  rw [run, if_pos (by decide)]

/-- A token is added. -/
theorem run_token {m : Machine} {c : Char} {cs rest : List Char} {t : Token}
    (hc : c.isWhitespace = false) (ht : token? c cs = some (t, rest)) :
    m.run (c :: cs) = (m.shift t).bind (·.run rest) := by
  rw [run, hc]
  simp only [Bool.false_eq_true, ↓reduceIte]
  split
  · rename_i h
    rw [ht] at h
    cases h
  · rename_i h
    rw [ht] at h
    obtain ⟨rfl, rfl⟩ := Prod.mk.inj (Option.some.inj h)
    cases m.shift t <;> rfl

theorem run_of_startsWith (m : Machine) {text rest : List Char} {t : Token}
    (h : StartsWith text t rest) : m.run text = (m.shift t).bind (·.run rest) := by
  obtain ⟨c, cs, rfl, hc, ht⟩ := h
  exact run_token hc ht

@[simp] theorem run_opening (m : Machine) (cs : List Char) :
    m.run ('(' :: cs) = m.opened.run cs := by
  rw [run_token (by decide) (t := .sign .opening) rfl]
  rfl

/-- A parenthesis whose items make one item is this item. -/
theorem run_closing {m : Machine} {items : List Item} {item : Item} (h : close items = some item)
    (k : Nat) (cs : List Char) :
    (m.opened.push items k).run (')' :: cs) = (m.push [item] k).run cs := by
  rw [run_token (by decide) (t := .sign .closing) rfl]
  simp [shift, push, opened, h]

/-- A sign between items. -/
theorem run_sign {m : Machine} {c : Char} {cs rest : List Char} {s : Sign}
    (hc : c.isWhitespace = false) (ht : token? c cs = some (.sign s, rest))
    (hs : s ≠ .opening ∧ s ≠ .closing) :
    m.run (c :: cs) = (m.push [.token (.sign s)] 0).run rest := by
  rw [run_token hc ht]
  cases s with
  | opening => exact absurd rfl hs.1
  | closing => exact absurd rfl hs.2
  | _ => rfl

@[simp] theorem run_comma (m : Machine) (cs : List Char) :
    m.run (',' :: cs) = (m.push [.token (.sign .comma)] 0).run cs :=
  run_sign (by decide) rfl (by decide)

@[simp] theorem run_dot (m : Machine) (cs : List Char) :
    m.run ('.' :: cs) = (m.push [.token (.sign .dot)] 0).run cs :=
  run_sign (by decide) rfl (by decide)

@[simp] theorem run_arrow (m : Machine) (cs : List Char) :
    m.run ('-' :: '>' :: cs) = (m.push [.token (.sign .arrow)] 0).run cs :=
  run_sign (by decide) rfl (by decide)

@[simp] theorem run_concat (m : Machine) (cs : List Char) :
    m.run ('|' :: '|' :: cs) = (m.push [.token (.sign .concat)] 0).run cs :=
  run_sign (by decide) rfl (by decide)

/-- The sign of a comparison, before a blank. -/
@[simp] theorem run_symbol (m : Machine) (c : Comparison) (cs : List Char) :
    m.run (c.symbol.toList ++ ' ' :: cs) =
      (m.push [.token (.sign (.compare c))] 0).run cs := by
  rw [← run_blank (m.push _ _)]
  cases c <;> exact run_sign (by decide) rfl (by decide)

/-- A word is one token. -/
theorem run_word (m : Machine) {w : String} (hw : Identifier.isPlain w = true)
    {rest : List Char} (hrest : Closes rest) :
    m.run (w.toList ++ rest) = (m.push [.token (wordToken w.toList)] 0).run rest := by
  have hshift : m.shift (wordToken w.toList) = some (m.push [.token (wordToken w.toList)] 0) := by
    unfold wordToken
    split <;> rfl
  rw [m.run_of_startsWith (startsWith_word hw hrest), hshift]
  rfl

/-- A connective between blanks. -/
@[simp] theorem run_separator (m : Machine) (glue : Glue) (cs : List Char) :
    m.run (glue.separator.toList ++ cs) =
      (m.push [.token (.keyword (.glue glue))] 0).run cs := by
  have hclose := closes_cons (c := ' ') (by decide) cs
  cases glue with
  | and =>
    have h := m.run_word (w := "AND") (by decide) hclose
    rw [show wordToken "AND".toList = .keyword (.glue .and) from rfl, run_blank] at h
    exact (run_blank m _).trans h
  | or =>
    have h := m.run_word (w := "OR") (by decide) hclose
    rw [show wordToken "OR".toList = .keyword (.glue .or) from rfl, run_blank] at h
    exact (run_blank m _).trans h

/-- A number is one token. -/
theorem run_number (m : Machine) {w rest : List Char} {c : Char} (hc : c.isDigit = true)
    (hstart : Identifier.isStart c = false) (hspace : c.isWhitespace = false)
    (hw : w.all Char.isDigit = true) (hrest : Closes rest) :
    m.run (c :: w ++ rest) =
      (m.push [.token (.number (String.ofList (c :: w)))] 0).run rest := by
  obtain ⟨htake, hdrop⟩ := hrest.takeWhile_append (p := Char.isDigit) (by decide)
    (List.all_eq_true.1 hw)
  have ht : token? c (w ++ rest) = some (.number (String.ofList (c :: w)), rest) := by
    unfold token?
    rw [if_neg (by simp [hstart]), if_pos hc, htake, hdrop]
  rw [List.cons_append, run_token hspace ht]
  rfl

/-- A question mark is bound to the next value. -/
theorem run_question {m : Machine} {v : Value} (hv : m.values[m.drawn]? = some v)
    (cs : List Char) : m.run ('?' :: cs) = (m.push [.value v] 1).run cs := by
  rw [run_token (by decide) (t := .mark none) rfl]
  simp [shift, bound, hv]

/-- A numbered placeholder is bound to the value of its number. -/
theorem run_dollar {m : Machine} {n : Nat} {v : Value} (hv : m.values[n]? = some v)
    {rest : List Char} (hrest : Closes rest) :
    m.run (("$" ++ toString (n + 1)).toList ++ rest) = (m.push [.value v] 1).run rest := by
  have hdigits : (toString (n + 1)).toList = Nat.toDigits 10 (n + 1) := Nat.toList_repr
  obtain ⟨d, ds, hds⟩ := List.exists_cons_of_ne_nil
    (Nat.toDigits_ne_nil (n := n + 1) (b := 10))
  have hisDigit : ∀ c ∈ d :: ds, c.isDigit = true := by
    intro c hc
    rw [← hds] at hc
    exact Nat.isDigit_of_mem_toDigits (by omega) (by omega) hc
  obtain ⟨htake, hdrop⟩ := hrest.takeWhile_append (p := Char.isDigit) (by decide)
    fun c hc => hisDigit c (List.mem_cons_of_mem _ hc)
  have ht : token? '$' (d :: (ds ++ rest)) = some (.mark (some (n + 1)), rest) := by
    unfold token?
    rw [if_neg (by decide), if_neg (by decide)]
    simp only [hisDigit d (List.mem_cons_self ..), ↓reduceIte, htake, hdrop, ← hds,
      Nat.ofDigitChars_ten_toDigits]
  rw [String.toList_append, hdigits, hds, show "$".toList = ['$'] from rfl,
    List.singleton_append, List.cons_append, List.cons_append, run_token (by decide) ht]
  simp [shift, bound, hv]

end Machine

end Sql
end SqlFilter
