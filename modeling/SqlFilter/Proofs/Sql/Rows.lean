/-
# Rows

What a database makes of a condition on one row.  A row gives every column a text, and an
expression is evaluated to a text, a number or a truth value (`Expr.eval`).  Of the database
only this is assumed:

- `||` and `CONCAT` concatenate texts;
- `INSTR` is the position of the first occurrence of a text in another one, counted from 1,
  or 0 if there is none (`position`);
- `LIKE` regards letter case, `%` is any run of characters and `_` any one of them, and a
  character behind a backslash stands for itself (`globs?`, `Glob.fits`).

A backslash at the end of a pattern has nothing behind it, and the database has no answer.

A text is literal if none of these three characters is in it (`Literal`).  As part of a
pattern it is found where it occurs.  A text that is not literal is missing from
some text that its pattern fits: from the shortest one (`Glob.sample`).
-/

import Mathlib.Data.List.Infix
import SqlFilter.Proofs.Sql.Reader

namespace SqlFilter
namespace Sql

/-! ### Patterns of `LIKE` -/

/-- A part of a pattern. -/
inductive Glob where
  | run
  | one
  | char (c : Char)
  deriving DecidableEq

/-- The parts of a pattern; there are none if it ends with a backslash that nothing is
behind. -/
def globs? : List Char → Option (List Glob)
  | [] => some []
  | '\\' :: [] => none
  | '\\' :: c :: cs => (globs? cs).map (.char c :: ·)
  | '%' :: cs => (globs? cs).map (.run :: ·)
  | '_' :: cs => (globs? cs).map (.one :: ·)
  | c :: cs => (globs? cs).map (.char c :: ·)

/-- A text without wildcards and backslashes. -/
def Literal (text : List Char) : Prop :=
  ∀ c ∈ text, c ∉ ['%', '_', '\\']

instance (text : List Char) : Decidable (Literal text) :=
  List.decidableBAll (fun c => c ∉ ['%', '_', '\\']) text

namespace Glob

/-- Whether a text is what the parts of a pattern describe. -/
def fits : List Glob → List Char → Bool
  | [], s => s.isEmpty
  | run :: gs, s => s.tails.any (fits gs)
  | one :: gs, s => s.tail?.any (fits gs)
  | char c :: gs, s => s.head? == some c && fits gs s.tail

/-- A text that the parts of a pattern describe, with nothing for each run. -/
def sample : List Glob → List Char
  | [] => []
  | run :: gs => sample gs
  | one :: gs => 'x' :: sample gs
  | char c :: gs => c :: sample gs

theorem fits_run_iff {gs : List Glob} {s : List Char} :
    fits (run :: gs) s = true ↔ ∃ t, t <:+ s ∧ fits gs t = true := by
  simp only [fits, List.any_eq_true, List.mem_tails]

/-- A pattern fits its sample. -/
theorem fits_sample (gs : List Glob) : fits gs (sample gs) = true := by
  induction gs with
  | nil => rfl
  | cons g gs ih =>
    cases g with
    | run => exact fits_run_iff.2 ⟨_, List.suffix_rfl, ih⟩
    | one => exact ih
    | char c => simpa [fits, sample] using ih

/-- Characters in front of a pattern stand in front of what it fits. -/
theorem fits_chars_iff {v : List Char} {gs : List Glob} {s : List Char} :
    fits (v.map char ++ gs) s = true ↔ ∃ t, s = v ++ t ∧ fits gs t = true := by
  induction v generalizing s with
  | nil => simp
  | cons c v ih =>
    cases s with
    | nil => simp [fits]
    | cons d s => simp [fits, ih, and_assoc]

end Glob

theorem Literal.of_cons {c : Char} {v : List Char} (h : Literal (c :: v)) :
    (c ≠ '\\' ∧ c ≠ '%' ∧ c ≠ '_') ∧ Literal v := by
  have hc := h c (List.mem_cons_self ..)
  simp only [List.mem_cons, List.not_mem_nil, or_false, not_or] at hc
  exact ⟨⟨hc.2.2, hc.1, hc.2.1⟩, fun d hd => h d (List.mem_cons_of_mem _ hd)⟩

/-- What is neither a wildcard nor a backslash stands for itself. -/
theorem globs?_cons {c : Char} (h : c ≠ '\\' ∧ c ≠ '%' ∧ c ≠ '_') (cs : List Char) :
    globs? (c :: cs) = (globs? cs).map (.char c :: ·) := by
  rw [globs?]
  · exact fun hc _ => h.1 hc
  · exact fun _ _ hc _ => h.1 hc
  · exact fun hc => h.2.1 hc
  · exact fun hc => h.2.2 hc

/-- A literal text is a pattern of its characters. -/
theorem globs?_append {v : List Char} (h : Literal v) (w : List Char) :
    globs? (v ++ w) = (globs? w).map (v.map .char ++ ·) := by
  induction v with
  | nil => simp
  | cons c v ih =>
    obtain ⟨hc, hv⟩ := h.of_cons
    rw [List.cons_append, globs?_cons hc, ih hv, Option.map_map]
    rfl

/-- A sample that is shorter than a text is not the text. -/
theorem Glob.sample_lt {gs : List Glob} {v : List Char} (h : (sample gs).length < v.length) :
    (sample gs).length ≤ v.length ∧ (sample gs = v → Literal v) :=
  ⟨Nat.le_of_lt h, fun heq => absurd (congrArg List.length heq) (Nat.ne_of_lt h)⟩

/-- **The sample of a pattern is no longer than the pattern**, and it is the pattern itself
only for a literal text.  `rest` is what may stand behind the text: an escape at the end of
the text makes a character of it. -/
theorem Glob.sample_le {rest : List Char} (hrest : rest = [] ∨ rest = ['%']) {v : List Char}
    {gs : List Glob} (h : globs? (v ++ rest) = some gs) :
    (sample gs).length ≤ v.length ∧ (sample gs = v → Literal v) := by
  induction v using globs?.induct generalizing gs with
  | case1 =>
    have hsample : sample gs = [] := by
      rcases hrest with rfl | rfl <;> (obtain rfl := Option.some.inj h; rfl)
    rw [hsample]
    exact ⟨Nat.le_refl _, fun _ => by decide⟩
  | case2 =>
    rcases hrest with rfl | rfl
    · cases h
    · obtain rfl := Option.some.inj h
      exact ⟨Nat.le_refl _, by decide⟩
  | case3 c cs ih =>
    obtain ⟨gs, hgs, rfl⟩ := Option.map_eq_some_iff.1 h
    have hlength := (ih hgs).1
    exact sample_lt (by simp only [sample, List.length_cons]; omega)
  | case4 cs ih =>
    obtain ⟨gs, hgs, rfl⟩ := Option.map_eq_some_iff.1 h
    have hlength := (ih hgs).1
    exact sample_lt (by simp only [sample, List.length_cons]; omega)
  | case5 cs ih =>
    obtain ⟨gs, hgs, rfl⟩ := Option.map_eq_some_iff.1 h
    refine ⟨Nat.succ_le_succ (ih hgs).1, fun heq => ?_⟩
    exact absurd (List.cons.inj heq).1 (by decide)
  | case6 c cs hlast hescape hrun hone ih =>
    have hc : c ≠ '\\' := by
      intro hc
      cases cs with
      | nil => exact hlast hc rfl
      | cons d ds => exact hescape d ds hc rfl
    rw [List.cons_append, globs?_cons ⟨hc, hrun, hone⟩] at h
    obtain ⟨gs, hgs, rfl⟩ := Option.map_eq_some_iff.1 h
    obtain ⟨hlength, hliteral⟩ := ih hgs
    refine ⟨Nat.succ_le_succ hlength, fun heq => List.forall_mem_cons.2 ⟨?_, ?_⟩⟩
    · simpa using ⟨hrun, hone, hc⟩
    · exact hliteral (List.cons.inj heq).2

/-! ### Texts in texts -/

/-- Whether a text is what a pattern describes; `none` if it describes nothing. -/
def like (pattern s : List Char) : Option Bool :=
  (globs? pattern).map (Glob.fits · s)

end Sql

namespace Pattern

/-- Where a value is looked for, as such. -/
def Finds (p : Pattern) (v s : List Char) : Prop :=
  match p with
  | contains => v <:+: s
  | beginsWith => v <+: s
  | endsWith => v <:+ s

instance (p : Pattern) (v s : List Char) : Decidable (p.Finds v s) :=
  match p with
  | contains => inferInstanceAs (Decidable (v <:+: s))
  | beginsWith => inferInstanceAs (Decidable (v <+: s))
  | endsWith => inferInstanceAs (Decidable (v <:+ s))

/-- The pattern of `LIKE` around a value. -/
def around (p : Pattern) (v : List Char) : List Char :=
  match p with
  | contains => '%' :: (v ++ ['%'])
  | beginsWith => v ++ ['%']
  | endsWith => '%' :: v

end Pattern

namespace Sql

open Glob (fits sample)

/-- **A literal value is found where it is.** -/
theorem like_around {v : List Char} (h : Literal v) (p : Pattern) (s : List Char) :
    like (p.around v) s = some (decide (p.Finds v s)) := by
  have hrun : ∀ t, fits [.run] t = true := fun t =>
    Glob.fits_run_iff.2 ⟨[], List.nil_suffix, rfl⟩
  have hglobs : ∀ gs, globs? (p.around v) = some gs →
      (fits gs s = true ↔ p.Finds v s) → like (p.around v) s = some (decide (p.Finds v s)) := by
    intro gs hgs hfits
    rw [like, hgs, Option.map_some, Option.some_inj, Bool.eq_iff_iff, hfits, decide_eq_true_iff]
  cases p with
  | contains =>
    refine hglobs (.run :: (v.map .char ++ [.run])) ?_ ?_
    · rw [Pattern.around, globs?, globs?_append h]
      rfl
    · simp only [Glob.fits_run_iff, Glob.fits_chars_iff, hrun, and_true]
      rw [Pattern.Finds, List.infix_iff_prefix_suffix]
      exact exists_congr fun t => ⟨fun ⟨ht, u, hu⟩ => ⟨⟨u, hu.symm⟩, ht⟩,
        fun ⟨⟨u, hu⟩, ht⟩ => ⟨ht, u, hu.symm⟩⟩
  | beginsWith =>
    refine hglobs (v.map .char ++ [.run]) ?_ ?_
    · rw [Pattern.around, globs?_append h]
      rfl
    · simp only [Glob.fits_chars_iff, hrun, and_true]
      exact exists_congr fun t => eq_comm
  | endsWith =>
    have hv := globs?_append h []
    rw [List.append_nil] at hv
    refine hglobs (.run :: (v.map .char ++ [])) ?_ ?_
    · rw [Pattern.around, globs?, hv]
      rfl
    · simp only [Glob.fits_run_iff, Glob.fits_chars_iff]
      constructor
      · rintro ⟨t, ht, u, rfl, hu⟩
        rw [fits, List.isEmpty_iff] at hu
        rwa [hu, List.append_nil] at ht
      · exact fun hs => ⟨v, hs, [], (List.append_nil v).symm, rfl⟩

/-- The sample of the pattern around a value is no longer than the value. -/
theorem sample_around_le {p : Pattern} {v : List Char} {gs : List Glob}
    (h : globs? (p.around v) = some gs) :
    (sample gs).length ≤ v.length ∧ (sample gs = v → Literal v) := by
  cases p with
  | contains =>
    obtain ⟨inner, hinner, rfl⟩ := Option.map_eq_some_iff.1 h
    have hle : (sample inner).length ≤ v.length ∧ (sample inner = v → Literal v) :=
      Glob.sample_le (.inr rfl) hinner
    exact hle
  | beginsWith => exact Glob.sample_le (.inr rfl) h
  | endsWith =>
    obtain ⟨inner, hinner, rfl⟩ := Option.map_eq_some_iff.1 h
    rw [← List.append_nil v] at hinner
    have hle : (sample inner).length ≤ v.length ∧ (sample inner = v → Literal v) :=
      Glob.sample_le (.inl rfl) hinner
    exact hle

/-- **Only literal values are found as such.**  The pattern around any other value fits a
text without the value, or none at all. -/
theorem like_around_iff {p : Pattern} {v : List Char} :
    (∀ s, like (p.around v) s = some (decide (p.Finds v s))) ↔ Literal v := by
  refine ⟨fun h => ?_, fun hv s => like_around hv p s⟩
  cases hgs : globs? (p.around v) with
  | none =>
    have hnone := h []
    rw [like, hgs] at hnone
    cases hnone
  | some gs =>
    obtain ⟨hlength, hliteral⟩ := sample_around_le hgs
    have hfits := h (sample gs)
    rw [like, hgs, Option.map_some, Glob.fits_sample, Option.some_inj, eq_comm,
      decide_eq_true_iff] at hfits
    have hoccurs : v <:+: sample gs := by
      cases p with
      | contains => exact hfits
      | beginsWith => exact List.IsPrefix.isInfix hfits
      | endsWith => exact List.IsSuffix.isInfix hfits
    exact hliteral (hoccurs.eq_of_length_le hlength).symm

/-- Behind a backslash a percent sign is itself. -/
example : like "5\\%".toList "5%".toList = some true ∧ like "5\\%".toList "50".toList = some false :=
  ⟨by decide, by decide⟩

/-- The position of the first occurrence of `v` in `s`, counted from 1, or 0. -/
def position (s v : List Char) : Nat :=
  (s.tails.findIdx? v.isPrefixOf).elim 0 (· + 1)

/-- **A text has a position where it occurs.** -/
theorem position_pos_iff {s v : List Char} : 0 < position s v ↔ v <:+: s := by
  have hsome : 0 < position s v ↔ (s.tails.findIdx? v.isPrefixOf).isSome = true := by
    rw [position]
    cases s.tails.findIdx? v.isPrefixOf <;> simp
  rw [hsome, List.findIdx?_isSome, List.any_eq_true, List.infix_iff_prefix_suffix]
  simp only [List.mem_tails, List.isPrefixOf_iff_prefix, and_comm]

end Sql

/-! ### Evaluation -/

/-- Whether two numbers compare. -/
def Comparison.holds (c : Comparison) (m n : Nat) : Bool :=
  match c with
  | equal => m == n
  | notEqual => m != n
  | less => decide (m < n)
  | greater => decide (n < m)
  | lessOrEqual => decide (m ≤ n)
  | greaterOrEqual => decide (n ≤ m)

namespace Sql

/-- What an expression is evaluated to. -/
inductive Datum where
  | text (t : String)
  | number (n : Nat)
  | truth (b : Bool)
  deriving DecidableEq

namespace Datum

/-- The text of a datum that is one. -/
def text? : Datum → Option String
  | text t => some t
  | _ => none

/-- The truth value of a datum that is one. -/
def truth? : Datum → Option Bool
  | truth b => some b
  | _ => none

/-- Texts one after the other. -/
def concatenated (parts : List Datum) : Option Datum :=
  (parts.mapM text?).map fun texts => text (String.join texts)

/-- A function of the database. -/
def applied (function : String) (arguments : List Datum) : Option Datum :=
  match function, arguments with
  | "CONCAT", parts => concatenated parts
  | "INSTR", [text s, text v] => some (number (position s.toList v.toList))
  | _, _ => none

/-- A comparison of numbers. -/
def compared (c : Comparison) : Datum → Datum → Option Datum
  | number m, number n => some (truth (c.holds m n))
  | _, _ => none

/-- Whether a text is `LIKE` a pattern, or is not. -/
def likened (negated : Bool) : Datum → Datum → Option Datum
  | text s, text pattern => (like pattern.toList s.toList).map fun b => truth (negated ^^ b)
  | _, _ => none

end Datum

mutual

/-- What an expression is evaluated to on a row, which gives every column a text; `none`
if nothing is assumed of the expression. -/
def Expr.eval (row : List Name → String) : Expr → Option Datum
  | .column path => some (.text (row path))
  | .value (.str v) => some (.text v)
  | .text t => some (.text t)
  | .number digits => some (.number (Nat.ofDigitChars 10 digits.toList 0))
  | .concat parts => (evalAll row parts).bind Datum.concatenated
  | .call function arguments => (evalAll row arguments).bind (Datum.applied function)
  | .compare c left right => (left.eval row).bind fun l => (right.eval row).bind (Datum.compared c l)
  | .like negated left right =>
    (left.eval row).bind fun l => (right.eval row).bind (Datum.likened negated l)
  | _ => none

/-- What several expressions are evaluated to. -/
def evalAll (row : List Name → String) : List Expr → Option (List Datum)
  | [] => some []
  | e :: es => (e.eval row).bind fun d => (evalAll row es).map (d :: ·)

end

/-- Whether a row is among those that a text with bound values selects: an empty text
selects all of them.  `none` if the database has no answer. -/
def selects (row : List Name → String) (values : List Value) (text : String) : Option Bool :=
  match read values text with
  | none => none
  | some none => some true
  | some (some e) => (e.eval row).bind Datum.truth?

end Sql
end SqlFilter
