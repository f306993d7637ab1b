/-
# Plain SQL identifiers

The type of a JSON reference becomes the target of a cast and cannot be quoted,
so it has to be a plain identifier: ASCII letters, digits and underscores, not
starting with a digit, and no longer than a database keeps.
-/

namespace SqlFilter
namespace Identifier

/-- The most bytes of an identifier that a database keeps. -/
def maxBytes : Nat := 63

/-- The first character of an identifier is an ASCII letter or an underscore. -/
def isStart (c : Char) : Bool :=
  c.isAlpha || c == '_'

/-- The later characters may also be ASCII digits. -/
def isPart (c : Char) : Bool :=
  c.isAlphanum || c == '_'

/-- Whether a text is a plain identifier. -/
def isPlain (text : String) : Bool :=
  decide (text.utf8ByteSize ≤ maxBytes) &&
    match text.toList with
    | [] => false
    | first :: rest => isStart first && rest.all isPart

/-- A plain identifier begins as one and goes on as one. -/
theorem exists_of_isPlain {name : String} (h : isPlain name = true) :
    ∃ c cs, name.toList = c :: cs ∧ isStart c = true ∧
      ∀ d ∈ cs, isPart d = true := by
  rw [isPlain, Bool.and_eq_true] at h
  cases hn : name.toList with
  | nil => simp [hn] at h
  | cons c cs =>
    rw [hn] at h
    refine ⟨c, cs, rfl, ?_⟩
    simpa using h.2

end Identifier
end SqlFilter
