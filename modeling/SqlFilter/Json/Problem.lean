/-
# What can be wrong with a text

A text is read from left to right, and the first problem met is the one
reported.  So a value of the wrong shape hides what is wrong after it, and a
text that breaks off early hides nothing before the break.
-/

namespace SqlFilter
namespace Json

/-- Why a text cannot be read. -/
inductive Problem where
  /-- The text ends too early. -/
  | truncated
  /-- The text is not JSON, is nested too deeply, or holds a number or a
  character that JSON has no place for. -/
  | malformed
  /-- The text is JSON of another shape. -/
  | mismatch
  deriving DecidableEq, Inhabited

end Json
end SqlFilter
