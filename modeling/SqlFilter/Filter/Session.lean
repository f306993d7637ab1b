/-
# Sessions

A session is one dialect with its numbering and one configuration, used for many
requests.  Every compilation starts a statement of its own, and between
compilations placeholders and clauses may be asked for directly, as long as a
statement has parts that do not come from a filter.
-/

import SqlFilter.Filter.Compile

namespace SqlFilter

/-- A dialect in use. -/
structure Session (σ : Type) where
  dialect : Dialect σ
  state : σ
  config : Config := {}

/-- What can be asked of a session. -/
inductive Request where
  | compile (node : Node)
  | placeholder
  | member (field : String) (count : Nat)
  | pattern (p : Pattern) (field : String) (negated isJson : Bool)
  | resolve (raw : String)
  | name
  | reset
  /-- Changes the configuration. -/
  | configure (config : Config)

/-- What a session answers. -/
inductive Answer where
  | compiled (result : Except CompileError Compiled)
  | text (sql : String)
  | resolved (field : Except CompileError FieldExpr)
  | done

namespace Session

variable {σ : Type}

/-- Runs a drawing on the session's numbering. -/
def draw (s : Session σ) (drawing : Drawing String) : Answer × Session σ :=
  let (text, state) := s.dialect.draw drawing s.state
  (.text text, { s with state := state })

/-- Answers a request. -/
def step (s : Session σ) : Request → Answer × Session σ
  | .compile node =>
    let (result, state) := SqlFilter.compile s.dialect s.config node s.state
    (.compiled result, { s with state := state })
  | .placeholder => s.draw Drawing.placeholder
  | .member field count => s.draw (s.dialect.member s.state field count)
  | .pattern p field negated isJson => s.draw (s.dialect.pattern s.state p field negated isJson)
  | .resolve raw => (.resolved (s.dialect.resolve s.state raw), s)
  | .name => (.text s.dialect.name, s)
  | .reset => (.done, { s with state := s.dialect.reset s.state })
  | .configure config => (.done, { s with config := config })

/-- Answers requests one after the other. -/
def run (s : Session σ) : List Request → List Answer × Session σ
  | [] => ([], s)
  | r :: rs =>
    let (answer, s) := s.step r
    let (answers, s) := s.run rs
    (answer :: answers, s)

end Session
end SqlFilter
