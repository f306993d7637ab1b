/-
# Compiling a filter

A filter compiles depth first, from left to right.  Each leaf is planned
(`Leaf.plan`) and then written, and only what is written draws placeholders.  A
leaf with a built-in operator draws exactly as many placeholders as it binds
values, and an operation that does not is refused.

A group joins the texts of its children.  Children without text leave no trace
in it, and the text is put between parentheses if two or more remain.
-/

import SqlFilter.Filter.Plan

namespace SqlFilter

variable {σ : Type}

/-- A compilation may fail, and leaves the numbering where it stopped. -/
abbrev Compilation (σ : Type) := ExceptT CompileError (StateM σ)

/-- What an operation drew, if it binds one value for each placeholder. -/
def checked (operator : String) :
    Except CompileError (String × List Value) × Nat → Except CompileError Compiled
  | (.error e, _) => .error e
  | (.ok (sql, values), issued) =>
    if issued = values.length then .ok ⟨sql, values⟩
    else .error (.refused operator
      ("returned " ++ toString values.length ++ " values for " ++ toString issued
        ++ " placeholders"))

/-- A plan as SQL. -/
def Plan.write (d : Dialect σ) : Plan → Compilation σ Compiled
  | nothing => pure {}
  | condition field c => do
    let s ← get
    ExceptT.lift (d.draw (c.write d s field))
  | custom operator drawing => ExceptT.mk do return checked operator (← d.draw drawing.counted)

/-- A leaf as SQL. -/
def Leaf.compile (d : Dialect σ) (config : Config) (leaf : Leaf) : Compilation σ Compiled := do
  let s ← get
  match leaf.plan (d.resolve s) config with
  | .error e => throw e
  | .ok plan => plan.write d

/-- The texts of a group's children as one text. -/
def Glue.join (glue : Glue) (fragments : List String) : String :=
  let joined := glue.separator.intercalate fragments
  if fragments.length > 1 then "( " ++ joined ++ " )" else joined

/-- A group from its children: those without text are left out of the text. -/
def Compiled.group (glue : Glue) (parts : List Compiled) : Compiled where
  sql := glue.join ((parts.map (·.sql)).filter (!·.isEmpty))
  values := parts.flatMap (·.values)

mutual

/-- A filter as SQL, going on where the numbering stands. -/
def Node.compile (d : Dialect σ) (config : Config) : Node → Compilation σ Compiled
  | .leaf leaf => leaf.compile d config
  | .group glue rules => do return .group glue (← compileAll d config rules)

/-- The children of a group as SQL, each on its own. -/
def compileAll (d : Dialect σ) (config : Config) : List Node → Compilation σ (List Compiled)
  | [] => pure []
  | node :: nodes => do
    let first ← node.compile d config
    return first :: (← compileAll d config nodes)

end

/-- **Compiles a filter** as a statement of its own: the numbering starts anew,
and the state is left where the last drawn placeholder put it, also when the
filter does not compile. -/
def compile (d : Dialect σ) (config : Config) (node : Node) (s : σ) :
    Except CompileError Compiled × σ :=
  (node.compile d config).run (d.reset s)

end SqlFilter
