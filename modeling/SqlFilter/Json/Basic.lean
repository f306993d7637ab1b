/-
# JSON documents

A number of a document is an integer, if it is written like one and fits in 64
bits with or without a sign, and a floating point number otherwise.  The members
of an object are kept in the order of their names, each name once.
-/

namespace SqlFilter

namespace Json

/-- A number of a JSON document. -/
inductive Number where
  | int (n : Int)
  | float (x : Float)
  deriving Inhabited

end Json

/-- A JSON document. -/
inductive Json where
  | null
  | bool (b : Bool)
  | num (n : Json.Number)
  | str (s : String)
  | arr (items : List Json)
  | obj (members : List (String × Json))
  deriving Inhabited

namespace Json

/-- Puts a member into its place; a member of the same name gives way. -/
def insertMember (name : String) (value : Json) : List (String × Json) → List (String × Json)
  | [] => [(name, value)]
  | (k, v) :: rest =>
    if name < k then (name, value) :: (k, v) :: rest
    else if name = k then (name, value) :: rest
    else (k, v) :: insertMember name value rest

/-- An object of members as they are written: of several with one name the last
one counts. -/
def ofMembers (members : List (String × Json)) : Json :=
  .obj (members.foldl (fun all m => insertMember m.1 m.2 all) [])

end Json
end SqlFilter
