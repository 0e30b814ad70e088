/-
  Conduit/Text/Record.lean
  ========================
  **How a value with named fields is written for inspection.**

  A record is its name, then its fields in braces as `name: value`, separated by
  commas.  An open record holds more than it shows, and says so with two dots at
  its end.
-/

namespace Conduit.Text

/-- The fields of a record as they stand between its braces. -/
def fields (fs : List (String × String)) : String :=
  String.intercalate ", " (fs.map fun f => f.1 ++ ": " ++ f.2)

/-- A record that shows all it holds. -/
def record (name : String) (fs : List (String × String)) : String :=
  name ++ " \x7b " ++ fields fs ++ " \x7d"

/-- A record that holds more than it shows. -/
def openRecord (name : String) (fs : List (String × String)) : String :=
  name ++ " \x7b " ++ fields fs ++ ", .. \x7d"

def truth (b : Bool) : String :=
  if b then "true" else "false"

end Conduit.Text
