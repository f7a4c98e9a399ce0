/-
Module: HostControl.Toml.Value
Purpose: The values of TOML documents, and how settings are taken from them.
Main exports: Toml.Value, Toml.Table, Toml.Path, Toml.Table.find?
-/
import HostControl.Real.Shortest

namespace HostControl.Toml

/-- A value of a TOML document. A date or time is kept as it was written. -/
inductive Value where
  | string (text : String)
  | integer (number : Int)
  | real (number : Option Binary64)
  | boolean (value : Bool)
  | datetime (written : String)
  | array (items : List Value)
  | table (fields : List (String × Value))
deriving Repr, Inhabited

/-- The fields of a table, in the order of the document. -/
abbrev Table := List (String × Value)

/-- A key with its dots taken apart: one or more names. -/
abbrev Path := List String

/-- The value under a name. -/
def Table.find? (t : Table) (name : String) : Option Value :=
  (List.find? (·.1 == name) t).map (·.2)

end HostControl.Toml
