/-
Module: HostControl.Json.Fields
Purpose: The parts of JSON values taken by name and type, with what stands for a missing part.
Main exports: Json.get, Json.string?, Json.integer?, Json.flag, Json.items, Json.fields
-/
import HostControl.Json.Basic

namespace HostControl.Json

/-- The value of a field; null if it is not there. -/
def get (v : Json) (name : String) : Json := (v.field? name).getD .null

/-- Whether a field is there. -/
def has (v : Json) (name : String) : Bool := (v.field? name).isSome

def text? : Json → Option String
  | .str s => some s
  | _ => none

def whole? : Json → Option Int
  | .int n => some n
  | _ => none

/-- The text of a string; empty for any other value. -/
def text (v : Json) : String := v.text?.getD ""

def string? (v : Json) (name : String) : Option String := (v.get name).text?

/-- The text in a field; empty if there is none. -/
def string (v : Json) (name : String) : String := (v.string? name).getD ""

def integer? (v : Json) (name : String) : Option Int := (v.get name).whole?

/-- The number in a field; zero if there is none. -/
def integer (v : Json) (name : String) : Int := (v.integer? name).getD 0

/-- The number in a field as one that is never negative. -/
def natural (v : Json) (name : String) : Nat := (v.integer name).toNat

/-- Whether a field says yes. -/
def flag (v : Json) (name : String) : Bool :=
  match v.get name with
  | .bool b => b
  | _ => false

/-- The items of an array; none for any other value. -/
def items : Json → List Json
  | .arr xs => xs
  | _ => []

/-- The fields of an object; none for any other value. -/
def fields : Json → List (String × Json)
  | .obj fs => fs
  | _ => []

end HostControl.Json
