/-
Module: HostControl.Config.Section
Purpose: Records filled from TOML values, with every field that is not there left as it was.
Main exports: Field, Section.read?, string?, word32?, word64?, boolean?
-/
import HostControl.Toml.Value
import HostControl.Word

namespace HostControl.Config

/-- A field of a record: its name in a document, and how a value is put into the record, if it has the
field's type. -/
structure Field (σ : Type) where
  name : String
  put : Toml.Value → σ → Option σ

namespace Field

/-- A field with a reader of its values and a setter. -/
def of {σ α : Type} (name : String) (read : Toml.Value → Option α) (set : α → σ → σ) : Field σ where
  name
  put v s := (read v).map (set · s)

end Field

/-! ### Values -/

def string? : Toml.Value → Option String
  | .string text => some text
  | _ => none

def boolean? : Toml.Value → Option Bool
  | .boolean b => some b
  | _ => none

/-- A whole number from zero to a limit. -/
def upTo? (limit : Nat) : Toml.Value → Option Nat
  | .integer n => if 0 ≤ n ∧ n ≤ limit then some n.toNat else none
  | _ => none

def word32? (v : Toml.Value) : Option UInt32 := (upTo? Word.max32 v).map (·.toUInt32)
def word64? (v : Toml.Value) : Option UInt64 := (upTo? Word.max64 v).map (·.toUInt64)

/-! ### Sections -/

namespace Section

variable {σ : Type}

/-- Fills a record by the names of its fields. Other names are ignored. -/
def ofTable (fields : List (Field σ)) (t : Toml.Table) (s : σ) : Option σ :=
  fields.foldlM (fun s f => match t.find? f.name with
    | none => some s
    | some v => f.put v s) s

/-- Fills a record by the places of its fields. -/
def ofItems : List (Field σ) → List Toml.Value → σ → Option σ
  | f :: fields, v :: items, s => (f.put v s).bind (ofItems fields items)
  | _, _, s => some s

/-- Fills a record from a value: a table gives its fields by name and an array by place; a date gives
none of them. -/
def read? (fields : List (Field σ)) (s : σ) : Toml.Value → Option σ
  | .table t => ofTable fields t s
  | .array items => ofItems fields items s
  | .datetime _ => some s
  | _ => none

end Section

/-- A field that is a section itself. Its value replaces the section as a whole. -/
def Field.nested {σ τ : Type} (name : String) (fields : List (Field τ)) (defaults : τ)
    (set : τ → σ → σ) : Field σ :=
  .of name (Section.read? fields defaults) set

end HostControl.Config
