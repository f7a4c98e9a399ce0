/-
Module: HostControl.Text.Identifier
Purpose: Identifiers made of random bytes, as texts: thirty-two hexadecimal digits in five groups, with
  marks of the version and the variant among them.
Main exports: Identifier.ofBytes
-/
import HostControl.Text.Numeral

namespace HostControl.Text.Identifier

/-- A byte with the mark that its place asks for: byte 6 holds the version 4, byte 8 the variant. -/
def marked (place byte : Nat) : Nat :=
  if place = 6 then 0x40 + byte % 0x10
  else if place = 8 then 0x80 + byte % 0x40
  else byte % 0x100

/-- The digits of a byte, behind a dash where a group begins. -/
def digits (place byte : Nat) : List Char :=
  let pair := [digitChar (marked place byte / 16), digitChar (marked place byte % 16)]
  if place = 4 || place = 6 || place = 8 || place = 10 then '-' :: pair else pair

/-- The identifier for sixteen bytes. -/
def ofBytes (bytes : List Nat) : String :=
  String.ofList (bytes.zipIdx.flatMap fun (byte, place) => digits place byte)

end HostControl.Text.Identifier
