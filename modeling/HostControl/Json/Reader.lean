/-
Module: HostControl.Json.Reader
Purpose: JSON texts read into values.
Main exports: Json.readValue, Json.read?
-/
import HostControl.Json.Basic

namespace HostControl.Json

open Text

/-- Blanks between the parts of a JSON text. -/
def isGap (c : Char) : Bool := c == ' ' || c == '\t' || c == '\n' || c == '\r'

def skipGap (cs : List Char) : List Char := cs.dropWhile isGap

/-! ### Strings -/

/-- The code unit that four hexadecimal digits name. -/
def codeUnit (cs : List Char) : Option (Nat × List Char) :=
  match cs with
  | a :: b :: c :: d :: rest => (readNumeral? 16 [a, b, c, d]).map (·, rest)
  | _ => none

/-- The character of one code unit, or of a surrogate pair; a surrogate alone is none. -/
def unicodeEscape (cs : List Char) : Option (Char × List Char) :=
  match codeUnit cs with
  | none => none
  | some (unit, rest) =>
    if 0xD800 ≤ unit ∧ unit < 0xDC00 then
      match rest with
      | '\\' :: 'u' :: more =>
        match codeUnit more with
        | some (low, rest) =>
          if 0xDC00 ≤ low ∧ low < 0xE000 then
            some (Char.ofNat (0x10000 + (unit - 0xD800) * 1024 + (low - 0xDC00)), rest)
          else none
        | none => none
      | _ => none
    else if 0xDC00 ≤ unit ∧ unit < 0xE000 then none
    else some (Char.ofNat unit, rest)

/-- What an escape stands for, after its backslash. -/
def escape (cs : List Char) : Option (Char × List Char) :=
  match cs with
  | '"' :: rest => some ('"', rest)
  | '\\' :: rest => some ('\\', rest)
  | '/' :: rest => some ('/', rest)
  | 'b' :: rest => some ('\x08', rest)
  | 'f' :: rest => some ('\x0c', rest)
  | 'n' :: rest => some ('\n', rest)
  | 'r' :: rest => some ('\r', rest)
  | 't' :: rest => some ('\t', rest)
  | 'u' :: rest => unicodeEscape rest
  | _ => none

/-- The characters of a string up to its closing quote. The first argument bounds the characters
taken; the length of the text is enough. -/
def stringBody : Nat → List Char → Option (List Char × List Char)
  | 0, _ => none
  | _ + 1, [] => none
  | fuel + 1, c :: rest =>
    if c = '"' then some ([], rest)
    else if c = '\\' then
      match escape rest with
      | some (d, rest) => (stringBody fuel rest).map fun (ds, after) => (d :: ds, after)
      | none => none
    else if c.toNat < 32 then none
    else (stringBody fuel rest).map fun (ds, after) => (c :: ds, after)

/-- A string after its opening quote. -/
def stringAfterQuote (cs : List Char) : Option (String × List Char) :=
  (stringBody (cs.length + 1) cs).map fun (ds, after) => (String.ofList ds, after)

/-! ### Numbers -/

/-- The digits before the point: a single zero, or digits that do not begin with zero. -/
def wholePart (cs : List Char) : Option (List Nat × List Char) :=
  match spanDigits 10 cs with
  | ([], _) => none
  | (0 :: _ :: _, _) => none
  | (ds, rest) => some (ds, rest)

/-- The digits behind the point; no point, no digits. -/
def fractionPart (cs : List Char) : Option (List Nat × List Char) :=
  match cs with
  | '.' :: rest =>
    match spanDigits 10 rest with
    | ([], _) => none
    | (ds, rest) => some (ds, rest)
  | cs => some ([], cs)

/-- The exponent, if there is one. -/
def exponentPart (cs : List Char) : Option (Option Int × List Char) :=
  let digits := fun (sign : Int) (cs : List Char) =>
    match spanDigits 10 cs with
    | ([], _) => none
    | (ds, rest) => some (some (sign * ofDigits 10 ds), rest)
  match cs with
  | 'e' :: '-' :: rest | 'E' :: '-' :: rest => digits (-1) rest
  | 'e' :: '+' :: rest | 'E' :: '+' :: rest => digits 1 rest
  | 'e' :: rest | 'E' :: rest => digits 1 rest
  | cs => some (none, cs)

/-- The binary64 number nearest to `m · 10^e`, none when it is too large. -/
def nearestReal? (negative : Bool) (m : Nat) (e : Int) : Option Binary64 :=
  -- No number of 310 places or more is finite, and none of 350 places behind the point is not zero.
  let places : Int := (decimal m).length + e
  let magnitude : Float :=
    if m = 0 ∨ places < -350 then 0.0
    else if places > 310 then 1.0 / 0.0
    else Float.ofScientific m (e < 0) e.natAbs
  let x := Binary64.ofFloat (if negative then -magnitude else magnitude)
  if x.finite then some x else none

/-- The least integer of 64 bits with a sign, and the greatest one without. -/
def leastInt : Int := -9223372036854775808
def greatestInt : Int := 18446744073709551615

/-- A number. One without point and exponent is an integer if it fits into 64 bits, with or without
a sign; minus zero and all others are reals. -/
def number (cs : List Char) : Option (Json × List Char) := do
  let (negative, cs) := match cs with
    | '-' :: rest => (true, rest)
    | cs => (false, cs)
  let (whole, cs) ← wholePart cs
  let (fraction, cs) ← fractionPart cs
  let (exponent, cs) ← exponentPart cs
  let m := ofDigits 10 (whole ++ fraction)
  let value : Int := if negative then -m else m
  if fraction.isEmpty && exponent.isNone && !(negative && m == 0) &&
      leastInt ≤ value && value ≤ greatestInt then
    some (.int value, cs)
  else
    let x ← nearestReal? negative m (exponent.getD 0 - fraction.length)
    some (.real x, cs)

/-! ### Values -/

mutual

/-- A value at the front of a text. The first argument bounds the nesting and the number of items;
twice the length of the text is enough. -/
def readValue : Nat → List Char → Option (Json × List Char)
  | 0, _ => none
  | fuel + 1, cs =>
    match cs with
    | 'n' :: 'u' :: 'l' :: 'l' :: rest => some (.null, rest)
    | 't' :: 'r' :: 'u' :: 'e' :: rest => some (.bool true, rest)
    | 'f' :: 'a' :: 'l' :: 's' :: 'e' :: rest => some (.bool false, rest)
    | '"' :: rest => (stringAfterQuote rest).map fun (s, rest) => (.str s, rest)
    | '[' :: rest =>
      match skipGap rest with
      | ']' :: rest => some (.arr [], rest)
      | rest => (readItems fuel rest).map fun (items, rest) => (.arr items, rest)
    | '{' :: rest =>
      match skipGap rest with
      | '}' :: rest => some (.obj [], rest)
      | rest => (readFields fuel rest).map fun (fields, rest) => (.obj fields, rest)
    | cs => number cs

/-- One or more items up to the closing bracket. -/
def readItems : Nat → List Char → Option (List Json × List Char)
  | 0, _ => none
  | fuel + 1, cs =>
    match readValue fuel (skipGap cs) with
    | none => none
    | some (v, rest) =>
      match skipGap rest with
      | ',' :: rest => (readItems fuel rest).map fun (more, rest) => (v :: more, rest)
      | ']' :: rest => some ([v], rest)
      | _ => none

/-- One or more fields up to the closing brace. -/
def readFields : Nat → List Char → Option (List (String × Json) × List Char)
  | 0, _ => none
  | fuel + 1, cs =>
    match skipGap cs with
    | '"' :: rest =>
      match stringAfterQuote rest with
      | none => none
      | some (name, rest) =>
        match skipGap rest with
        | ':' :: rest =>
          match readValue fuel (skipGap rest) with
          | none => none
          | some (v, rest) =>
            match skipGap rest with
            | ',' :: rest => (readFields fuel rest).map fun (more, rest) => ((name, v) :: more, rest)
            | '}' :: rest => some ([(name, v)], rest)
            | _ => none
        | _ => none
    | _ => none

end

def readChars? (cs : List Char) : Option Json :=
  match readValue (2 * cs.length + 1) (skipGap cs) with
  | some (v, rest) => if (skipGap rest).isEmpty then some v else none
  | none => none

/-- The value that a JSON text denotes, with nothing but blanks around it. -/
def read? (s : String) : Option Json := readChars? s.toList

end HostControl.Json
