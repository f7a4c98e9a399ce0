/-
Module: HostControl.Toml.Token
Purpose: The parts of a TOML line: blanks, comments, strings, keys, numbers, dates.
Main exports: skipSpace, lineEnd, basicString, literalString, key, number
-/
import HostControl.Json.Reader
import HostControl.Time.Rfc3339
import HostControl.Toml.Value

namespace HostControl.Toml

open Text

/-- A reader takes a value off the front of a text. -/
abbrev Reader (α : Type) := List Char → Option (α × List Char)

/-! ### Blanks, comments and line ends -/

def isSpace (c : Char) : Bool := c == ' ' || c == '\t'

def skipSpace (cs : List Char) : List Char := cs.dropWhile isSpace

/-- Characters that may stand in comments and strings: all but the control characters, save for
the tab. -/
def isText (c : Char) : Bool := c == '\t' || (32 ≤ c.toNat && c.toNat != 127)

/-- A comment up to the end of its line, if one begins here. -/
def skipComment : List Char → List Char
  | '#' :: rest => rest.dropWhile isText
  | cs => cs

/-- The end of a line: a line feed, alone or after a carriage return. -/
def newline : List Char → Option (List Char)
  | '\n' :: rest => some rest
  | '\r' :: '\n' :: rest => some rest
  | _ => none

/-- What may follow on a line that is complete: blanks, a comment, and the end of the line or of the
text. -/
def lineEnd (cs : List Char) : Option (List Char) :=
  match skipComment (skipSpace cs) with
  | [] => some []
  | rest => newline rest

/-- Blanks, line ends and comments, as they may stand between the items of an array. The first
argument bounds their number. -/
def skipGap : Nat → List Char → List Char
  | 0, cs => cs
  | fuel + 1, cs =>
    match cs with
    | ' ' :: rest | '\t' :: rest | '\n' :: rest => skipGap fuel rest
    | '\r' :: '\n' :: rest => skipGap fuel rest
    | '#' :: rest =>
      match newline (rest.dropWhile isText) with
      | some rest => skipGap fuel rest
      | none => cs
    | _ => cs

/-! ### Strings -/

/-- The character with the number that the given hexadecimal digits name. -/
def scalar (digits : List Char) : Option Char :=
  match readNumeral? 16 digits with
  | some n => if h : n.isValidChar then some (Char.ofNatAux n h) else none
  | none => none

/-- What an escape stands for, after its backslash. -/
def escape : Reader Char
  | 'b' :: rest => some ('\x08', rest)
  | 't' :: rest => some ('\t', rest)
  | 'n' :: rest => some ('\n', rest)
  | 'f' :: rest => some ('\x0c', rest)
  | 'r' :: rest => some ('\r', rest)
  | '"' :: rest => some ('"', rest)
  | '\\' :: rest => some ('\\', rest)
  | 'u' :: rest =>
    if rest.length < 4 then none else (scalar (rest.take 4)).map (·, rest.drop 4)
  | 'U' :: rest =>
    if rest.length < 8 then none else (scalar (rest.take 8)).map (·, rest.drop 8)
  | _ => none

/-- The characters of a string in double quotes, after the opening one. The first argument bounds
their number. -/
def basicBody : Nat → Reader (List Char)
  | 0, _ => none
  | _ + 1, [] => none
  | fuel + 1, c :: rest =>
    if c = '"' then some ([], rest)
    else if c = '\\' then
      match escape rest with
      | some (d, rest) => (basicBody fuel rest).map fun (ds, after) => (d :: ds, after)
      | none => none
    else if isText c then (basicBody fuel rest).map fun (ds, after) => (c :: ds, after)
    else none

/-- The characters of a string in single quotes, after the opening one. -/
def literalBody : Reader (List Char)
  | [] => none
  | c :: rest =>
    if c = '\'' then some ([], rest)
    else if isText c then (literalBody rest).map fun (ds, after) => (c :: ds, after)
    else none

/-- A string in double quotes on one line, after the opening one. -/
def basicString (cs : List Char) : Option (String × List Char) :=
  (basicBody (cs.length + 1) cs).map fun (ds, after) => (String.ofList ds, after)

/-- A string in single quotes on one line, after the opening one. -/
def literalString (cs : List Char) : Option (String × List Char) :=
  (literalBody cs).map fun (ds, after) => (String.ofList ds, after)

/-- The number of quotes at the front, and what follows them. -/
def spanQuotes (quote : Char) : List Char → Nat × List Char
  | [] => (0, [])
  | c :: rest =>
    if c = quote then let (n, after) := spanQuotes quote rest; (n + 1, after)
    else (0, c :: rest)

/-- What is left behind blanks and line ends. A carriage return alone is no line end. -/
def skipLines : List Char → List Char
  | '\r' :: '\n' :: rest => skipLines rest
  | c :: rest => if isSpace c || c == '\n' then skipLines rest else c :: rest
  | [] => []

/-- The body of a string over several lines, after the three opening quotes. Three to five quotes in
a row end it, and those before the last three belong to it. In double quotes, a backslash at the end
of a line takes the blanks and line ends behind it away. The first argument bounds the number of
characters. -/
def multilineBody (quote : Char) : Nat → Reader (List Char)
  | 0, _ => none
  | _ + 1, [] => none
  | fuel + 1, c :: rest =>
    if c = quote then
      let (n, after) := spanQuotes quote (c :: rest)
      let kept := List.replicate (if n < 3 then n else n - 3) quote
      if n < 3 then (multilineBody quote fuel after).map fun (ds, after) => (kept ++ ds, after)
      else if n ≤ 5 then some (kept, after)
      else none
    else if c = '\\' ∧ quote = '"' then
      match newline (skipSpace rest) with
      | some after => multilineBody quote fuel (skipLines after)
      | none =>
        match escape rest with
        | some (d, rest) => (multilineBody quote fuel rest).map fun (ds, after) => (d :: ds, after)
        | none => none
    else
      match newline (c :: rest) with
      | some after => (multilineBody quote fuel after).map fun (ds, after) => ('\n' :: ds, after)
      | none =>
        if isText c then (multilineBody quote fuel rest).map fun (ds, after) => (c :: ds, after)
        else none

/-- A string over several lines; a line end right after the opening quotes does not count. -/
def multilineString (quote : Char) (cs : List Char) : Option (String × List Char) :=
  let cs := (newline cs).getD cs
  (multilineBody quote (cs.length + 1) cs).map fun (ds, after) => (String.ofList ds, after)

/-- A string of any of the four kinds. -/
def string : Reader String
  | '"' :: '"' :: '"' :: rest => multilineString '"' rest
  | '\'' :: '\'' :: '\'' :: rest => multilineString '\'' rest
  | '"' :: rest => basicString rest
  | '\'' :: rest => literalString rest
  | _ => none

/-! ### Keys -/

/-- Characters of a name that needs no quotes. -/
def isBare (c : Char) : Bool :=
  let n := c.toNat
  (65 ≤ n && n ≤ 90) || (97 ≤ n && n ≤ 122) || (48 ≤ n && n ≤ 57) || c == '_' || c == '-'

/-- One name of a key: bare, or in quotes. -/
def keyName : Reader String
  | '"' :: rest => basicString rest
  | '\'' :: rest => literalString rest
  | cs =>
    match cs.takeWhile isBare with
    | [] => none
    | name => some (String.ofList name, cs.dropWhile isBare)

/-- Names with dots between them; blanks may stand around each. The first argument bounds their
number. -/
def keyNames : Nat → Reader Path
  | 0, _ => none
  | fuel + 1, cs =>
    match keyName (skipSpace cs) with
    | none => none
    | some (name, rest) =>
      match skipSpace rest with
      | '.' :: rest => (keyNames fuel rest).map fun (more, rest) => (name :: more, rest)
      | rest => some ([name], rest)

/-- A key has fewer names than this, and so is the nesting of values. -/
def depthLimit : Nat := 80

def key (cs : List Char) : Option (Path × List Char) :=
  (keyNames (depthLimit - 1) cs)

/-! ### Numbers and dates -/

/-- Digits of the base with single underscores between them, as values. -/
def digitGroups (base : Nat) : Nat → Reader (List Nat)
  | 0, _ => none
  | fuel + 1, cs =>
    match spanDigits base cs with
    | ([], _) => none
    | (ds, '_' :: rest) => (digitGroups base fuel rest).map fun (more, rest) => (ds ++ more, rest)
    | (ds, rest) => some (ds, rest)

/-- A sign, if there is one: whether it is a minus, and the rest. -/
def sign : List Char → Bool × List Char
  | '-' :: rest => (true, rest)
  | '+' :: rest => (false, rest)
  | cs => (false, cs)

/-- The digits of a decimal integer: a single zero, or digits that begin with none. -/
def wholeDigits : Reader (List Nat)
  | '0' :: rest => some ([0], rest)
  | cs => digitGroups 10 (cs.length + 1) cs

/-- The integers of 64 bits with a sign. -/
def integerOf? (negative : Bool) (magnitude : Nat) : Option Value :=
  let n : Int := if negative then -magnitude else magnitude
  if -9223372036854775808 ≤ n ∧ n ≤ 9223372036854775807 then some (.integer n) else none

def integer : Reader Value
  | '0' :: 'x' :: rest => based 16 rest
  | '0' :: 'o' :: rest => based 8 rest
  | '0' :: 'b' :: rest => based 2 rest
  | cs => do
    let (negative, cs) := sign cs
    let (ds, rest) ← wholeDigits cs
    (integerOf? negative (ofDigits 10 ds)).map (·, rest)
where
  based (base : Nat) (cs : List Char) : Option (Value × List Char) := do
    let (ds, rest) ← digitGroups base (cs.length + 1) cs
    (integerOf? false (ofDigits base ds)).map (·, rest)

/-- The digits behind a point, if there is one. -/
def fractionDigits : Reader (List Nat)
  | '.' :: rest => digitGroups 10 (rest.length + 1) rest
  | cs => some ([], cs)

/-- The exponent, if there is one. -/
def exponent : Reader (Option Int)
  | 'e' :: rest | 'E' :: rest => do
    let (negative, rest) := sign rest
    let (ds, rest) ← digitGroups 10 (rest.length + 1) rest
    let n : Int := ofDigits 10 ds
    some (some (if negative then -n else n), rest)
  | cs => some (none, cs)

/-- Whether a point or an exponent follows the digits of a number. -/
def goesOn : List Char → Bool
  | '.' :: _ | 'e' :: _ | 'E' :: _ => true
  | _ => false

/-- A number with a point or an exponent, or one of the words for infinity and for no number. One
that is too large above is refused. -/
def real (cs : List Char) : Option (Value × List Char) :=
  let (negative, cs) := sign cs
  match cs with
  | 'i' :: 'n' :: 'f' :: rest => some (.real none, rest)
  | 'n' :: 'a' :: 'n' :: rest => some (.real none, rest)
  | cs => do
    let (whole, rest) ← wholeDigits cs
    guard (goesOn rest)
    let (fraction, rest) ← fractionDigits rest
    let (exponent, rest) ← exponent rest
    let x := Json.nearestReal? negative (ofDigits 10 (whole ++ fraction))
      (exponent.getD 0 - fraction.length)
    guard (negative || x.isSome)
    some (.real x, rest)

/-- The reading of a part that may be left out. -/
def orEmpty (part : List Char → Option (List Char)) (cs : List Char) : List Char :=
  (part cs).getD cs

/-- Digits whose value lies between two bounds. -/
def ranged (n low high : Nat) (cs : List Char) : Option (Nat × List Char) :=
  match Rfc3339.digits n cs with
  | some (value, rest) => if low ≤ value ∧ value ≤ high then some (value, rest) else none
  | none => none

def skip (c : Char) : List Char → Option (List Char)
  | [] => none
  | d :: rest => if d == c then some rest else none

/-- The text behind a date. -/
def afterDate (cs : List Char) : Option (List Char) := do
  let (year, cs) ← ranged 4 0 9999 cs
  let (month, cs) ← ranged 2 1 12 (← skip '-' cs)
  let (day, cs) ← ranged 2 1 31 (← skip '-' cs)
  guard (CivilDate.exists? ⟨year, month, day⟩)
  some cs

/-- The text behind a time of day. -/
def afterTime (cs : List Char) : Option (List Char) := do
  let (_, cs) ← ranged 2 0 23 cs
  let (_, cs) ← ranged 2 0 59 (← skip ':' cs)
  let (_, cs) ← ranged 2 0 60 (← skip ':' cs)
  match cs with
  | '.' :: rest =>
    match spanDigits 10 rest with
    | ([], _) => some cs
    | (_, rest) => some rest
  | cs => some cs

/-- The text behind the offset of a zone. -/
def afterOffset (cs : List Char) : Option (List Char) :=
  match cs with
  | 'Z' :: rest | 'z' :: rest => some rest
  | '+' :: rest | '-' :: rest => do
    let (_, rest) ← ranged 2 0 23 rest
    let (_, rest) ← ranged 2 0 59 (← skip ':' rest)
    some rest
  | _ => none

/-- The text behind a time that follows a date: a letter T or a space comes before it, an offset may
come after it. -/
def afterTimeOfDate (cs : List Char) : Option (List Char) :=
  match cs with
  | 'T' :: rest | 't' :: rest | ' ' :: rest => (afterTime rest).map (orEmpty afterOffset)
  | _ => none

/-- The text behind a date, a time, or a date with a time. -/
def afterDatetime (cs : List Char) : Option (List Char) :=
  match afterDate cs with
  | some rest => some (orEmpty afterTimeOfDate rest)
  | none => afterTime cs

/-- A date, a time, a real or an integer, tried in this order. -/
def number (cs : List Char) : Option (Value × List Char) :=
  match afterDatetime cs with
  | some rest => some (.datetime (String.ofList (cs.take (cs.length - rest.length))), rest)
  | none => real cs <|> integer cs

end HostControl.Toml
