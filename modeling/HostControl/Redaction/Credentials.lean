/-
Module: HostControl.Redaction.Credentials
Purpose: Texts of failed requests made safe to keep: white space narrowed, credentials taken out, and
  the length limited.
Main exports: bearerToken, keyedValue, webToken, redact, sanitize
-/
import HostControl.Redaction.Pattern
import HostControl.Text.Blank

namespace HostControl.Redaction

open Text

/-! ### Sets of characters -/

/-- The lower-case form of an ASCII letter. The long s and the Kelvin sign are further forms of s and
k, so they count as these. -/
def fold (c : Char) : Char :=
  if 65 ≤ c.toNat ∧ c.toNat ≤ 90 then Char.ofNat (c.toNat + 32)
  else if c = '\u017f' then 's'
  else if c = '\u212a' then 'k'
  else c

/-- A letter in any case. -/
def letter (l : Char) : CharSet := fun c => fold c == l

/-- A word in any case. -/
def anyCase (w : String) : List CharSet := w.toList.map letter

def isLower (c : Char) : Bool := 97 ≤ c.toNat && c.toNat ≤ 122
def isUpper (c : Char) : Bool := 65 ≤ c.toNat && c.toNat ≤ 90
def isDecimal (c : Char) : Bool := 48 ≤ c.toNat && c.toNat ≤ 57

def exactly (d : Char) : CharSet := fun c => c == d

/-- Characters of a bearer token, letters in any case. -/
def isTokenChar (c : Char) : Bool :=
  isLower (fold c) || isDecimal c || c == '.' || c == '_' || c == '~' || c == '+' || c == '/' || c == '-'

/-- Characters of a value after a key: all but quotes, blanks, commas, ampersands and closing braces. -/
def isValueChar (c : Char) : Bool :=
  !(c == '"' || isBlank c || c == ',' || c == '&' || c == '\x7d')

/-- Characters of a part of a web token. -/
def isWebTokenChar (c : Char) : Bool :=
  isLower c || isUpper c || isDecimal c || c == '_' || c == '-'

/-! ### Credentials -/

/-- The word "bearer", blanks, and a token that equals signs may end. -/
def bearerToken : Pattern :=
  [.word [anyCase "bearer"], .some isBlank, .some isTokenChar, .many (exactly '=')]

/-- The names of keys whose values are secret. -/
def secretKeys : List String :=
  ["access_token", "refresh_token", "api_key", "apikey", "password", "secret"]

/-- A secret key, a colon or an equals sign, and its value; quotes may stand around either. -/
def keyedValue : Pattern :=
  [.maybe (exactly '"'), .word (secretKeys.map anyCase), .maybe (exactly '"'), .many isBlank,
    .one (fun c => c == ':' || c == '='), .many isBlank, .maybe (exactly '"'), .some isValueChar,
    .maybe (exactly '"')]

/-- Three parts with points between them, the first of which begins with `eyJ`. -/
def webToken : Pattern :=
  [.word [[exactly 'e', exactly 'y', exactly 'J']], .some isWebTokenChar, .one (exactly '.'),
    .some isWebTokenChar, .one (exactly '.'), .some isWebTokenChar]

/-- What stands in place of a credential. -/
def marker : List Char := "[REDACTED]".toList

/-- The text on one line, with every credential replaced. -/
def redact (cs : List Char) : List Char :=
  webToken.replaceAll marker (keyedValue.replaceAll marker (bearerToken.replaceAll marker (squeeze cs)))

/-! ### The limit -/

/-- The number of characters of a sanitised text that are kept. -/
def keptLength : Nat := 256

/-- What stands at the end of a text that was cut. -/
def cutMark : List Char := "...[truncated]".toList

/-- A text cut to the length kept, with a mark if there was more. -/
def limit (cs : List Char) : List Char :=
  if cs.length > keptLength then cs.take keptLength ++ cutMark else cs

/-- The form in which the text of a failed request is kept. -/
def sanitize (s : String) : String := String.ofList (limit (redact s.toList))

end HostControl.Redaction
