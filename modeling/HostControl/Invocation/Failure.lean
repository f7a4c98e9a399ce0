/-
Module: HostControl.Invocation.Failure
Purpose: How a single attempt and how a whole call can fail, and what a failed call reads.
Main exports: Failure, Failure.retryable, CallError, CallError.message, retryAfter
-/
import HostControl.Text.Blank
import HostControl.Text.Numeral
import HostControl.Time.Instant
import HostControl.Word

namespace HostControl.Invocation

open Text

/-- Why one attempt failed: no response arrived, or one that reports an error. -/
inductive Failure where
  | transport (message : String)
  | status (code : Nat) (retryAfter : Option Span) (body : String)
deriving DecidableEq, Repr, Inhabited

namespace Failure

/-- Whether another attempt may help: after no response, an error of the server's own, a request that
came too often, and one that came too slowly. -/
def retryable : Failure → Bool
  | .transport _ => true
  | .status code _ _ => 500 ≤ code || code == 429 || code == 408

/-- The wait that the service asked for. Only a refusal for too many requests can ask. -/
def requestedWait : Failure → Option Span
  | .status 429 wait _ => wait
  | _ => none

end Failure

/-- Why a call gave no value. -/
inductive CallError where
  /-- The circuit did not let it through. -/
  | circuitOpen (service : String)
  /-- The caller gave it up. -/
  | cancelled (service : String)
  | transport (service message : String)
  | status (service : String) (code : Nat) (body : String)
  /-- The response could not be read. -/
  | decode (service message : String)
deriving DecidableEq, Repr

namespace CallError

/-- The failure of the last attempt as the failure of the call. -/
def ofFailure (service : String) : Failure → CallError
  | .transport message => .transport service message
  | .status code _ body => .status service code body

/-- The text of an error. -/
def message : CallError → String
  | .circuitOpen service => "circuit open for upstream " ++ service
  | .cancelled service => "call to " ++ service ++ " cancelled"
  | .transport service text => "transport failure calling " ++ service ++ ": " ++ text
  | .status service code body =>
    service ++ " responded with HTTP " ++ String.ofList (decimal code) ++ ": " ++ body
  | .decode service text => "failed to decode response from " ++ service ++ ": " ++ text

end CallError

/-! ### The header that asks for a wait -/

/-- Whether a character may stand in a header value at all: no control character but the tab. -/
def headerChar (c : Char) : Bool := c == '\t' || (32 ≤ c.toNat && c.toNat != 127)

/-- Whether a character of a header value belongs to a readable text. -/
def visibleChar (c : Char) : Bool := c == '\t' || (32 ≤ c.toNat && c.toNat < 127)

/-- The seconds that a header value asks to wait. Dates are not understood. -/
def waitSeconds? (value : String) : Option Nat :=
  if value.toList.all visibleChar then readBounded? Word.max64 (trimChars value.toList) else none

/-- The wait that the values of the header ask for; the first one counts. -/
def retryAfter (values : List String) : Option Span :=
  (values.head?.bind waitSeconds?).map Span.ofSeconds

end HostControl.Invocation
