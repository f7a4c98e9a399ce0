/-
Module: HostControl.Cache.Location
Purpose: Addresses at which a shared cache can be looked for: over the network, or at a socket of the host.
Main exports: Cache.usable, Cache.connectFault
-/
import HostControl.Cache.Service
import HostControl.Net.Url

namespace HostControl.Cache

open Text

/-- The schemes of caches on the network. Those of encrypted connections are not among them. -/
def networkSchemes : List (List Char) := ["redis".toList, "valkey".toList]

/-- The schemes of caches at a socket. -/
def socketSchemes : List (List Char) := ["unix".toList, "redis+unix".toList, "valkey+unix".toList]

/-- An integer in decimal, with a sign or without one. -/
def integer? : List Char → Option Int
  | '-' :: digits => (readNumeral? 10 digits).map fun n => -(n : Int)
  | '+' :: digits => (readNumeral? 10 digits).map fun n => (n : Int)
  | digits => (readNumeral? 10 digits).map fun n => (n : Int)

/-- Whether a text is the number of a database: an integer of 64 bits. -/
def isDatabase (cs : List Char) : Bool :=
  (integer? cs).any fun n => -9223372036854775808 ≤ n && n ≤ 9223372036854775807

/-- A text without slashes at either end. -/
def withoutSlashes (cs : List Char) : List Char :=
  ((cs.dropWhile (· == '/')).reverse.dropWhile (· == '/')).reverse

/-- Whether a path names a database, or none. -/
def namesDatabase (segments : Option (List (List Char))) : Bool :=
  let text := withoutSlashes (joined '/' (segments.getD []))
  text.isEmpty || isDatabase text

/-- Whether bytes are a text. -/
def isText (bytes : List UInt8) : Bool := (String.fromUTF8? ⟨bytes.toArray⟩).isSome

/-- The names of the versions of the protocol. -/
def protocols : List String := ["2", "resp2", "3", "resp3"]

/-- Whether the version of the protocol is a known one, if the address asks for one. -/
def asksKnownProtocol (u : Url) : Bool :=
  (u.value? "protocol").all fun bytes => protocols.any fun p => p.toUTF8.toList = bytes

/-- Whether an address of the network can be used: it names a host and readable credentials. -/
def usableOnNetwork (u : Url) : Bool :=
  u.host.isSome && namesDatabase u.segments && isText (Url.percentDecoded u.user) &&
    isText (Url.percentDecoded u.password) && asksKnownProtocol u

/-- Whether an address of a socket can be used: it names a path of this host, and the database is a
number if the query names one. -/
def usableAtSocket (u : Url) : Bool :=
  u.segments.isSome && (u.host = none || u.host = some (.name "localhost".toList)) &&
    ((u.value? "db").all fun bytes => isDatabase (bytes.map fun b => Char.ofNat b.toNat)) &&
    asksKnownProtocol u

/-- Whether an address can be used at all. -/
def usable (url : String) : Bool :=
  match Url.read? url.toList with
  | none => false
  | some u =>
    if networkSchemes.contains u.scheme then usableOnNetwork u
    else socketSchemes.contains u.scheme && usableAtSocket u

/-- The failure to connect to a cache that does not answer, up to where other words begin. -/
def connectFault (url : String) (limit : Span) : Error :=
  if usable url then connectTimeout limit else connectRefused ""

end HostControl.Cache
