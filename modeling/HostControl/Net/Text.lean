/-
Module: HostControl.Net.Text
Purpose: Addresses and address ranges written as texts and read from them.
Main exports: Address.text, Address.read?, Network.text, Network.read?, Network.ofPattern?
-/
import HostControl.Net.Address
import HostControl.Text.Blank
import HostControl.Text.Parts

namespace HostControl

open Text

namespace Address

/-! ### Writing -/

/-- The number of zero groups at the front. -/
def zeroRun : List Nat → Nat
  | 0 :: rest => zeroRun rest + 1
  | _ => 0

/-- The first longest run of zero groups, as its start and its length. -/
def longestZeroRun (gs : List Nat) : Nat × Nat :=
  (List.range gs.length).foldl
    (fun best i =>
      let run := zeroRun (gs.drop i)
      if run > best.2 then (i, run) else best)
    (0, 0)

def v4Chars (bits : BitVec 32) : List Char :=
  joined '.' ((List.range 4).map fun i => decimal (octet bits i))

/-- Lower-case groups without leading zeros. The first longest run of two or more zero groups is
left out, and an IPv4-mapped address ends in its IPv4 form. -/
def v6Chars (bits : BitVec 128) : List Char :=
  match mapped? bits with
  | some inner => [':', ':', 'f', 'f', 'f', 'f', ':'] ++ v4Chars inner
  | none =>
    let gs := groups bits
    let (start, run) := longestZeroRun gs
    let hex := fun (part : List Nat) => joined ':' (part.map (numeral 16))
    if run > 1 then hex (gs.take start) ++ [':', ':'] ++ hex (gs.drop (start + run))
    else hex gs

def chars : Address → List Char
  | .v4 bits => v4Chars bits
  | .v6 bits => v6Chars bits

def text (a : Address) : String := String.ofList a.chars

/-! ### Reading -/

/-- Where the readers of single addresses and of ranges differ: whether an octet may begin with a
zero that is not its only digit, and whether a double colon may stand for no group at all. -/
structure Grammar where
  leadingZeros : Bool
  emptyRun : Bool

/-- Single addresses are read strictly, ranges leniently. -/
def Grammar.strict : Grammar := ⟨false, false⟩
def Grammar.lenient : Grammar := ⟨true, true⟩

/-- One octet: one to three digits, at most 255. -/
def readOctet (g : Grammar) (cs : List Char) : Option (Nat × List Char) :=
  let (ds, rest) := spanDigits 10 cs
  if ds.isEmpty || ds.length > 3 then none
  else if !g.leadingZeros && ds.head? == some 0 && ds.length > 1 then none
  else if ofDigits 10 ds > 255 then none
  else some (ofDigits 10 ds, rest)

def readDot : List Char → Option (List Char)
  | '.' :: rest => some rest
  | _ => none

/-- Four octets with dots between them. -/
def readV4 (g : Grammar) (cs : List Char) : Option (BitVec 32 × List Char) := do
  let (a, cs) ← readOctet g cs
  let (b, cs) ← readOctet g (← readDot cs)
  let (c, cs) ← readOctet g (← readDot cs)
  let (d, cs) ← readOctet g (← readDot cs)
  some (ofOctets a b c d, cs)

/-- One group: one to four hexadecimal digits. -/
def readGroup (cs : List Char) : Option (Nat × List Char) :=
  let (ds, rest) := spanDigits 16 cs
  if ds.isEmpty || ds.length > 4 then none else some (ofDigits 16 ds, rest)

/-- The text behind the colon that must stand in front of every group but the first. -/
def afterSeparator (first : Bool) (cs : List Char) : Option (List Char) :=
  if first then some cs
  else match cs with
    | ':' :: rest => some rest
    | _ => none

/-- At most `room` groups with colons between them; an IPv4 address may take the place of the last
two. Gives the groups, whether an IPv4 address ended them, and the rest. -/
def readGroups (g : Grammar) : Nat → Bool → List Char → List Nat × Bool × List Char
  | 0, _, cs => ([], false, cs)
  | room + 1, first, cs =>
    match afterSeparator first cs with
    | none => ([], false, cs)
    | some inner =>
      match if room > 0 then readV4 g inner else none with
      | some (bits, rest) =>
        ([octet bits 0 * 256 + octet bits 1, octet bits 2 * 256 + octet bits 3], true, rest)
      | none =>
        match readGroup inner with
        | none => ([], false, cs)
        | some (value, rest) =>
          let (more, ended, rest) := readGroups g room false rest
          (value :: more, ended, rest)

/-- Eight groups, or fewer with one double colon in place of the zero groups left out. -/
def readV6 (g : Grammar) (cs : List Char) : Option (BitVec 128 × List Char) :=
  let (head, ended, rest) := readGroups g 8 true cs
  if head.length = 8 then some (ofGroups head, rest)
  else if ended then none
  else match rest with
    | ':' :: ':' :: rest =>
      let room := if g.emptyRun then 8 - head.length else 8 - (head.length + 1)
      let (tail, _, rest) := readGroups g room true rest
      let zeros := List.replicate (8 - head.length - tail.length) 0
      some (ofGroups (head ++ zeros ++ tail), rest)
    | _ => none

def readChars? (cs : List Char) : Option Address :=
  match readV4 .strict cs with
  | some (bits, []) => some (.v4 bits)
  | _ =>
    match readV6 .strict cs with
    | some (bits, []) => some (.v6 bits)
    | _ => none

/-- The address that a text names, with nothing around it. -/
def read? (s : String) : Option Address := readChars? s.toList

end Address

namespace Network

/-- The address as it was given, a slash and the length. -/
def text (n : Network) : String :=
  String.ofList (n.address.chars ++ '/' :: decimal n.length)

/-- The length behind the slash: at most `width` digits that count no more than `limit`. -/
def readLength (width limit : Nat) (cs : List Char) : Option Nat :=
  match cs with
  | '/' :: rest =>
    if rest.length ≤ width then (readNumeral? 10 rest).filter (· ≤ limit) else none
  | _ => none

/-- The longest length of a range of each family, and the digits it may take. -/
def v4Of? (bits : BitVec 32) (length : Nat) : Option Network :=
  if h : length ≤ 32 then some (.v4 bits length h) else none

def v6Of? (bits : BitVec 128) (length : Nat) : Option Network :=
  if h : length ≤ 128 then some (.v6 bits length h) else none

/-- An address, a slash and a length: two digits at most for IPv4, three for IPv6. -/
def readChars? (cs : List Char) : Option Network :=
  let v4 := do
    let (bits, rest) ← Address.readV4 .lenient cs
    v4Of? bits (← readLength 2 32 rest)
  let v6 := do
    let (bits, rest) ← Address.readV6 .lenient cs
    v6Of? bits (← readLength 3 128 rest)
  v4 <|> v6

def read? (s : String) : Option Network := readChars? s.toList

/-- The range that an access pattern denotes: with a slash a range, else a single address. -/
def ofPatternChars? (cs : List Char) : Option Network :=
  let cs := trimChars cs
  if cs.contains '/' then readChars? cs else (Address.readChars? cs).map ofAddress

def ofPattern? (pattern : String) : Option Network := ofPatternChars? pattern.toList

end Network

end HostControl
