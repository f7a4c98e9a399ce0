/-
Module: HostControl.Net.Address
Purpose: IPv4 and IPv6 addresses, address ranges, membership, and the prefix that stands for an
  address in audit records.
Main exports: Address, Address.canonical, Network, Network.contains, Network.ofAddress, Address.masked
-/
import HostControl.Text.Numeral

namespace HostControl

/-- An IP address of either family, by its bits. -/
inductive Address where
  | v4 (bits : BitVec 32)
  | v6 (bits : BitVec 128)
deriving DecidableEq, Repr, Inhabited

namespace Address

open Text

/-- The IPv4 address that an IPv4-mapped IPv6 address (`::ffff:0:0/96`) carries. -/
def mapped? (bits : BitVec 128) : Option (BitVec 32) :=
  if bits >>> 32 = 0xffff#128 then some (bits.setWidth 32) else none

/-- The address under which a caller is known: an IPv4-mapped IPv6 address counts as IPv4. -/
def canonical : Address → Address
  | .v4 bits => .v4 bits
  | .v6 bits =>
    match mapped? bits with
    | some inner => .v4 inner
    | none => .v6 bits

/-- The octet at position `i`, the most significant one at 0. -/
def octet (bits : BitVec 32) (i : Nat) : Nat := (bits >>> (24 - 8 * i)).toNat % 256

/-- The 16-bit group at position `i`, the most significant one at 0. -/
def group (bits : BitVec 128) (i : Nat) : Nat := (bits >>> (112 - 16 * i)).toNat % 65536

def ofOctets (a b c d : Nat) : BitVec 32 :=
  BitVec.ofNat 32 (((a * 256 + b) * 256 + c) * 256 + d)

def ofGroups (gs : List Nat) : BitVec 128 :=
  BitVec.ofNat 128 (gs.foldl (fun n g => n * 65536 + g) 0)

/-- The groups of an IPv6 address, in order. -/
def groups (bits : BitVec 128) : List Nat := (List.range 8).map (group bits)

/-! ### The network prefix in audit records -/

/-- The network prefix that stands for an address in records: the first two octets of an IPv4
address, mapped ones included, and the first three groups of any other. -/
def maskedChars (a : Address) : List Char :=
  match a.canonical with
  | .v4 bits =>
    decimal (octet bits 0) ++ '.' :: decimal (octet bits 1) ++ ['.', '0', '.', '0', '/', '1', '6']
  | .v6 bits =>
    numeral 16 (group bits 0) ++ ':' :: numeral 16 (group bits 1) ++ ':' ::
      numeral 16 (group bits 2) ++ [':', ':', '/', '4', '8']

def masked (a : Address) : String := String.ofList a.maskedChars

end Address

/-- A range of addresses of one family: all that share the first `length` bits of `bits`. The other
bits are kept as they were given. -/
inductive Network where
  | v4 (bits : BitVec 32) (length : Nat) (bound : length ≤ 32)
  | v6 (bits : BitVec 128) (length : Nat) (bound : length ≤ 128)
deriving DecidableEq, Repr

namespace Network

/-- The range that holds one address alone. -/
def ofAddress : Address → Network
  | .v4 bits => .v4 bits 32 (Nat.le_refl _)
  | .v6 bits => .v6 bits 128 (Nat.le_refl _)

/-- Whether the address lies in the range: it has the range's family and its first bits. -/
def contains : Network → Address → Bool
  | .v4 bits length _, .v4 a => bits >>> (32 - length) == a >>> (32 - length)
  | .v6 bits length _, .v6 a => bits >>> (128 - length) == a >>> (128 - length)
  | _, _ => false

/-- The number of leading bits that the addresses of the range share. -/
def length : Network → Nat
  | .v4 _ n _ => n
  | .v6 _ n _ => n

/-- The address that the range was given by. -/
def address : Network → Address
  | .v4 bits _ _ => .v4 bits
  | .v6 bits _ _ => .v6 bits

end Network

end HostControl
