import PacketPolicy.Network.Address

namespace PacketPolicy
namespace Network

/-!
# Blocks of addresses

A block is an address and the number of its leading bits that matter, written with a
slash between them.  The other bits of the address are kept as they were written.

* `Block.parse?` -- reads a block; an address alone is the block of this one host;
* `netmask?` -- the number of leading bits that a mask such as `255.255.0.0` stands for,
  which version 4 admits in place of the number.

The number of bits is at most 255 in decimal digits, with any number of zeros and one
plus sign in front.
-/

/-- An address and the number of its leading bits that matter. -/
structure Block where
  address : Address
  length : Nat
  length_le : length ≤ address.width

namespace Block

/-- The version of the block's address. -/
def family (b : Block) : Family :=
  b.address.family

/-- A number of bits of at most `width`. -/
def length? (width : Nat) (cs : List Char) : Option Nat :=
  let digits := match cs with
    | '+' :: cs => cs
    | cs => cs
  match Text.natOfDigits? digits with
  | some n => if n ≤ width then some n else none
  | none => none

/-- The mask of thirty-two bits whose first `n` bits are ones and the others zeros. -/
def maskValue (n : Nat) : Nat :=
  Nat.pow 2 32 - Nat.pow 2 (32 - n)

/-- The number of leading ones of a mask that has no others. -/
def netmask? (mask : V4) : Option Nat :=
  (List.range 33).find? fun n => mask.value == maskValue n

/-- The number of bits that a text after the slash stands for. -/
def lengthOf? (a : Address) (cs : List Char) : Option Nat :=
  match a with
  | .v4 _ =>
      match V4.parse? cs with
      | some mask => netmask? mask
      | none => length? 32 cs
  | .v6 _ => length? 128 cs

/-- The block of an address and a number of bits, if it has so many. -/
def ofLength? (a : Address) (n : Nat) : Option Block :=
  if h : n ≤ a.width then some ⟨a, n, h⟩ else none

/-- An address, or an address and a number of bits with a slash between them. -/
def parse? (s : String) : Option Block :=
  match Text.pieces '/' s.toList with
  | [address] => do
      let a ← Address.parse? address
      ofLength? a a.width
  | [address, length] => do
      let a ← Address.parse? address
      let n ← lengthOf? a length
      ofLength? a n
  | _ => none

end Block
end Network
end PacketPolicy
