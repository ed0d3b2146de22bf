import PacketPolicy.Text.Digits

namespace PacketPolicy
namespace Network

/-!
# Network addresses

Addresses of the two versions of the internet protocol and their notations.

* `V4.parse?`, `V4.text` -- four decimal octets with dots;
* `V6.parse?`, `V6.text` -- groups of hexadecimal digits with colons, where one run of
  zero groups may be left out, and the last two groups may be an address of version 4;
* `Address` -- either of the two, with its `Family` and the number of its bits.

An octet has no sign and no needless zero in front.  An accepted block is shown with the `text` of
its address, the one among the notations of an address that leaves out what it can.
-/

/-- An address of version 4: four octets. -/
structure V4 where
  first : UInt8
  second : UInt8
  third : UInt8
  fourth : UInt8
deriving DecidableEq, Repr, Inhabited

namespace V4

/-- The octets in order. -/
def octets (a : V4) : List UInt8 :=
  [a.first, a.second, a.third, a.fourth]

/-- The address as a number of thirty-two bits. -/
def value (a : V4) : Nat :=
  a.octets.foldl (fun n o => n * 256 + o.toNat) 0

/-- A decimal octet. -/
def octet? (cs : List Char) : Option UInt8 :=
  match Text.natOfDigits? cs with
  | some n =>
      if n < 256 ∧ cs.length ≤ 3 ∧ (cs.head? ≠ some '0' ∨ cs.length = 1) then some n.toUInt8
      else none
  | none => none

/-- Four octets with dots between them. -/
def parse? (cs : List Char) : Option V4 :=
  match Text.pieces '.' cs with
  | [a, b, c, d] => do
      let a ← octet? a
      let b ← octet? b
      let c ← octet? c
      let d ← octet? d
      some ⟨a, b, c, d⟩
  | _ => none

/-- The octets in decimal with dots between them. -/
def text (a : V4) : String :=
  ".".intercalate (a.octets.map fun o => toString o.toNat)

end V4

/-- An address of version 6: eight groups of sixteen bits. -/
structure V6 where
  groups : List UInt16
  length_groups : groups.length = 8
deriving DecidableEq, Repr

namespace V6

/-- One to four hexadecimal digits. -/
def group? (cs : List Char) : Option UInt16 :=
  if 1 ≤ cs.length ∧ cs.length ≤ 4 then (Text.hexValue? cs).map Nat.toUInt16 else none

/-- Groups in order; the last piece may be an address of version 4 in place of two groups. -/
def groupsOf? : List (List Char) → Option (List UInt16)
  | [] => some []
  | [piece] =>
      match group? piece with
      | some g => some [g]
      | none =>
          (V4.parse? piece).map fun a =>
            [a.first.toUInt16 * 256 + a.second.toUInt16, a.third.toUInt16 * 256 + a.fourth.toUInt16]
  | piece :: rest => do
      let g ← group? piece
      let gs ← groupsOf? rest
      some (g :: gs)

/-- Groups in order, none of them written as an address of version 4. -/
def plainGroupsOf? (pieces : List (List Char)) : Option (List UInt16) :=
  pieces.mapM group?

/-- The pieces of a side of the gap; an empty side has none. -/
def sidePieces (cs : List Char) : List (List Char) :=
  if cs.isEmpty then [] else Text.pieces ':' cs

/-- The text before and after the first two colons that follow each other. -/
def splitGap? : List Char → Option (List Char × List Char)
  | [] => none
  | [_] => none
  | c :: d :: cs =>
      if c = ':' ∧ d = ':' then some ([], cs)
      else (splitGap? (d :: cs)).map fun (before, after) => (c :: before, after)

/-- The address of these groups, if they are eight. -/
def ofGroups? (groups : List UInt16) : Option V6 :=
  if h : groups.length = 8 then some ⟨groups, h⟩ else none

/-- Eight groups, or fewer with a gap that stands for at least one group of zeros. -/
def parse? (cs : List Char) : Option V6 :=
  match splitGap? cs with
  | none => (groupsOf? (Text.pieces ':' cs)).bind ofGroups?
  | some (before, after) => do
      let head ← plainGroupsOf? (sidePieces before)
      let tail ← groupsOf? (sidePieces after)
      if head.length + tail.length ≤ 7 then
        ofGroups? (head ++ List.replicate (8 - (head.length + tail.length)) 0 ++ tail)
      else none

/-- The number of zero groups at the front. -/
def leadingZeros (groups : List UInt16) : Nat :=
  (groups.takeWhile (· == 0)).length

/-- Place and length of the first longest run of zero groups. -/
def longestGap (groups : List UInt16) : Nat × Nat :=
  (List.range groups.length).foldl
    (fun best i =>
      let length := leadingZeros (groups.drop i)
      if best.2 < length then (i, length) else best)
    (0, 0)

/-- A group in hexadecimal digits without needless zeros. -/
def groupText (g : UInt16) : String :=
  String.ofList (Nat.toDigits 16 g.toNat)

/-- Groups with colons between them. -/
def groupsText (groups : List UInt16) : String :=
  ":".intercalate (groups.map groupText)

/-- The address of version 4 that an address stands for, if it does. -/
def mapped? (a : V6) : Option V4 :=
  match a.groups with
  | [0, 0, 0, 0, 0, 0xFFFF, g, h] =>
      some ⟨(g / 256).toUInt8, g.toUInt8, (h / 256).toUInt8, h.toUInt8⟩
  | _ => none

/-- The groups with colons; the first longest run of two or more zero groups is left
out, and an address that stands for one of version 4 shows it. -/
def text (a : V6) : String :=
  match a.mapped? with
  | some b => "::ffff:" ++ b.text
  | none =>
      let (start, length) := longestGap a.groups
      if length < 2 then groupsText a.groups
      else groupsText (a.groups.take start) ++ "::" ++ groupsText (a.groups.drop (start + length))

end V6

/-- The version of the protocol, by the word that the packet filter uses for it. -/
inductive Family where
  | ip
  | ip6
deriving DecidableEq, Repr, Inhabited

/-- The word of a family. -/
def Family.word : Family → String
  | .ip => "ip"
  | .ip6 => "ip6"

/-- An address of either version. -/
inductive Address where
  | v4 (a : V4)
  | v6 (a : V6)
deriving DecidableEq, Repr

namespace Address

def family : Address → Family
  | .v4 _ => .ip
  | .v6 _ => .ip6

/-- The number of bits of an address. -/
def width : Address → Nat
  | .v4 _ => 32
  | .v6 _ => 128

def text : Address → String
  | .v4 a => a.text
  | .v6 a => a.text

/-- Version 4 is tried first. -/
def parse? (cs : List Char) : Option Address :=
  match V4.parse? cs with
  | some a => some (.v4 a)
  | none => (V6.parse? cs).map .v6

end Address
end Network
end PacketPolicy
