namespace PacketPolicy
namespace Text

/-!
# Reading bytes as text

Two ways to read bytes as UTF-8.

* `ofBytes?` -- a text, or nothing if the bytes are not well-formed;
* `ofBytesLossy` -- always a text: each maximal beginning of a well-formed
  sequence that breaks off is read as one replacement character.

The second is an automaton over single bytes.  A `Pending` sequence remembers the
bits read so far, how many bytes are missing, and the range the next byte must
lie in; the ranges exclude overlong forms, surrogates and numbers beyond U+10FFFF.
-/

/-- The character that stands for bytes that are no text. -/
def replacement : Char := '\uFFFD'

/-- A sequence whose first bytes have been read. -/
structure Pending where
  /-- The bits of the code point read so far. -/
  bits : Nat
  /-- How many bytes are still missing, at least one. -/
  missing : Nat
  /-- The least value of the next byte. -/
  low : Nat
  /-- The greatest value of the next byte. -/
  high : Nat

/-- What a byte in first place begins: a whole character, a longer sequence, or nothing. -/
inductive Lead where
  | whole (c : Char)
  | more (pending : Pending)
  | ill

/-- The rule for a first byte. -/
def Lead.ofByte (b : Nat) : Lead :=
  if b < 0x80 then .whole (Char.ofNat b)
  else if b < 0xC2 then .ill
  else if b < 0xE0 then .more ⟨b - 0xC0, 1, 0x80, 0xBF⟩
  else if b = 0xE0 then .more ⟨0, 2, 0xA0, 0xBF⟩
  else if b = 0xED then .more ⟨0xD, 2, 0x80, 0x9F⟩
  else if b < 0xF0 then .more ⟨b - 0xE0, 2, 0x80, 0xBF⟩
  else if b = 0xF0 then .more ⟨0, 3, 0x90, 0xBF⟩
  else if b < 0xF4 then .more ⟨b - 0xF0, 3, 0x80, 0xBF⟩
  else if b = 0xF4 then .more ⟨4, 3, 0x80, 0x8F⟩
  else .ill

/-- The characters of a list of bytes after the sequence `pending`, if one has begun. -/
def readLossy : Option Pending → List UInt8 → List Char
  | none, [] => []
  | some _, [] => [replacement]
  | none, b :: bs =>
      match Lead.ofByte b.toNat with
      | .whole c => c :: readLossy none bs
      | .more p => readLossy (some p) bs
      | .ill => replacement :: readLossy none bs
  | some p, b :: bs =>
      if p.low ≤ b.toNat ∧ b.toNat ≤ p.high then
        let bits := p.bits * 64 + (b.toNat - 0x80)
        if p.missing ≤ 1 then Char.ofNat bits :: readLossy none bs
        else readLossy (some ⟨bits, p.missing - 1, 0x80, 0xBF⟩) bs
      else
        replacement ::
          match Lead.ofByte b.toNat with
          | .whole c => c :: readLossy none bs
          | .more q => readLossy (some q) bs
          | .ill => replacement :: readLossy none bs

/-- The text the bytes stand for, with replacement characters where they are no UTF-8. -/
def ofBytesLossy (bytes : ByteArray) : String :=
  String.ofList (readLossy none bytes.toList)

/-- The text the bytes are the UTF-8 form of. -/
def ofBytes? (bytes : ByteArray) : Option String :=
  String.fromUTF8? bytes

/-- The UTF-8 form of a text. -/
def toBytes (s : String) : ByteArray :=
  s.toUTF8

end Text
end PacketPolicy
