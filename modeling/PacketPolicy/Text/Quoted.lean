import PacketPolicy.Text.Printable

namespace PacketPolicy
namespace Text

/-!
# Texts in messages

A text that a message quotes is put between quotation marks, with whatever could be
misread shown by its number.

* `quoted` -- the text between quotation marks;
* `logged` -- the text as a log has it, where only such characters are shown by their
  numbers as could make a terminal do something.
-/

/-- A character as a quotation shows it. -/
def shown (c : Char) : List Char :=
  if c = '"' then ['\\', '"']
  else if c = '\\' then ['\\', '\\']
  else if c = '\t' then ['\\', 't']
  else if c = '\r' then ['\\', 'r']
  else if c = '\n' then ['\\', 'n']
  else if c = '\x00' then ['\\', '0']
  else if isPrintable c then [c]
  else '\\' :: 'u' :: '{' :: (Nat.toDigits 16 c.toNat ++ ['}'])

/-- The text between quotation marks. -/
def quoted (s : String) : String :=
  String.ofList ('"' :: (s.toList.flatMap shown ++ ['"']))

/-- A character as a log shows it. -/
def inLog (c : Char) : List Char :=
  if c = '\x1b' then ['\\', 'x', '1', 'b']
  else if c = '\x07' then ['\\', 'x', '0', '7']
  else if c = '\x08' then ['\\', 'x', '0', '8']
  else if c = '\x0c' then ['\\', 'x', '0', 'c']
  else if c = '\x7f' then ['\\', 'x', '7', 'f']
  else if 0x80 ≤ c.toNat ∧ c.toNat ≤ 0x9F then
    '\\' :: 'u' :: '{' :: (Nat.toDigits 16 c.toNat ++ ['}'])
  else [c]

/-- The text as a log has it. -/
def logged (s : String) : String :=
  String.ofList (s.toList.flatMap inLog)

end Text
end PacketPolicy
