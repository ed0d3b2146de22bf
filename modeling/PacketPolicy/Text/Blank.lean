import PacketPolicy.Text.Digits

namespace PacketPolicy
namespace Text

/-!
# Blank and control characters

The two character classes that decide what counts as an empty value, and the
cuts that follow from them.

* `isBlank` -- the Unicode property White_Space;
* `isControl` -- the general category Cc;
* `trim`, `words`, `trimmedLines` -- cutting a text at blank characters and at line ends.

All of them work on lists of characters, so that their laws are statements
about lists; `isBlankText` is the form used on whole strings.
-/

/-- The characters with the property White_Space. -/
def isBlank (c : Char) : Bool :=
  (0x09 ≤ c.toNat && c.toNat ≤ 0x0D) || c.toNat == 0x20 || c.toNat == 0x85 ||
    c.toNat == 0xA0 || c.toNat == 0x1680 || (0x2000 ≤ c.toNat && c.toNat ≤ 0x200A) ||
    c.toNat == 0x2028 || c.toNat == 0x2029 || c.toNat == 0x202F || c.toNat == 0x205F ||
    c.toNat == 0x3000

/-- The control characters: the C0 set, delete, and the C1 set. -/
def isControl (c : Char) : Bool :=
  c.toNat < 0x20 || (0x7F ≤ c.toNat && c.toNat ≤ 0x9F)

/-- Drops blank characters in front. -/
def trimStart (cs : List Char) : List Char :=
  cs.dropWhile isBlank

/-- Drops blank characters at the end. -/
def trimEnd (cs : List Char) : List Char :=
  (trimStart cs.reverse).reverse

/-- Drops blank characters on both sides. -/
def trim (cs : List Char) : List Char :=
  trimEnd (trimStart cs)

/-- A text of blank characters alone, or of none. -/
def isBlankText (s : String) : Bool :=
  s.toList.all isBlank

/-- The maximal runs of characters that are not blank; `run` is the run being
collected, last character first. -/
def wordsFrom (run : List Char) : List Char → List (List Char)
  | [] => if run.isEmpty then [] else [run.reverse]
  | c :: cs =>
      if isBlank c then
        if run.isEmpty then wordsFrom [] cs else run.reverse :: wordsFrom [] cs
      else wordsFrom (c :: run) cs

/-- The maximal runs of characters that are not blank, in order. -/
def words (s : String) : List String :=
  (wordsFrom [] s.toList).map String.ofList

/-- The lines of a text that are not blank, without the blank characters around them. -/
def trimmedLines (s : String) : List String :=
  ((pieces '\n' s.toList).map trim).filter (fun line => !line.isEmpty) |>.map String.ofList

/-- Dropping a given beginning as often as it is there. -/
def dropRepeated (start : List Char) : Nat → List Char → List Char
  | 0, cs => cs
  | limit + 1, cs =>
      if !start.isEmpty && start.isPrefixOf cs then
        dropRepeated start limit (cs.drop start.length)
      else cs

/-- `s` without the copies of `start` it begins with. -/
def withoutLeading (start s : String) : String :=
  String.ofList (dropRepeated start.toList s.length s.toList)

/-- Whether `part` stands somewhere in `whole`. -/
def occurs (part : List Char) : List Char → Bool
  | [] => part.isEmpty
  | c :: cs => part.isPrefixOf (c :: cs) || occurs part cs

end Text
end PacketPolicy
