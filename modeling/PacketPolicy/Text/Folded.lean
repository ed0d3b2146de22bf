import PacketPolicy.Text.Blank

namespace PacketPolicy
namespace Text

/-!
# Searching without regard to case

Messages of other programs are searched for phrases of small ASCII letters.
`folded` puts a text into the form that is searched: each character is replaced
by its Unicode lower case wherever that yields an ASCII letter.  Besides the
ASCII capitals only two characters have such a lower case, the Kelvin sign
(`k`) and the capital I with a dot above (`i` and a combining dot).  All other
characters keep their place, and since no phrase contains one of them or of
their lower-case forms, the outcome of a search is the same.
-/

/-- The lower case of a character as far as an ASCII phrase can tell. -/
def foldedChar (c : Char) : List Char :=
  if c = '\u212A' then ['k']
  else if c = '\u0130' then ['i', '\u0307']
  else [c.toLower]

/-- The searched form of a text. -/
def folded (s : String) : List Char :=
  s.toList.flatMap foldedChar

/-- Whether the phrase, in small ASCII letters, stands in the text in any case. -/
def mentions (s phrase : String) : Bool :=
  occurs phrase.toList (folded s)

end Text
end PacketPolicy
