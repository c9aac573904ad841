namespace StyleOrder
namespace Text

/-!
# Letters and case

The characters of names, and comparison of texts that ignores the case of the
Latin letters `a` to `z`.
-/

def isLetter (c : Char) : Bool :=
  ('a' ≤ c && c ≤ 'z') || ('A' ≤ c && c ≤ 'Z')

def isDigit (c : Char) : Bool :=
  '0' ≤ c && c ≤ '9'

/-- Characters of a word: Latin letters, decimal digits and the underscore. -/
def isWord (c : Char) : Bool :=
  isLetter c || isDigit c || c == '_'

/-- The lower case form of a Latin letter; every other character is kept. -/
def lower (c : Char) : Char :=
  if 'A' ≤ c && c ≤ 'Z' then Char.ofNat (c.toNat + 32) else c

/-- Letters that some Latin letter becomes when case is folded.  Besides the
Latin letters themselves these are the long s and the Kelvin sign. -/
def foldsToLetter (c : Char) : Bool :=
  isLetter c || c.toNat == 0x17F || c.toNat == 0x212A

/-- Whether `text` begins with `word`, which is written in lower case. -/
def startsWithIgnoringCase (word text : List Char) : Bool :=
  word.isPrefixOf (text.map lower)

/-- Whether `needle` stands somewhere in `text`. -/
def occursIn (needle : List Char) : List Char → Bool
  | [] => needle.isEmpty
  | c :: rest => needle.isPrefixOf (c :: rest) || occursIn needle rest

/-- Whether `needle`, which is written in lower case, stands somewhere in `text`
when case is ignored. -/
def occursIgnoringCase (needle : String) (text : String) : Bool :=
  occursIn needle.toList (text.toList.map lower)

end Text
end StyleOrder
