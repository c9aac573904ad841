namespace StyleOrder
namespace Text

/-!
# Blank characters

Indentation, trimming and the gap after a property's colon are all measured in
the same class of characters, the Unicode property `White_Space`.  The class
is a table of twenty-five code points.  It contains the carriage return, so a
line that ends in one needs no treatment of its own: the return is trimmed with
the other blanks and never counts as indentation of a line that has text.
-/

/-- Membership in `White_Space`.  The information separators U+001C to U+001F,
the zero width space and the byte order mark are not members. -/
def isBlank (c : Char) : Bool :=
  let code := c.toNat
  (0x09 ≤ code && code ≤ 0x0D) || code == 0x20 || code == 0x85 || code == 0xA0 ||
    code == 0x1680 || (0x2000 ≤ code && code ≤ 0x200A) || code == 0x2028 ||
    code == 0x2029 || code == 0x202F || code == 0x205F || code == 0x3000

/-- Number of blanks that a text starts with. -/
def indentation (text : List Char) : Nat :=
  (text.takeWhile isBlank).length

def trimStart (text : List Char) : List Char :=
  text.dropWhile isBlank

def trimEnd (text : List Char) : List Char :=
  (text.reverse.dropWhile isBlank).reverse

def trim (text : List Char) : List Char :=
  trimEnd (trimStart text)

/-- A text without any character that is not blank. -/
def blank (text : List Char) : Bool :=
  text.all isBlank

end Text
end StyleOrder
