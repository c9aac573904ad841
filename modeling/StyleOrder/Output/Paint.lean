namespace StyleOrder
namespace Output

/-!
# Painted text

Output is put together from pieces, some of which have a style.  Only when the
pieces are shown is it decided whether there is colour: a style then becomes a
control sequence before its text and a reset after it, and without colour the
text stands alone.
-/

inductive Style where
  | red
  | yellow
  | boldRed
  | boldYellow
  | boldGreen
  | dimmed
deriving DecidableEq, Repr

namespace Style

/-- Parameters of the control sequence. -/
def codes : Style → List Char
  | red => ['3', '1']
  | yellow => ['3', '3']
  | boldRed => ['1', ';', '3', '1']
  | boldYellow => ['1', ';', '3', '3']
  | boldGreen => ['1', ';', '3', '2']
  | dimmed => ['2']

def escape : Char := '\x1b'

/-- The control sequence that switches a style on. -/
def opening (style : Style) : List Char :=
  escape :: '[' :: style.codes ++ ['m']

/-- The control sequence that switches every style off. -/
def reset : List Char :=
  [escape, '[', '0', 'm']

/-- Switch a style on again after every reset inside a text. -/
def reopen (opening : List Char) : List Char → List Char
  | '\x1b' :: '[' :: '0' :: 'm' :: rest => reset ++ opening ++ reopen opening rest
  | c :: rest => c :: reopen opening rest
  | [] => []

def wrap (style : Style) (text : List Char) : List Char :=
  style.opening ++ reopen style.opening text ++ reset

end Style

inductive Piece where
  | plain (text : String)
  | styled (style : Style) (text : String)
deriving DecidableEq, Repr

namespace Piece

def render (colour : Bool) : Piece → List Char
  | plain text => text.toList
  | styled style text => if colour then style.wrap text.toList else text.toList

end Piece

/-- What has been written to one stream or text. -/
def render (colour : Bool) (pieces : List Piece) : String :=
  String.ofList (pieces.flatMap (Piece.render colour))

/-- What a run writes to its two streams. -/
structure Written where
  out : List Piece := []
  err : List Piece := []
deriving DecidableEq, Repr

namespace Written

def append (first second : Written) : Written where
  out := first.out ++ second.out
  err := first.err ++ second.err

instance : Append Written where
  append := append

end Written
end Output
end StyleOrder
