import StyleOrder.Outline.Basic
import StyleOrder.Text.Letter

namespace StyleOrder

/-!
# The ordering convention

Entries of a body belong to nine groups, which have to follow each other in the
order given here.  Membership is decided by kind, by exact name, or by a word
that the name contains in any case.  The last group takes whatever no other
group takes, so every entry has a group; an entry belongs to the first group
that takes it.
-/

inductive Group where
  | inheritance
  | layout
  | display
  | clipping
  | animation
  | box
  | background
  | typography
  | others
deriving DecidableEq, Repr

namespace Group

/-- The groups in the order in which they have to appear. -/
def all : List Group :=
  [inheritance, layout, display, clipping, animation, box, background, typography, others]

/-- Place of a group in the order. -/
def rank : Group → Nat
  | inheritance => 0
  | layout => 1
  | display => 2
  | clipping => 3
  | animation => 4
  | box => 5
  | background => 6
  | typography => 7
  | others => 8

def title : Group → String
  | inheritance => "Inheritance"
  | layout => "Position and Layout"
  | display => "Display and Visibility"
  | clipping => "Clipping"
  | animation => "Animation"
  | box => "Box Model"
  | background => "Background"
  | typography => "Typography"
  | others => "Others"

/-- Properties that belong to a group by their exact name. -/
def names : Group → List String
  | layout => ["position", "z-index", "top", "bottom", "left", "right", "float", "clear"]
  | display => ["display", "opacity", "transform"]
  | clipping => ["overflow", "clip"]
  | animation => ["animation", "transition"]
  | box => ["box-shadow", "border", "border-radius", "box-sizing", "width", "height"]
  | background => ["background", "cursor"]
  | typography =>
      ["font-size", "line-height", "font-family", "font-weight", "font-style", "text-align",
        "text-transform", "word-spacing", "color"]
  | inheritance | others => []

/-- Words that put every property containing them into a group. -/
def words : Group → List String
  | layout => ["flex"]
  | box => ["margin", "padding"]
  | _ => []

/-- Whether a group takes a property of this name, or a mixin call. -/
def takes (group : Group) : Option String → Bool
  | none => group = inheritance || group = others
  | some name =>
      group = others || name ∈ group.names ||
        group.words.any (Text.occursIgnoringCase · name)

/-- The first group that takes a property of this name, or a mixin call. -/
def of (name : Option String) : Group :=
  (all.find? (·.takes name)).getD others

end Group

namespace Entry

def group (entry : Entry) : Group :=
  Group.of entry.name?

def rank (entry : Entry) : Nat :=
  entry.group.rank

end Entry
end StyleOrder
