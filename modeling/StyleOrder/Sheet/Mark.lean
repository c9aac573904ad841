import StyleOrder.Text.Blank
import StyleOrder.Text.Letter

namespace StyleOrder
namespace Sheet

/-!
# What a line stands for

The trimmed text of a line is looked at from five sides, each independent of
the others, so one line can carry several marks.  A property line also opens a
selector, because it begins with a word; an `@include` line is both a mixin call
and an at-rule.
-/

inductive Mark where
  /-- The leading word or sign of a selector. -/
  | selector (fragment : String)
  | mixin
  /-- The text after the at sign. -/
  | atRule (name : String)
  /-- The text after the percent sign. -/
  | placeholder (name : String)
  | property (name value : String)
deriving DecidableEq, Repr

namespace Mark

/-- Signs that begin a selector. -/
def selectorSigns : List Char := ['&', '#', '*', '.', '[', '>', '+']

/-- A selector is recognised by its leading word, or else by a single sign. -/
def selector? (text : List Char) : Option Mark :=
  match text.takeWhile Text.isWord with
  | [] =>
      match text with
      | [] => none
      | c :: _ => if c ∈ selectorSigns then some (selector (String.ofList [c])) else none
  | word => some (selector (String.ofList word))

/-- A mixin is called by `@include` in any case, or by a plus sign directly
before a letter or a hyphen. -/
def mixin? (text : List Char) : Option Mark :=
  let short := match text with
    | '+' :: c :: _ => Text.foldsToLetter c || c == '-'
    | _ => false
  if Text.startsWithIgnoringCase "@include".toList text || short then some mixin else none

def atRule? : List Char → Option Mark
  | '@' :: name => some (atRule (String.ofList name))
  | _ => none

def placeholder? : List Char → Option Mark
  | '%' :: name => some (placeholder (String.ofList name))
  | _ => none

def isPropertyChar (c : Char) : Bool :=
  Text.isLetter c || c == '-'

/-- A property is a name of letters and hyphens, a colon, a gap and a value.
Without the gap the colon belongs to a selector. -/
def property? (text : List Char) : Option Mark :=
  let name := text.takeWhile isPropertyChar
  match name, text.dropWhile isPropertyChar with
  | _ :: _, ':' :: c :: rest =>
      if Text.isBlank c then
        some (property (String.ofList name) (String.ofList (Text.trimStart rest)))
      else none
  | _, _ => none

/-- All marks of a trimmed text, in the order in which they take effect. -/
def ofText (text : List Char) : List Mark :=
  [selector? text, mixin? text, atRule? text, placeholder? text, property? text].filterMap id

end Mark
end Sheet
end StyleOrder
