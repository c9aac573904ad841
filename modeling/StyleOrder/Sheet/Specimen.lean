namespace StyleOrder
namespace Sheet
namespace Specimen

/-!
# Specimen sheets

Short sheets whose reports are known, for use wherever the exact source does not
matter.
-/

/-- Two nested bodies with three entries that come too late. -/
def disordered : String :=
  ".test\n  color: red\n  color: blue\n  top: 0\n  left: 0\n  .child\n    display: block\n" ++
    "    color: green\n    +button\n"

/-- What is reported about `disordered`, in order. -/
def disorderedMessages : List String :=
  ["Property `top` should not be defined after property `color` in line 3",
    "Property `left` should not be defined after property `color` in line 3",
    "Mixin should not be defined after property `color` in line 8"]

/-- The lines on which it is reported. -/
def disorderedLines : List Nat := [4, 5, 9]

/-- A sheet in order that has an entry of every group.  Extending a placeholder
is an at-rule and no entry, so it may stand anywhere. -/
def ordered : String :=
  "%placeholder\n  color: red\n\n.card\n  +rounded\n  position: relative\n  flex-grow: 1\n" ++
    "  display: flex\n  overflow: hidden\n  transition: all 1s\n  margin: 0 auto\n" ++
    "  width: 100%\n  background: white\n  font-size: 12px\n  color: black\n" ++
    "  list-style: none\n  @extend %placeholder\n  @media screen\n    width: 50%\n" ++
    "  &:hover\n    opacity: 0.5\n"

/-- Comments and a blank line, and nothing else. -/
def commentsOnly : String :=
  "// header\n\n/* block comment */\n"

/-- The last line leaves more blocks than it is in. -/
def malformed : String :=
  ".a\n  .b\n      .c\n.d\n"

end Specimen
end Sheet
end StyleOrder
