import StyleOrder.Files.Disk

namespace StyleOrder

/-!
# Patterns

A pattern names many paths at once.  A question mark stands for any character,
a star for any text, a bracketed class for one character, and two stars for any
number of directories.  Two stars have to be a whole component of the pattern.

Matched against a text, a pattern does not treat slashes specially, except that
two stars end at one.  Expanded on a disk, it is taken apart at its slashes and
each component is matched against names.
-/

namespace Glob

/-- A span of characters by their codes, both ends included. -/
structure Span where
  low : Char
  high : Char
deriving DecidableEq, Repr

inductive Token where
  | char (c : Char)
  | anyChar
  | anyText
  | directories
  | within (spans : List Span)
  | outside (spans : List Span)
deriving DecidableEq, Repr

inductive Fault where
  | stars
  | directories
  | range
deriving DecidableEq, Repr

/-- What is wrong with a pattern and the place of the character it is about. -/
structure Error where
  position : Nat
  fault : Fault
deriving DecidableEq, Repr

namespace Error

def message (error : Error) : String :=
  "Pattern syntax error near position " ++ toString error.position ++ ": " ++
    match error.fault with
    | .stars => "wildcards are either regular `*` or recursive `**`"
    | .directories => "recursive wildcards must form a single path component"
    | .range => "invalid range pattern"

end Error

/-! ### Reading patterns -/

/-- The spans of a class.  A hyphen between two characters makes a span of them;
first or last it stands for itself. -/
def spans : List Char → List Span
  | low :: '-' :: high :: rest => ⟨low, high⟩ :: spans rest
  | c :: rest => ⟨c, c⟩ :: spans rest
  | [] => []

/-- A class that has been opened and not yet closed: where it started, whether it
is negated, and what it holds, the last character first. -/
structure OpenClass where
  start : Nat
  negated : Bool
  held : List Char

def OpenClass.close (cls : OpenClass) : Token :=
  if cls.negated then .outside (spans cls.held.reverse) else .within (spans cls.held.reverse)

/-- The tokens of a pattern from a position on.  `previous` is the character
before that position, and `cls` the class that the position is in.  The first
character of a class never closes it. -/
def tokens (position : Nat) (previous : Option Char) (cls : Option OpenClass) :
    List Char → Except Error (List Token)
  | [] =>
      match cls with
      | some cls => .error ⟨cls.start, .range⟩
      | none => .ok []
  | c :: rest =>
      match cls with
      | some cls =>
          if c = ']' then (cls.close :: ·) <$> tokens (position + 1) (some c) none rest
          else tokens (position + 1) (some c) (some { cls with held := c :: cls.held }) rest
      | none =>
          match c, rest with
          | '*', '*' :: '*' :: _ => .error ⟨position + 2, .stars⟩
          | '*', '*' :: after =>
              if previous = none || previous = some '/' then
                match after with
                | [] => .ok [.directories]
                | '/' :: after =>
                    (.directories :: ·) <$> tokens (position + 3) (some '/') none after
                | _ => .error ⟨position + 2, .directories⟩
              else .error ⟨position - 1, .directories⟩
          | '*', rest => (.anyText :: ·) <$> tokens (position + 1) (some c) none rest
          | '?', rest => (.anyChar :: ·) <$> tokens (position + 1) (some c) none rest
          | '[', '!' :: held :: rest =>
              tokens (position + 3) (some held) (some ⟨position, true, [held]⟩) rest
          | '[', '!' :: [] => .error ⟨position, .range⟩
          | '[', held :: rest =>
              tokens (position + 2) (some held) (some ⟨position, false, [held]⟩) rest
          | '[', [] => .error ⟨position, .range⟩
          | c, rest => (.char c :: ·) <$> tokens (position + 1) (some c) none rest

/-- The tokens of a whole pattern. -/
def compile (pattern : List Char) : Except Error (List Token) :=
  tokens 0 none none pattern

/-! ### Matching texts -/

def Span.holds (span : Span) (c : Char) : Bool :=
  span.low ≤ c && c ≤ span.high

/-- Whether a token that stands for one character stands for this one. -/
def Token.accepts : Token → Char → Bool
  | char expected, c => expected = c
  | anyChar, _ => true
  | within spans, c => spans.any (·.holds c)
  | outside spans, c => !spans.any (·.holds c)
  | anyText, _ | directories, _ => false

/-- Whether the rest of a pattern matches some end of the text. -/
def matchAnywhere (rest : List Char → Bool) : List Char → Bool
  | [] => rest []
  | c :: text => rest (c :: text) || matchAnywhere rest text

/-- Whether the rest of a pattern matches what follows some slash, or nothing
once the text has run out. -/
def matchAfterSlash (rest : List Char → Bool) : List Char → Bool
  | [] => rest []
  | c :: text => (c = '/' && rest text) || matchAfterSlash rest text

/-- Whether a pattern matches a whole text. -/
def matchesText : List Token → List Char → Bool
  | [], text => text.isEmpty
  | .anyText :: rest, text => matchAnywhere (matchesText rest) text
  | .directories :: rest, text =>
      matchesText rest text || matchAfterSlash (matchesText rest) text
  | _ :: _, [] => false
  | token :: rest, c :: text => token.accepts c && matchesText rest text

/-! ### Expanding patterns -/

/-- The text of a component without special characters. -/
def literal? (component : List Token) : Option (List Char) :=
  component.mapM fun
    | .char c => some c
    | _ => none

def isDirectories (component : List Token) : Bool :=
  component = [.directories]

/-- Several components of two stars in a row say no more than one. -/
def collapse : List (List Token) → List (List Token)
  | first :: second :: rest =>
      if isDirectories first && isDirectories second then collapse (second :: rest)
      else first :: collapse (second :: rest)
  | components => components

/-- Whether the name of an entry matches a component. -/
def nameMatches (component : List Token) (path : Path) : Bool :=
  match path.fileName? with
  | some name => matchesText component name
  | none => false

/-- The present and the upper directory, if a component with a leading dot
matches their names. -/
def dots (component : List Token) (path : Path) : List Path :=
  if component.head? = some (.char '.') then
    ([['.'], ['.', '.']].filter (matchesText component)).map fun name => path.join ⟨name⟩
  else []

/-- The paths that components lead to from a path.  A component without special
characters is followed directly; others are matched against the entries of the
directory, and two stars against everything below it. -/
def expandFrom (disk : Disk) : List (List Token) → Path → List Path
  | [], path => [path]
  | component :: rest, path =>
      if isDirectories component then
        match rest with
        | [] => (disk.below disk.height path).filter disk.isDirectory
        | next :: rest =>
            ((disk.below disk.height path).filter (nameMatches next)).flatMap
              (expandFrom disk rest)
      else
        match literal? component with
        | some name =>
            let next := path.enter name
            let found :=
              if name = ['.'] || name = ['.', '.'] then disk.isDirectory path
              else disk.exists next
            if found then expandFrom disk rest next else []
        | none =>
            if disk.isDirectory path then
              ((disk.entries path).filter (nameMatches component) ++ dots component path).flatMap
                (expandFrom disk rest)
            else []

/-- The components of a pattern.  A slash at the beginning belongs to none, and
one at the end does not begin another.  An empty pattern has an empty component,
which leads nowhere. -/
def componentTexts : List Char → List (List Char)
  | [] => [[]]
  | '/' :: rest => Path.trunk rest
  | pattern => Path.trunk pattern

/-- Where a pattern is expanded: an absolute one at the root, any other in the
present directory. -/
def origin (pattern : List Char) : Path :=
  if Path.isAbsolute ⟨pattern⟩ then ⟨['/']⟩ else ⟨['.']⟩

/-- All paths that a pattern names.  A slash at its end asks for directories. -/
def expand (disk : Disk) (pattern : List Char) : Except Error (List Path) := do
  let _ ← compile pattern
  let components ← (componentTexts pattern).mapM compile
  let found := expandFrom disk (collapse components) (origin pattern)
  return if pattern.getLast? = some '/' then found.filter disk.isDirectory else found

end Glob
end StyleOrder
