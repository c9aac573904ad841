namespace StyleOrder

/-!
# Paths

A path is a text; joining paths and shortening them never changes the parts
that are kept.  Its components are what the text means: empty segments and
single dots inside it say nothing, so two texts can mean the same path.  Paths
are ordered by their components.
-/

structure Path where
  text : List Char
deriving DecidableEq, Repr

namespace Path

def ofString (text : String) : Path where
  text := text.toList

def string (path : Path) : String :=
  String.ofList path.text

/-- The parts of a text between slashes.  There is always at least one. -/
def segments : List Char → List (List Char)
  | [] => [[]]
  | c :: rest =>
      if c = '/' then [] :: segments rest
      else
        match segments rest with
        | [] => [[c]]
        | segment :: others => (c :: segment) :: others

/-- The segments of a text, without the empty one behind a slash at the end. -/
def trunk (text : List Char) : List (List Char) :=
  if (segments text).getLast? = some [] then (segments text).dropLast else segments text

def joinSegments (parts : List (List Char)) : List Char :=
  ['/'].intercalate parts

/-- Segments that stay where they are. -/
def idle (segment : List Char) : Bool :=
  segment = [] || segment = ['.']

inductive Component where
  | root
  | here
  | up
  | name (text : List Char)
deriving DecidableEq, Repr

namespace Component

/-- The components of one segment, wherever it stands. -/
def ofSegment? (segment : List Char) : Option Component :=
  if idle segment then none
  else if segment = ['.', '.'] then some up
  else some (name segment)

/-- Place in the order of components: the root, a leading dot, a step up, and
then names by their characters. -/
def key : Component → List Nat
  | root => [0]
  | here => [1]
  | up => [2]
  | name text => 3 :: text.map Char.toNat

end Component

/-- What a path means.  A dot counts only at the very beginning. -/
def components (path : Path) : List Component :=
  let parts := segments path.text
  let start := match parts with
    | [] :: _ :: _ => [Component.root]
    | ['.'] :: _ => [Component.here]
    | _ => []
  start ++ parts.filterMap Component.ofSegment?

def isAbsolute (path : Path) : Bool :=
  path.text.head? = some '/'

/-! ### Order -/

def key (path : Path) : List (List Nat) :=
  path.components.map Component.key

/-- Whether a path comes before another. -/
def before (left right : Path) : Bool :=
  left.key < right.key

/-- Whether two paths mean the same. -/
def same (left right : Path) : Bool :=
  left.key = right.key

/-- Put a path into its place among sorted paths, unless one that means the same
is already there. -/
def insert (path : Path) : List Path → List Path
  | [] => [path]
  | other :: rest =>
      if path.before other then path :: other :: rest
      else if path.same other then other :: rest
      else other :: insert path rest

/-! ### Names -/

def fileName? (path : Path) : Option (List Char) :=
  match path.components.getLast? with
  | some (.name text) => some text
  | _ => none

/-- The part of a name after its last dot.  A dot at the beginning does not
count. -/
def extensionOf? (name : List Char) : Option (List Char) :=
  let tail := name.reverse.takeWhile (· ≠ '.')
  match name.reverse.dropWhile (· ≠ '.') with
  | _ :: _ :: _ => some tail.reverse
  | _ => none

def extension? (path : Path) : Option (List Char) :=
  path.fileName?.bind extensionOf?

/-! ### Joining and shortening -/

/-- A path seen from a base.  An absolute path does not depend on the base. -/
def join (base path : Path) : Path :=
  if path.isAbsolute then path
  else
    match base.text.getLast? with
    | none => path
    | some c => ⟨if c = '/' then base.text ++ path.text else base.text ++ '/' :: path.text⟩

/-- The path of an entry of a directory.  The present directory is left out of it. -/
def enter (directory : Path) (name : List Char) : Path :=
  if directory.components = [.here] then ⟨name⟩ else directory.join ⟨name⟩

/-- The path of a first segment and further ones, which are given the last first.
What is idle at the end is left out. -/
def cut (first : List Char) (rest : List (List Char)) : Path :=
  match rest.dropWhile idle with
  | [] => if first = [] then ⟨['/']⟩ else ⟨first⟩
  | kept => ⟨joinSegments (first :: kept.reverse)⟩

/-- The path without its last component; there is none for the root and the
empty path. -/
def parent? (path : Path) : Option Path :=
  match segments path.text with
  | [] => none
  | first :: others =>
      match others.reverse.dropWhile idle with
      | [] => if first = [] then none else some ⟨[]⟩
      | _ :: rest => some (cut first rest)

/-- A path and its ancestors, nearest first, at most `bound` of them. -/
def climb : (bound : Nat) → Path → List Path
  | 0, _ => []
  | bound + 1, path =>
      path ::
        match path.parent? with
        | some parent => climb bound parent
        | none => []

/-- A path and all its ancestors, nearest first.  Each has fewer segments than
the one before. -/
def ancestors (path : Path) : List Path :=
  climb ((segments path.text).length + 1) path

/-- Drop the first `count` components that segments stand for, and what is idle
before the next one. -/
def dropComponents : (count : Nat) → List (List Char) → List (List Char)
  | _, [] => []
  | 0, segment :: rest => if idle segment then dropComponents 0 rest else segment :: rest
  | count + 1, segment :: rest =>
      if idle segment then dropComponents (count + 1) rest else dropComponents count rest

/-- A path without what is idle at its end. -/
def trimmed (path : Path) : Path :=
  match segments path.text with
  | first :: second :: others => cut first (second :: others).reverse
  | _ => path

/-- The rest of a path below a base, if it is below it.  Every path is below the
empty one, and keeps its beginning. -/
def below? (base path : Path) : Option Path :=
  if base.text = [] then some path.trimmed
  else if base.components.isPrefixOf path.components then
    let named := base.components.filter fun component =>
      component != .root && component != .here
    let rest := dropComponents named.length (segments path.text)
    some ⟨joinSegments (rest.reverse.dropWhile idle).reverse⟩
  else none

end Path

/-! ## Stylesheet files -/

/-- How a stylesheet writes its nesting. -/
inductive SheetKind where
  | indented
  | braces
deriving DecidableEq, Repr

namespace SheetKind

def text : SheetKind → String
  | indented => "indented"
  | braces => "braces"

/-- The kind is told by the extension of the file. -/
def ofPath? (path : Path) : Option SheetKind :=
  match path.extension?.map String.ofList with
  | some "sass" => some indented
  | some "scss" | some "css" => some braces
  | _ => none

/-- Nesting can be read from indentation only. -/
def supported : SheetKind → Bool
  | indented => true
  | braces => false

end SheetKind
end StyleOrder
