import StyleOrder.Files.Path
import StyleOrder.Lint.Report

namespace StyleOrder

/-!
# Disks

The files that a run can see, as a value.  A place on the disk is the list of
names that lead to it from the root; directories above an item need not be
listed.  Paths are followed segment by segment, so a step up is only possible
from a directory that exists.
-/

inductive Item where
  | file (content : ByteArray)
  | directory

/-- The names from the root to an item. -/
abbrev Place := List (List Char)

structure Disk where
  items : List (Place × Item) := []

namespace Disk

/-- Where one segment of a path leads, were everything a directory. -/
def step (place : Place) (segment : List Char) : Place :=
  if Path.idle segment then place
  else if segment = ['.', '.'] then place.dropLast
  else place ++ [segment]

/-- The places that segments pass through before they end. -/
def passed (place : Place) : List (List Char) → List Place
  | [] => []
  | segment :: rest => place :: passed (step place segment) rest

/-- A disk that also has an item at the end of a path, in place of what was
there, and directories along it. -/
def put (disk : Disk) (path : Path) (item : Item) : Disk :=
  let segments := Path.segments path.text
  let place := segments.foldl step []
  ⟨disk.items.filter (·.1 ≠ place) ++ (passed [] segments).map (·, .directory) ++ [(place, item)]⟩

def content? (disk : Disk) (place : Place) : Option ByteArray :=
  disk.items.findSome? fun (other, item) =>
    match item with
    | .file content => if other = place then some content else none
    | .directory => none

/-- The root, what is listed as a directory, and whatever has items below it. -/
def isDirectoryAt (disk : Disk) (place : Place) : Bool :=
  place = [] || disk.items.any fun (other, item) =>
    place.isPrefixOf other && (place.length < other.length ||
      match item with
      | .directory => true
      | .file _ => false)

def existsAt (disk : Disk) (place : Place) : Bool :=
  disk.isDirectoryAt place || (disk.content? place).isSome

/-- Names of the items in a directory, each once. -/
def names (disk : Disk) (place : Place) : List (List Char) :=
  (disk.items.filterMap fun (other, _) =>
    if place.isPrefixOf other then other[place.length]? else none).eraseDups

/-- Follow one segment of a path. -/
def follow (disk : Disk) (place : Place) (segment : List Char) : Except ReadFailure Place :=
  if !disk.isDirectoryAt place then .error .notDirectory
  else if disk.existsAt (step place segment) then .ok (step place segment)
  else .error .notFound

/-- The place that a path leads to. -/
def locate (disk : Disk) (path : Path) : Except ReadFailure Place :=
  if path.text = [] then .error .notFound
  else (Path.segments path.text).foldlM disk.follow []

def isFile (disk : Disk) (path : Path) : Bool :=
  match disk.locate path with
  | .ok place => (disk.content? place).isSome
  | .error _ => false

def isDirectory (disk : Disk) (path : Path) : Bool :=
  match disk.locate path with
  | .ok place => disk.isDirectoryAt place
  | .error _ => false

def «exists» (disk : Disk) (path : Path) : Bool :=
  (disk.locate path).isOk

/-- The paths of the items in a directory. -/
def entries (disk : Disk) (path : Path) : List Path :=
  match disk.locate path with
  | .ok place =>
      if disk.isDirectoryAt place then (disk.names place).map path.enter
      else []
  | .error _ => []

/-- A bound on the length of all places. -/
def height (disk : Disk) : Nat :=
  disk.items.foldl (fun bound (place, _) => max bound place.length) 0

/-- All items below a path, down to a depth. -/
def below (disk : Disk) : (depth : Nat) → Path → List Path
  | 0, _ => []
  | depth + 1, path =>
      (disk.entries path).flatMap fun entry => entry :: disk.below depth entry

/-- The text of a file. -/
def read (disk : Disk) (path : Path) : Except ReadFailure String := do
  let place ← disk.locate path
  match disk.content? place with
  | none => throw .isDirectory
  | some content =>
      match String.fromUTF8? content with
      | some text => return text
      | none => throw .notText

end Disk
end StyleOrder
