import StyleOrder.Value.Basic

namespace StyleOrder
namespace Toml

/-!
# Tables

A document is a sequence of statements: headers, which open tables and elements
of lists of tables, and assignments to the table opened last.  A table may be
mentioned in passing before it is opened, but it is opened only once, and only
assignments may add to a table that an assignment has made.
-/

/-- How a table came about. -/
inductive Origin where
  /-- It has a header of its own. -/
  | header
  /-- It is part of the path in the header of another table. -/
  | implied
  /-- It is part of the path in an assignment. -/
  | dotted
deriving DecidableEq, Repr

inductive Item where
  | value (value : Value)
  | table (origin : Origin) (fields : List (String × Item))
  /-- A list of tables, the last of which is open. -/
  | tables (elements : List (List (String × Item)))
deriving Inhabited

abbrev Fields := List (String × Item)

def item? (name : String) (fields : Fields) : Option Item :=
  (fields.find? (·.1 = name)).map Prod.snd

/-- Replace a field, or add it at the end. -/
def put (name : String) (item : Item) : Fields → Fields
  | [] => [(name, item)]
  | (other, kept) :: rest =>
      if other = name then (name, item) :: rest else (other, kept) :: put name item rest

/-- Change the last element of a list. -/
def changeLast {α : Type} (change : α → Option α) : List α → Option (List α)
  | [] => none
  | [last] => (change last).map fun last => [last]
  | first :: rest => (changeLast change rest).map (first :: ·)

/-- Assign a value to a path. -/
def assign (value : Value) : (path : List String) → Fields → Option Fields
  | [], _ => none
  | [name], fields =>
      match item? name fields with
      | none => some (put name (.value value) fields)
      | some _ => none
  | name :: path, fields =>
      match item? name fields with
      | none => do return put name (.table .dotted (← assign value path [])) fields
      | some (.table .header _) => none
      | some (.table origin held) => do
          return put name (.table origin (← assign value path held)) fields
      | some _ => none

/-- Open the table at a path, or a new element of the list of tables there. -/
def openAt (element : Bool) : (path : List String) → Fields → Option Fields
  | [], _ => none
  | [name], fields =>
      match element, item? name fields with
      | false, none => some (put name (.table .header []) fields)
      | false, some (.table .implied held) => some (put name (.table .header held) fields)
      | true, none => some (put name (.tables [[]]) fields)
      | true, some (.tables elements) => some (put name (.tables (elements ++ [[]])) fields)
      | _, _ => none
  | name :: path, fields =>
      match item? name fields with
      | none => do return put name (.table .implied (← openAt element path [])) fields
      | some (.table origin held) => do
          return put name (.table origin (← openAt element path held)) fields
      | some (.tables elements) => do
          return put name (.tables (← changeLast (openAt element path) elements)) fields
      | some (.value _) => none

/-- Change the table that has been opened at a path. -/
def changeAt (change : Fields → Option Fields) : (path : List String) → Fields → Option Fields
  | [], fields => change fields
  | name :: path, fields =>
      match item? name fields with
      | some (.table origin held) => do
          return put name (.table origin (← changeAt change path held)) fields
      | some (.tables elements) => do
          return put name (.tables (← changeLast (changeAt change path) elements)) fields
      | _ => none

inductive Statement where
  | assign (path : List String) (value : Value)
  | openTable (path : List String)
  | openElement (path : List String)

/-- The document so far and the path of the table that is open. -/
structure Progress where
  fields : Fields := []
  opened : List String := []

def Progress.add (progress : Progress) : Statement → Option Progress
  | .assign path value => do
      return { progress with
        fields := ← changeAt (Toml.assign value path) progress.opened progress.fields }
  | .openTable path => do return ⟨← openAt false path progress.fields, path⟩
  | .openElement path => do return ⟨← openAt true path progress.fields, path⟩

mutual

def Item.toValue : Item → Value
  | .value value => value
  | .table _ fields => .object (fieldValues [] fields)
  | .tables elements => .list (elementValues elements)

def fieldValues (sorted : List (String × Value)) : List (String × Item) → List (String × Value)
  | [] => sorted
  | (name, item) :: rest => fieldValues (Value.insertField name item.toValue sorted) rest

def elementValues : List (List (String × Item)) → List Value
  | [] => []
  | fields :: rest => .object (fieldValues [] fields) :: elementValues rest

end

/-- The value of a table. -/
def valueOf (fields : Fields) : Value :=
  .object (fieldValues [] fields)

end Toml
end StyleOrder
