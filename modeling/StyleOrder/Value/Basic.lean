namespace StyleOrder

/-!
# Settings data

Settings files are written in several notations, and reports can be printed as
data.  Both go through one type of values.  The fields of an object are kept in
ascending order of their names, each name once.
-/

inductive Value where
  | null
  | bool (value : Bool)
  | integer (value : Int)
  /-- A number written with a point or an exponent, or too large for a machine word. -/
  | real (value : Float)
  | string (text : String)
  | list (items : List Value)
  | object (fields : List (String × Value))
deriving Repr, Inhabited

namespace Value

/-- Put a field into sorted fields, in place of one with the same name. -/
def insertField (name : String) (value : Value) :
    List (String × Value) → List (String × Value)
  | [] => [(name, value)]
  | (other, kept) :: rest =>
      if name < other then (name, value) :: (other, kept) :: rest
      else if name = other then (name, value) :: rest
      else (other, kept) :: insertField name value rest

/-- An object with the given fields.  Of several with one name the last counts. -/
def ofFields (fields : List (String × Value)) : Value :=
  object (fields.foldl (fun sorted (name, value) => insertField name value sorted) [])

def isObject : Value → Bool
  | object _ => true
  | _ => false

def field? (name : String) : Value → Option Value
  | object fields => (fields.find? (·.1 = name)).map Prod.snd
  | _ => none

end Value
end StyleOrder
