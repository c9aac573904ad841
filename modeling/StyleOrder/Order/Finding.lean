import StyleOrder.Order.Group

namespace StyleOrder

/-!
# Findings

A body is read from top to bottom.  What is remembered is the group reached so
far and the anchor, the entry that last raised or held it.  An entry whose group
comes before the one reached is a finding, and changes neither.
-/

/-- An entry that comes too late, and the entry it should have come before. -/
structure Finding where
  entry : Entry
  anchor : Entry
deriving DecidableEq, Repr

/-- How far a body has come. -/
structure Progress where
  reached : Nat := 0
  anchor : Option Entry := none
deriving DecidableEq, Repr

namespace Progress

def start : Progress where

/-- Take in an entry.  One that falls behind is passed over. -/
def next (progress : Progress) (entry : Entry) : Progress :=
  if entry.rank < progress.reached then progress
  else { reached := entry.rank, anchor := some entry }

/-- The finding at an entry, if it falls behind an anchor. -/
def finding? (progress : Progress) (entry : Entry) : Option Finding :=
  if entry.rank < progress.reached then progress.anchor.map fun anchor => { entry, anchor }
  else none

/-- Findings among the entries that are still to come. -/
def findings (progress : Progress) : List Entry → List Finding
  | [] => []
  | entry :: rest => (progress.finding? entry).toList ++ (progress.next entry).findings rest

end Progress

namespace Finding

/-- Findings in a body. -/
def inBody (entries : List Entry) : List Finding :=
  Progress.start.findings entries

/-- How an entry is named at the start of a sentence. -/
def subject : Entry → String
  | .property name _ _ => "Property `" ++ name ++ "`"
  | .mixin _ => "Mixin"

/-- How an entry is named inside a sentence. -/
def object : Entry → String
  | .property name _ _ => "property `" ++ name ++ "`"
  | .mixin _ => "mixin"

def message (finding : Finding) : String :=
  subject finding.entry ++ " should not be defined after " ++ object finding.anchor ++
    " in line " ++ toString finding.anchor.position.line

end Finding
end StyleOrder
