import StyleOrder.Lint.Violation
import StyleOrder.Order.Finding

namespace StyleOrder

/-!
# Rules

A rule looks at one block at a time.  Its violations carry its default severity
until the settings are applied.
-/

structure Rule where
  name : String
  description : String
  severity : Severity
  /-- The violations of one block of the named file. -/
  check : (file : String) → Block → List Violation

namespace Rule

/-- Entries of a body follow the groups of the ordering convention. -/
def propertyOrder : Rule where
  name := "property_order"
  description := "Requires properties and mixin calls to follow the grouped ordering convention"
  severity := .error
  check file block :=
    (Finding.inBody block.entries).map fun finding =>
      { file
        position := finding.entry.position
        severity := .error
        message := finding.message
        rule := "property_order" }

/-- The rules there are. -/
def all : List Rule := [propertyOrder]

/-- Names of the rules in ascending order. -/
def names : List String :=
  (all.map Rule.name).mergeSort (fun left right => decide (left ≤ right))

end Rule
end StyleOrder
