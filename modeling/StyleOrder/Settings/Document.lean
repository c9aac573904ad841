import StyleOrder.Settings.Basic
import StyleOrder.Text.Lines
import StyleOrder.Yaml.Content

namespace StyleOrder
namespace Settings

/-!
# Settings in documents

In a document without marks of type a scalar is read as what its field asks for:
a pattern is the text of its scalar, and a number of workers may be quoted.
Otherwise a document says the same as the value it stands for, except that it
has to name its fields.
-/

/-- A pattern as a value.  Any text is one, also when it looks like a number. -/
def patternContent : Yaml.Node → Except Mismatch Value
  | .scalar text quoted =>
      return if (Yaml.Node.scalar text quoted).isNull then .null
        else .string (String.ofList text)
  | node => node.value

def patternsContent : Yaml.Node → Except Mismatch Value
  | .list items => return .list (← items.mapM patternContent)
  | node => node.value

/-- A number of workers as a value, quoted or not.  It has no minus sign. -/
def jobsContent : Yaml.Node → Except Mismatch Value
  | .scalar text quoted =>
      if (Yaml.Node.scalar text quoted).isNull then return .null
      else
        let numeral := Text.trim text
        match if numeral.head? = some '-' then none else Yaml.integer? numeral with
        | some number => return .integer number
        | none => return .string (String.ofList text)
  | node => node.value

/-- What a field holds, as a value. -/
def fieldContent (name : String) (node : Yaml.Node) : Except Mismatch Value :=
  match name with
  | "include" | "exclude" => patternsContent node
  | "jobs" => jobsContent node
  | _ => node.value

/-- Settings are a mapping, or nothing. -/
def ofNode : Yaml.Node → Except Mismatch Settings
  | .mapping pairs => do
      let fields ← pairs.mapM fun (key, node) => do
        let name ← key.key
        return (name, ← fieldContent name node)
      readFields [] {} fields
  | .scalar text quoted =>
      if (Yaml.Node.scalar text quoted).isNull then return {}
      else throw (.wrongType (Yaml.Node.scalarValue text quoted) "settings")
  | .list _ => throw (.wrongType (.list []) "settings")

/-- A text of which every line is blank or a comment. -/
def saysNothing (text : List Char) : Bool :=
  (Text.lines text).all fun line =>
    match Text.trim line with
    | [] => true
    | c :: _ => c = '#'

end Settings
end StyleOrder
