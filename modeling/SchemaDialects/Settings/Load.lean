import SchemaDialects.Json.Decode
import SchemaDialects.Yaml.Mapping

/-!
# Loading settings

Settings from the text of a file, JSON or YAML by the file's name. Settings that
were read are validated.
-/

namespace SchemaDialects.Settings

inductive LoadError where
  /-- There is no file, or its bytes are no text. -/
  | unreadable
  | badJson
  | badYaml
  | invalid (p : Problem)

/-- The value of a key, if it is given. It fails where the key comes twice. -/
def yamlField? (entries : List (Text × Yaml.Scalar)) (name : String) :
    Option (Option Yaml.Scalar) :=
  match entries.filter fun e => e.1 == name.toList with
  | [] => some none
  | [e] => some (some e.2)
  | _ => none

/-- Reads the value of a key that has a default. -/
def yamlOrElse {α : Type} (default : α) (read : Yaml.Scalar → Option α) :
    Option Yaml.Scalar → Option α
  | none => some default
  | some v => read v

/-- Settings from YAML, not validated. A text value can be any scalar. -/
def ofYaml? (document : Text) : Option Settings := do
  let defaults : Settings := default
  let entries ← Yaml.entries? document
  some
    { textLength := ← yamlOrElse defaults.textLength Yaml.nat32? (← yamlField? entries "text_length")
      engine := ← yamlOrElse defaults.engine (some ·.text) (← yamlField? entries "engine")
      charset := ← yamlOrElse defaults.charset (some ·.text) (← yamlField? entries "charset")
      strict := ← yamlOrElse defaults.strict Yaml.bool? (← yamlField? entries "strict") }

def ofJson? (document : Text) : Option Settings := Json.parse? document >>= Json.settings?

def checked (s : Settings) : Except LoadError Settings :=
  match s.validate with
  | .ok s => .ok s
  | .error p => .error (.invalid p)

def readYaml (document : Text) : Except LoadError Settings :=
  match ofYaml? document with
  | some s => s.checked
  | none => .error .badYaml

def readJson (document : Text) : Except LoadError Settings :=
  match ofJson? document with
  | some s => s.checked
  | none => .error .badJson

/-- The name's part after its last dot. A dot that starts the name is part of
it. -/
def extension? (fileName : Text) : Option Text :=
  match (Text.splitOn '.' fileName).reverse with
  | last :: first :: rest => if first = [] ∧ rest = [] then none else some last
  | _ => none

/-- Settings from a file of that name with those bytes, or from none. -/
def load (fileName : Text) (bytes? : Option ByteArray) : Except LoadError Settings :=
  match bytes?.bind String.fromUTF8? with
  | none => .error .unreadable
  | some document =>
    if (extension? fileName).any (Text.sameUpToCase · "json".toList) then
      readJson document.toList
    else readYaml document.toList

end SchemaDialects.Settings
