import SchemaDialects.Text.Printable
import SchemaDialects.TypeMap

/-!
# Settings

The settings that both kinds of conversion share, what makes them valid, and the
storage that tables get in MySQL. The engine and the character set go into
statements as they are, so they have to be bare identifiers.
-/

namespace SchemaDialects

/-- The engine and the character set that a created table gets. -/
structure Storage where
  engine : Text := "InnoDB".toList
  charset : Text := "utf8".toList
  deriving DecidableEq

instance : Inhabited Storage := ⟨{}⟩

/-- The clause after the closing parenthesis of a table definition. -/
def Storage.clause (s : Storage) : Text :=
  "ENGINE=".toList ++ s.engine ++ " DEFAULT CHARSET=".toList ++ s.charset

structure Settings where
  /-- The length that text gets in MySQL. -/
  textLength : Nat := 255
  engine : Text := "InnoDB".toList
  charset : Text := "utf8".toList
  /-- Whether a lossy type is an error. -/
  strict : Bool := false
  deriving DecidableEq

instance : Inhabited Settings := ⟨{}⟩

namespace Settings

def types (s : Settings) : TypeMap := ⟨s.textLength⟩

def storage (s : Settings) : Storage := ⟨s.engine, s.charset⟩

/-- The longest text that MySQL can hold in a row. -/
def maxTextLength : Nat := 65535

inductive Problem where
  | textLength (n : Nat)
  | notBare (field value : Text)
  deriving DecidableEq

def Problem.message : Problem → Text
  | .textLength n =>
    "invalid configuration: text_length must be between 1 and ".toList ++ Text.ofNat maxTextLength
      ++ ", got ".toList ++ Text.ofNat n
  | .notBare field value =>
    "invalid configuration: ".toList ++ field ++ " must be a bare identifier, got ".toList
      ++ Text.escaped value

def isBareIdentifier (s : Text) : Bool := !s.isEmpty && s.all Text.isAsciiWord

/-- The first problem, in the order of the fields. -/
def validate (s : Settings) : Except Problem Settings :=
  if s.textLength < 1 ∨ maxTextLength < s.textLength then .error (.textLength s.textLength)
  else if !isBareIdentifier s.engine then .error (.notBare "engine".toList s.engine)
  else if !isBareIdentifier s.charset then .error (.notBare "charset".toList s.charset)
  else .ok s

end Settings

end SchemaDialects
