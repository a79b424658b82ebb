import SchemaDialects.Yaml.Style

/-!
# YAML mappings

A reader for the YAML that settings files use: one document that is empty or
holds one block mapping. Each key is first on its line, all keys have the same
column, and each value is a scalar or missing.
-/

namespace SchemaDialects.Yaml

open Text

/-! ## Entries -/

/-- The most bytes that a key takes up to its colon. -/
def maxKeySize : Nat := 1024

def utf8Size (s : Text) : Nat := s.foldl (fun n c => n + c.utf8Size) 0

/-- Whether `s` can stand before the colon of a key: on one line, and not too
long. -/
def fitsKey (s : Text) : Bool := !s.any isBreak && utf8Size s ≤ maxKeySize

/-- Reads a key and its colon. -/
def key (column : Nat) (s : Text) : Option (Text × Text) := do
  let (k, _, rest) ← scalar (column + 1) s
  let rest := rest.dropWhile isWhite
  if fitsKey (s.take (s.length - rest.length)) then
    let s ← char ':' rest
    if atGap s then some (k.text, s) else none
  else none

/-- Reads the value of a key that has that column. The value is missing unless
it stands on the line of the key or further in. -/
def value (column : Nat) (s : Text) : Option (Scalar × Place × Text) :=
  let (p, s) := skip .sameLine s
  if s.isEmpty || p.startsLineBy column then some (.empty, p, s)
  else do
    let (v, p, s) ← scalar (column + 1) s
    let (p, s) := skip p s
    if s.isEmpty || p.startsLine then some (v, p, s) else none

/-- Whether nothing follows the end of a document but more of its markers. -/
def endsWithMarkers : Nat → Place → Text → Bool
  | _, _, [] => true
  | 0, _, _ => false
  | fuel + 1, p, s =>
    p == .ownLine 0 && startsMarker '.' s &&
      let (p, s) := skip .sameLine (s.drop 3)
      endsWithMarkers fuel p s

/-- Reads entries with that column to the end of the document. -/
def entriesFrom (column : Nat) : Nat → Place → Text → Option (List (Text × Scalar))
  | _, _, [] => some []
  | 0, _, _ => none
  | fuel + 1, p, s =>
    if p = .ownLine 0 ∧ startsAnyMarker s then
      if endsWithMarkers (fuel + 1) p s then some [] else none
    else if p = .ownLine column then do
      let (k, s) ← key column s
      let (v, p, s) ← value column s
      let rest ← entriesFrom column fuel p s
      some ((k, v) :: rest)
    else none

/-! ## Documents -/

/-- Reads what follows the start of a document. Each entry takes a character at
least, so there are no more than characters. -/
def content (p : Place) (s : Text) : Option (List (Text × Scalar)) :=
  match p, s with
  | _, [] => some []
  | .ownLine column, s => entriesFrom column s.length p s
  | _, _ => none

/-- The entries of a document, in order. -/
def entries? (document : Text) : Option (List (Text × Scalar)) :=
  if document.all isAllowed then
    let (p, s) := skip (.ownLine 0) (normalize document)
    if p = .ownLine 0 ∧ startsMarker '-' s then
      let (p, s) := skip .sameLine (s.drop 3)
      content p s
    else if p = .ownLine 0 ∧ startsMarker '.' s then none
    else content p s
  else none

end SchemaDialects.Yaml
