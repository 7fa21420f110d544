import PadRemap.Toml.Value

/-! A whole TOML text: lines gathered into sections, and the sections put together into one
document. -/

namespace PadRemap.Toml

inductive Header where
  | root
  | table (key : Key)
  | row (key : Key)
  deriving DecidableEq, Repr

structure Section where
  header : Header
  entries : List (Key × Document)

inductive Line where
  | blank
  | header (h : Header)
  | entry (key : Key) (value : Document)

def readHeader (make : Key → Header) (closing cs : List Char) :
    Option (Line × List Char) := do
  let (key, cs) ← readKey cs
  if closing.isPrefixOf cs then some (.header (make key), cs.drop closing.length) else none

def readLine (cs : List Char) : Option (Line × List Char) :=
  match skipBlanks cs with
  | [] => some (.blank, [])
  | '#' :: r => some (.blank, '#' :: r)
  | '\n' :: r => some (.blank, '\n' :: r)
  | '\r' :: r => some (.blank, '\r' :: r)
  | '[' :: '[' :: r => readHeader .row [']', ']'] r
  | '[' :: r => readHeader .table [']'] r
  | cs => do
    let (key, cs) ← readKey cs
    match skipBlanks cs with
    | '=' :: cs => do
      let (v, cs) ← topValue (skipBlanks cs)
      some (.entry key v, cs)
    | _ => none

def readLines : Nat → List Char → Option (List Line)
  | 0, _ => none
  | fuel + 1, cs =>
    if cs.isEmpty then some []
    else do
      let (line, cs) ← readLine cs
      let cs ← lineEnd? cs
      let lines ← readLines fuel cs
      some (line :: lines)

/-- Gathers lines under their headers; the entries before the first header belong to the root. -/
def sections : List Line → List (Key × Document) × List Section
  | [] => ([], [])
  | line :: lines =>
    let (entries, later) := sections lines
    match line with
    | .blank => (entries, later)
    | .entry key v => ((key, v) :: entries, later)
    | .header h => ([], ⟨h, entries⟩ :: later)

def Items.insertSection (items : Items) (s : Section) : Option Items :=
  match s.header with
  | .root => items.insertAll s.entries
  | .table key => items.insertTable key s.entries
  | .row key => items.insertRow key s.entries

/-- The document of a TOML text; a byte order mark in front is skipped. -/
def document? (text : String) : Option Document := do
  let cs := match text.toList with
    | '\uFEFF' :: r => r
    | cs => cs
  let lines ← readLines (cs.length + 1) cs
  let (entries, later) := sections lines
  let items ← (⟨.root, entries⟩ :: later).foldlM Items.insertSection []
  some (.table (documents items))

end PadRemap.Toml
