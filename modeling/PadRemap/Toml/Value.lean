import PadRemap.Toml.Moment
import PadRemap.Toml.Number
import PadRemap.Toml.Tree

/-! Values of a TOML text. -/

namespace PadRemap.Toml

/-- The bound on nesting and on the parts of a key. -/
def depthLimit : Nat := 80

def keyParts : Nat → List Char → Option (List String × List Char)
  | 0, _ => none
  | fuel + 1, cs => do
    let (part, cs) ← keyPart (skipBlanks cs)
    match skipBlanks cs with
    | '.' :: cs => do
      let (parts, cs) ← keyParts fuel cs
      some (part :: parts, cs)
    | cs => some ([part], cs)

def readKey (cs : List Char) : Option (Key × List Char) := do
  let (parts, cs) ← keyParts (depthLimit - 1) cs
  let name ← parts.getLast?
  some ({ path := parts.dropLast, name }, cs)

def isScalar (c : Char) : Bool :=
  c.isAlphanum || c == '_' || c == '+' || c == '-' || c == '.' || c == ':'

def word? (cs : List Char) : Option Document :=
  match cs with
  | ['t', 'r', 'u', 'e'] => some (.flag true)
  | ['f', 'a', 'l', 's', 'e'] => some (.flag false)
  | _ => match moment? cs with
    | some m => some (.moment m.text)
    | none => match integer? cs with
      | some i => some (.integer i)
      | none => (real? cs).map .real

def startsTime (cs : List Char) : Bool :=
  match cs with
  | a :: b :: ':' :: _ => a.isDigit && b.isDigit
  | _ => false

/-- A number, a boolean or a moment; a blank may stand between date and time. -/
def scalar (cs : List Char) : Option (Document × List Char) :=
  let word := cs.takeWhile isScalar
  let rest := cs.dropWhile isScalar
  match (readDate word), rest with
  | some (_, []), ' ' :: after =>
    if startsTime after then
      (word? (word ++ ' ' :: after.takeWhile isScalar)).map fun d => (d, after.dropWhile isScalar)
    else (word? word).map fun d => (d, rest)
  | _, _ => (word? word).map fun d => (d, rest)

mutual

def value (room : Nat) : Nat → List Char → Option (Document × List Char)
  | 0, _ => none
  | fuel + 1, cs =>
    match cs with
    | '[' :: r => match room with
      | 0 => none
      | room + 1 => (arrayItems room fuel r).map fun (items, r) => (.list items, r)
    | '{' :: r => match room with
      | 0 => none
      | room + 1 => match skipBlanks r with
        | '}' :: r => some (.table [], r)
        | r => do
          let (entries, r) ← inlineEntries room fuel r
          let items ← Items.insertAll [] entries
          some (.table (documents items), r)
    | '"' :: _ | '\'' :: _ => (quoted cs).map fun (s, r) => (.text (String.ofList s), r)
    | _ => scalar cs

def arrayItems (room : Nat) : Nat → List Char → Option (List Document × List Char)
  | 0, _ => none
  | fuel + 1, cs => do
    match ← skipTrivia false cs with
    | ']' :: r => some ([], r)
    | cs =>
      let (item, cs) ← value room fuel cs
      match ← skipTrivia false cs with
      | ']' :: r => some ([item], r)
      | ',' :: r => do
        let (items, r) ← arrayItems room fuel r
        some (item :: items, r)
      | _ => none

def inlineEntries (room : Nat) : Nat → List Char → Option (List (Key × Document) × List Char)
  | 0, _ => none
  | fuel + 1, cs => do
    let (key, cs) ← readKey cs
    match skipBlanks cs with
    | '=' :: cs =>
      let (item, cs) ← value room fuel (skipBlanks cs)
      match skipBlanks cs with
      | '\x7d' :: r => some ([(key, item)], r)
      | ',' :: r => do
        let (entries, r) ← inlineEntries room fuel r
        some ((key, item) :: entries, r)
      | _ => none
    | _ => none

end

def topValue (cs : List Char) : Option (Document × List Char) :=
  value (depthLimit - 1) (2 * cs.length + 2) cs

end PadRemap.Toml
