import PadRemap.Document.Value
import PadRemap.Toml.Number

/-! Documents read from JSON text. An integer of 64 bits, with or without sign, stays an integer;
every other number is a real. -/

namespace PadRemap.Json

def isBlank (c : Char) : Bool := c == ' ' || c == '\t' || c == '\n' || c == '\r'

def skipBlanks (cs : List Char) : List Char := cs.dropWhile isBlank

def fourDigits? : List Char → Option (Nat × List Char)
  | a :: b :: c :: d :: r => (Numeral.natural? 16 [a, b, c, d]).map fun n => (n, r)
  | _ => none

/-- The character of a code point given in units of 16 bits: characters beyond the first plane are
written as a high and a low surrogate. -/
def unicode? (cs : List Char) : Option (Char × List Char) := do
  let (high, cs) ← fourDigits? cs
  if high < 0xD800 ∨ 0xE000 ≤ high then some (Char.ofNat high, cs)
  else match cs with
    | '\\' :: 'u' :: cs => do
      let (low, cs) ← fourDigits? cs
      if high < 0xDC00 ∧ 0xDC00 ≤ low ∧ low < 0xE000 then
        some (Char.ofNat (0x10000 + (high - 0xD800) * 0x400 + (low - 0xDC00)), cs)
      else none
    | _ => none

def escaped? : List Char → Option (Char × List Char)
  | 'u' :: r => unicode? r
  | '/' :: r => some ('/', r)
  | c :: r => (Toml.escaped? c).map fun c => (c, r)
  | [] => none

def unquote : Nat → List Char → Option (List Char × List Char)
  | 0, _ => none
  | _, [] => none
  | fuel + 1, c :: r =>
    match c with
    | '"' => some ([], r)
    | '\\' => do
      let (c, r) ← escaped? r
      let (s, r) ← unquote fuel r
      some (c :: s, r)
    | c =>
      if c.toNat < 0x20 then none
      else (unquote fuel r).map fun (s, r) => (c :: s, r)

def isNumeric (c : Char) : Bool :=
  c.isDigit || c == '-' || c == '+' || c == '.' || c == 'e' || c == 'E'

/-- The value of a number without its sign: an integer if it is written as one and fits. -/
def magnitude? (negative : Bool) (cs : List Char) : Option Document := do
  let real (v : Float) : Option Document :=
    if v.isInf then none else some (.real (if negative then -v else v))
  if cs.all Char.isDigit then do
    let n ← Toml.decimal? cs >>= Numeral.natural? 10
    if negative then
      if n = 0 ∨ 9223372036854775808 < n then real (Toml.scaled n 0)
      else some (.integer (-(n : Int)))
    else if n < 18446744073709551616 then some (.integer n) else real (Toml.scaled n 0)
  else (Toml.RealText.of cs).value? >>= real

def number? : List Char → Option Document
  | '-' :: r => magnitude? true r
  | cs => magnitude? false cs

mutual

def value : Nat → List Char → Option (Document × List Char)
  | 0, _ => none
  | fuel + 1, cs =>
    match skipBlanks cs with
    | 'n' :: 'u' :: 'l' :: 'l' :: r => some (.null, r)
    | 't' :: 'r' :: 'u' :: 'e' :: r => some (.flag true, r)
    | 'f' :: 'a' :: 'l' :: 's' :: 'e' :: r => some (.flag false, r)
    | '"' :: r => (unquote fuel r).map fun (s, r) => (.text (String.ofList s), r)
    | '[' :: r => match skipBlanks r with
      | ']' :: r => some (.list [], r)
      | r => (items fuel r).map fun (xs, r) => (.list xs, r)
    | '{' :: r => match skipBlanks r with
      | '}' :: r => some (.table [], r)
      | r => (fields fuel r).map fun (fs, r) => (.table fs, r)
    | cs => (number? (cs.takeWhile isNumeric)).map fun d => (d, cs.dropWhile isNumeric)

def items : Nat → List Char → Option (List Document × List Char)
  | 0, _ => none
  | fuel + 1, cs => do
    let (item, cs) ← value fuel cs
    match skipBlanks cs with
    | ']' :: r => some ([item], r)
    | ',' :: r => (items fuel r).map fun (xs, r) => (item :: xs, r)
    | _ => none

def fields : Nat → List Char → Option (List (String × Document) × List Char)
  | 0, _ => none
  | fuel + 1, cs => do
    match skipBlanks cs with
    | '"' :: r =>
      let (name, r) ← unquote fuel r
      match skipBlanks r with
      | ':' :: r =>
        let (v, r) ← value fuel r
        let field := (String.ofList name, v)
        match skipBlanks r with
        | '}' :: r => some ([field], r)
        | ',' :: r => (fields fuel r).map fun (fs, r) => (field :: fs, r)
        | _ => none
      | _ => none
    | _ => none

end

def document? (text : String) : Option Document := do
  let cs := text.toList
  let (d, rest) ← value (2 * cs.length + 2) cs
  if (skipBlanks rest).isEmpty then some d else none

end PadRemap.Json
