import PadRemap.Text

/-! The small parts of a TOML text. Each reader returns what it read with the rest of the
characters. -/

namespace PadRemap.Toml

def isBlank (c : Char) : Bool := c == ' ' || c == '\t'

def skipBlanks (cs : List Char) : List Char := cs.dropWhile isBlank

def isPrintable (c : Char) : Bool := c == '\t' || (0x20 ≤ c.toNat && c.toNat != 0x7F)

def newline? : List Char → Option (List Char)
  | '\n' :: r => some r
  | '\r' :: '\n' :: r => some r
  | _ => none

/-- The rest after the end of a line: blanks, a comment, and the line end or the end of text. -/
def lineEnd? (cs : List Char) : Option (List Char) :=
  let cs := match skipBlanks cs with
    | '#' :: r => r.dropWhile isPrintable
    | r => r
  if cs.isEmpty then some [] else newline? cs

def skipTrivia (inComment : Bool) : List Char → Option (List Char)
  | [] => some []
  | '\n' :: r => skipTrivia false r
  | '\r' :: '\n' :: r => skipTrivia false r
  | c :: r =>
    if inComment then (if isPrintable c then skipTrivia true r else none)
    else if c = '#' then skipTrivia true r
    else if isBlank c then skipTrivia false r
    else some (c :: r)

def isBare (c : Char) : Bool :=
  c.isAlpha || c.isDigit || c == '_' || c == '-'

def codePoint? (digits : List Char) : Option Char := do
  let n ← Numeral.natural? 16 digits
  if n < 0xD800 ∨ (0xE000 ≤ n ∧ n < 0x110000) then some (Char.ofNat n) else none

def escaped? : Char → Option Char
  | 'b' => some '\x08'
  | 't' => some '\t'
  | 'n' => some '\n'
  | 'f' => some '\x0c'
  | 'r' => some '\r'
  | '"' => some '"'
  | '\\' => some '\\'
  | _ => none

abbrev Read (α : Type) := Option (α × List Char)

def prepend (c : Char) (r : Read (List Char)) : Read (List Char) :=
  r.map fun (s, rest) => (c :: s, rest)

def basic : List Char → Read (List Char)
  | [] => none
  | '"' :: r => some ([], r)
  | '\\' :: 'u' :: a :: b :: c :: d :: r =>
    match codePoint? [a, b, c, d] with
    | some u => prepend u (basic r)
    | none => none
  | '\\' :: 'U' :: a :: b :: c :: d :: e :: f :: g :: h :: r =>
    match codePoint? [a, b, c, d, e, f, g, h] with
    | some u => prepend u (basic r)
    | none => none
  | '\\' :: e :: r =>
    match escaped? e with
    | some u => prepend u (basic r)
    | none => none
  | c :: r => if c ≠ '\\' ∧ isPrintable c then prepend c (basic r) else none

def literal : List Char → Read (List Char)
  | [] => none
  | c :: r =>
    if c = '\'' then some ([], r)
    else if isPrintable c then prepend c (literal r) else none

def runLength (q : Char) (cs : List Char) : Nat := (cs.takeWhile (· == q)).length

/-- The end of a multi-line string at a run of three to five quotes: the surplus quotes belong
to the string. -/
def closing (q : Char) (cs : List Char) : Read (List Char) :=
  let n := runLength q cs
  if 3 ≤ n ∧ n ≤ 5 then some (List.replicate (n - 3) q, cs.drop n) else none

/-- A multi-line basic string after its opening quotes. A backslash before a line end joins the
lines and swallows the blanks of the next ones; `joining` says that this is going on. -/
def multiBasic (joining : Bool) : List Char → Read (List Char)
  | [] => none
  | '\\' :: 'u' :: a :: b :: c :: d :: r =>
    match codePoint? [a, b, c, d] with
    | some u => prepend u (multiBasic false r)
    | none => none
  | '\\' :: 'U' :: a :: b :: c :: d :: e :: f :: g :: h :: r =>
    match codePoint? [a, b, c, d, e, f, g, h] with
    | some u => prepend u (multiBasic false r)
    | none => none
  | '\\' :: e :: r =>
    match escaped? e with
    | some u => prepend u (multiBasic false r)
    | none => if (newline? (skipBlanks (e :: r))).isSome then multiBasic true (e :: r) else none
  | '\r' :: '\n' :: r =>
    if joining then multiBasic true r else prepend '\n' (multiBasic false r)
  | '\n' :: r => if joining then multiBasic true r else prepend '\n' (multiBasic false r)
  | c :: r =>
    if c = '"' ∧ 3 ≤ runLength '"' (c :: r) then closing '"' (c :: r)
    else if joining ∧ isBlank c then multiBasic true r
    else if c ≠ '\\' ∧ isPrintable c then prepend c (multiBasic false r)
    else none

def multiLiteral : List Char → Read (List Char)
  | [] => none
  | '\r' :: '\n' :: r => prepend '\n' (multiLiteral r)
  | '\n' :: r => prepend '\n' (multiLiteral r)
  | c :: r =>
    if c = '\'' ∧ 3 ≤ runLength '\'' (c :: r) then closing '\'' (c :: r)
    else if isPrintable c then prepend c (multiLiteral r)
    else none

def dropNewline (cs : List Char) : List Char := (newline? cs).getD cs

def quoted : List Char → Read (List Char)
  | '"' :: '"' :: '"' :: r => multiBasic false (dropNewline r)
  | '\'' :: '\'' :: '\'' :: r => multiLiteral (dropNewline r)
  | '"' :: r => basic r
  | '\'' :: r => literal r
  | _ => none

def keyPart (cs : List Char) : Read String :=
  match cs with
  | '"' :: r => (basic r).map fun (s, r) => (String.ofList s, r)
  | '\'' :: r => (literal r).map fun (s, r) => (String.ofList s, r)
  | _ =>
    let word := cs.takeWhile isBare
    if word.isEmpty then none else some (String.ofList word, cs.dropWhile isBare)

end PadRemap.Toml
