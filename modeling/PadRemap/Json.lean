import PadRemap.Text

/-! Values written as JSON, on one line without blanks or over several lines. -/

namespace PadRemap

inductive Json where
  | null
  | flag (value : Bool)
  | number (value : Int)
  | text (value : String)
  | list (items : List Json)
  | table (fields : List (String × Json))
  deriving Inhabited

namespace Json

/-- A character as it stands in a quoted text: quotes, backslashes and control characters are
escaped, everything else stands for itself. -/
def escape (c : Char) : List Char :=
  match c with
  | '"' => ['\\', '"']
  | '\\' => ['\\', '\\']
  | '\n' => ['\\', 'n']
  | '\r' => ['\\', 'r']
  | '\t' => ['\\', 't']
  | '\x08' => ['\\', 'b']
  | '\x0c' => ['\\', 'f']
  | _ => if c.toNat < 0x20 then '\\' :: 'u' :: (Numeral.hexPadded 4 c.toNat).toList else [c]

def quoted (s : String) : String := "\"" ++ String.ofList (s.toList.flatMap escape) ++ "\""

def indent (level : Nat) : String := String.ofList (List.replicate (2 * level) ' ')

/-- Items between brackets, one a line; `level` is that of the brackets. -/
def block (level : Nat) (opening closing : String) (items : List String) : String :=
  if items.isEmpty then opening ++ closing
  else
    let line := "\n" ++ indent (level + 1)
    opening ++ line ++ ("," ++ line).intercalate items ++ "\n" ++ indent level ++ closing

mutual

def pretty (level : Nat) : Json → String
  | null => "null"
  | flag true => "true"
  | flag false => "false"
  | number i => toString i
  | text s => quoted s
  | list items => block level "[" "]" (prettyItems (level + 1) items)
  | table fields => block level "\x7b" "\x7d" (prettyFields (level + 1) fields)

def prettyItems (level : Nat) : List Json → List String
  | [] => []
  | v :: vs => pretty level v :: prettyItems level vs

def prettyFields (level : Nat) : List (String × Json) → List String
  | [] => []
  | (name, v) :: fs => (quoted name ++ ": " ++ pretty level v) :: prettyFields level fs

end

mutual

def compact : Json → String
  | null => "null"
  | flag true => "true"
  | flag false => "false"
  | number i => toString i
  | text s => quoted s
  | list items => "[" ++ ",".intercalate (compactItems items) ++ "]"
  | table fields => "\x7b" ++ ",".intercalate (compactFields fields) ++ "\x7d"

def compactItems : List Json → List String
  | [] => []
  | v :: vs => compact v :: compactItems vs

def compactFields : List (String × Json) → List String
  | [] => []
  | (name, v) :: fs => (quoted name ++ ":" ++ compact v) :: compactFields fs

end

end Json

end PadRemap
