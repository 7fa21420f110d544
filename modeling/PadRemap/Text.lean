/-! Texts cut at a separator, without blanks at their ends, and numerals with a bounded range. -/

namespace PadRemap.Text

def isBlank (c : Char) : Bool :=
  let n := c.toNat
  (9 ≤ n && n ≤ 13) || n == 0x20 || n == 0x85 || n == 0xA0 || n == 0x1680 ||
    (0x2000 ≤ n && n ≤ 0x200A) || n == 0x2028 || n == 0x2029 || n == 0x202F ||
    n == 0x205F || n == 0x3000

def strip (p : Char → Bool) (cs : List Char) : List Char :=
  ((cs.dropWhile p).reverse.dropWhile p).reverse

def trim (cs : List Char) : List Char := strip isBlank cs

/-- The fields between separators; a text without one is a single field. -/
def fields (sep : Char) : List Char → List (List Char)
  | [] => [[]]
  | c :: cs =>
    if c = sep then [] :: fields sep cs
    else match fields sep cs with
      | [] => [[c]]
      | f :: fs => (c :: f) :: fs

def cut? (sep : Char) : List Char → Option (List Char × List Char)
  | [] => none
  | c :: cs => if c = sep then some ([], cs) else (cut? sep cs).map fun (a, b) => (c :: a, b)

/-- What follows the last occurrence of a word, if it occurs. -/
def afterLast? (word : List Char) : List Char → Option (List Char)
  | [] => none
  | c :: cs =>
    match afterLast? word cs with
    | some t => some t
    | none => if word.isPrefixOf (c :: cs) then some ((c :: cs).drop word.length) else none

def occursIn (word : List Char) : List Char → Bool
  | [] => word.isEmpty
  | c :: cs => word.isPrefixOf (c :: cs) || occursIn word cs

end PadRemap.Text

namespace PadRemap.Numeral

def digit? (base : Nat) (c : Char) : Option Nat :=
  let n := c.toNat
  let v := if 48 ≤ n ∧ n ≤ 57 then some (n - 48)
    else if 97 ≤ n ∧ n ≤ 102 then some (n - 87)
    else if 65 ≤ n ∧ n ≤ 70 then some (n - 55)
    else none
  v.filter (· < base)

def value? (base : Nat) (cs : List Char) : Option Nat :=
  cs.foldlM (fun acc c => (digit? base c).map (acc * base + ·)) 0

def natural? (base : Nat) : List Char → Option Nat
  | [] => none
  | c :: cs => value? base (c :: cs)

/-- A numeral without a minus sign, below `bound`. -/
def unsigned? (base bound : Nat) (cs : List Char) : Option Nat :=
  let digits := match cs with
    | '+' :: r => r
    | _ => cs
  (natural? base digits).filter (· < bound)

def word16? (cs : List Char) : Option UInt16 := (unsigned? 10 65536 cs).map UInt16.ofNat

/-- An integer with an optional sign, from `low` to `high`. -/
def signed? (low high : Int) (cs : List Char) : Option Int :=
  let v := match cs with
    | '-' :: r => (natural? 10 r).map fun n => -(n : Int)
    | '+' :: r => (natural? 10 r).map Int.ofNat
    | _ => (natural? 10 cs).map Int.ofNat
  v.filter fun i => low ≤ i ∧ i ≤ high

def int32? (cs : List Char) : Option Int := signed? (-2147483648) 2147483647 cs

def padLeft (fill : Char) (width : Nat) (s : String) : String :=
  String.ofList (List.replicate (width - s.length) fill) ++ s

def zeroPadded (width n : Nat) : String := padLeft '0' width (toString n)

def hexPadded (width n : Nat) : String := padLeft '0' width (String.ofList (Nat.toDigits 16 n))

end PadRemap.Numeral
