import PadRemap.Toml.Lexeme

/-! Numbers of a TOML text. -/

namespace PadRemap.Toml

/-- Digits grouped by single underscores: the digits alone. -/
def grouped? (base : Nat) : List Char → Option (List Char)
  | [] => none
  | [c] => if (Numeral.digit? base c).isSome then some [c] else none
  | c :: '_' :: r =>
    if (Numeral.digit? base c).isSome then (grouped? base r).map (c :: ·) else none
  | c :: r => if (Numeral.digit? base c).isSome then (grouped? base r).map (c :: ·) else none

def decimal? (cs : List Char) : Option (List Char) :=
  match cs with
  | ['0'] => some cs
  | '0' :: _ => none
  | _ => grouped? 10 cs

def groupedValue? (base : Nat) (cs : List Char) : Option Int :=
  (grouped? base cs >>= Numeral.natural? base).map Int.ofNat

def takeSign : List Char → Bool × List Char
  | '-' :: r => (true, r)
  | '+' :: r => (false, r)
  | cs => (false, cs)

def integer? (cs : List Char) : Option Int :=
  let v := match cs with
    | '0' :: 'x' :: r => groupedValue? 16 r
    | '0' :: 'o' :: r => groupedValue? 8 r
    | '0' :: 'b' :: r => groupedValue? 2 r
    | _ =>
      let (negative, r) := takeSign cs
      (decimal? r >>= Numeral.natural? 10).map fun n => if negative then -(n : Int) else n
  v.filter fun i => -9223372036854775808 ≤ i ∧ i ≤ 9223372036854775807

/-- `digits * 10 ^ exponent` rounded to double precision. Beyond the range of doubles the exponent
does not matter any more, so it is not raised to a power. -/
def scaled (digits : Nat) (exponent : Int) : Float :=
  let magnitude : Int := (toString digits).length + exponent
  if digits = 0 ∨ magnitude < -400 then 0
  else if 400 < magnitude then 1 / 0
  else if 0 ≤ exponent then Float.ofScientific digits false exponent.toNat
  else Float.ofScientific digits true (-exponent).toNat

structure RealText where
  whole : List Char
  fraction : Option (List Char)
  exponent : Option (List Char)
  deriving DecidableEq, Repr

def RealText.of (cs : List Char) : RealText :=
  let isMark (c : Char) : Bool := c == 'e' || c == 'E'
  let mantissa := cs.takeWhile (!isMark ·)
  let exponent := match cs.dropWhile (!isMark ·) with
    | [] => none
    | _ :: r => some r
  match mantissa.dropWhile (· != '.') with
  | [] => { whole := mantissa, fraction := none, exponent }
  | _ :: r => { whole := mantissa.takeWhile (· != '.'), fraction := some r, exponent }

def RealText.value? (t : RealText) : Option Float :=
  if t.fraction.isNone && t.exponent.isNone then none
  else do
    let whole ← decimal? t.whole
    let fraction ← match t.fraction with
      | none => some []
      | some f => grouped? 10 f
    let exponent ← match t.exponent with
      | none => some 0
      | some e =>
        let (negative, r) := takeSign e
        (groupedValue? 10 r).map fun n => if negative then -n else n
    let digits ← Numeral.natural? 10 (whole ++ fraction)
    pure (scaled digits (exponent - fraction.length))

def real? (cs : List Char) : Option Float :=
  let (negative, r) := takeSign cs
  match r with
  | ['i', 'n', 'f'] => some (if negative then -(1 / 0) else 1 / 0)
  | ['n', 'a', 'n'] => some (if negative then -(0 / 0) else 0 / 0)
  | _ => do
    let v ← (RealText.of r).value?
    if negative then some (-v) else if v.isInf then none else some v

end PadRemap.Toml
