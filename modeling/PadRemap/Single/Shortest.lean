import PadRemap.Single.Parts

/-! The decimal text of a single-precision number: the fewest digits that read back as the same
number. -/

namespace PadRemap.Single

/-- Decimals that round to one number: a fraction between two bounds over a common
denominator, the bounds included when the mantissa is even. -/
structure Neighbourhood where
  low : Nat
  value : Nat
  high : Nat
  den : Nat
  closed : Bool

/-- The neighbourhood of `mantissa * 2 ^ exponent`: it reaches half way to the next number on
each side, and the gap below a power of two is half as wide. -/
def Neighbourhood.around (mantissa : Nat) (exponent : Int) : Neighbourhood :=
  let narrow := mantissa = 8388608 ∧ -149 < exponent
  let scale := exponent - 2
  let up := Nat.pow 2 scale.toNat
  { low := (4 * mantissa - if narrow then 1 else 2) * up
    value := 4 * mantissa * up
    high := (4 * mantissa + 2) * up
    den := Nat.pow 2 (-scale).toNat
    closed := mantissa % 2 = 0 }

namespace Neighbourhood

def holds (n : Neighbourhood) (digits : Nat) (place : Int) : Bool :=
  let d := digits * Nat.pow 10 place.toNat * n.den
  let unit := Nat.pow 10 (-place).toNat
  let low := n.low * unit
  let high := n.high * unit
  if n.closed then low ≤ d && d ≤ high else low < d && d < high

/-- The multiple of `10 ^ place` in the neighbourhood that is nearest to the value, the upper
one of two that are equally near; only the two multiples around the value are tried. -/
def onGrid? (n : Neighbourhood) (place : Int) : Option Nat :=
  let num := n.value * Nat.pow 10 (-place).toNat
  let den := n.den * Nat.pow 10 place.toNat
  let below := num / den
  let above := below + 1
  match n.holds below place && below != 0, n.holds above place with
  | true, true => some (if 2 * (num % den) < den then below else above)
  | true, false => some below
  | false, true => some above
  | false, false => none

def magnitude (n : Neighbourhood) : Int :=
  let whole := n.value / n.den
  if 0 < whole then (toString whole).length
  else
    let scaled := n.value * Nat.pow 10 60 / n.den
    ((toString scaled).length : Int) - 60

end Neighbourhood

def shortestFrom (n : Neighbourhood) (places : List Int) : Nat × Int :=
  match places with
  | [] => (0, 0)
  | p :: ps =>
    match n.onGrid? p with
    | some d => (d, p)
    | none => shortestFrom n ps

def shortest (mantissa : Nat) (exponent : Int) : Nat × Int :=
  let n := Neighbourhood.around mantissa exponent
  let top := n.magnitude
  shortestFrom n ((List.range 17).map fun (i : Nat) => top - 1 - (i : Int))

def positional (digits : Nat) (place : Int) : String :=
  if 0 ≤ place then toString (digits * Nat.pow 10 place.toNat)
  else
    let k := (-place).toNat
    let whole := digits / Nat.pow 10 k
    let rest := toString (digits % Nat.pow 10 k)
    let padded := List.replicate (k - rest.length) '0' ++ rest.toList
    let kept := (padded.reverse.dropWhile (· == '0')).reverse
    if kept.isEmpty then toString whole else toString whole ++ "." ++ String.ofList kept

def text (x : Float32) : String :=
  match parts x with
  | .nan => "NaN"
  | .infinite negative => if negative then "-inf" else "inf"
  | .finite negative m e =>
    let body := if m = 0 then "0" else
      let (d, p) := shortest m e
      positional d p
    if negative then "-" ++ body else body

end PadRemap.Single
