/-! Single-precision numbers taken apart, so that rounding is computed in exact arithmetic. -/

namespace PadRemap.Single

/-- A single-precision number: a finite one is `mantissa * 2 ^ exponent` up to its sign. -/
inductive Parts where
  | nan
  | infinite (negative : Bool)
  | finite (negative : Bool) (mantissa : Nat) (exponent : Int)
  deriving DecidableEq, Repr

def Parts.ofBits (w : UInt32) : Parts :=
  let n := w.toNat
  let negative := n / 2147483648 == 1
  let biased := n / 8388608 % 256
  let fraction := n % 8388608
  if biased = 255 then (if fraction = 0 then .infinite negative else .nan)
  else if biased = 0 then .finite negative fraction (-149)
  else .finite negative (8388608 + fraction) (biased - 150)

def parts (x : Float32) : Parts := Parts.ofBits x.toBits

def roundQuotient (num den : Nat) : Nat := (2 * num + den) / (2 * den)

/-- The nearest integer, halves away from zero, as a magnitude. -/
def nearestMagnitude (mantissa : Nat) (exponent : Int) : Nat :=
  if 0 ≤ exponent then mantissa * Nat.pow 2 exponent.toNat
  else roundQuotient mantissa (Nat.pow 2 (-exponent).toNat)

def leastInt : Int := -2147483648

def greatestInt : Int := 2147483647

def clamp (low high v : Int) : Int := if v < low then low else if high < v then high else v

theorem low_le_clamp {low high : Int} (h : low ≤ high) (v : Int) : low ≤ clamp low high v := by
  unfold clamp; split
  · omega
  · split <;> omega

theorem clamp_le_high {low high : Int} (h : low ≤ high) (v : Int) : clamp low high v ≤ high := by
  unfold clamp; split
  · omega
  · split <;> omega

theorem clamp_of_mem {low high v : Int} (h₁ : low ≤ v) (h₂ : v ≤ high) :
    clamp low high v = v := by
  unfold clamp; split
  · omega
  · split <;> omega

/-- The nearest integer, halves away from zero; too large values saturate at 32 bits and the
number that is not one counts as zero. -/
def nearestInt (x : Float32) : Int :=
  match parts x with
  | .nan => 0
  | .infinite true => leastInt
  | .infinite false => greatestInt
  | .finite negative m e =>
    let n : Int := nearestMagnitude m e
    clamp leastInt greatestInt (if negative then -n else n)

end PadRemap.Single
