import PadRemap.Toml.Lexeme

/-! Dates and times of a TOML text, written back in one normal form. -/

namespace PadRemap.Toml

structure Date where
  year : Nat
  month : Nat
  day : Nat
  deriving DecidableEq, Repr

namespace Date

def isLeap (year : Nat) : Bool := year % 4 == 0 && (year % 100 != 0 || year % 400 == 0)

def monthLength (year : Nat) : Nat → Nat
  | 2 => if isLeap year then 29 else 28
  | 4 | 6 | 9 | 11 => 30
  | _ => 31

def Valid (d : Date) : Prop :=
  1 ≤ d.month ∧ d.month ≤ 12 ∧ 1 ≤ d.day ∧ d.day ≤ monthLength d.year d.month

instance (d : Date) : Decidable d.Valid := inferInstanceAs (Decidable (_ ∧ _))

def text (d : Date) : String :=
  s!"{Numeral.zeroPadded 4 d.year}-{Numeral.zeroPadded 2 d.month}-{Numeral.zeroPadded 2 d.day}"

end Date

structure Time where
  hour : Nat
  minute : Nat
  second : Nat
  nanosecond : Nat
  deriving DecidableEq, Repr

namespace Time

/-- A time of day; a minute may end with a leap second. -/
def Valid (t : Time) : Prop := t.hour ≤ 23 ∧ t.minute ≤ 59 ∧ t.second ≤ 60

instance (t : Time) : Decidable t.Valid := inferInstanceAs (Decidable (_ ∧ _))

def fractionText (t : Time) : String :=
  if t.nanosecond = 0 then ""
  else
    let digits := (Numeral.zeroPadded 9 t.nanosecond).toList
    "." ++ String.ofList (digits.reverse.dropWhile (· == '0')).reverse

def text (t : Time) : String :=
  let two := Numeral.zeroPadded 2
  s!"{two t.hour}:{two t.minute}:{two t.second}{t.fractionText}"

end Time

inductive Offset where
  | zulu
  | minutes (m : Int)
  deriving DecidableEq, Repr

def Offset.text : Offset → String
  | zulu => "Z"
  | minutes m =>
    let two := Numeral.zeroPadded 2
    let sign := if m < 0 then "-" else "+"
    s!"{sign}{two (m.natAbs / 60)}:{two (m.natAbs % 60)}"

inductive Moment where
  | date (date : Date)
  | time (time : Time)
  | both (date : Date) (time : Time) (offset : Option Offset)
  deriving DecidableEq, Repr

def Moment.text : Moment → String
  | date d => d.text
  | time t => t.text
  | both d t none => s!"{d.text}T{t.text}"
  | both d t (some offset) => s!"{d.text}T{t.text}{offset.text}"

def digits (count : Nat) (cs : List Char) : Option (Nat × List Char) :=
  if count ≤ cs.length then (Numeral.natural? 10 (cs.take count)).map fun n => (n, cs.drop count)
  else none

def expect (c : Char) : List Char → Option (List Char)
  | d :: r => if d = c then some r else none
  | [] => none

def readDate (cs : List Char) : Option (Date × List Char) := do
  let (year, cs) ← digits 4 cs
  let (month, cs) ← expect '-' cs >>= digits 2
  let (day, cs) ← expect '-' cs >>= digits 2
  let d : Date := { year, month, day }
  if d.Valid then some (d, cs) else none

def readFraction : List Char → Read Nat
  | '.' :: cs =>
    let run := cs.takeWhile Char.isDigit
    if run.isEmpty then none
    else
      let kept := run.take 9
      (Numeral.natural? 10 kept).map fun n =>
        (n * Nat.pow 10 (9 - kept.length), cs.dropWhile Char.isDigit)
  | cs => some (0, cs)

def readTime (cs : List Char) : Option (Time × List Char) := do
  let (hour, cs) ← digits 2 cs
  let (minute, cs) ← expect ':' cs >>= digits 2
  let (second, cs) ← expect ':' cs >>= digits 2
  let (nanosecond, cs) ← readFraction cs
  let t : Time := { hour, minute, second, nanosecond }
  if t.Valid then some (t, cs) else none

def readOffsetMinutes (cs : List Char) : Option (Nat × List Char) := do
  let (hour, cs) ← digits 2 cs
  let (minute, cs) ← expect ':' cs >>= digits 2
  if hour ≤ 23 ∧ minute ≤ 59 then some (hour * 60 + minute, cs) else none

def offset? : List Char → Option (Option Offset)
  | [] => some none
  | ['Z'] | ['z'] => some (some .zulu)
  | '+' :: cs => match readOffsetMinutes cs with
    | some (m, []) => some (some (.minutes m))
    | _ => none
  | '-' :: cs => match readOffsetMinutes cs with
    | some (m, []) => some (some (.minutes (-m)))
    | _ => none
  | _ => none

def isTimeMark (c : Char) : Bool := c == 'T' || c == 't' || c == ' '

def moment? (cs : List Char) : Option Moment :=
  match readDate cs with
  | some (d, []) => some (.date d)
  | some (d, c :: cs) =>
    if isTimeMark c then do
      let (t, cs) ← readTime cs
      let o ← offset? cs
      pure (.both d t o)
    else none
  | none => match readTime cs with
    | some (t, []) => some (.time t)
    | _ => none

end PadRemap.Toml
