/-! Structured values of a configuration text, and readers that refuse a value of the wrong
type. -/

namespace PadRemap

inductive Document where
  | null
  | flag (value : Bool)
  | integer (value : Int)
  | real (value : Float)
  | text (value : String)
  | moment (value : String)
  | list (items : List Document)
  | table (fields : List (String × Document))
  deriving Inhabited

/-- What becomes of the items past the last field when a record is written as a list. -/
inductive Surplus where
  | ignored
  | refused
  deriving DecidableEq, Repr

/-- The fields of a record: by name, or by position when the record is written as a list. -/
inductive Fields where
  | named (fields : List (String × Document))
  | placed (items : List Document)

namespace Fields

def find? : Fields → Nat → String → Option Document
  | named fs, _, name => (fs.find? fun f => f.1 == name).map Prod.snd
  | placed xs, i, _ => xs[i]?

def atMost : Fields → Nat → Bool
  | named _, _ => true
  | placed xs, n => xs.length ≤ n

def required {α : Type} (fs : Fields) (i : Nat) (name : String) (read : Document → Option α) :
    Option α :=
  fs.find? i name >>= read

def optional {α : Type} (fs : Fields) (i : Nat) (name : String) (default : α)
    (read : Document → Option α) : Option α :=
  match fs.find? i name with
  | none => some default
  | some d => read d

end Fields

namespace Document

/-- The name under which a moment is seen where a table is expected. -/
def momentKey : String := "$__toml_private_datetime"

def entries? : Document → Option (List (String × Document))
  | table fs => some fs
  | moment t => some [(momentKey, text t)]
  | _ => none

def fields? : Document → Option Fields
  | list xs => some (.placed xs)
  | d => d.entries?.map .named

def record? (surplus : Surplus) (size : Nat) (d : Document) : Option Fields :=
  d.fields?.filter fun fs => surplus == .ignored || fs.atMost size

def text? : Document → Option String
  | text s => some s
  | _ => none

def flag? : Document → Option Bool
  | flag b => some b
  | _ => none

def list? : Document → Option (List Document)
  | list xs => some xs
  | _ => none

def integer? (low high : Int) : Document → Option Int
  | integer i => if low ≤ i ∧ i ≤ high then some i else none
  | _ => none

def int32? (d : Document) : Option Int := d.integer? (-2147483648) 2147483647

def natural? (bits : Nat) (d : Document) : Option Nat :=
  (d.integer? 0 (Nat.pow 2 bits - 1 : Nat)).map Int.toNat

def word16? (d : Document) : Option UInt16 := (d.natural? 16).map UInt16.ofNat

def byte? (d : Document) : Option UInt8 := (d.natural? 8).map UInt8.ofNat

/-- A number in single precision: an integer is rounded once, a real by way of double
precision. -/
def single? : Document → Option Float32
  | integer i => some (Float32.ofInt i)
  | real x => some x.toFloat32
  | _ => none

def nullable {α : Type} (read : Document → Option α) : Document → Option (Option α)
  | null => some none
  | d => (read d).map some

def listOf {α : Type} (read : Document → Option α) (d : Document) : Option (List α) :=
  d.list? >>= fun xs => xs.mapM read

def textTable? (d : Document) : Option (List (String × String)) := do
  let fs ← d.entries?
  let ts ← fs.mapM fun (k, v) => v.text?.map fun t => (k, t)
  pure (ts.mergeSort fun a b => decide (a.1 ≤ b.1))

/-- A value tagged with its variant: a table with a field `type`, or a list that begins with the
tag. -/
def tagged? : Document → Option (String × Fields)
  | list (text tag :: rest) => some (tag, .placed rest)
  | list _ => none
  | d => do
    let fs ← d.entries?
    let (_, tag) ← fs.find? fun f => f.1 == "type"
    let tag ← tag.text?
    pure (tag, .named fs)

end Document

end PadRemap
