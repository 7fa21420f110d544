import PadRemap.Document.Value

/-! The tables of a TOML text while they are put together. What may still be added to a table
depends on whether a header, a deeper header or a dotted key made it. -/

namespace PadRemap.Toml

/-- A key with the dotted path in front of its last part. -/
structure Key where
  path : List String
  name : String
  deriving DecidableEq, Repr

inductive Node where
  | leaf (value : Document)
  | branch (implicit dotted : Bool) (items : List (String × Node))
  | rows (last : List (String × Node)) (earlier : List (List (String × Node)))
  deriving Inhabited

abbrev Items := List (String × Node)

namespace Items

def find? (items : Items) (key : String) : Option Node :=
  (List.find? (fun i => i.1 == key) items).map Prod.snd

def put (items : Items) (key : String) (node : Node) : Items :=
  if (items.find? key).isSome then items.map fun (k, n) => if k == key then (k, node) else (k, n)
  else items ++ [(key, node)]

/-- Changes the table at the end of a path; `change` is told whether a dotted key made that
table. Missing tables on the way are made. Of an array of tables the last one counts. A dotted
key does not enter a table that has a header. -/
def edit (byKey : Bool) (change : Bool → Items → Option Items) :
    List String → Bool → Items → Option Items
  | [], dotted, items => change dotted items
  | key :: path, _, items =>
    match items.find? key with
    | none => do
      let inner ← edit byKey change path byKey []
      pure (items.put key (.branch true byKey inner))
    | some (.leaf _) => none
    | some (.branch implicit dotted inner) =>
      if byKey && !implicit then none
      else do
        let inner ← edit byKey change path dotted inner
        pure (items.put key (.branch implicit dotted inner))
    | some (.rows last earlier) => do
      let last ← edit byKey change path false last
      pure (items.put key (.rows last earlier))

/-- Adds an entry. The table it goes into was made by a dotted key exactly if the entry's own key
is dotted. -/
def insert (items : Items) (key : Key) (value : Document) : Option Items :=
  edit true
    (fun dotted table =>
      if dotted = key.path.isEmpty ∨ (table.find? key.name).isSome then none
      else some (table.put key.name (.leaf value)))
    key.path false items

def insertAll (items : Items) (entries : List (Key × Document)) : Option Items :=
  entries.foldlM (fun items (key, value) => items.insert key value) items

/-- Adds the entries below a table header. The table may exist only if it was made on the way to
a deeper header. -/
def insertTable (items : Items) (key : Key) (entries : List (Key × Document)) : Option Items :=
  edit false
    (fun _ parent => match parent.find? key.name with
      | none => (insertAll [] entries).map fun t => parent.put key.name (.branch false false t)
      | some (.branch true false inner) =>
        (insertAll inner entries).map fun t => parent.put key.name (.branch false false t)
      | some _ => none)
    key.path false items

def insertRow (items : Items) (key : Key) (entries : List (Key × Document)) : Option Items :=
  edit false
    (fun _ parent => match parent.find? key.name with
      | none => (insertAll [] entries).map fun t => parent.put key.name (.rows t [])
      | some (.rows last earlier) =>
        (insertAll [] entries).map fun t => parent.put key.name (.rows t (last :: earlier))
      | some _ => none)
    key.path false items

end Items

mutual

def Node.document : Node → Document
  | .leaf value => value
  | .branch _ _ items => .table (documents items)
  | .rows last earlier => .list (rowDocuments earlier [.table (documents last)])

def documents : List (String × Node) → List (String × Document)
  | [] => []
  | (key, node) :: rest => (key, node.document) :: documents rest

def rowDocuments : List (List (String × Node)) → List Document → List Document
  | [], later => later
  | row :: earlier, later => rowDocuments earlier (.table (documents row) :: later)

end

end PadRemap.Toml
