import PadRemap.Discovery.Opener

/-! What a rehearsal finds by a path: the files of a working directory that holds nothing else, and
pads that are made up. -/

namespace PadRemap.Rehearsal

abbrev Place := List String

def Place.isDirectory (files : List Place) (place : Place) : Bool :=
  place.isEmpty || files.any fun f => place.isPrefixOf f && place.length < f.length

/-- One step of a path. Only a directory can be stayed in or left, and never the topmost one. -/
def step (files : List Place) (place : Place) (part : String) : Option Place :=
  match part with
  | "" | "." => if place.isDirectory files then some place else none
  | ".." =>
    if place.isDirectory files && !place.isEmpty then some place.dropLast else none
  | _ => some (place ++ [part])

def place? (files : List Place) (path : String) : Option Place :=
  if path.isEmpty || path.startsWith "/" then none
  else (path.splitOn "/").foldlM (step files) []

def directory (files : List (String × List UInt8)) : Discovery.FileReader :=
  let placed := files.map fun (path, bytes) => (path.splitOn "/", bytes)
  fun path => place? (placed.map Prod.fst) path >>= fun p => placed.lookup p

def identity (path : String) (vendor product : UInt16) : Identity where
  transport := .mock
  bus := 0
  address := 0
  vendor := vendor
  product := product
  path := path
  name := s!"Mock Pad {path}"

def missing (path : String) : SourceError := .cannotOpen path .rehearsed

end PadRemap.Rehearsal
