import PadRemap.Json
import PadRemap.Manager.Manager

/-! The inventory lists every known device once: those bound in slot order, then the others. -/

namespace PadRemap

/-- One device of the inventory, with the slot it is bound to and that slot's state. -/
structure InventoryEntry where
  binding : Option (Nat × SlotState)
  device : Identity
  deriving DecidableEq, Repr

namespace InventoryEntry

def isBound (e : InventoryEntry) : Bool := e.binding.isSome

def json (e : InventoryEntry) : Json :=
  let (slot, state) := match e.binding with
    | some (slot, state) => (Json.number slot, Json.text state.text)
    | none => (Json.null, Json.null)
  .table ([("slot", slot), ("state", state), ("bound", .flag e.isBound)] ++ e.device.fields)

end InventoryEntry

namespace Manager

def boundEntries (m : Manager) : List InventoryEntry :=
  m.slots.filterMap fun s => s.identity.map fun d => ⟨some (s.id, s.state), d⟩

def listed (entries : List InventoryEntry) (d : Identity) : List InventoryEntry :=
  if entries.any fun e => e.device.SameDevice d then entries else entries ++ [⟨none, d⟩]

def inventory (m : Manager) : List InventoryEntry := m.discovered.foldl listed m.boundEntries

end Manager

end PadRemap
