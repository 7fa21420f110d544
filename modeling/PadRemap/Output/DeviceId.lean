import Std.Data.ExtTreeMap
import Std.Data.ExtTreeSet

/-! Virtual devices are named by an output group, usually one per slot, and a kind within it. -/

namespace PadRemap

structure DeviceId where
  group : UInt16
  kind : UInt16
  deriving DecidableEq, Repr, Inhabited

namespace DeviceId

def joystickKind : UInt16 := 0

def mouseKind : UInt16 := 1

def keyboardKind : UInt16 := 2

def joystick (group : UInt16) : DeviceId := ⟨group, joystickKind⟩

def mouse (group : UInt16) : DeviceId := ⟨group, mouseKind⟩

def keyboard (group : UInt16) : DeviceId := ⟨group, keyboardKind⟩

def order (a b : DeviceId) : Ordering :=
  compareLex (compareOn DeviceId.group) (compareOn DeviceId.kind) a b

instance : Std.TransCmp order :=
  inferInstanceAs (Std.TransCmp (compareLex (compareOn DeviceId.group) (compareOn DeviceId.kind)))

theorem eq_of_order {a b : DeviceId} (h : order a b = .eq) : a = b := by
  obtain ⟨ga, ka⟩ := a
  obtain ⟨gb, kb⟩ := b
  obtain ⟨hg, hk⟩ := Ordering.then_eq_eq.mp h
  rw [show ga = gb from Std.LawfulEqCmp.eq_of_compare hg,
    show ka = kb from Std.LawfulEqCmp.eq_of_compare hk]

instance : Std.LawfulEqCmp order where
  eq_of_compare := eq_of_order

instance : Ord DeviceId := ⟨order⟩

instance : Std.TransOrd DeviceId := inferInstanceAs (Std.TransCmp order)

def kindText (kind : UInt16) : String :=
  if kind = joystickKind then "joystick"
  else if kind = mouseKind then "mouse"
  else if kind = keyboardKind then "keyboard"
  else s!"device{kind.toNat}"

def text (d : DeviceId) : String := s!"{d.group.toNat}.{kindText d.kind}"

def displayName (base : String) (d : DeviceId) : String :=
  let name :=
    if d.kind = joystickKind then base
    else if d.kind = mouseKind then base ++ " - Mouse Emulation"
    else if d.kind = keyboardKind then base ++ " - Keyboard Emulation"
    else s!"{base} - {d.kind.toNat + 1}"
  if d.group = 0 then name else s!"{name} #{d.group.toNat + 1}"

end DeviceId

instance : ToString DeviceId := ⟨DeviceId.text⟩

abbrev DeviceMap (α : Type) := Std.ExtTreeMap DeviceId α DeviceId.order

/-- The distinct devices of a list in ascending order. -/
def DeviceId.ascending (ids : List DeviceId) : List DeviceId :=
  (Std.ExtTreeSet.ofList ids DeviceId.order).toList

structure Outlet where
  device : DeviceId
  code : UInt16
  deriving DecidableEq, Repr

namespace Outlet

def order (a b : Outlet) : Ordering :=
  compareLex (compareOn Outlet.device) (compareOn Outlet.code) a b

instance : Std.TransCmp order :=
  inferInstanceAs (Std.TransCmp (compareLex (compareOn Outlet.device) (compareOn Outlet.code)))

theorem eq_of_order {a b : Outlet} (h : order a b = .eq) : a = b := by
  obtain ⟨da, ca⟩ := a
  obtain ⟨db, cb⟩ := b
  obtain ⟨hd, hc⟩ := Ordering.then_eq_eq.mp h
  rw [show da = db from DeviceId.eq_of_order hd,
    show ca = cb from Std.LawfulEqCmp.eq_of_compare hc]

instance : Std.LawfulEqCmp order where
  eq_of_compare := eq_of_order

end Outlet

abbrev OutletMap (α : Type) := Std.ExtTreeMap Outlet α Outlet.order

end PadRemap
