import Mathlib.Data.List.Nodup
import PadRemap.Code.Name
import PadRemap.Proofs.Text.Bytes

/-! Names of codes, as they are written and read. The names of a table are distinct words of
capital letters, digits and underscores, so the name that is written for a code is read as that
code. Of the codes that can be read, only four have no name. -/

namespace PadRemap.Code

/-- Whether numbers are distinct; those met before are the bits of `seen`. -/
def distinct (seen : Nat) : List Nat → Bool
  | [] => true
  | n :: ns => !seen.testBit n && distinct (seen ||| 1 <<< n) ns

theorem nodup_of_distinct {seen : Nat} {ns : List Nat} (h : distinct seen ns = true) :
    ns.Nodup ∧ ∀ n ∈ ns, seen.testBit n = false := by
  induction ns generalizing seen with
  | nil => exact ⟨.nil, fun n hn => absurd hn List.not_mem_nil⟩
  | cons n ns ih =>
    rw [distinct, Bool.and_eq_true, Bool.not_eq_true'] at h
    obtain ⟨hfirst, hrest⟩ := h
    obtain ⟨hnodup, hnew⟩ := ih hrest
    have hbits : ∀ m ∈ ns, seen.testBit m = false ∧ n ≠ m := by
      intro m hm
      have := hnew m hm
      rw [Nat.testBit_or, Bool.or_eq_false_iff] at this
      refine ⟨this.1, ?_⟩
      rintro rfl
      simp [Nat.testBit_shiftLeft] at this
    refine ⟨List.nodup_cons.mpr ⟨fun hn => (hbits n hn).2 rfl, hnodup⟩, ?_⟩
    rw [List.forall_mem_cons]
    exact ⟨hfirst, fun m hm => (hbits m hm).1⟩

/-- A small number for a name. The divisor is the least one that tells the names of all keys
apart. -/
def digest (name : String) : Nat :=
  (Text.bytes name).foldl (fun n b => (n * 256 + b.toNat) % 18550) 0

def IsNameByte (n : Nat) : Prop := 48 ≤ n ∧ n ≤ 57 ∨ 65 ≤ n ∧ n ≤ 90 ∨ n = 95

instance (n : Nat) : Decidable (IsNameByte n) := inferInstanceAs (Decidable (_ ∨ _))

/-- A word of capital letters, digits and underscores that begins with a class. -/
structure IsName (w name : String) : Prop where
  letters : ∀ c ∈ name.toList, IsNameByte c.toNat
  starts : w.toList <+: name.toList

structure Orderly (classes : List String) (table : List (String × UInt16)) : Prop where
  nodup : (table.map Prod.fst).Nodup
  isName : ∀ p ∈ table, ∃ w ∈ classes, IsName w p.1

theorem isName_of_bytes {w name : String} (hname : ∀ b ∈ Text.bytes name, IsNameByte b.toNat)
    (hclass : Text.bytes w <+: Text.bytes name) : IsName w name := by
  have hascii : ∀ b ∈ Text.bytes name, b < 128 := by
    intro b hb
    have := hname b hb
    rw [UInt8.lt_iff_toNat_lt]
    change _ < 128
    unfold IsNameByte at this
    omega
  constructor
  · intro c hc
    rw [Text.toList_of_ascii hascii] at hc
    obtain ⟨b, hb, rfl⟩ := List.mem_map.mp hc
    have hvalid : b.toNat.isValidChar := .inl (Nat.lt_trans b.toNat_lt (by decide))
    rw [Char.ofNat, dif_pos hvalid]
    exact hname b hb
  · rw [Text.toList_of_ascii hascii, Text.toList_of_ascii fun b hb => hascii b (hclass.subset hb)]
    exact hclass.map _

/-- What makes a table orderly, checked on the bytes of its names. -/
def isOrderly (classes : List String) (table : List (String × UInt16)) : Bool :=
  distinct 0 (table.map fun p => digest p.1) && table.all fun p =>
    (Text.bytes p.1).all (fun b => decide (IsNameByte b.toNat)) &&
      classes.any fun w => (Text.bytes w).isPrefixOf (Text.bytes p.1)

theorem orderly_of_check {classes : List String} {table : List (String × UInt16)}
    (h : isOrderly classes table = true) : Orderly classes table := by
  obtain ⟨hdistinct, hnames⟩ := (Bool.and_eq_true_iff).mp h
  constructor
  · have hdigests : ((table.map Prod.fst).map digest).Nodup := by
      rw [List.map_map]
      exact (nodup_of_distinct hdistinct).1
    exact hdigests.of_map _
  · intro p hp
    obtain ⟨hbytes, hclass⟩ := (Bool.and_eq_true_iff).mp (List.all_eq_true.mp hnames p hp)
    obtain ⟨w, hw, hstart⟩ := List.any_eq_true.mp hclass
    have hletters : ∀ b ∈ Text.bytes p.1, IsNameByte b.toNat := fun b hb =>
      of_decide_eq_true (List.all_eq_true.mp hbytes b hb)
    exact ⟨w, hw, isName_of_bytes hletters (List.isPrefixOf_iff_prefix.mp hstart)⟩

theorem orderly_tables : Orderly ["KEY_", "BTN_"] (aliases ++ keys) ∧
    Orderly ["REL_"] relativeAxes ∧ Orderly ["ABS_"] absoluteAxes := by
  have h : isOrderly ["KEY_", "BTN_"] (aliases ++ keys) ∧ isOrderly ["REL_"] relativeAxes ∧
      isOrderly ["ABS_"] absoluteAxes := by
    decide +kernel
  exact ⟨orderly_of_check h.1, orderly_of_check h.2.1, orderly_of_check h.2.2⟩

theorem orderly_keys : Orderly ["KEY_", "BTN_"] (aliases ++ keys) := orderly_tables.1

theorem orderly_relativeAxes : Orderly ["REL_"] relativeAxes := orderly_tables.2.1

theorem orderly_absoluteAxes : Orderly ["ABS_"] absoluteAxes := orderly_tables.2.2

theorem toUpper_eq_self {c : Char} (h : IsNameByte c.toNat) : c.toUpper = c := by
  refine dif_neg fun hsmall => ?_
  have hlow : 97 ≤ c.toNat := hsmall.1
  unfold IsNameByte at h
  omega

theorem IsName.map_toUpper {w name : String} (h : IsName w name) :
    name.toList.map Char.toUpper = name.toList :=
  (List.map_congr_left fun c hc => toUpper_eq_self (h.letters c hc)).trans (List.map_id _)

theorem IsName.upper_eq {w name : String} (h : IsName w name) : name.map Char.toUpper = name := by
  rw [← String.toList_inj, String.toList_map, h.map_toUpper]

theorem mem_of_find? {table : List (String × UInt16)} {name : String} {c : UInt16}
    (h : find? table name = some c) : (name, c) ∈ table := by
  obtain ⟨⟨name', c'⟩, hp, rfl⟩ := Option.map_eq_some_iff.mp h
  have hname : name' = name := by simpa using List.find?_some hp
  exact hname ▸ List.mem_of_find?_eq_some hp

theorem nameIn_mem {table : List (String × UInt16)} {c : UInt16} (h : c ∈ table.map Prod.snd) :
    (nameIn table c, c) ∈ table := by
  obtain ⟨p, hp, rfl⟩ := List.mem_map.mp h
  unfold nameIn
  cases hfind : table.find? fun q => q.2 == p.2 with
  | none => exact absurd (beq_self_eq_true p.2) (List.find?_eq_none.mp hfind p hp)
  | some q =>
    have hcode : q.2 = p.2 := by simpa using List.find?_some hfind
    exact hcode ▸ List.mem_of_find?_eq_some hfind

theorem find?_append (table more : List (String × UInt16)) (name : String) :
    find? (table ++ more) name = (find? table name).or (find? more name) := by
  rw [find?, List.find?_append, Option.map_or]
  rfl

theorem Orderly.find?_eq {classes : List String} {table : List (String × UInt16)}
    (h : Orderly classes table) {name : String} {c : UInt16} (hmem : (name, c) ∈ table) :
    find? table name = some c := by
  unfold find?
  cases hfind : table.find? fun q => q.1 == name with
  | none => exact absurd (beq_self_eq_true name) (List.find?_eq_none.mp hfind _ hmem)
  | some q =>
    have hname : q.1 = name := by simpa using List.find?_some hfind
    have hq := List.mem_of_find?_eq_some hfind
    have hsame : q = (name, c) := List.inj_on_of_nodup_map h.nodup hq hmem hname
    rw [hsame]
    rfl

theorem isName_relativeName {c : UInt16} (h : c ∈ relativeAxes.map Prod.snd) :
    IsName "REL_" (relativeName c) := by
  obtain ⟨w, hw, hname⟩ := orderly_relativeAxes.isName _ (nameIn_mem h)
  exact List.mem_singleton.mp hw ▸ hname

theorem isName_absoluteName {c : UInt16} (h : c ∈ absoluteAxes.map Prod.snd) :
    IsName "ABS_" (absoluteName c) := by
  obtain ⟨w, hw, hname⟩ := orderly_absoluteAxes.isName _ (nameIn_mem h)
  exact List.mem_singleton.mp hw ▸ hname

theorem isName_keyName {c : UInt16} (h : c ∈ keys.map Prod.snd) :
    ∃ w ∈ ["KEY_", "BTN_"], IsName w (keyName c) :=
  orderly_keys.isName _ (List.mem_append_right _ (nameIn_mem h))

theorem relative?_relativeName {c : UInt16} (h : c ∈ relativeAxes.map Prod.snd) :
    relative? (relativeName c) = some c := by
  rw [relative?, (isName_relativeName h).upper_eq]
  exact orderly_relativeAxes.find?_eq (nameIn_mem h)

theorem absolute?_absoluteName {c : UInt16} (h : c ∈ absoluteAxes.map Prod.snd) :
    absolute? (absoluteName c) = some c := by
  rw [absolute?, (isName_absoluteName h).upper_eq]
  exact orderly_absoluteAxes.find?_eq (nameIn_mem h)

/-- A name of a key stands for it wherever it is looked up: among the aliases, the numbers or the
keys. -/
theorem key?_keyName {c : UInt16} (h : c ∈ keys.map Prod.snd) : key? (keyName c) = some c := by
  have hfind : find? (aliases ++ keys) (keyName c) = some c :=
    orderly_keys.find?_eq (List.mem_append_right _ (nameIn_mem h))
  obtain ⟨w, hw, hname⟩ := isName_keyName h
  rw [find?_append] at hfind
  rw [key?, hname.upper_eq]
  split
  · next c' halias =>
    rw [halias, Option.some_or] at hfind
    exact hfind
  · next halias =>
    rw [halias, Option.none_or] at hfind
    split
    · next hnumber =>
      have hstart := hname.starts
      rw [hnumber] at hstart
      rcases List.mem_pair.mp hw with rfl | rfl <;> simp at hstart
    · exact hfind

def unnamed : List UInt16 := [300, 301, 302, 319]

/-- What can be read as a key has a name, with these exceptions. -/
theorem named_of_key? {name : String} {c : UInt16} (h : key? name = some c) :
    c ∈ keys.map Prod.snd ∨ c ∈ unnamed := by
  have hbuttons : ∀ c ∈ buttons.map Prod.snd, c ∈ keys.map Prod.snd := by
    intro c hc
    rw [keys, List.map_append, List.map_append, List.map_append]
    exact List.mem_append_left _ (List.mem_append_left _ (List.mem_append_right _ hc))
  obtain ⟨haliases, hnumbers⟩ : (∀ p ∈ aliases, p.2 ∈ buttons.map Prod.snd) ∧
      ∀ n < 32, joystick + UInt16.ofNat n ∈ buttons.map Prod.snd ∨
        joystick + UInt16.ofNat n ∈ unnamed := by
    decide +kernel
  unfold key? at h
  simp only at h
  split at h
  · next c' halias =>
    cases h
    exact .inl (hbuttons _ (haliases _ (mem_of_find? halias)))
  · split at h
    · obtain ⟨n, hn, rfl⟩ := Option.map_eq_some_iff.mp h
      obtain ⟨-, hn⟩ := Option.filter_eq_some_iff.mp hn
      exact (hnumbers n (of_decide_eq_true hn)).imp_left (hbuttons _)
    · exact .inl (List.mem_map_of_mem (mem_of_find? h))

end PadRemap.Code
