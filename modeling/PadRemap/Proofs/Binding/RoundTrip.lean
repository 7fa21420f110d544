import PadRemap.Binding.Event
import PadRemap.Proofs.Code.Names
import PadRemap.Proofs.Filter.Building
import PadRemap.Proofs.Text.Numerals
import PadRemap.Proofs.Text.Splitting

/-! Events as they are written are read back as the same events, whatever texts they came from, but
for keys without a name: what is written for those is no event text. -/

namespace PadRemap

structure IsField (cs : List Char) : Prop where
  ne_nil : cs ≠ []
  no_colon : ':' ∉ cs
  no_blank : ∀ c ∈ cs, Text.isBlank c = false

theorem isBlank_eq_false {c : Char} (h : 33 ≤ c.toNat ∧ c.toNat ≤ 126) :
    Text.isBlank c = false := by
  simp only [Text.isBlank, Bool.or_eq_false_iff, Bool.and_eq_false_iff, decide_eq_false_iff_not,
    beq_eq_false_iff_ne]
  omega

theorem isField_of_visible {cs : List Char} (hne : cs ≠ [])
    (h : ∀ c ∈ cs, 33 ≤ c.toNat ∧ c.toNat ≤ 126 ∧ c.toNat ≠ 58) : IsField cs where
  ne_nil := hne
  no_colon hcolon := (h ':' hcolon).2.2 rfl
  no_blank c hc := isBlank_eq_false ⟨(h c hc).1, (h c hc).2.1⟩

theorem isField_toDigits (n : Nat) : IsField (Nat.toDigits 10 n) :=
  isField_of_visible Nat.toDigits_ne_nil fun c hc => by
    have := Numeral.toNat_of_mem_toDigits hc
    omega

theorem isField_toString (i : Int) : IsField (toString i).toList := by
  cases i with
  | ofNat n =>
    rw [Int.ofNat_eq_natCast, Numeral.toList_toString_natCast]
    exact isField_toDigits n
  | negSucc n =>
    rw [Numeral.toList_toString_negSucc]
    have hdigits := isField_toDigits (n + 1)
    exact ⟨by simp, by simp [hdigits.no_colon], by simpa using ⟨by decide, hdigits.no_blank⟩⟩

namespace EventText

theorem tokens_of_fields {text : String} {ts : List (List Char)} (hne : ts ≠ [])
    (hts : ∀ t ∈ ts, IsField t) (h : text.toList = [':'].intercalate ts) : tokens text = ts := by
  have hblank : ∀ c ∈ text.toList, Text.isBlank c = false := by
    intro c hc
    rcases Text.mem_intercalate (h ▸ hc) with rfl | ⟨t, ht, hc⟩
    · rfl
    · exact (hts t ht).no_blank c hc
  have hfields : Text.fields ':' text.toList = ts := by
    rw [h]
    exact Text.fields_intercalate hne fun t ht => (hts t ht).no_colon
  rw [tokens, Text.trim_eq_self hblank, hfields]
  exact (List.map_congr_left fun t ht => Text.trim_eq_self (hts t ht).no_blank).trans
    (List.map_id _)

theorem isField_deviceText (d : UInt16) : IsField (deviceText d).toList := by
  unfold deviceText
  split
  · exact isField_of_visible (by decide) (by simp)
  · split
    · exact isField_of_visible (by decide) (by simp)
    · split
      · exact isField_of_visible (by decide) (by simp)
      · exact (Numeral.toList_toString d.toNat) ▸ isField_toDigits d.toNat

theorem map_toLower_toDigits (n : Nat) :
    (Nat.toDigits 10 n).map Char.toLower = Nat.toDigits 10 n := by
  refine (List.map_congr_left fun c hc => ?_).trans (List.map_id _)
  refine dif_neg fun hcapital => ?_
  have hlow : 65 ≤ c.toNat := hcapital.1
  have := Numeral.toNat_of_mem_toDigits hc
  omega

theorem device?_toDigits (d : UInt16) : device? (Nat.toDigits 10 d.toNat) = some d := by
  have hword : ∀ {c : Char} {cs : List Char},
      String.ofList (Nat.toDigits 10 d.toNat) = String.ofList (c :: cs) → c.toNat ≤ 57 := by
    intro c cs h
    have hmem : c ∈ Nat.toDigits 10 d.toNat := String.ofList_injective h ▸ List.mem_cons_self
    exact (Numeral.toNat_of_mem_toDigits hmem).2
  unfold device?
  simp only [map_toLower_toDigits]
  split
  · next h => exact absurd (hword h) (by decide)
  · next h => exact absurd (hword h) (by decide)
  · next h => exact absurd (hword h) (by decide)
  · next h => exact absurd (hword h) (by decide)
  · next h => exact absurd (hword h) (by decide)
  · exact Numeral.word16?_toDigits d

/-- A device as it is written is read as that device. -/
theorem device?_deviceText (d : UInt16) : device? (deviceText d).toList = some d := by
  unfold deviceText
  split
  · next h => exact h ▸ by decide
  · split
    · next h => exact h ▸ by decide
    · split
      · next h => exact h ▸ by decide
      · exact (Numeral.toList_toString d.toNat) ▸ device?_toDigits d

/-- Words of the length of a class decide on the class of a name. -/
theorem hasClass_of_isName {t : EventText} {w word : String} (h : Code.IsName w t.name)
    (hlength : word.toList.length = w.toList.length) : t.hasClass word = decide (word = w) := by
  rw [hasClass, h.map_toUpper, Bool.eq_iff_iff, List.isPrefixOf_iff_prefix, decide_eq_true_iff]
  constructor
  · intro hword
    have hstart := List.prefix_of_prefix_length_le hword h.starts hlength.le
    exact String.toList_inj.mp (hstart.eq_of_length hlength)
  · rintro rfl
    exact h.starts

theorem isVoid_of_starts {t : EventText} {w : String} (h : w.toList <+: t.name.toList)
    (hvoid : ¬w.toList.map Char.toLower <+: "void".toList)
    (hnone : ¬w.toList.map Char.toLower <+: "none".toList) : t.isVoid = false := by
  have hlower := h.map Char.toLower
  rw [← String.toList_map (s := t.name)] at hlower
  rw [isVoid, Bool.or_eq_false_iff, beq_eq_false_iff_ne, beq_eq_false_iff_ne]
  exact ⟨fun h => hvoid (h ▸ hlower), fun h => hnone (h ▸ hlower)⟩

theorem isField_of_isName {w name : String} (h : Code.IsName w name) (hw : w.toList ≠ []) :
    IsField name.toList := by
  refine isField_of_visible (fun hempty => ?_) fun c hc => ?_
  · exact hw (List.prefix_nil.mp (hempty ▸ h.starts))
  · have := h.letters c hc
    unfold Code.IsNameByte at this
    omega

def printed (d : UInt16) (name : String) (vs : List Int) : String :=
  vs.foldl (fun text v => text ++ ":" ++ toString v) (deviceText d ++ ":" ++ name)

theorem toList_foldl_colon (vs : List Int) (text : String) :
    (vs.foldl (fun text v => text ++ ":" ++ toString v) text).toList =
      [':'].intercalate (text.toList :: vs.map fun v => (toString v).toList) := by
  induction vs generalizing text with
  | nil => simp
  | cons v vs ih =>
    rw [List.foldl_cons, ih]
    cases vs <;> simp [List.intercalate]

theorem toList_printed (d : UInt16) (name : String) (vs : List Int) :
    (printed d name vs).toList = [':'].intercalate
      ((deviceText d).toList :: name.toList :: vs.map fun v => (toString v).toList) := by
  rw [printed, toList_foldl_colon]
  cases vs <;> simp [List.intercalate]

theorem parse_printed (d : UInt16) {name : String} (vs : List Int) (hname : IsField name.toList) :
    EventText.parse (printed d name vs) =
      .ok ⟨printed d name vs, some d, name, vs.map fun v => (toString v).toList⟩ := by
  have htokens : tokens (printed d name vs) =
      (deviceText d).toList :: name.toList :: vs.map fun v => (toString v).toList := by
    refine tokens_of_fields (by simp) ?_ (toList_printed d name vs)
    rw [List.forall_mem_cons, List.forall_mem_cons, List.forall_mem_map]
    exact ⟨isField_deviceText d, hname, fun v _ => isField_toString v⟩
  rw [EventText.parse, htokens, takeDevice, device?_deviceText]
  simp [hname.ne_nil]

def IsWord32 (v : Int) : Prop := -2147483648 ≤ v ∧ v ≤ 2147483647

instance (v : Int) : Decidable (IsWord32 v) := inferInstanceAs (Decidable (_ ∧ _))

theorem number_of_toString {t : EventText} {i : Nat} {v : Int} (hv : IsWord32 v)
    (h : t.parameters[i]? = some (toString v).toList) (parameter : Parameter) (default : Int) :
    t.number i parameter default = .ok v := by
  rw [number, h]
  simp only [Numeral.int32?, Numeral.signed?_toString hv]

theorem isWord32_of_number {t : EventText} {i : Nat} {parameter : Parameter} {default v : Int}
    (hdefault : IsWord32 default) (h : t.number i parameter default = .ok v) : IsWord32 v := by
  unfold number at h
  split at h
  · exact Except.ok.inj h ▸ hdefault
  · split at h
    · next hv =>
      obtain ⟨-, hrange⟩ := Option.filter_eq_some_iff.mp hv
      exact Except.ok.inj h ▸ by simpa [IsWord32] using hrange
    · cases h

theorem mem_of_relativeCode {t : EventText} {c : UInt16} (h : t.relativeCode = .ok c) :
    c ∈ Code.relativeAxes.map Prod.snd := by
  unfold relativeCode at h
  split at h
  · next c' hc =>
    exact Except.ok.inj h ▸ List.mem_map_of_mem (Code.mem_of_find? hc)
  · cases h

theorem mem_of_absoluteCode {t : EventText} {c : UInt16} (h : t.absoluteCode = .ok c) :
    c ∈ Code.absoluteAxes.map Prod.snd := by
  unfold absoluteCode at h
  split at h
  · next c' hc =>
    exact Except.ok.inj h ▸ List.mem_map_of_mem (Code.mem_of_find? hc)
  · cases h

theorem mem_of_keyCode {t : EventText} {c : UInt16} (h : t.keyCode = .ok c) :
    c ∈ Code.keys.map Prod.snd ∨ c ∈ Code.unnamed := by
  unfold keyCode at h
  split at h
  · next c' hc => exact Except.ok.inj h ▸ Code.named_of_key? hc
  · cases h

theorem keyName_unnamed {c : UInt16} (hc : c ∈ Code.unnamed) :
    Code.keyName c = "unknown key: " ++ toString c.toNat := by
  have hall : (Code.unnamed.all fun c =>
      Code.keyName c == "unknown key: " ++ toString c.toNat) = true := by decide +kernel
  exact beq_iff_eq.mp (List.all_eq_true.mp hall c hc)

/-- What is written for a key without a name has a colon and blanks in its place: it is taken for
a name and a parameter. -/
theorem parse_unnamed (d : UInt16) {c : UInt16} (hc : c ∈ Code.unnamed) :
    let text := printed d (Code.keyName c) []
    EventText.parse text = .ok ⟨text, some d, "unknown key", [Nat.toDigits 10 c.toNat]⟩ := by
  intro text
  have hdevice := isField_deviceText d
  have hdigits := isField_toDigits c.toNat
  have htext : text.toList = (deviceText d).toList ++
      ':' :: ("unknown key".toList ++ ':' :: ' ' :: Nat.toDigits 10 c.toNat) := by
    simp [text, printed, keyName_unnamed hc]
  have htrim : Text.trim text.toList = text.toList := by
    refine Text.strip_eq_self (fun x hx => ?_) (fun x hx => ?_)
    · rw [htext, List.head?_append_of_ne_nil _ hdevice.ne_nil] at hx
      exact hdevice.no_blank x (List.mem_of_mem_head? hx)
    · have hend : text.toList = ((deviceText d).toList ++ ":unknown key: ".toList) ++
          Nat.toDigits 10 c.toNat := by simp [htext]
      rw [hend, List.getLast?_append_of_ne_nil _ hdigits.ne_nil] at hx
      exact hdigits.no_blank x (List.mem_of_mem_getLast? hx)
  have htokens : tokens text =
      [(deviceText d).toList, "unknown key".toList, Nat.toDigits 10 c.toNat] := by
    have hlast : ':' ∉ ' ' :: Nat.toDigits 10 c.toNat := by simp [hdigits.no_colon]
    rw [tokens, htrim, htext, Text.fields_append hdevice.no_colon, Text.fields_append (by decide),
      Text.fields_of_not_mem hlast, List.map_cons, List.map_cons, List.map_singleton,
      Text.trim_eq_self hdevice.no_blank]
    congr 3
    exact (Text.strip_cons rfl _).trans (Text.trim_eq_self hdigits.no_blank)
  rw [EventText.parse, htokens, takeDevice, device?_deviceText]
  rfl

theorem relative_of_name {t : EventText} {c : UInt16} (hc : c ∈ Code.relativeAxes.map Prod.snd)
    (h : t.name = Code.relativeName c) :
    t.isVoid = false ∧ t.hasClass "REL_" = true ∧ t.relativeCode = .ok c := by
  have hname : Code.IsName "REL_" t.name := h ▸ Code.isName_relativeName hc
  refine ⟨isVoid_of_starts hname.starts (by decide) (by decide), hasClass_of_isName hname rfl, ?_⟩
  rw [relativeCode, h, Code.relative?_relativeName hc]

theorem absolute_of_name {t : EventText} {c : UInt16} (hc : c ∈ Code.absoluteAxes.map Prod.snd)
    (h : t.name = Code.absoluteName c) : t.isVoid = false ∧ t.hasClass "REL_" = false ∧
      t.hasClass "ABS_" = true ∧ t.absoluteCode = .ok c := by
  have hname : Code.IsName "ABS_" t.name := h ▸ Code.isName_absoluteName hc
  refine ⟨isVoid_of_starts hname.starts (by decide) (by decide), hasClass_of_isName hname rfl,
    hasClass_of_isName hname rfl, ?_⟩
  rw [absoluteCode, h, Code.absolute?_absoluteName hc]

theorem key_of_name {t : EventText} {c : UInt16} (hc : c ∈ Code.keys.map Prod.snd)
    (h : t.name = Code.keyName c) : t.isVoid = false ∧ t.hasClass "REL_" = false ∧
      t.hasClass "ABS_" = false ∧ t.keyCode = .ok c := by
  obtain ⟨w, hw, hname⟩ := Code.isName_keyName hc
  rw [← h] at hname
  have hkey : t.keyCode = .ok c := by rw [keyCode, h, Code.key?_keyName hc]
  rcases List.mem_pair.mp hw with rfl | rfl
  all_goals exact ⟨isVoid_of_starts hname.starts (by decide) (by decide),
    hasClass_of_isName hname rfl, hasClass_of_isName hname rfl, hkey⟩

theorem isField_keyName {c : UInt16} (hc : c ∈ Code.keys.map Prod.snd) :
    IsField (Code.keyName c).toList := by
  obtain ⟨w, hw, hname⟩ := Code.isName_keyName hc
  rcases List.mem_pair.mp hw with rfl | rfl <;> exact isField_of_isName hname (by decide)

theorem isField_relativeName {c : UInt16} (hc : c ∈ Code.relativeAxes.map Prod.snd) :
    IsField (Code.relativeName c).toList :=
  isField_of_isName (Code.isName_relativeName hc) (by decide)

theorem isField_absoluteName {c : UInt16} (hc : c ∈ Code.absoluteAxes.map Prod.snd) :
    IsField (Code.absoluteName c).toList :=
  isField_of_isName (Code.isName_absoluteName hc) (by decide)

end EventText

namespace ButtonEvent

open EventText

/-- The events that some text denotes. -/
inductive Readable : ButtonEvent → Prop where
  | void : Readable void
  | key (d : UInt16) {c : UInt16} (hc : c ∈ Code.keys.map Prod.snd ∨ c ∈ Code.unnamed) :
    Readable (key d c)
  | rel (d : UInt16) {c : UInt16} {v ms : Int} (hc : c ∈ Code.relativeAxes.map Prod.snd)
    (hv : IsWord32 v) (hms : IsWord32 ms) : Readable (rel d c v ms)
  | abs (d : UInt16) {c : UInt16} {v : Int} (hc : c ∈ Code.absoluteAxes.map Prod.snd)
    (hv : IsWord32 v) : Readable (abs d c v)

theorem readable_of_ofText {t : EventText} {e : ButtonEvent} (h : ofText t = .ok e) :
    e.Readable := by
  unfold ofText at h
  split at h
  · obtain ⟨_, -, h⟩ := Except.bind_eq_ok.mp h
    cases h
    exact .void
  · split at h
    · obtain ⟨_, -, h⟩ := Except.bind_eq_ok.mp h
      obtain ⟨c, hc, h⟩ := Except.bind_eq_ok.mp h
      obtain ⟨v, hv, h⟩ := Except.bind_eq_ok.mp h
      obtain ⟨ms, hms, h⟩ := Except.bind_eq_ok.mp h
      cases h
      exact .rel _ (mem_of_relativeCode hc) (isWord32_of_number (by decide) hv)
        (isWord32_of_number (by decide) hms)
    · split at h
      · obtain ⟨_, -, h⟩ := Except.bind_eq_ok.mp h
        obtain ⟨c, hc, h⟩ := Except.bind_eq_ok.mp h
        obtain ⟨v, hv, h⟩ := Except.bind_eq_ok.mp h
        cases h
        exact .abs _ (mem_of_absoluteCode hc) (isWord32_of_number (by decide) hv)
      · obtain ⟨_, -, h⟩ := Except.bind_eq_ok.mp h
        obtain ⟨c, hc, h⟩ := Except.bind_eq_ok.mp h
        cases h
        exact .key _ (mem_of_keyCode hc)

theorem ofText_relative {t : EventText} {d c : UInt16} {v ms : Int}
    (hc : c ∈ Code.relativeAxes.map Prod.snd) (hv : IsWord32 v) (hms : IsWord32 ms)
    (hdevice : t.device = some d) (hname : t.name = Code.relativeName c)
    (hparams : t.parameters = [(toString v).toList, (toString ms).toList]) :
    ofText t = .ok (rel d c v ms) := by
  obtain ⟨hvoid, hclass, hcode⟩ := relative_of_name hc hname
  have hcount : t.atMost 2 = .ok () := by simp [atMost, hparams]
  have hfirst : t.number 0 .value 3 = .ok v := number_of_toString hv (by simp [hparams]) _ _
  have hsecond : t.number 1 .interval 100 = .ok ms := number_of_toString hms (by simp [hparams]) _ _
  rw [ofText, hvoid, hclass, hcount, hcode, hfirst, hsecond, hdevice]
  rfl

theorem ofText_absolute {t : EventText} {d c : UInt16} {v : Int}
    (hc : c ∈ Code.absoluteAxes.map Prod.snd) (hv : IsWord32 v) (hdevice : t.device = some d)
    (hname : t.name = Code.absoluteName c) (hparams : t.parameters = [(toString v).toList]) :
    ofText t = .ok (abs d c v) := by
  obtain ⟨hvoid, hrelative, hclass, hcode⟩ := absolute_of_name hc hname
  have hcount : t.atMost 1 = .ok () := by simp [atMost, hparams]
  have hfirst : t.number 0 .value 1 = .ok v := number_of_toString hv (by simp [hparams]) _ _
  rw [ofText, hvoid, hrelative, hclass, hcount, hcode, hfirst, hdevice]
  rfl

theorem ofText_key {t : EventText} {d c : UInt16} (hc : c ∈ Code.keys.map Prod.snd)
    (hdevice : t.device = some d) (hname : t.name = Code.keyName c) (hparams : t.parameters = []) :
    ofText t = .ok (key d c) := by
  obtain ⟨hvoid, hrelative, habsolute, hcode⟩ := key_of_name hc hname
  have hcount : t.atMost 0 = .ok () := by simp [atMost, hparams]
  rw [ofText, hvoid, hrelative, habsolute, hcount, hcode, hdevice]
  rfl

theorem ofText_unnamed {t : EventText} (hname : t.name = "unknown key")
    (hparams : t.parameters ≠ []) : ofText t = .error (.tooMany t.text) := by
  have hstart : "unknown key".toList <+: t.name.toList := hname ▸ List.prefix_rfl
  have hvoid : t.isVoid = false := isVoid_of_starts hstart (by decide) (by decide)
  have hrelative : t.hasClass "REL_" = false := by
    rw [hasClass, hname]
    decide
  have habsolute : t.hasClass "ABS_" = false := by
    rw [hasClass, hname]
    decide
  have hcount : t.atMost 0 = .error (.tooMany t.text) :=
    if_pos (List.length_pos_iff.mpr hparams)
  rw [ofText, hvoid, hrelative, habsolute, hcount]
  rfl

def isUnnamed : ButtonEvent → Bool
  | key _ c => Code.unnamed.contains c
  | _ => false

/-- What can be read is written in a form that is read again, but for keys without a name. -/
theorem parse_text {e : ButtonEvent} (h : e.Readable) :
    parse e.text = if e.isUnnamed then .error (.tooMany e.text) else .ok e := by
  cases h with
  | void => decide +kernel
  | @key d c hc =>
    by_cases hunnamed : c ∈ Code.unnamed
    · have hflag : (key d c).isUnnamed = true := List.contains_iff_mem.mpr hunnamed
      rw [if_pos hflag]
      change EventText.parse (printed d (Code.keyName c) []) >>= ofText = _
      rw [parse_unnamed d hunnamed]
      exact ofText_unnamed rfl (by simp)
    · have hflag : ¬(key d c).isUnnamed = true := mt List.contains_iff_mem.mp hunnamed
      have hnamed := hc.resolve_right hunnamed
      rw [if_neg hflag]
      change EventText.parse (printed d (Code.keyName c) []) >>= ofText = _
      rw [parse_printed d [] (isField_keyName hnamed)]
      exact ofText_key hnamed rfl rfl rfl
  | @rel d c v ms hc hv hms =>
    change EventText.parse (printed d (Code.relativeName c) [v, ms]) >>= ofText = .ok _
    rw [parse_printed d [v, ms] (isField_relativeName hc)]
    exact ofText_relative hc hv hms rfl rfl rfl
  | @abs d c v hc hv =>
    change EventText.parse (printed d (Code.absoluteName c) [v]) >>= ofText = .ok _
    rw [parse_printed d [v] (isField_absoluteName hc)]
    exact ofText_absolute hc hv rfl rfl rfl

end ButtonEvent

namespace AxisEvent

open EventText

inductive Readable : AxisEvent → Prop where
  | void : Readable void
  | abs (d : UInt16) {c : UInt16} (hc : c ∈ Code.absoluteAxes.map Prod.snd) : Readable (abs d c)
  | rel (d : UInt16) {c : UInt16} {v ms : Int} (hc : c ∈ Code.relativeAxes.map Prod.snd)
    (hv : IsWord32 v) (hms : IsWord32 ms) : Readable (rel d c v ms)

theorem readable_of_ofText {t : EventText} {e : AxisEvent} (h : ofText t = .ok e) :
    e.Readable := by
  unfold ofText at h
  split at h
  · obtain ⟨_, -, h⟩ := Except.bind_eq_ok.mp h
    cases h
    exact .void
  · split at h
    · obtain ⟨_, -, h⟩ := Except.bind_eq_ok.mp h
      obtain ⟨c, hc, h⟩ := Except.bind_eq_ok.mp h
      obtain ⟨v, hv, h⟩ := Except.bind_eq_ok.mp h
      obtain ⟨ms, hms, h⟩ := Except.bind_eq_ok.mp h
      cases h
      exact .rel _ (mem_of_relativeCode hc) (isWord32_of_number (by decide) hv)
        (isWord32_of_number (by decide) hms)
    · split at h
      · obtain ⟨_, -, h⟩ := Except.bind_eq_ok.mp h
        obtain ⟨c, hc, h⟩ := Except.bind_eq_ok.mp h
        cases h
        exact .abs _ (mem_of_absoluteCode hc)
      · cases h

theorem ofText_relative {t : EventText} {d c : UInt16} {v ms : Int}
    (hc : c ∈ Code.relativeAxes.map Prod.snd) (hv : IsWord32 v) (hms : IsWord32 ms)
    (hdevice : t.device = some d) (hname : t.name = Code.relativeName c)
    (hparams : t.parameters = [(toString v).toList, (toString ms).toList]) :
    ofText t = .ok (rel d c v ms) := by
  obtain ⟨hvoid, hclass, hcode⟩ := relative_of_name hc hname
  have hcount : t.atMost 2 = .ok () := by simp [atMost, hparams]
  have hfirst : t.number 0 .speed 10 = .ok v := number_of_toString hv (by simp [hparams]) _ _
  have hsecond : t.number 1 .interval 10 = .ok ms := number_of_toString hms (by simp [hparams]) _ _
  rw [ofText, hvoid, hclass, hcount, hcode, hfirst, hsecond, hdevice]
  rfl

theorem ofText_absolute {t : EventText} {d c : UInt16} (hc : c ∈ Code.absoluteAxes.map Prod.snd)
    (hdevice : t.device = some d) (hname : t.name = Code.absoluteName c)
    (hparams : t.parameters = []) : ofText t = .ok (abs d c) := by
  obtain ⟨hvoid, hrelative, hclass, hcode⟩ := absolute_of_name hc hname
  have hcount : t.atMost 0 = .ok () := by simp [atMost, hparams]
  rw [ofText, hvoid, hrelative, hclass, hcount, hcode, hdevice]
  rfl

theorem parse_text {e : AxisEvent} (h : e.Readable) : parse e.text = .ok e := by
  cases h with
  | void => decide +kernel
  | @abs d c hc =>
    change EventText.parse (printed d (Code.absoluteName c) []) >>= ofText = .ok _
    rw [parse_printed d [] (isField_absoluteName hc)]
    exact ofText_absolute hc rfl rfl rfl
  | @rel d c v ms hc hv hms =>
    change EventText.parse (printed d (Code.relativeName c) [v, ms]) >>= ofText = .ok _
    rw [parse_printed d [v, ms] (isField_relativeName hc)]
    exact ofText_relative hc hv hms rfl rfl rfl

end AxisEvent

/-- An event read from any text is written as a text that gives the same event, unless it is a key
without a name: that one is written as a text with a parameter too many. -/
theorem events_round_trip (text : String) :
    (∀ e, ButtonEvent.parse text = .ok e → ButtonEvent.parse e.text =
      if e.isUnnamed then .error (.tooMany e.text) else .ok e) ∧
    ∀ e, AxisEvent.parse text = .ok e → AxisEvent.parse e.text = .ok e := by
  refine ⟨fun e h => ?_, fun e h => ?_⟩
  · obtain ⟨t, -, h⟩ := Except.bind_eq_ok.mp h
    exact ButtonEvent.parse_text (ButtonEvent.readable_of_ofText h)
  · obtain ⟨t, -, h⟩ := Except.bind_eq_ok.mp h
    exact AxisEvent.parse_text (AxisEvent.readable_of_ofText h)

theorem events_round_trip_numbered :
    ButtonEvent.parse " 4: abs_hat0x :+007" = .ok (.abs 4 16 7) ∧
    ButtonEvent.parse (ButtonEvent.abs 4 16 7).text = .ok (.abs 4 16 7) ∧
    ButtonEvent.parse "js_12" = .ok (.key 0 300) ∧
    ButtonEvent.parse (ButtonEvent.key 0 300).text =
      .error (.tooMany "joystick:unknown key: 300") ∧
    AxisEvent.parse "REL_X:-5" = .ok (.rel 1 0 (-5) 10) ∧
    AxisEvent.parse (AxisEvent.rel 1 0 (-5) 10).text = .ok (.rel 1 0 (-5) 10) := by
  have habs : ButtonEvent.parse " 4: abs_hat0x :+007" = .ok (.abs 4 16 7) := by decide +kernel
  have hkey : ButtonEvent.parse "js_12" = .ok (.key 0 300) := by decide +kernel
  have hrel : AxisEvent.parse "REL_X:-5" = .ok (.rel 1 0 (-5) 10) := by decide +kernel
  refine ⟨habs, (events_round_trip _).1 _ habs, hkey, ?_, hrel, (events_round_trip _).2 _ hrel⟩
  exact ((events_round_trip _).1 _ hkey).trans (by decide +kernel)

theorem not_round_trip_of_unnamed :
    ¬∀ text e, ButtonEvent.parse text = .ok e → ButtonEvent.parse e.text = .ok e := by
  intro h
  have hkey : ButtonEvent.parse "JS_12" = .ok (.key 0 300) := by decide +kernel
  have hagain : ButtonEvent.parse (ButtonEvent.key 0 300).text ≠ .ok (.key 0 300) := by
    decide +kernel
  exact hagain (h _ _ hkey)

end PadRemap
