import Mathlib.Data.List.Induction
import PadRemap.Config.Slot
import PadRemap.Proofs.Filter.Building
import PadRemap.Proofs.Text.Bytes
import PadRemap.Proofs.Text.Splitting

/-! What the tables of a section hold: at each cell the event of the greatest key that names the
cell, and where no key names it what the standard layout has there, if that is wanted. Many keys
name one cell, in other spellings or with blanks, so later entries write over earlier ones. -/

namespace PadRemap

theorem Enumerated.find?_spelling {κ : Type} [Enumerated κ] {spellings : κ → List String}
    (hapart : ∀ k l, ∀ s ∈ spellings k, s ∈ spellings l → k = l) {s : String} {k : κ} :
    ((Enumerated.all κ).find? fun k => (spellings k).contains s) = some k ↔ s ∈ spellings k := by
  constructor
  · intro h
    simpa using List.find?_some h
  · intro h
    cases hfind : (Enumerated.all κ).find? fun k => (spellings k).contains s with
    | none =>
      have hk := List.find?_eq_none.mp hfind k (Enumerated.mem_all k)
      exact absurd (List.contains_iff_mem.mpr h) hk
    | some l =>
      have hl : s ∈ spellings l := by simpa using List.find?_some hfind
      rw [hapart k l s h hl]

theorem Button.eq_of_mem_spellings (b c : Button) :
    ∀ s ∈ b.spellings, s ∈ c.spellings → b = c := by
  have hall : ∀ b ∈ Button.all, ∀ c ∈ Button.all, ∀ s ∈ b.spellings, s ∈ c.spellings → b = c := by
    decide +kernel
  exact hall b (Enumerated.mem_all b) c (Enumerated.mem_all c)

theorem Axis.eq_of_mem_spellings (a c : Axis) :
    ∀ s ∈ a.spellings, s ∈ c.spellings → a = c := by
  have hall : ∀ a ∈ Axis.all, ∀ c ∈ Axis.all, ∀ s ∈ a.spellings, s ∈ c.spellings → a = c := by
    decide +kernel
  exact hall a (Enumerated.mem_all a) c (Enumerated.mem_all c)

theorem Button.parse_eq_ok {s : String} {b : Button} :
    Button.parse s = .ok b ↔ s.map Char.toLower ∈ b.spellings := by
  rw [← Enumerated.find?_spelling Button.eq_of_mem_spellings]
  unfold Button.parse
  change _ ↔ Button.ofName? s = some b
  cases Button.ofName? s <;> simp

theorem Axis.parse_eq_ok {s : String} {a : Axis} :
    Axis.parse s = .ok a ↔ s.map Char.toLower ∈ a.spellings := by
  rw [← Enumerated.find?_spelling Axis.eq_of_mem_spellings]
  unfold Axis.parse
  change _ ↔ Axis.ofName? s = some a
  cases Axis.ofName? s <;> simp

def Ascending (es : List (String × String)) : Prop := es.Pairwise fun d e => d.1 < e.1

instance (es : List (String × String)) : Decidable (Ascending es) :=
  inferInstanceAs (Decidable (es.Pairwise _))

theorem Document.keys_of_mapM_text {fields : List (String × Document)}
    {es : List (String × String)}
    (h : (fields.mapM fun (k, v) => v.text?.map fun t => (k, t)) = some es) :
    es.map Prod.fst = fields.map Prod.fst := by
  induction fields generalizing es with
  | nil =>
    cases h
    rfl
  | cons f fields ih =>
    rw [List.mapM_cons] at h
    obtain ⟨e, he, h⟩ := Option.bind_eq_some_iff.mp h
    obtain ⟨es', hes', h⟩ := Option.bind_eq_some_iff.mp h
    obtain ⟨t, -, rfl⟩ := Option.map_eq_some_iff.mp he
    cases h
    rw [List.map_cons, List.map_cons, ih hes']

theorem Document.ascending_of_textTable? {d : Document} {fields : List (String × Document)}
    {es : List (String × String)} (hfields : d.entries? = some fields)
    (hkeys : (fields.map Prod.fst).Nodup) (h : d.textTable? = some es) : Ascending es := by
  obtain ⟨fs, hfs, h⟩ := Option.bind_eq_some_iff.mp h
  cases hfields.symm.trans hfs
  obtain ⟨ts, hts, h⟩ := Option.bind_eq_some_iff.mp h
  cases h
  have hdistinct : (ts.mergeSort fun a b => decide (a.1 ≤ b.1)).Pairwise fun a b => a.1 ≠ b.1 := by
    rw [← keys_of_mapM_text hts] at hkeys
    exact (List.mergeSort_perm ts _).symm.pairwise (List.pairwise_map.mp hkeys) Ne.symm
  have hsorted : (ts.mergeSort fun a b => decide (a.1 ≤ b.1)).Pairwise fun a b => a.1 ≤ b.1 := by
    refine (List.pairwise_mergeSort (fun a b c hab hbc => ?_) (fun a b => ?_) ts).imp
      of_decide_eq_true
    · exact decide_eq_true (le_trans (of_decide_eq_true hab) (of_decide_eq_true hbc))
    · simpa using le_total a.1 b.1
  exact hsorted.imp₂ (fun _ _ hle hne => lt_of_le_of_ne hle hne) hdistinct

section Fold

variable {κ β τ ε ε' : Type} [DecidableEq κ]

/-- What a cell holds after some entries: the value of the greatest key among those that name it,
or what it held before them. -/
def HoldsGreatest (names : String → κ → Prop) (parse : String → Except ε β)
    (es : List (String × String)) (before : β) (k : κ) (v : β) : Prop :=
  (∃ e ∈ es, names e.1 k ∧ parse e.2 = .ok v ∧
    ∀ d ∈ es, names d.1 k → d ≠ e → Text.bytes d.1 < Text.bytes e.1) ∨
  (∀ e ∈ es, ¬names e.1 k) ∧ v = before

/-- A step that takes one entry and puts its value into the cell that the key names. -/
structure Binds (names : String → κ → Prop) (parse : String → Except ε β) (cell : τ → κ → β)
    (put : τ → κ → β → τ) (step : τ → String × String → Except ε' τ) : Prop where
  names_unique : ∀ {s k l}, names s k → names s l → k = l
  step_eq_ok : ∀ {t e u}, step t e = .ok u ↔
    ∃ k v, names e.1 k ∧ parse e.2 = .ok v ∧ put t k v = u
  cell_put : ∀ {t k v l}, cell (put t k v) l = if l = k then v else cell t l

namespace Binds

variable {names : String → κ → Prop} {parse : String → Except ε β} {cell : τ → κ → β}
  {put : τ → κ → β → τ} {step : τ → String × String → Except ε' τ}
  {es : List (String × String)} {t u : τ}

theorem foldlM_iff (h : Binds names parse cell put step) : (∃ u, es.foldlM step t = .ok u) ↔
    ∀ e ∈ es, (∃ k, names e.1 k) ∧ ∃ v, parse e.2 = .ok v := by
  induction es generalizing t with
  | nil => exact ⟨fun _ e he => absurd he List.not_mem_nil, fun _ => ⟨t, rfl⟩⟩
  | cons e es ih =>
    rw [List.forall_mem_cons, List.foldlM_cons]
    constructor
    · rintro ⟨u, hu⟩
      obtain ⟨t', ht', hu⟩ := Except.bind_eq_ok.mp hu
      obtain ⟨k, v, hk, hv, -⟩ := h.step_eq_ok.mp ht'
      exact ⟨⟨⟨k, hk⟩, v, hv⟩, ih.mp ⟨u, hu⟩⟩
    · rintro ⟨⟨⟨k, hk⟩, v, hv⟩, hes⟩
      obtain ⟨u, hu⟩ := (ih (t := put t k v)).mpr hes
      exact ⟨u, Except.bind_eq_ok.mpr ⟨_, h.step_eq_ok.mpr ⟨k, v, hk, hv, rfl⟩, hu⟩⟩

/-- By induction from the end: the last entry has the greatest key, so its cell holds its value and
every other cell holds what the entries before left there. -/
theorem holdsGreatest (h : Binds names parse cell put step) (hes : Ascending es)
    (hu : es.foldlM step t = .ok u) (k : κ) :
    HoldsGreatest names parse es (cell t k) k (cell u k) := by
  induction es using List.reverseRecOn generalizing u with
  | nil =>
    cases hu
    exact .inr ⟨fun e he => absurd he List.not_mem_nil, rfl⟩
  | append_singleton es e ih =>
    obtain ⟨hbefore, -, hlast⟩ := List.pairwise_append.mp hes
    rw [List.foldlM_append] at hu
    obtain ⟨t', ht', hu⟩ := Except.bind_eq_ok.mp hu
    rw [List.foldlM_cons] at hu
    obtain ⟨u', hstep, hu⟩ := Except.bind_eq_ok.mp hu
    cases hu
    obtain ⟨l, v, hl, hv, rfl⟩ := h.step_eq_ok.mp hstep
    rw [h.cell_put]
    by_cases hkl : k = l
    · subst hkl
      rw [if_pos rfl]
      refine .inl ⟨e, by simp, hl, hv, fun d hd _ hne => ?_⟩
      rcases List.mem_append.mp hd with hd | hd
      · exact Text.bytes_lt_iff.mpr (hlast d hd e (List.mem_singleton_self e))
      · exact absurd (List.mem_singleton.mp hd) hne
    · have he : ¬names e.1 k := fun hk => hkl (h.names_unique hk hl)
      rw [if_neg hkl]
      rcases ih hbefore ht' with ⟨d, hd, hk, hv, hgreatest⟩ | ⟨hnone, hsame⟩
      · refine .inl ⟨d, List.mem_append_left _ hd, hk, hv, fun d' hd' hk' hne => ?_⟩
        rcases List.mem_append.mp hd' with hd' | hd'
        · exact hgreatest d' hd' hk' hne
        · exact absurd (List.mem_singleton.mp hd' ▸ hk') he
      · refine .inr ⟨fun d hd => ?_, hsame⟩
        rcases List.mem_append.mp hd with hd | hd
        · exact hnone d hd
        · exact List.mem_singleton.mp hd ▸ he

end Binds

end Fold

def ButtonBindings.cell (t : ButtonBindings) : Option Button × Button → ButtonEvent
  | (none, b) => t.lookup b
  | (some s, b) => t.lookupShifted s b

def ButtonBindings.put (t : ButtonBindings) : Option Button × Button → ButtonEvent → ButtonBindings
  | (none, b), e => t.bind b e
  | (some s, b), e => t.bindShifted s b e

theorem ButtonBindings.cell_put (t : ButtonBindings) (c d : Option Button × Button)
    (e : ButtonEvent) : (t.put c e).cell d = if d = c then e else t.cell d := by
  obtain ⟨s | s, b⟩ := c <;> obtain ⟨s' | s', b'⟩ := d <;> simp [cell, put]

@[simp] theorem ButtonBindings.cell_empty (c : Option Button × Button) :
    empty.cell c = .void := by
  obtain ⟨s | s, b⟩ := c <;> simp [cell, empty, lookup, lookupShifted]

theorem ButtonBindings.lookupShifted_standard (s b : Button) :
    standard.lookupShifted s b = .void := by
  simp [standard, standardLayout, lookupShifted, empty, bind]

@[simp] theorem AxisBindings.lookup_empty (a : Axis) : empty.lookup a = .void := by
  simp [empty, lookup]

/-- A name in any of its spellings, in any case and with blanks around it. -/
def Spells (spellings : List String) (name : List Char) : Prop :=
  (String.ofList (Text.trim name)).map Char.toLower ∈ spellings

/-- The cell that a key names: a button, or two different buttons joined by the first plus sign. -/
def NamesCell (key : String) : Option Button × Button → Prop
  | (none, b) => '+' ∉ key.toList ∧ Spells b.spellings key.toList
  | (some s, b) => s ≠ b ∧ ∃ left right, key.toList = left ++ '+' :: right ∧ '+' ∉ left ∧
    Spells s.spellings left ∧ Spells b.spellings right

def NamesAxis (key : String) (a : Axis) : Prop := Spells a.spellings key.toList

namespace SlotSection

theorem buttonOf_eq_ok {name : List Char} {b : Button} :
    buttonOf name = .ok b ↔ Spells b.spellings name := by
  rw [buttonOf, Except.mapError_eq_ok, Button.parse_eq_ok, Spells]

theorem cellOf_of_plain {key : String} (h : '+' ∉ key.toList) {c : Option Button × Button} :
    cellOf key = .ok c ↔ c.1 = none ∧ Spells c.2.spellings key.toList := by
  rw [cellOf, Text.cut?_eq_none.mpr h, ← buttonOf_eq_ok]
  obtain ⟨shift, b⟩ := c
  cases buttonOf key.toList <;> simp [Except.map, eq_comm]

theorem cellOf_of_shifted {key : String} {left right : List Char}
    (h : key.toList = left ++ '+' :: right) (hleft : '+' ∉ left) {c : Option Button × Button} :
    cellOf key = .ok c ↔ ∃ s, c.1 = some s ∧ s ≠ c.2 ∧ Spells s.spellings left ∧
      Spells c.2.spellings right := by
  obtain ⟨shift, b⟩ := c
  rw [cellOf, Text.cut?_eq_some.mpr ⟨h, hleft⟩]
  simp only [Except.bind_eq_ok, ← buttonOf_eq_ok]
  constructor
  · rintro ⟨s, hs, b', hb, hresult⟩
    split at hresult
    · obtain ⟨_, hthrow, -⟩ := Except.bind_eq_ok.mp hresult
      cases hthrow
    · next hne =>
      cases hresult
      exact ⟨s, rfl, hne, hs, hb⟩
  · rintro ⟨s, rfl, hne, hs, hb⟩
    refine ⟨s, hs, b, hb, ?_⟩
    rw [if_neg hne]
    rfl

theorem cellOf_eq_ok {key : String} {c : Option Button × Button} :
    cellOf key = .ok c ↔ NamesCell key c := by
  by_cases hplus : '+' ∈ key.toList
  · obtain ⟨left, right, hcut, hleft⟩ := List.eq_append_cons_of_mem hplus
    rw [cellOf_of_shifted hcut hleft]
    obtain ⟨s | s, b⟩ := c
    · simp [NamesCell, hplus]
    · constructor
      · rintro ⟨s, ⟨⟩, hne, hs, hb⟩
        exact ⟨hne, left, right, hcut, hleft, hs, hb⟩
      · rintro ⟨hne, left', right', hcut', hleft', hs, hb⟩
        have hsame := (Text.cut?_eq_some.mpr ⟨hcut, hleft⟩).symm.trans
          (Text.cut?_eq_some.mpr ⟨hcut', hleft'⟩)
        cases hsame
        exact ⟨s, rfl, hne, hs, hb⟩
  · rw [cellOf_of_plain hplus]
    obtain ⟨s | s, b⟩ := c
    · simp [NamesCell, hplus]
    · constructor
      · rintro ⟨⟨⟩, -⟩
      · rintro ⟨-, left, right, hcut, -⟩
        exact absurd (by simp [hcut]) hplus

theorem binds_bindButton : Binds NamesCell ButtonEvent.parse ButtonBindings.cell
    ButtonBindings.put bindButton where
  names_unique hk hl := Except.ok.inj ((cellOf_eq_ok.mpr hk).symm.trans (cellOf_eq_ok.mpr hl))
  step_eq_ok {t e u} := by
    simp only [bindButton, Except.bind_eq_ok, Except.mapError_eq_ok, cellOf_eq_ok]
    constructor
    · rintro ⟨v, hv, ⟨s | s, b⟩, hc, h⟩ <;> exact ⟨_, v, hc, hv, Except.ok.inj h⟩
    · rintro ⟨⟨s | s, b⟩, v, hc, hv, rfl⟩ <;> exact ⟨v, hv, _, hc, rfl⟩
  cell_put := ButtonBindings.cell_put _ _ _ _

theorem binds_bindAxis : Binds NamesAxis AxisEvent.parse AxisBindings.lookup
    AxisBindings.bind bindAxis where
  names_unique hk hl := Axis.eq_of_mem_spellings _ _ _ hk hl
  step_eq_ok {t e u} := by
    simp only [bindAxis, Except.bind_eq_ok, Except.mapError_eq_ok, Axis.parse_eq_ok]
    constructor
    · rintro ⟨a, ha, v, hv, h⟩
      exact ⟨a, v, ha, hv, Except.ok.inj h⟩
    · rintro ⟨a, v, ha, hv, rfl⟩
      exact ⟨a, ha, v, hv, rfl⟩
  cell_put := AxisBindings.lookup_bind _ _ _ _

/-- A section has tables just when all its values and keys can be read. Then each cell holds the
event of the greatest key that names it, or what the standard layout has there if that is wanted,
or nothing; and no button is ever its own shift. -/
theorem tables_hold_greatest (s : SlotSection) (hb : Ascending s.buttons)
    (ha : Ascending s.axes) :
    ((∃ t, s.buttonBindings = .ok t) ↔
      ∀ e ∈ s.buttons, (∃ c, NamesCell e.1 c) ∧ ∃ v, ButtonEvent.parse e.2 = .ok v) ∧
    (∀ t, s.buttonBindings = .ok t →
      (∀ c, HoldsGreatest NamesCell ButtonEvent.parse s.buttons
        (if s.standardBindings then ButtonBindings.standard.cell c else .void) c (t.cell c)) ∧
      ∀ b, t.lookupShifted b b = .void) ∧
    ((∃ t, s.axisBindings = .ok t) ↔
      ∀ e ∈ s.axes, (∃ a, NamesAxis e.1 a) ∧ ∃ v, AxisEvent.parse e.2 = .ok v) ∧
    (∀ t, s.axisBindings = .ok t → ∀ a, HoldsGreatest NamesAxis AxisEvent.parse s.axes
      (if s.standardBindings then AxisBindings.standard.lookup a else .void) a (t.lookup a)) := by
  refine ⟨binds_bindButton.foldlM_iff, fun t ht => ?buttons, binds_bindAxis.foldlM_iff,
    fun t ht a => ?axes⟩
  case buttons =>
    have hcells : ∀ c, HoldsGreatest NamesCell ButtonEvent.parse s.buttons
        (if s.standardBindings then ButtonBindings.standard.cell c else .void) c (t.cell c) := by
      intro c
      have h := binds_bindButton.holdsGreatest hb ht c
      rwa [apply_ite (ButtonBindings.cell · c), ButtonBindings.cell_empty] at h
    refine ⟨hcells, fun b => ?_⟩
    rcases hcells (some b, b) with ⟨e, -, hnames, -⟩ | ⟨-, hsame⟩
    · exact absurd rfl hnames.1
    · change t.cell (some b, b) = .void
      rw [hsame, ButtonBindings.cell, ButtonBindings.lookupShifted_standard, ite_self]
  case axes =>
    have h := binds_bindAxis.holdsGreatest ha ht a
    rwa [apply_ite (AxisBindings.lookup · a), AxisBindings.lookup_empty] at h

/-- Two cells, each named twice: the keys with small letters are greater. -/
theorem tables_hold_greatest_respelled :
    let s : SlotSection := { buttons := [("A", "BTN_X"), ("LB+A", "KEY_SPACE"), ("a", "KEY_Q"),
        ("l1 + a", "mouse:REL_WHEEL:-1")]
                             axes := [("X1", "ABS_Y"), ("x1 ", "REL_X:5")] }
    Ascending s.buttons ∧ Ascending s.axes ∧
    (∃ t, s.buttonBindings = .ok t ∧ t.lookup .faceA = .key 2 16 ∧
      t.lookupShifted .lb .faceA = .rel 1 8 (-1) 100 ∧ t.lookup .faceB = .key 0 305 ∧
      ∀ b, t.lookupShifted b b = .void) ∧
    ∃ t, s.axisBindings = .ok t ∧ t.lookup .x1 = .rel 1 0 5 10 ∧
      HoldsGreatest NamesAxis AxisEvent.parse s.axes (AxisBindings.standard.lookup .x1) .x1
        (t.lookup .x1) := by
  intro s
  have hb : Ascending s.buttons := by decide +kernel
  have ha : Ascending s.axes := by decide +kernel
  have hbuttons : (s.buttonBindings.toOption.map fun t =>
      (t.lookup .faceA, t.lookupShifted .lb .faceA, t.lookup .faceB)) =
      some (.key 2 16, .rel 1 8 (-1) 100, .key 0 305) := by decide +kernel
  have haxes : (s.axisBindings.toOption.map fun t => t.lookup .x1) = some (.rel 1 0 5 10) := by
    decide +kernel
  obtain ⟨-, hcells, -, hlookup⟩ := tables_hold_greatest s hb ha
  refine ⟨hb, ha, ?_, ?_⟩
  · cases ht : s.buttonBindings with
    | error e => simp [ht, Except.toOption] at hbuttons
    | ok t =>
      simp only [ht, Except.toOption, Option.map_some, Option.some.injEq, Prod.mk.injEq] at hbuttons
      obtain ⟨hA, hLbA, hB⟩ := hbuttons
      exact ⟨t, rfl, hA, hLbA, hB, (hcells t ht).2⟩
  · cases ht : s.axisBindings with
    | error e => simp [ht, Except.toOption] at haxes
    | ok t =>
      simp only [ht, Except.toOption, Option.map_some, Option.some.injEq] at haxes
      exact ⟨t, rfl, haxes, hlookup t ht .x1⟩

end SlotSection

end PadRemap
