import PadRemap.Manager.Manager
import PadRemap.Proofs.Slot.Life

/-! Which device is bound where. Whatever the manager is told and however its workers end in
between, no device is bound twice, every bound device is accepted by its slot, and each opened
source is either driven by one worker or has been released once. -/

namespace PadRemap

/-- What happens to a manager: an operation, or a turn of one of the workers, which may end in it.
Opening a device succeeds or fails anew each time. -/
inductive Operation where
  | assign (opener : Opener) (d : Identity)
  | remove (d : Identity)
  | handle (opener : Opener) (change : Discovery.Change)
  | tick (b : Backend) (ms : Nat)
  | setLed (i : Nat) (status : UInt8)
  | setRumble (i : Nat) (left right : UInt8)
  | shutdown (b : Backend)
  | work (b : Backend) (reading : Reading) (ms : Nat) (i : Nat)

def Operation.announced : Operation → Option Identity
  | assign _ d => some d
  | handle _ (.added d) => some d
  | _ => none

theorem Except.toOption_eq_some {ε α : Type} {x : Except ε α} {a : α} :
    x.toOption = some a ↔ x = .ok a := by
  cases x <;> simp [Except.toOption]

namespace Manager

def apply (m : Manager) : Operation → Manager
  | .assign opener d => (m.assign opener d).1
  | .remove d => (m.remove d).1
  | .handle opener change => m.handle opener change
  | .tick b ms => m.tick b ms
  | .setLed i status => (m.setLed i status).1
  | .setRumble i left right => (m.setRumble i left right).1
  | .shutdown b => m.shutdown b
  | .work b reading ms i => m.work b reading ms i

def applyAll (m : Manager) (ops : List Operation) : Manager := ops.foldl apply m

theorem apply_of_announced {op : Operation} {d : Identity} (h : op.announced = some d)
    (m : Manager) : ∃ opener, m.apply op = (m.assign opener d).1 := by
  cases op with
  | assign opener e =>
    cases h
    exact ⟨opener, rfl⟩
  | handle opener change =>
    cases change with
    | added e =>
      cases h
      exact ⟨opener, rfl⟩
    | removed e => cases h
  | _ => cases h

def running (n : Nat) : List Slot → Nat
  | [] => 0
  | s :: slots => s.runs n + running n slots

structure Sound (configs : List SlotConfig) (m : Manager) : Prop where
  slots : ∀ (i : Nat) (s : Slot), m.slots[i]? = some s →
    s.Sound ∧ s.id = i ∧ configs[i]? = some s.config
  distinct : ∀ (i j : Nat) (s t : Slot) (d e : Identity), m.slots[i]? = some s →
    m.slots[j]? = some t → s.identity = some d → t.identity = some e → d.SameDevice e → i = j
  sources : ∀ n, m.rig.released n + running n m.slots = if n < m.opened then 1 else 0

def Evolves (xs ys : List Slot) : Prop :=
  ∀ (i : Nat) (t : Slot), ys[i]? = some t → ∃ s, xs[i]? = some s ∧ s.Follows t

/-- What becomes of a manager when no device is bound anew and no source is lost. -/
structure Keeps (m m' : Manager) : Prop where
  slots : Evolves m.slots m'.slots
  opened : m'.opened = m.opened
  sources : ∀ n, m'.rig.released n + running n m'.slots = m.rig.released n + running n m.slots

variable {configs : List SlotConfig} {m : Manager}

theorem running_set (n : Nat) {slots : List Slot} {i : Nat} {s : Slot} (hs : slots[i]? = some s)
    (t : Slot) : running n (slots.set i t) + s.runs n = running n slots + t.runs n := by
  induction slots generalizing i with
  | nil => cases hs
  | cons u slots ih =>
    cases i with
    | zero =>
      cases hs
      simp only [List.set_cons_zero, running]
      omega
    | succ i =>
      have hset := ih (i := i) hs
      simp only [List.set_cons_succ, running]
      omega

theorem running_map (n : Nat) (slots : List Slot) {f : Slot → Slot}
    (hf : ∀ s, (f s).runs n = s.runs n) : running n (slots.map f) = running n slots := by
  induction slots with
  | nil => rfl
  | cons s slots ih => simp only [List.map_cons, running, hf, ih]

theorem running_eq_zero (n : Nat) {slots : List Slot} (h : ∀ s ∈ slots, s.worker = none) :
    running n slots = 0 := by
  induction slots with
  | nil => rfl
  | cons s slots ih =>
    have hs : s.runs n = 0 := by
      rw [Slot.runs, h s List.mem_cons_self]
      rfl
    rw [running, hs, ih fun t ht => h t (List.mem_cons_of_mem _ ht)]

theorem Sound.keep (h : m.Sound configs) {m' : Manager} (k : m.Keeps m') : m'.Sound configs where
  slots := by
    intro i t ht
    obtain ⟨s, hs, hf⟩ := k.slots i t ht
    obtain ⟨-, hid, hc⟩ := h.slots i s hs
    exact ⟨hf.sound, hf.id.trans hid, by rw [hf.config]; exact hc⟩
  distinct := by
    intro i j t u d e ht hu hd he hde
    obtain ⟨s, hs', hf⟩ := k.slots i t ht
    obtain ⟨v, hv, hg⟩ := k.slots j u hu
    exact h.distinct i j s v d e hs' hv (hf.identity_eq_some hd) (hg.identity_eq_some he) hde
  sources := by
    intro n
    rw [k.sources, k.opened]
    exact h.sources n

theorem Sound.evolves_refl (h : m.Sound configs) : Evolves m.slots m.slots := by
  intro i s hs
  exact ⟨s, hs, (h.slots i s hs).1.refl⟩

theorem Sound.keeps_refl (h : m.Sound configs) : m.Keeps m := ⟨h.evolves_refl, rfl, fun _ => rfl⟩

theorem Sound.evolves_set (h : m.Sound configs) {i : Nat} {s t : Slot} (hs : m.slots[i]? = some s)
    (hf : s.Follows t) : Evolves m.slots (m.slots.set i t) := by
  intro j u hu
  by_cases hj : i = j
  · subst hj
    have hlt : i < m.slots.length := (List.getElem?_eq_some_iff.mp hs).1
    rw [List.getElem?_set_self hlt] at hu
    cases hu
    exact ⟨s, hs, hf⟩
  · rw [List.getElem?_set_ne hj] at hu
    exact h.evolves_refl j u hu

theorem Sound.keeps_setSlot (h : m.Sound configs) {i : Nat} {s t : Slot}
    (hs : m.slots[i]? = some s) (hf : s.Follows t) (hn : ∀ n, t.runs n = s.runs n) :
    m.Keeps (m.setSlot i t) := by
  refine ⟨h.evolves_set hs hf, rfl, fun n => ?_⟩
  have := running_set n hs t
  rw [hn n] at this
  change m.rig.released n + running n (m.slots.set i t) = _
  omega

theorem Sound.keeps_onSlot (h : m.Sound configs) (i : Nat)
    {call : Slot → Slot × Except SlotError Unit} (hf : ∀ s : Slot, s.Sound → s.Follows (call s).1)
    (hn : ∀ (n : Nat) (s : Slot), (call s).1.runs n = s.runs n) :
    m.Keeps (m.onSlot i call).1 := by
  unfold Manager.onSlot
  cases hs : m.slots[i]? with
  | none => exact h.keeps_refl
  | some s => exact h.keeps_setSlot hs (hf s (h.slots i s hs).1) fun n => hn n s

@[simp] theorem slots_setSlot (m : Manager) (i : Nat) (s : Slot) :
    (m.setSlot i s).slots = m.slots.set i s := rfl

@[simp] theorem rig_setSlot (m : Manager) (i : Nat) (s : Slot) :
    (m.setSlot i s).rig = m.rig := rfl

@[simp] theorem opened_setSlot (m : Manager) (i : Nat) (s : Slot) :
    (m.setSlot i s).opened = m.opened := rfl

@[simp] theorem slots_discover (m : Manager) (d : Identity) : (m.discover d).slots = m.slots := by
  unfold discover
  split <;> rfl

@[simp] theorem rig_discover (m : Manager) (d : Identity) : (m.discover d).rig = m.rig := by
  unfold discover
  split <;> rfl

@[simp] theorem opened_discover (m : Manager) (d : Identity) :
    (m.discover d).opened = m.opened := by
  unfold discover
  split <;> rfl

theorem Sound.keeps_remove (h : m.Sound configs) (d : Identity) : m.Keeps (m.remove d).1 := by
  have hsame := h.keeps_refl
  unfold Manager.remove
  simp only
  split
  · exact ⟨hsame.slots, rfl, hsame.sources⟩
  · next i hi =>
    split
    · exact ⟨hsame.slots, rfl, hsame.sources⟩
    · next s hs =>
      have hk := h.keeps_setSlot hs (h.slots i s hs).1.tryDisconnect fun n =>
        Slot.runs_tryDisconnect n s
      exact ⟨hk.slots, rfl, hk.sources⟩

theorem Sound.keeps_reap (h : m.Sound configs) : m.Keeps m.reap := by
  refine ⟨fun i t ht => ?_, rfl, fun n => ?_⟩
  · change (m.slots.map fun s => s.poll.1)[i]? = some t at ht
    rw [List.getElem?_map] at ht
    obtain ⟨s, hs, rfl⟩ := Option.map_eq_some_iff.mp ht
    exact ⟨s, hs, (h.slots i s hs).1.poll⟩
  · have hrun := running_map n m.slots (Slot.runs_poll n)
    exact congrArg (m.rig.released n + ·) hrun

theorem Sound.keeps_work (h : m.Sound configs) (b : Backend) (reading : Reading) (ms i : Nat) :
    m.Keeps (m.work b reading ms i) := by
  unfold Manager.work
  cases hs : m.slots[i]? with
  | none => exact h.keeps_refl
  | some s =>
    have hf := (h.slots i s hs).1.work b reading ms m.rig
    refine ⟨h.evolves_set hs hf, rfl, fun n => ?_⟩
    have hset := running_set n hs (s.work b reading ms m.rig).1
    have hacc := Slot.work_accounts b reading ms s m.rig n
    change (s.work b reading ms m.rig).2.released n +
      running n (m.slots.set i (s.work b reading ms m.rig).1) = _
    omega

theorem eachSlot_spec {act : Slot → Rig → Slot × Rig} {p : Slot → Slot → Prop} {slots : List Slot}
    (hp : ∀ s ∈ slots, ∀ r, p s (act s r).1)
    (hn : ∀ s r n, (act s r).2.released n + (act s r).1.runs n = r.released n + s.runs n)
    (r : Rig) :
    (∀ (i : Nat) (t : Slot), (eachSlot act slots r).1[i]? = some t →
      ∃ s, slots[i]? = some s ∧ p s t) ∧
    ∀ n, (eachSlot act slots r).2.released n + running n (eachSlot act slots r).1 =
      r.released n + running n slots := by
  induction slots generalizing r with
  | nil =>
    constructor
    · intro i t ht
      cases ht
    · intro n
      rfl
  | cons s slots ih =>
    obtain ⟨hslots, hsources⟩ := ih (fun s hs => hp s (List.mem_cons_of_mem _ hs)) (act s r).2
    constructor
    · intro i t ht
      cases i with
      | zero =>
        cases ht
        exact ⟨s, rfl, hp s List.mem_cons_self r⟩
      | succ i => exact hslots i t ht
    · intro n
      have hs := hn s r n
      have hrest := hsources n
      simp only [eachSlot, running]
      omega

theorem Sound.keeps_shutdown (h : m.Sound configs) (b : Backend) :
    m.Keeps (m.shutdown b) ∧
      ∀ s ∈ (m.shutdown b).slots, s.state = .unbound ∧ s.worker = none := by
  let asked := m.slots.map fun s => s.tryDisconnect.1
  have hasked : ∀ (i : Nat) (t : Slot), asked[i]? = some t →
      ∃ s, m.slots[i]? = some s ∧ s.Follows t := by
    intro i t ht
    rw [List.getElem?_map] at ht
    obtain ⟨s, hs, rfl⟩ := Option.map_eq_some_iff.mp ht
    exact ⟨s, hs, (h.slots i s hs).1.tryDisconnect⟩
  have hsound : ∀ t ∈ asked, t.Sound := by
    intro t ht
    obtain ⟨i, hi⟩ := List.mem_iff_getElem?.mp ht
    obtain ⟨s, -, hf⟩ := hasked i t hi
    exact hf.sound
  have hrun : ∀ n, running n asked = running n m.slots := by
    intro n
    exact running_map n m.slots (Slot.runs_tryDisconnect n)
  obtain ⟨hslots, hsources⟩ := eachSlot_spec
    (p := fun s t => s.Follows t ∧ t.state = .unbound ∧ t.worker = none)
    (fun s hs r => (hsound s hs).disconnect b r)
    (fun s r n => Slot.disconnect_accounts b s r n) m.rig
  constructor
  · refine ⟨fun i t ht => ?_, rfl, fun n => ?_⟩
    · obtain ⟨s, hs, hf, -⟩ := hslots i t ht
      obtain ⟨u, hu, hg⟩ := hasked i s hs
      exact ⟨u, hu, hg.trans hf⟩
    · rw [← hrun n]
      exact hsources n
  · intro t ht
    obtain ⟨i, hi⟩ := List.mem_iff_getElem?.mp ht
    obtain ⟨s, -, -, ht⟩ := hslots i t hi
    exact ht

theorem Sound.shutdown (h : m.Sound configs) (b : Backend) :
    (m.shutdown b).Sound configs ∧
      ∀ s ∈ (m.shutdown b).slots, s.state = .unbound ∧ s.worker = none := by
  obtain ⟨hkeeps, hunbound⟩ := h.keeps_shutdown b
  exact ⟨h.keep hkeeps, hunbound⟩

structure Free (m : Manager) (d : Identity) (i : Nat) (s : Slot) : Prop where
  unheld : ∀ t ∈ m.slots, t.holds d = false
  slot : m.slots[i]? = some s
  unbound : s.state = .unbound
  accepts : s.accepts d = true
  first : ∀ j t, j < i → m.slots[j]? = some t → t.state = .unbound → t.accepts d = false

theorem free_of_findIdx {m : Manager} {d : Identity} (hd : ¬(m.slots.any fun s => s.holds d) = true)
    {i : Nat} (hi : m.freeSlot? d = some i) {s : Slot} (hs : m.slots[i]? = some s) :
    m.Free d i s := by
  obtain ⟨hlt, hfree, hfirst⟩ := List.findIdx?_eq_some_iff_getElem.mp hi
  rw [(List.getElem?_eq_some_iff.mp hs).2] at hfree
  simp only [Bool.and_eq_true, beq_iff_eq] at hfree
  refine ⟨fun t ht => ?_, hs, hfree.1, hfree.2, fun j t hj ht hu => ?_⟩
  · cases ht' : t.holds d with
    | false => rfl
    | true => exact (hd (List.any_eq_true.mpr ⟨t, ht, ht'⟩)).elim
  · have hno := hfirst j hj
    rw [(List.getElem?_eq_some_iff.mp ht).2] at hno
    simp only [Bool.and_eq_true, beq_iff_eq, not_and, Bool.not_eq_true] at hno
    exact hno hu

/-- Either nothing is bound and all slots stay as they are, or the first free slot is bound to the
device and one more source is open. -/
theorem Sound.assign_cases (h : m.Sound configs) (opener : Opener) (d : Identity) :
    ((m.assign opener d).2.slot? = none ∧ (m.assign opener d).1.slots = m.slots ∧
      (m.assign opener d).1.rig = m.rig ∧ (m.assign opener d).1.opened = m.opened) ∨
    ∃ i s p, m.Free d i s ∧ (m.assign opener d).2.slot? = some i ∧
      (m.assign opener d).1.slots = m.slots.set i (s.boundTo d ⟨m.opened, d.path⟩ p) ∧
      (m.assign opener d).1.rig = m.rig ∧ (m.assign opener d).1.opened = m.opened + 1 := by
  unfold Manager.assign
  simp only [slots_discover]
  split
  · exact Or.inl ⟨rfl, by simp, by simp, by simp⟩
  next hd =>
  have hfind : (m.discover d).freeSlot? d = m.freeSlot? d := by
    unfold freeSlot?
    rw [slots_discover]
  rw [hfind]
  cases hi : m.freeSlot? d with
  | none => exact Or.inl ⟨rfl, by simp, by simp, by simp⟩
  | some i =>
    cases hs : m.slots[i]? with
    | none =>
      simp only [hs]
      exact Or.inl ⟨rfl, by simp, by simp, by simp⟩
    | some s =>
      have hfree := free_of_findIdx hd hi hs
      obtain ⟨hsound, hid, -⟩ := h.slots i s hs
      have hreserve : s.reserve d = ((s.reserve d).1, .ok ()) := by
        simp only [Slot.reserve, if_pos hfree.unbound]
      simp only [hs]
      rw [hreserve]
      simp only
      unfold connect
      cases ho : opener d with
      | some e =>
        refine Or.inl ⟨rfl, ?_, by simp, by simp⟩
        simp only [slots_setSlot, slots_discover]
        rw [hsound.abort_reserve hfree.unbound]
        obtain ⟨hlt, rfl⟩ := List.getElem?_eq_some_iff.mp hs
        exact List.set_getElem_self hlt
      | none =>
        obtain ⟨p, hp⟩ := hsound.start_reserve hfree.unbound d ⟨m.opened, d.path⟩ m.rig
        refine Or.inr ⟨i, s, p, hfree, ?_⟩
        have hid' : (s.reserve d).1.id = i := by
          simp only [Slot.reserve, if_pos hfree.unbound, hid]
        simp [hp, Assignment.slot?, hid']

theorem Free.not_same {d : Identity} {i : Nat} {s : Slot} (h : m.Free d i s) {t : Slot}
    (ht : t ∈ m.slots) {e : Identity} (he : t.identity = some e) : ¬e.SameDevice d := by
  intro hs
  have hno := h.unheld t ht
  simp [Slot.holds, he, hs] at hno

theorem Sound.bind (h : m.Sound configs) {d : Identity} {i : Nat} {s : Slot}
    (hfree : m.Free d i s) (p : Pipeline) {m' : Manager}
    (hslots : m'.slots = m.slots.set i (s.boundTo d ⟨m.opened, d.path⟩ p))
    (hrig : m'.rig = m.rig) (hopened : m'.opened = m.opened + 1) : m'.Sound configs := by
  obtain ⟨hsound, hid, hconfig⟩ := h.slots i s hfree.slot
  have hlt : i < m.slots.length := (List.getElem?_eq_some_iff.mp hfree.slot).1
  have hsplit : ∀ (j : Nat) (t : Slot), m'.slots[j]? = some t →
      (j = i ∧ t = s.boundTo d ⟨m.opened, d.path⟩ p) ∨ (j ≠ i ∧ m.slots[j]? = some t) := by
    intro j t ht
    rw [hslots] at ht
    by_cases hj : i = j
    · subst hj
      rw [List.getElem?_set_self hlt] at ht
      cases ht
      exact Or.inl ⟨rfl, rfl⟩
    · rw [List.getElem?_set_ne hj] at ht
      exact Or.inr ⟨Ne.symm hj, ht⟩
  constructor
  · intro j t ht
    rcases hsplit j t ht with ⟨rfl, rfl⟩ | ⟨-, ht⟩
    · exact ⟨hsound.boundTo hfree.accepts _ p, hid, hconfig⟩
    · exact h.slots j t ht
  · intro j k t u e f ht hu he hf hef
    rcases hsplit j t ht with ⟨hj, rfl⟩ | ⟨-, ht⟩
    · rcases hsplit k u hu with ⟨hk, -⟩ | ⟨-, hu⟩
      · rw [hj, hk]
      · cases he
        exact (hfree.not_same (List.mem_of_getElem? hu) hf hef.symm).elim
    · rcases hsplit k u hu with ⟨-, rfl⟩ | ⟨-, hu⟩
      · cases hf
        exact (hfree.not_same (List.mem_of_getElem? ht) he hef).elim
      · exact h.distinct j k t u e f ht hu he hf hef
  · intro n
    have hset := running_set n hfree.slot (s.boundTo d ⟨m.opened, d.path⟩ p)
    have hbound := Slot.runs_boundTo n s d ⟨m.opened, d.path⟩ p
    have hidle : s.runs n = 0 := by
      rw [Slot.runs, hsound.worker.mp hfree.unbound]
      rfl
    have hold := h.sources n
    rw [hslots, hrig, hopened]
    simp only at hbound
    split at hold <;> split at hbound <;> split <;> omega

theorem Sound.assign (h : m.Sound configs) (opener : Opener) (d : Identity) :
    (m.assign opener d).1.Sound configs := by
  rcases h.assign_cases opener d with ⟨-, hslots, hrig, hopened⟩ |
    ⟨i, s, p, hfree, -, hslots, hrig, hopened⟩
  · refine h.keep ⟨?_, hopened, fun n => by rw [hslots, hrig]⟩
    rw [hslots]
    exact h.evolves_refl
  · exact h.bind hfree p hslots hrig hopened

theorem Sound.keeps_apply (h : m.Sound configs) {op : Operation} (ho : op.announced = none) :
    m.Keeps (m.apply op) := by
  cases op with
  | assign opener d => cases ho
  | remove d => exact h.keeps_remove d
  | handle opener change =>
    cases change with
    | added d => cases ho
    | removed d => exact h.keeps_remove d
  | tick b ms =>
    have hk := h.keeps_reap
    exact ⟨hk.slots, rfl, hk.sources⟩
  | setLed i status =>
    exact h.keeps_onSlot i (fun s hs => hs.setLed status) fun n s => Slot.runs_setLed n s status
  | setRumble i left right =>
    exact h.keeps_onSlot i (fun s hs => hs.command (.rumble left right)) fun n s =>
      Slot.runs_command n s (.rumble left right)
  | shutdown b => exact (h.keeps_shutdown b).1
  | work b reading ms i => exact h.keeps_work b reading ms i

theorem Sound.apply (h : m.Sound configs) (op : Operation) : (m.apply op).Sound configs := by
  cases ho : op.announced with
  | none => exact h.keep (h.keeps_apply ho)
  | some d =>
    obtain ⟨opener, heq⟩ := apply_of_announced ho m
    rw [heq]
    exact h.assign opener d

theorem Sound.applyAll (h : m.Sound configs) (ops : List Operation) :
    (m.applyAll ops).Sound configs := by
  induction ops generalizing m with
  | nil => exact h
  | cons op ops ih => exact ih (h.apply op)

theorem new_of_build {b : Backend} {k : Nat} {mux n : Multiplexer} {slots : List Slot}
    (h : build b (configs.zipIdx k) mux = (n, .ok slots)) {i : Nat} {s : Slot}
    (hs : slots[i]? = some s) : ∃ c, configs[i]? = some c ∧ Slot.new (k + i) c = .ok s := by
  induction configs generalizing k mux slots i with
  | nil =>
    cases h
    cases hs
  | cons c configs ih =>
    rw [List.zipIdx_cons, build] at h
    split at h
    · cases h
    · split at h
      · cases h
      · next t ht =>
        split at h
        · next n' rest hrest =>
          cases h
          cases i with
          | zero =>
            cases hs
            exact ⟨c, rfl, ht⟩
          | succ i =>
            obtain ⟨c', hc, hs'⟩ := ih hrest hs
            refine ⟨c', hc, ?_⟩
            rw [show k + (i + 1) = k + 1 + i by omega]
            exact hs'
        · next hno =>
          exact (hno _ _ h).elim

theorem sound_of_new {b : Backend} {name : String} (h : new b configs name = .ok m) :
    m.Sound configs := by
  unfold new at h
  split at h
  · cases h
  next mux slots hbuild =>
  split at h
  · cases h
  cases h
  have hnew : ∀ (i : Nat) (s : Slot), slots[i]? = some s →
      ∃ c, configs[i]? = some c ∧ s.Sound ∧ s.id = i ∧ s.config = c ∧ s.identity = none ∧
        s.worker = none := by
    intro i s hs
    obtain ⟨c, hc, hs⟩ := new_of_build hbuild hs
    rw [Nat.zero_add] at hs
    exact ⟨c, hc, Slot.Sound.new hs⟩
  constructor
  · intro i s hs
    obtain ⟨c, hc, hsound, hid, rfl, -⟩ := hnew i s hs
    exact ⟨hsound, hid, hc⟩
  · intro i j s t d e hs ht hd he hde
    obtain ⟨c, hc, -, -, -, hn, -⟩ := hnew i s hs
    rw [hn] at hd
    cases hd
  · intro n
    have hidle : ∀ s ∈ slots, s.worker = none := by
      intro s hs
      obtain ⟨i, hi⟩ := List.mem_iff_getElem?.mp hs
      obtain ⟨c, -, -, -, -, -, hw⟩ := hnew i s hi
      exact hw
    change Rig.released _ n + running n slots = _
    rw [running_eq_zero n hidle]
    rfl

/-- After any operations on a new manager no device is bound twice, every bound device is accepted
by its slot, and no slot waits for a device. A device is bound anew only if it was bound nowhere,
to the first free slot, and otherwise no slot changes. A shutdown leaves every slot unbound and
every opened source released once. -/
theorem binding_of_new {b : Backend} {name : String} {m₀ : Manager}
    (h : new b configs name = .ok m₀) (ops : List Operation) :
    let m := m₀.applyAll ops
    (∀ (i j : Nat) (s t : Slot) (d e : Identity), m.slots[i]? = some s → m.slots[j]? = some t →
      s.identity = some d → t.identity = some e → d.SameDevice e → i = j) ∧
    (∀ (i : Nat) (s : Slot) (d : Identity), m.slots[i]? = some s → s.identity = some d →
      ∃ c, configs[i]? = some c ∧ MatchRule.anyAccepts c.rules d = true) ∧
    (∀ s ∈ m.slots, s.state ≠ .connecting) ∧
    (∀ (opener : Opener) (d : Identity) (i : Nat), (m.assign opener d).2.slot? = some i →
      ∃ s t, m.Free d i s ∧ (m.assign opener d).1.slots = m.slots.set i t ∧
        t.state = .connected ∧ t.identity = some d ∧
        (m.assign opener d).1.opened = m.opened + 1) ∧
    (∀ (opener : Opener) (d : Identity), (m.assign opener d).2.slot? = none →
      (m.assign opener d).1.slots = m.slots ∧ (m.assign opener d).1.opened = m.opened) ∧
    ∀ b' : Backend, (∀ s ∈ (m.shutdown b').slots, s.state = .unbound) ∧
      ∀ n, (m.shutdown b').rig.released n = if n < m.opened then 1 else 0 := by
  intro m
  have hm : m.Sound configs := (sound_of_new h).applyAll ops
  refine ⟨hm.distinct, ?_, ?_, ?_, ?_, ?_⟩
  · intro i s d hs hd
    obtain ⟨hsound, -, hc⟩ := hm.slots i s hs
    exact ⟨s.config, hc, hsound.accepted d hd⟩
  · intro s hs
    obtain ⟨i, hi⟩ := List.mem_iff_getElem?.mp hs
    exact (hm.slots i s hi).1.settled
  · intro opener d i hi
    rcases hm.assign_cases opener d with ⟨hn, -⟩ | ⟨j, s, p, hfree, hj, hslots, -, hopened⟩
    · rw [hn] at hi
      cases hi
    · rw [hj] at hi
      cases hi
      exact ⟨s, _, hfree, hslots, rfl, rfl, hopened⟩
  · intro opener d hi
    rcases hm.assign_cases opener d with ⟨-, hslots, -, hopened⟩ | ⟨j, s, p, hfree, hj, -⟩
    · exact ⟨hslots, hopened⟩
    · rw [hj] at hi
      cases hi
  · intro b'
    obtain ⟨hsound, hunbound⟩ := hm.shutdown b'
    refine ⟨fun s hs => (hunbound s hs).1, fun n => ?_⟩
    have hn := hsound.sources n
    rw [running_eq_zero n fun s hs => (hunbound s hs).2] at hn
    exact hn

/-- A device that could not be opened at first is bound at the second try. When it vanishes and
comes back while its slot still stops, the other slot is left alone. -/
theorem binding_of_new_stopping :
    let c : SlotConfig := ⟨.empty, .empty, [], 0, none, []⟩
    let d : Identity := ⟨.mock, 0, 0, 0, 0, "pad", "Pad"⟩
    let fails : Opener := fun _ => some (.noHardware "pad")
    let works : Opener := fun _ => none
    ∃ m₀, new .reliable [c, c] "Pads" = .ok m₀ ∧
      let m := m₀.applyAll [.assign fails d, .assign works d, .remove d]
      m.slots.map Slot.state = [.disconnecting, .unbound] ∧
      (m.assign works d).1.slots = m.slots ∧
      (m.shutdown .reliable).rig.released 0 = 1 := by
  intro c d fails works
  let ops : List Operation := [.assign fails d, .assign works d, .remove d]
  have hrun : ((new .reliable [c, c] "Pads").toOption.map fun m =>
      ((m.applyAll ops).slots.map Slot.state, ((m.applyAll ops).assign works d).2.slot?,
        (m.applyAll ops).opened)) = some ([.disconnecting, .unbound], none, 1) := by
    decide +kernel
  cases hm : new .reliable [c, c] "Pads" with
  | error e =>
    rw [hm] at hrun
    cases hrun
  | ok m₀ =>
    rw [hm] at hrun
    simp only [Except.toOption, Option.map_some, Option.some.injEq, Prod.mk.injEq] at hrun
    obtain ⟨hstates, hnone, hopened⟩ := hrun
    obtain ⟨-, -, -, -, hassign, hshutdown⟩ := binding_of_new hm ops
    refine ⟨m₀, rfl, hstates, (hassign works d hnone).1, ?_⟩
    have hn := (hshutdown .reliable).2 0
    rw [hopened] at hn
    exact hn

end Manager

end PadRemap
