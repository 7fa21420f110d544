import PadRemap.Proofs.Output.Level

/-! From declarations to devices. While a multiplexer is being set up every declaration succeeds
and none is forgotten; activation makes one device of each declaration that is not empty, and an
output that has been declared is offered by its device from then on. -/

namespace PadRemap

namespace Blueprint

theorem allows_addKey (p : Blueprint) (code : UInt16) :
    (p.addKey code).allows .key code = true := by
  simp [allows, addKey]

theorem allows_addRel (p : Blueprint) (code : UInt16) :
    (p.addRel code).allows .rel code = true := by
  simp [allows, addRel]

theorem allows_addAbs (p : Blueprint) (code : UInt16) (range : AbsRange) :
    (p.addAbs code range).allows .abs code = true := by
  simp [allows, addAbs]

theorem allows_addKey_of_allows {p : Blueprint} {k : EventKind} {c : UInt16}
    (h : p.allows k c = true) (code : UInt16) : (p.addKey code).allows k c = true := by
  cases k with
  | key =>
    simp only [allows, addKey, Std.ExtTreeSet.contains_insert] at h ⊢
    simp [h]
  | _ => exact h

theorem allows_addRel_of_allows {p : Blueprint} {k : EventKind} {c : UInt16}
    (h : p.allows k c = true) (code : UInt16) : (p.addRel code).allows k c = true := by
  cases k with
  | rel =>
    simp only [allows, addRel, Std.ExtTreeSet.contains_insert] at h ⊢
    simp [h]
  | _ => exact h

theorem allows_addAbs_of_allows {p : Blueprint} {k : EventKind} {c : UInt16}
    (h : p.allows k c = true) (code : UInt16) (range : AbsRange) :
    (p.addAbs code range).allows k c = true := by
  cases k with
  | abs =>
    simp only [allows, addAbs, Std.ExtTreeMap.contains_insert] at h ⊢
    simp [h]
  | _ => exact h

theorem not_isEmpty_of_allows {p : Blueprint} {k : EventKind} {c : UInt16}
    (h : p.allows k c = true) : p.isEmpty = false := by
  by_contra he
  simp only [isEmpty, Bool.not_eq_false, Bool.and_eq_true] at he
  obtain ⟨⟨hk, hr⟩, ha⟩ := he
  cases k with
  | key => exact absurd h (by simp [allows, Std.ExtTreeSet.isEmpty_iff.mp hk])
  | rel => exact absurd h (by simp [allows, Std.ExtTreeSet.isEmpty_iff.mp hr])
  | abs => exact absurd h (by simp [allows, Std.ExtTreeMap.isEmpty_iff.mp ha])

end Blueprint

def Call.declares? : Call → Option Output
  | .addKey d code => some ⟨d, .key, code⟩
  | .addRel d code => some ⟨d, .rel, code⟩
  | .addAbs d code _ => some ⟨d, .abs, code⟩
  | _ => none

namespace Multiplexer

structure Declaring (m : Multiplexer) : Prop where
  finished : m.finished = false
  inactive : ∀ d, ¬m.IsActive d
  repeats : m.repeats = ∅
  created : m.journal.created = []
  batches : m.journal.batches = []

def Declares (m : Multiplexer) (o : Output) : Prop :=
  ∃ p, m.devices[o.device]? = some (.declared p) ∧ p.allows o.kind o.code = true

def Offers (m : Multiplexer) (o : Output) : Prop :=
  ∃ p q, m.devices[o.device]? = some (.active p q) ∧ p.allows o.kind o.code = true

/-- The active devices are those that the backend was given, each with its blueprint. -/
def Issued (m : Multiplexer) : Prop :=
  ∀ d p q, m.devices[d]? = some (.active p q) →
    (d, p) ∈ m.journal.created ∧ ∀ p', (d, p') ∈ m.journal.created → p' = p

theorem declaring_new (base : String) : (new base).Declaring where
  finished := rfl
  inactive d := by
    rintro ⟨b, q, h⟩
    simp [new] at h
  repeats := rfl
  created := rfl
  batches := rfl

variable {m : Multiplexer}

theorem Declaring.declare (h : m.Declaring) (d : DeviceId) {grow : Blueprint → Blueprint}
    {k : EventKind} {c : UInt16} (hnew : ∀ p, (grow p).allows k c = true)
    (hold : ∀ p k' c', Blueprint.allows p k' c' = true → (grow p).allows k' c' = true) :
    ∃ n, m.declare d grow = (n, .ok ()) ∧ n.Declaring ∧ n.Declares ⟨d, k, c⟩ ∧
      ∀ o, m.Declares o → n.Declares o := by
  have key : ∀ p, (∀ o, m.Declares o → o.device = d → p.allows o.kind o.code = true) →
      ({ m with devices := m.devices.insert d (.declared (grow p)) } : Multiplexer).Declaring ∧
      ({ m with devices := m.devices.insert d (.declared (grow p)) } : Multiplexer).Declares
        ⟨d, k, c⟩ ∧
      ∀ o, m.Declares o →
        ({ m with devices := m.devices.insert d (.declared (grow p)) } : Multiplexer).Declares
          o := by
    intro p hp
    refine ⟨⟨h.finished, ?_, h.repeats, h.created, h.batches⟩, ?_, ?_⟩
    · rintro a ⟨b, q, ha⟩
      simp only [Std.ExtTreeMap.getElem?_insert] at ha
      split at ha
      · cases ha
      · exact h.inactive a ⟨b, q, ha⟩
    · exact ⟨grow p, by simp, hnew p⟩
    · intro o ho
      by_cases hd : o.device = d
      · exact ⟨grow p, by simp [hd], hold p _ _ (hp o ho hd)⟩
      · obtain ⟨p', hp', ha⟩ := ho
        refine ⟨p', ?_, ha⟩
        rw [Std.ExtTreeMap.getElem?_insert, if_neg (by simpa using Ne.symm hd)]
        exact hp'
  unfold Multiplexer.declare
  rw [if_neg (by simp [h.finished])]
  split
  · next b q hd => exact (h.inactive d ⟨b, q, hd⟩).elim
  · next p hd =>
    refine ⟨_, rfl, key p ?_⟩
    rintro o ⟨p', hp', ha⟩ rfl
    rw [hd] at hp'
    cases hp'
    exact ha
  · next hd =>
    refine ⟨_, rfl, key _ ?_⟩
    rintro o ⟨p', hp', -⟩ rfl
    rw [hd] at hp'
    cases hp'

theorem Declaring.perform (h : m.Declaring) (b : Backend) {c : Call} {o : Output}
    (hc : c.declares? = some o) :
    ∃ n, m.perform b c = (n, .ok ()) ∧ n.Declaring ∧ n.Declares o ∧
      ∀ o', m.Declares o' → n.Declares o' := by
  cases c with
  | addKey d code =>
    cases hc
    exact h.declare d (fun p => p.allows_addKey code) fun _ _ _ hp =>
      Blueprint.allows_addKey_of_allows hp code
  | addRel d code =>
    cases hc
    exact h.declare d (fun p => p.allows_addRel code) fun _ _ _ hp =>
      Blueprint.allows_addRel_of_allows hp code
  | addAbs d code range =>
    cases hc
    exact h.declare d (fun p => p.allows_addAbs code range) fun _ _ _ hp =>
      Blueprint.allows_addAbs_of_allows hp code range
  | _ => cases hc

theorem Declaring.performAll (h : m.Declaring) (b : Backend) {cs : List Call}
    (hcs : ∀ c ∈ cs, ∃ o, c.declares? = some o) :
    ∃ n, m.performAll b cs = (n, .ok ()) ∧ n.Declaring ∧
      (∀ c ∈ cs, ∀ o, c.declares? = some o → n.Declares o) ∧ ∀ o, m.Declares o → n.Declares o := by
  induction cs generalizing m with
  | nil => exact ⟨m, rfl, h, by simp, fun _ ho => ho⟩
  | cons c cs ih =>
    obtain ⟨o, hc⟩ := hcs c List.mem_cons_self
    obtain ⟨n, hn, hdec, hnew, hold⟩ := h.perform b hc
    obtain ⟨n', hn', hdec', hnew', hold'⟩ := ih hdec fun c hc => hcs c (List.mem_cons_of_mem _ hc)
    refine ⟨n', by simpa [Multiplexer.performAll, hn] using hn', hdec', ?_, ?_⟩
    · intro c' hc' o' ho'
      rcases List.mem_cons.mp hc' with rfl | hc'
      · rw [hc] at ho'
        cases ho'
        exact hold' o hnew
      · exact hnew' c' hc' o' ho'
    · intro o' ho'
      exact hold' o' (hold o' ho')

/-- The device that activation makes of a declaration. -/
def activated (m : Multiplexer) (d : DeviceId) : Option Blueprint :=
  match m.devices[d]? with
  | some (.declared p) => if p.isEmpty then none else some p
  | _ => none

def refusal (m : Multiplexer) (b : Backend) (d : DeviceId) : Option Fault :=
  (m.activated d).bind (b.create d)

theorem refusal_of_obeying {b : Backend} (hb : ∀ d p, b.create d p = none) (m : Multiplexer)
    (d : DeviceId) : m.refusal b d = none := by
  unfold refusal
  cases m.activated d with
  | none => rfl
  | some p => exact hb d p

theorem mem_deviceIds {d : DeviceId} : d ∈ m.deviceIds ↔ m.devices[d]? ≠ none := by
  rw [deviceIds, Std.ExtTreeMap.mem_keys, Std.ExtTreeMap.mem_iff_isSome_getElem?,
    Option.isSome_iff_ne_none]

theorem activated_of_not_mem {d : DeviceId} (hd : d ∉ m.deviceIds) : m.activated d = none := by
  have hnone : m.devices[d]? = none := not_not.mp (mem_deviceIds.not.mp hd)
  rw [activated, hnone]

theorem declared_of_activated {d : DeviceId} {p : Blueprint} (hd : m.activated d = some p) :
    m.devices[d]? = some (.declared p) ∧ p.isEmpty = false := by
  unfold activated at hd
  split at hd
  · next x hx =>
    split at hd
    · cases hd
    · next he =>
      cases hd
      exact ⟨hx, by simpa using he⟩
  · cases hd

/-- What activating some devices makes of a multiplexer. -/
structure Activates (ids : List DeviceId) (m n : Multiplexer) : Prop where
  devices : ∀ d, n.devices[d]? =
    if d ∈ ids then (m.activated d).map (Device.active · []) else m.devices[d]?
  created : n.journal.created =
    m.journal.created ++ ids.filterMap fun d => (m.activated d).map fun p => (d, p)
  batches : n.journal.batches = m.journal.batches
  repeats : n.repeats = m.repeats

namespace Activates

variable {d : DeviceId} {ids : List DeviceId} {n k : Multiplexer}

theorem nil (m : Multiplexer) : Activates [] m m where
  devices _ := (if_neg List.not_mem_nil).symm
  created := (List.append_nil _).symm
  batches := rfl
  repeats := rfl

theorem activated_of_notMem (h : Activates ids m n) (hd : d ∉ ids) :
    n.activated d = m.activated d := by
  unfold activated
  rw [h.devices, if_neg hd]

theorem erase (hd : m.activated d = none) :
    Activates [d] m { m with devices := m.devices.erase d } where
  devices a := by
    rw [Std.ExtTreeMap.getElem?_erase]
    by_cases ha : a = d
    · subst ha
      simp [hd]
    · simp [ha, Ne.symm ha]
  created := by simp [hd]
  batches := rfl
  repeats := rfl

theorem insert {p : Blueprint} (hd : m.activated d = some p) :
    Activates [d] m
      { m with
        devices := m.devices.insert d (.active p [])
        journal := { m.journal with created := m.journal.created ++ [(d, p)] } } where
  devices a := by
    rw [Std.ExtTreeMap.getElem?_insert]
    by_cases ha : a = d
    · subst ha
      simp [hd]
    · simp [ha, Ne.symm ha]
  created := by simp [hd]
  batches := rfl
  repeats := rfl

/-- The rest of an activation does not see what has become of the first device. -/
theorem cons (hd : d ∉ ids) (h : Activates [d] m n) (hrest : Activates ids n k) :
    Activates (d :: ids) m k := by
  have hother : ∀ a ∈ ids, n.activated a = m.activated a := by
    intro a ha
    refine h.activated_of_notMem fun hmem => hd ?_
    rwa [← List.mem_singleton.mp hmem]
  refine ⟨fun a => ?_, ?_, hrest.batches.trans h.batches, hrest.repeats.trans h.repeats⟩
  · rw [hrest.devices]
    by_cases ha : a ∈ ids
    · rw [if_pos ha, if_pos (List.mem_cons_of_mem d ha), hother a ha]
    · rw [if_neg ha, h.devices]
      by_cases had : a = d
      · subst had
        rw [if_pos (List.mem_singleton_self _), if_pos List.mem_cons_self]
      · rw [if_neg (by simpa using had), if_neg (by simp [had, ha])]
  · have htail : ids.filterMap (fun a => (n.activated a).map fun p => (a, p)) =
        ids.filterMap fun a => (m.activated a).map fun p => (a, p) :=
      List.filterMap_congr fun a ha => by rw [hother a ha]
    rw [hrest.created, h.created, htail, List.append_assoc, ← List.filterMap_append,
      List.singleton_append]

/-- When all devices have been activated, only those that were declared are left. -/
theorem devices_of_all (h : Activates m.deviceIds m n) (d : DeviceId) :
    n.devices[d]? = (m.activated d).map (Device.active · []) := by
  rw [h.devices]
  split
  · rfl
  · next hd =>
    rw [activated_of_not_mem hd]
    exact not_not.mp (mem_deviceIds.not.mp hd)

theorem mem_created (h : Activates m.deviceIds m n) (hm : m.journal.created = []) {d : DeviceId}
    {p : Blueprint} : (d, p) ∈ n.journal.created ↔ m.activated d = some p := by
  rw [h.created, hm, List.nil_append, List.mem_filterMap]
  constructor
  · rintro ⟨a, -, ha⟩
    obtain ⟨p', hp', heq⟩ := Option.map_eq_some_iff.mp ha
    cases heq
    exact hp'
  · intro hp
    have hd : d ∈ m.deviceIds := by
      rw [mem_deviceIds, (declared_of_activated hp).1]
      exact Option.some_ne_none _
    exact ⟨d, hd, by rw [hp]; rfl⟩

end Activates

theorem activate_cons {b : Backend} {d : DeviceId} (ids : List DeviceId)
    (hb : m.refusal b d = none) :
    ∃ n, Activates [d] m n ∧ activate b (d :: ids) m = activate b ids n := by
  cases hm : m.devices[d]? with
  | none =>
    have hact : m.activated d = none := by rw [activated, hm]
    exact ⟨_, .erase hact, by simp [activate, hm]⟩
  | some v =>
    cases v with
    | active p q =>
      have hact : m.activated d = none := by rw [activated, hm]
      exact ⟨_, .erase hact, by simp [activate, hm]⟩
    | declared p =>
      by_cases hp : p.isEmpty = true
      · have hact : m.activated d = none := by simp [activated, hm, hp]
        exact ⟨_, .erase hact, by simp [activate, hm, hp]⟩
      · have hact : m.activated d = some p := by simp [activated, hm, hp]
        have hcreate : b.create d p = none := by
          rw [refusal, hact] at hb
          exact hb
        exact ⟨_, .insert hact, by simp [activate, hm, hp, hcreate]⟩

theorem activate_eq {b : Backend} {ids : List DeviceId} (hn : ids.Nodup) {m : Multiplexer}
    (hb : ∀ d ∈ ids, m.refusal b d = none) :
    ∃ n, activate b ids m = (n, .ok ()) ∧ Activates ids m n := by
  induction ids generalizing m with
  | nil => exact ⟨m, rfl, .nil m⟩
  | cons d ids ih =>
    obtain ⟨hd, hn⟩ := List.nodup_cons.mp hn
    obtain ⟨n, hfirst, hstep⟩ := activate_cons ids (hb d List.mem_cons_self)
    have hrefusal : ∀ a ∈ ids, n.refusal b a = none := by
      intro a ha
      have hne : a ∉ [d] := by
        intro hmem
        rw [List.mem_singleton.mp hmem] at ha
        exact hd ha
      rw [refusal, hfirst.activated_of_notMem hne]
      exact hb a (List.mem_cons_of_mem _ ha)
    obtain ⟨k, hrun, hrest⟩ := ih hn hrefusal
    exact ⟨k, hstep.trans hrun, hfirst.cons hd hrest⟩

theorem finish_eq {b : Backend} (hf : m.finished = false) (hb : ∀ d, m.refusal b d = none) :
    ∃ n, m.finish b = ({ n with finished := true }, .ok ()) ∧ Activates m.deviceIds m n := by
  have hnodup : m.deviceIds.Nodup := Std.ExtTreeMap.nodup_keys
  obtain ⟨n, hrun, hall⟩ := activate_eq hnodup fun d _ => hb d
  exact ⟨n, by rw [finish, if_neg (by simp [hf]), hrun], hall⟩

/-- Activation leaves the multiplexer fresh, and it offers what has been declared. -/
theorem Declaring.finish (h : m.Declaring) {b : Backend} (hb : ∀ d, m.refusal b d = none) :
    ∃ n, m.finish b = (n, .ok ()) ∧ n.Fresh ∧ n.Issued ∧ ∀ o, m.Declares o → n.Offers o := by
  obtain ⟨n, hrun, hall⟩ := finish_eq h.finished hb
  refine ⟨{ n with finished := true }, hrun, ⟨rfl, ?_, ?_, ?_⟩, ?_, ?_⟩
  · intro d
    simp only [waiting, hall.devices_of_all]
    cases m.activated d <;> rfl
  · exact hall.repeats.trans h.repeats
  · exact hall.batches.trans h.batches
  · intro d p q hd
    rw [hall.devices_of_all] at hd
    obtain ⟨p', hp', heq⟩ := Option.map_eq_some_iff.mp hd
    cases heq
    refine ⟨(hall.mem_created h.created).mpr hp', ?_⟩
    intro p'' hp''
    have heq : some p'' = some p := ((hall.mem_created h.created).mp hp'').symm.trans hp'
    exact Option.some.inj heq
  · rintro o ⟨p, hp, ha⟩
    have hact : m.activated o.device = some p := by
      simp [activated, hp, Blueprint.not_isEmpty_of_allows ha]
    refine ⟨p, [], ?_, ha⟩
    rw [hall.devices_of_all, hact]
    rfl

end Multiplexer

end PadRemap
