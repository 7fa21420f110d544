import PadRemap.Manager.Manager
import PadRemap.Proofs.Filter.Building
import PadRemap.Proofs.Mapper.Reach
import PadRemap.Proofs.Output.Declaring

/-! A validated configuration can always run. What a slot declares while the manager is set up and
what its mapper writes later come from the same tables; so every output that is ever written to has
been declared, its device is not empty, and the device was created with that capability. -/

namespace PadRemap

open Mapper (Job)

def SlotConfig.wiring (c : SlotConfig) : Wiring := ⟨c.buttons, c.axes, c.group⟩

def Slot.wiring (s : Slot) : Wiring := s.config.wiring

theorem ButtonEvent.declares_of_mem {group : UInt16} {e : ButtonEvent} {c : Call}
    (h : c ∈ e.declarations group) : ∃ o, c.declares? = some o := by
  cases e with
  | void => cases h
  | _ =>
    cases List.mem_singleton.mp h
    exact ⟨_, rfl⟩

theorem ButtonEvent.exists_declares {group : UInt16} {e : ButtonEvent} {o : Output}
    (h : e.output? group = some o) : ∃ c ∈ e.declarations group, c.declares? = some o := by
  cases e with
  | void => cases h
  | _ => exact ⟨_, List.mem_cons_self, h⟩

theorem AxisEvent.declares_of_mem {group : UInt16} {a : Axis} {e : AxisEvent} {c : Call}
    (h : c ∈ e.declarations group a) : ∃ o, c.declares? = some o := by
  cases e with
  | void => cases h
  | _ =>
    cases List.mem_singleton.mp h
    exact ⟨_, rfl⟩

theorem AxisEvent.exists_declares {group : UInt16} (a : Axis) {e : AxisEvent} {o : Output}
    (h : e.output? group = some o) : ∃ c ∈ e.declarations group a, c.declares? = some o := by
  cases e with
  | void => cases h
  | _ => exact ⟨_, List.mem_cons_self, h⟩

theorem ButtonBindings.mem_events_of_binds {t : ButtonBindings} {b : Button} {e : ButtonEvent}
    (h : t.Binds b e) (hv : e ≠ .void) : e ∈ t.events := by
  have hvoid : e.isVoid = false := by
    cases e with
    | void => exact (hv rfl).elim
    | _ => rfl
  have hrow : ∀ s row, (s, row) ∈ t.rows → row.get b = e → e ∈ t.events := by
    intro s row hrow hget
    refine List.mem_map.mpr ⟨(s, b, e), ?_, rfl⟩
    refine List.mem_flatMap.mpr ⟨(s, row), hrow, List.mem_filter.mpr ⟨?_, by simp [hvoid]⟩⟩
    exact List.mem_map.mpr ⟨b, Enumerated.mem_all b, by rw [hget]⟩
  rcases h with rfl | ⟨s, rfl⟩
  · exact hrow none t.plain List.mem_cons_self rfl
  · refine hrow (some s) (t.shifted.get s) (List.mem_cons_of_mem _ ?_) rfl
    exact List.mem_map.mpr ⟨s, Enumerated.mem_all s, rfl⟩

namespace SlotConfig

theorem declares_of_mem {s : SlotConfig} {c : Call} (h : c ∈ s.declarations) :
    ∃ o, c.declares? = some o := by
  rcases List.mem_append.mp h with h | h
  · obtain ⟨e, -, hc⟩ := List.mem_flatMap.mp h
    exact ButtonEvent.declares_of_mem hc
  · obtain ⟨a, -, hc⟩ := List.mem_flatMap.mp h
    exact AxisEvent.declares_of_mem hc

/-- A slot declares every output that its mapper can reach. -/
theorem exists_declares {s : SlotConfig} {o : Output} (h : s.wiring.Uses o) :
    ∃ c ∈ s.declarations, c.declares? = some o := by
  obtain ⟨b | a, hx⟩ := h
  · obtain ⟨e, hb, ho⟩ := hx
    have hv : e ≠ .void := by
      rintro rfl
      cases ho
    obtain ⟨c, hc, hd⟩ := ButtonEvent.exists_declares ho
    have he : e ∈ s.buttons.events := ButtonBindings.mem_events_of_binds hb hv
    exact ⟨c, List.mem_append_left _ (List.mem_flatMap.mpr ⟨e, he, hc⟩), hd⟩
  · obtain ⟨c, hc, hd⟩ := AxisEvent.exists_declares a hx
    have ha : a ∈ Axis.all := Enumerated.mem_all a
    exact ⟨c, List.mem_append_right _ (List.mem_flatMap.mpr ⟨a, ha, hc⟩), hd⟩

end SlotConfig

structure Slot.Ready (s : Slot) : Prop where
  unbound : s.state = .unbound
  pipeline : ∃ p, s.pipeline = some p ∧ p.mapper = s.wiring.mapper

theorem Slot.new_ok (id : Nat) {c : SlotConfig} {p : Pipeline} (h : Pipeline.ofConfig c = .ok p) :
    ∃ s, Slot.new id c = .ok s ∧ s.config = c ∧ s.Ready := by
  refine ⟨_, by rw [Slot.new, h], rfl, rfl, p, rfl, ?_⟩
  unfold Pipeline.ofConfig at h
  cases hc : Chain.ofSpecs c.filters with
  | error e => rw [hc] at h; cases h
  | ok chain =>
    rw [hc] at h
    cases h
    rfl

namespace Manager

open Multiplexer

/-- Building slots whose filters can be built: the outputs of all of them are declared. -/
theorem build_ok (b : Backend) {configs : List (SlotConfig × Nat)}
    (hc : ∀ c ∈ configs, ∃ p, Pipeline.ofConfig c.1 = .ok p) {m : Multiplexer}
    (hm : m.Declaring) :
    ∃ n slots, build b configs m = (n, .ok slots) ∧ n.Declaring ∧
      slots.map Slot.config = configs.map Prod.fst ∧ (∀ s ∈ slots, s.Ready) ∧
      (∀ s ∈ slots, ∀ o, s.wiring.Uses o → n.Declares o) ∧ ∀ o, m.Declares o → n.Declares o := by
  induction configs generalizing m with
  | nil => exact ⟨m, [], rfl, hm, rfl, by simp, by simp, fun _ ho => ho⟩
  | cons c configs ih =>
    obtain ⟨config, id⟩ := c
    obtain ⟨n, hn, hdec, hnew, hold⟩ := hm.performAll b fun c hc =>
      SlotConfig.declares_of_mem (s := config) hc
    obtain ⟨p, hp⟩ := hc _ List.mem_cons_self
    obtain ⟨s, hs, hconf, hready⟩ := Slot.new_ok id hp
    obtain ⟨n', slots, hb, hdec', hmap, hready', huses, hold'⟩ :=
      ih (fun c h => hc c (List.mem_cons_of_mem _ h)) hdec
    refine ⟨n', s :: slots, ?_, hdec', ?_, ?_, ?_, fun o ho => hold' o (hold o ho)⟩
    · simp only [build, hn, hs, hb]
    · simp [hmap, hconf]
    · intro t ht
      rcases List.mem_cons.mp ht with rfl | ht
      · exact hready
      · exact hready' t ht
    · intro t ht o ho
      rcases List.mem_cons.mp ht with rfl | ht
      · rw [Slot.wiring, hconf] at ho
        obtain ⟨c, hc, hd⟩ := SlotConfig.exists_declares ho
        exact hold' o (hnew c hc o hd)
      · exact huses t ht o ho

structure Ready (m : Manager) : Prop where
  slots : ∀ s ∈ m.slots, s.Ready
  fresh : m.rig.mux.Fresh
  issued : m.rig.mux.Issued
  offers : ∀ s ∈ m.slots, ∀ o, s.wiring.Uses o → m.rig.mux.Offers o

theorem new_ok {b : Backend} (hb : ∀ d p, b.create d p = none) {configs : List SlotConfig}
    (hc : ∀ c ∈ configs, ∃ p, Pipeline.ofConfig c = .ok p) (name : String) :
    ∃ m, new b configs name = .ok m ∧ m.slots.map Slot.config = configs ∧ m.Ready := by
  have hc' : ∀ c ∈ configs.zipIdx, ∃ p, Pipeline.ofConfig c.1 = .ok p := by
    intro c h
    exact hc c.1 (List.fst_mem_of_mem_zipIdx h)
  obtain ⟨n, slots, hbuild, hdec, hmap, hready, huses, -⟩ := build_ok b hc' (declaring_new name)
  obtain ⟨n', hfin, hfresh, hissued, hoffers⟩ := hdec.finish (refusal_of_obeying hb n)
  refine ⟨{ slots, rig := { mux := n' } }, ?_, ?_, hready, hfresh, hissued, ?_⟩
  · simp only [new, hbuild, hfin]
  · rw [hmap, List.zipIdx_map_fst]
  · intro s hs o ho
    exact hoffers o (huses s hs o ho)

end Manager

theorem SlotSection.pipeline_of_check {s : SlotSection} {index : Nat} {c : SlotConfig}
    (h : s.check index = .ok c) : ∃ p, Pipeline.ofConfig c = .ok p := by
  obtain ⟨chain, hf, h⟩ := Except.bind_eq_ok.mp h
  obtain ⟨buttons, -, h⟩ := Except.bind_eq_ok.mp h
  obtain ⟨axes, -, h⟩ := Except.bind_eq_ok.mp h
  have hc : c.filters = s.filters := by
    cases h
    rfl
  refine ⟨⟨chain, .new c.buttons c.axes c.group⟩, ?_⟩
  rw [Pipeline.ofConfig, hc, Except.mapError_eq_ok.mp hf]
  rfl

namespace Config

theorem slotConfigs_of_validate {c : Config} (h : c.validate = .ok ()) :
    ∃ configs, c.slotConfigs = .ok configs ∧
      ∀ s ∈ configs, ∃ p, Pipeline.ofConfig s = .ok p := by
  unfold validate at h
  split at h
  · cases h
  obtain ⟨-, -, h⟩ := Except.bind_eq_ok.mp h
  obtain ⟨configs, hc, -⟩ := Except.bind_eq_ok.mp h
  refine ⟨configs, hc, fun s hs => ?_⟩
  obtain ⟨⟨_, index⟩, -, hx⟩ := exists_of_mapM_ok hc hs
  exact SlotSection.pipeline_of_check (Except.mapError_eq_ok.mp hx)

/-- A validated configuration makes a manager with all slots unbound. However its mappers are used
from then on, no call on the multiplexer fails, and what is written to a device was declared for
it before it was created. -/
theorem runs_of_validate {c : Config} (hc : c.validate = .ok ()) {b : Backend}
    (hb : ∀ d p, b.create d p = none) :
    ∃ m, Manager.ofConfig b c = .ok m ∧ c.slotConfigs = .ok (m.slots.map Slot.config) ∧
      (∀ s ∈ m.slots, s.state = .unbound ∧
        ∃ p, s.pipeline = some p ∧ p.mapper = s.wiring.mapper) ∧
      ∀ (scripts : Fin m.slots.length → List Job) (moves : List (Move (Fin m.slots.length))),
        (∀ mv ∈ moves, mv.backend.Obeys) →
        let e := (Ensemble.start m.rig.mux (fun i => m.slots[i].wiring) scripts).run moves
        (∀ mv : Move (Fin m.slots.length), mv.backend.Obeys → e.answer mv = .ok ()) ∧
        ∀ x ∈ Journal.events e.mux.journal.batches, ∃ p, (x.1, p) ∈ e.mux.journal.created ∧
          (∀ q, (x.1, q) ∈ e.mux.journal.created → q = p) ∧
          p.allows x.2.kind x.2.code = true := by
  obtain ⟨configs, hconfigs, hpipe⟩ := slotConfigs_of_validate hc
  obtain ⟨m, hm, hmap, hready⟩ := Manager.new_ok hb hpipe c.settings.deviceName
  refine ⟨m, ?_, ?_, fun s hs => ⟨(hready.slots s hs).unbound, (hready.slots s hs).pipeline⟩, ?_⟩
  · simp only [Manager.ofConfig, hconfigs, hm, Except.mapError]
  · rw [hmap]
    exact hconfigs
  · intro scripts moves hmoves e
    have he := Ensemble.Confined.run hready.fresh (fun i : Fin m.slots.length => m.slots[i].wiring)
      scripts moves
    have hoffers : ∀ o, Ensemble.Reaches (fun i : Fin m.slots.length => m.slots[i].wiring) o →
        m.rig.mux.Offers o := by
      rintro o ⟨i, hi⟩
      exact hready.offers _ (List.getElem_mem _) o hi
    constructor
    · intro mv hmv
      refine he.wired.answer (fun o ho => ?_) hmv
      obtain ⟨p, q, hd, -⟩ := hoffers o ho
      exact ⟨p, q, hd⟩
    · intro x hx
      obtain ⟨p, q, hd, ha⟩ := hoffers _ (he.events x hx)
      obtain ⟨hin, huniq⟩ := hready.issued _ p q hd
      rw [he.wired.devices.2]
      exact ⟨p, hin, huniq, ha⟩

/-- Two slots on one output group, one of them with a shifted key and a relative axis. -/
theorem runs_of_validate_shared_group :
    let c : Config :=
      { slots :=
          [{}, { group := some 0, standardBindings := false,
                 buttons := [("LB+A", "KEY_A")], axes := [("X1", "REL_X:5:20")] }] }
    ∃ m, Manager.ofConfig .reliable c = .ok m ∧ m.slots.length = 2 ∧
      ∀ s ∈ m.slots, s.state = .unbound := by
  intro c
  have hc : c.validate = .ok () := by decide +kernel
  have hlen : (c.slotConfigs.toOption.map List.length) = some 2 := by decide +kernel
  obtain ⟨m, hm, hslots, hunbound, -⟩ := runs_of_validate hc (b := .reliable) fun _ _ => rfl
  refine ⟨m, hm, ?_, fun s hs => (hunbound s hs).1⟩
  rw [hslots] at hlen
  simpa [Except.toOption] using hlen

end Config

end PadRemap
