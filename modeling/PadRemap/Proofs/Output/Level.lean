import PadRemap.Proofs.Output.Service

/-! What an output is held at: the value written last to a key or an absolute axis, or the timer
that repeats a relative axis. A call of a mapper sets the levels of the outputs it names and leaves
all others alone; the passing of time changes none. -/

namespace PadRemap

/-- Nothing at rest, else a value and, for relative motion, the milliseconds between two events. -/
abbrev Level := Option (Int × Nat)

namespace Level

def hold (v : Int) : Level := if v = 0 then none else some (v, 0)

def motion (v interval : Int) : Level :=
  if interval < 0 then none else some (v, max interval.toNat 1)

@[simp] theorem hold_zero : hold 0 = none := rfl

theorem hold_eq_none {v : Int} : hold v = none ↔ v = 0 := by
  unfold hold; split <;> simp_all

theorem hold_injective {v w : Int} (h : hold v = hold w) : v = w := by
  unfold hold at h
  split at h <;> split at h <;> simp_all

theorem motion_of_neg (v : Int) {interval : Int} (h : interval < 0) : motion v interval = none :=
  if_pos h

theorem motion_eq_some {v interval : Int} {x : Int × Nat} :
    motion v interval = some x ↔ 0 ≤ interval ∧ x = (v, max interval.toNat 1) := by
  unfold motion
  split
  · simp; omega
  · simp only [Option.some.injEq]
    exact ⟨fun h => ⟨by omega, h.symm⟩, fun h => h.2.symm⟩

end Level

def Event.output (d : DeviceId) (e : Event) : Output := ⟨d, e.kind, e.code⟩

def Backend.Obeys (b : Backend) : Prop := ∀ d es, b.emit d es = none

namespace Call

/-- The level that a call gives to an output, if it sets one. Relative motion leaves no trace. -/
def writes (o : Output) : Call → Option Level
  | .frame es =>
    if o.kind = .rel then none
    else (Journal.lastValue o.kind o.code (Journal.eventsOn o.device es)).map Level.hold
  | .setRepeat d code v interval =>
    if o = ⟨d, .rel, code⟩ then some (Level.motion v interval) else none
  | _ => none

def Targets (p : Output → Prop) : Call → Prop
  | .frame es => ∀ x ∈ es, p (x.2.output x.1)
  | .setRepeat d code _ _ => p ⟨d, .rel, code⟩
  | _ => False

theorem Targets.imp {p q : Output → Prop} (hpq : ∀ o, p o → q o) {c : Call} (h : c.Targets p) :
    c.Targets q := by
  cases c with
  | frame es => exact fun x hx => hpq _ (h x hx)
  | setRepeat d code v i => exact hpq _ h
  | _ => exact h

end Call

namespace Multiplexer

/-- What an output is held at. -/
def level (m : Multiplexer) (o : Output) : Level :=
  if o.kind = .rel then m.timerOn ⟨o.device, o.code⟩ else Level.hold ((m.valueOn o).getD 0)

theorem level_rel (m : Multiplexer) (d : DeviceId) (code : UInt16) :
    m.level ⟨d, .rel, code⟩ = m.timerOn ⟨d, code⟩ := rfl

theorem level_of_ne_rel {m : Multiplexer} {o : Output} (h : o.kind ≠ .rel) :
    m.level o = Level.hold ((m.valueOn o).getD 0) := if_neg h

def SameDevices (m n : Multiplexer) : Prop :=
  m.devices = n.devices ∧ m.journal.created = n.journal.created

theorem SameDevices.trans {l m n : Multiplexer} (h : l.SameDevices m) (k : m.SameDevices n) :
    l.SameDevices n :=
  ⟨h.1.trans k.1, h.2.trans k.2⟩

theorem SameDevices.isActive {m n : Multiplexer} (h : m.SameDevices n) {d : DeviceId}
    (hd : n.IsActive d) : m.IsActive d := by
  obtain ⟨b, q, hd⟩ := hd
  exact ⟨b, q, by rw [h.1, hd]⟩

/-- A multiplexer as its activation leaves it. -/
structure Fresh (m : Multiplexer) : Prop where
  finished : m.finished = true
  quiet : m.Quiet
  repeats : m.repeats = ∅
  batches : m.journal.batches = []

theorem fresh_insert (base : String) (d : DeviceId) (p : Blueprint) :
    ({ base, devices := (∅ : DeviceMap Device).insert d (.active p []), finished := true } :
      Multiplexer).Fresh := by
  refine ⟨rfl, fun a => ?_, rfl, rfl⟩
  unfold Multiplexer.waiting
  by_cases ha : d = a
  · subst ha
    simp [Device.waiting]
  · simp [ha]

theorem Fresh.inService {m : Multiplexer} (h : m.Fresh) : m.InService :=
  ⟨h.finished, h.quiet, fun o ho => by simp [h.repeats] at ho⟩

theorem Fresh.level {m : Multiplexer} (h : m.Fresh) (o : Output) : m.level o = none := by
  unfold Multiplexer.level timerOn valueOn written
  rw [h.repeats, h.batches]
  split <;> simp [Journal.events]

theorem valueOn_deliver (b : Backend) (m : Multiplexer) (es : List (DeviceId × Event))
    (o : Output) :
    (m.log (batchesOf b es)).valueOn o =
      (Journal.lastValue o.kind o.code (accepted b o.device (Journal.eventsOn o.device es))).or
        (m.valueOn o) := by
  rw [valueOn, written_batchesOf, Journal.lastValue_append]
  rfl

theorem level_deliver {b : Backend} {es : List (DeviceId × Event)} (h : verdictOf b es = .ok ())
    (m : Multiplexer) (o : Output) :
    (m.log (batchesOf b es)).level o = ((Call.frame es).writes o).getD (m.level o) := by
  by_cases hk : o.kind = .rel
  · simp [level, Call.writes, hk]
  · have ha : accepted b o.device (Journal.eventsOn o.device es)
        = Journal.eventsOn o.device es := by
      by_cases ht : o.device ∈ touched es
      · rcases verdict_eq_ok_iff.mp h _ ht with hn | he
        · simp [accepted, hn]
        · simp [accepted, he]
      · simp [eventsOn_eq_nil_iff.mpr ht, accepted]
    rw [level_of_ne_rel hk, level_of_ne_rel hk, valueOn_deliver, ha, Call.writes, if_neg hk]
    cases Journal.lastValue o.kind o.code (Journal.eventsOn o.device es) <;> rfl

/-- A delivery, taken or not, leaves the levels of all outputs alone that it does not name. -/
theorem level_deliver_of_not_named (b : Backend) (m : Multiplexer) {es : List (DeviceId × Event)}
    {o : Output} (h : ∀ x ∈ es, x.2.kind ≠ .rel → x.2.output x.1 ≠ o) :
    (m.log (batchesOf b es)).level o = m.level o := by
  by_cases hk : o.kind = .rel
  · simp [level, hk]
  · rw [level_of_ne_rel hk, level_of_ne_rel hk, valueOn_deliver, Journal.lastValue_eq_none]
    · rfl
    · rintro e he ⟨hek, hec⟩
      have hm : (o.device, e) ∈ es := by
        unfold accepted at he
        split at he
        · exact Journal.mem_eventsOn.mp he
        · cases he
      exact h _ hm (hek ▸ hk) (by simp [Event.output, hek, hec])

theorem level_armed (m : Multiplexer) (d : DeviceId) (code : UInt16) (v : Int) {interval : Int}
    (hi : 0 ≤ interval) (o : Output) :
    (m.armed ⟨d, code⟩ v (max interval.toNat 1)).level o =
      ((Call.setRepeat d code v interval).writes o).getD (m.level o) := by
  have hm : Level.motion v interval = some (v, max interval.toNat 1) := if_neg (by omega)
  obtain ⟨a, k, c⟩ := o
  by_cases hk : k = .rel
  · subst hk
    rw [level_rel, level_rel, timerOn_armed, Call.writes, hm]
    by_cases ho : a = d ∧ c = code
    · obtain ⟨rfl, rfl⟩ := ho
      simp
    · rw [if_neg (by simpa [eq_comm] using ho), if_neg (by simpa using ho)]
      rfl
  · simp [level, Call.writes, hk]
    rfl

theorem level_disarmed (m : Multiplexer) (d : DeviceId) (code : UInt16) (v : Int) {interval : Int}
    (hi : interval < 0) (o : Output) :
    (m.disarmed ⟨d, code⟩).level o =
      ((Call.setRepeat d code v interval).writes o).getD (m.level o) := by
  obtain ⟨a, k, c⟩ := o
  by_cases hk : k = .rel
  · subst hk
    rw [level_rel, level_rel, timerOn_disarmed, Call.writes, Level.motion_of_neg v hi]
    by_cases ho : a = d ∧ c = code
    · obtain ⟨rfl, rfl⟩ := ho
      simp
    · rw [if_neg (by simpa [eq_comm] using ho), if_neg (by simpa using ho)]
      rfl
  · simp [level, Call.writes, hk]
    rfl

theorem verdictOf_of_obeys {b : Backend} (h : b.Obeys) (es : List (DeviceId × Event)) :
    verdictOf b es = .ok () :=
  verdict_eq_ok_iff.mpr fun _ _ => Or.inr (h _ _)

theorem mem_events_batchesOf {b : Backend} {es : List (DeviceId × Event)} {x : DeviceId × Event}
    (h : x ∈ Journal.events (batchesOf b es)) : x ∈ es := by
  simp only [Journal.events, batchesOf, List.mem_flatMap, List.mem_map] at h
  obtain ⟨batch, ⟨d, -, hbatch⟩, e, he, rfl⟩ := h
  unfold attempt at hbatch
  split at hbatch
  · cases hbatch
  · cases List.mem_singleton.mp hbatch
    exact Journal.mem_eventsOn.mp he

theorem mem_events_batchesOf_iff {b : Backend} (h : b.Obeys) {es : List (DeviceId × Event)}
    {x : DeviceId × Event} : x ∈ Journal.events (batchesOf b es) ↔ x ∈ es := by
  have hwritten : Journal.eventsOn x.1 (Journal.events (batchesOf b es)) =
      Journal.eventsOn x.1 es := by
    rw [batchesOf, eventsOn_attempts b x.1 _ (nodup_touched es)]
    split
    · exact if_pos (h _ _)
    · next hx => exact (eventsOn_eq_nil_iff.mpr hx).symm
  obtain ⟨d, e⟩ := x
  rw [← Journal.mem_eventsOn, hwritten, Journal.mem_eventsOn]

namespace InService

variable {m : Multiplexer} {p : Output → Prop} {c : Call}

theorem perform (h : m.InService) (b : Backend) (hc : c.Targets p) :
    (m.perform b c).1.InService ∧ (m.perform b c).1.SameDevices m := by
  cases c with
  | frame es =>
    rcases h.frame_cases b es with ⟨-, he⟩ | ⟨d, -, -, a, he⟩
    · rw [Multiplexer.perform, he]
      exact ⟨h.log _, rfl, rfl⟩
    · rw [Multiplexer.perform, he]
      exact ⟨h, rfl, rfl⟩
  | setRepeat d code v i =>
    by_cases hi : i < 0
    · rw [Multiplexer.perform, setRepeat_neg m d code v hi]
      exact ⟨h.disarmed _, rfl, rfl⟩
    · by_cases hd : m.IsActive d
      · rw [Multiplexer.perform, h.setRepeat_eq hd code v (by omega)]
        exact ⟨h.armed hd _ _, rfl, rfl⟩
      · rw [Multiplexer.perform, h.setRepeat_error hd code v (by omega)]
        exact ⟨h, rfl, rfl⟩
  | _ => exact hc.elim

/-- A call that succeeds sets the levels it writes and no others. -/
theorem level_perform (h : m.InService) {b : Backend} (hc : c.Targets p)
    (hok : (m.perform b c).2 = .ok ()) (o : Output) :
    (m.perform b c).1.level o = (c.writes o).getD (m.level o) := by
  cases c with
  | frame es =>
    rcases h.frame_cases b es with ⟨-, he⟩ | ⟨d, -, -, a, he⟩
    · rw [Multiplexer.perform, he] at hok ⊢
      exact level_deliver hok m o
    · rw [Multiplexer.perform, he] at hok
      cases hok
  | setRepeat d code v i =>
    by_cases hi : i < 0
    · rw [Multiplexer.perform, setRepeat_neg m d code v hi]
      exact level_disarmed m d code v hi o
    · by_cases hd : m.IsActive d
      · rw [Multiplexer.perform, h.setRepeat_eq hd code v (by omega)]
        exact level_armed m d code v (by omega) o
      · rw [Multiplexer.perform, h.setRepeat_error hd code v (by omega)] at hok
        cases hok
  | _ => exact hc.elim

/-- A call, successful or not, leaves the levels alone of outputs that it cannot name. -/
theorem level_perform_of_not (h : m.InService) (b : Backend) (hc : c.Targets p) {o : Output}
    (ho : ¬p o) : (m.perform b c).1.level o = m.level o := by
  cases c with
  | frame es =>
    rcases h.frame_cases b es with ⟨-, he⟩ | ⟨d, -, -, a, he⟩
    · rw [Multiplexer.perform, he]
      refine level_deliver_of_not_named b m fun x hx _ hxo => ho ?_
      exact hxo ▸ hc x hx
    · rw [Multiplexer.perform, he]
  | setRepeat d code v i =>
    have hne : o ≠ ⟨d, .rel, code⟩ := by
      rintro rfl
      exact ho hc
    have hw : (Call.setRepeat d code v i).writes o = none := if_neg hne
    by_cases hi : i < 0
    · rw [Multiplexer.perform, setRepeat_neg m d code v hi, level_disarmed m d code v hi, hw]
      rfl
    · by_cases hd : m.IsActive d
      · rw [Multiplexer.perform, h.setRepeat_eq hd code v (by omega),
          level_armed m d code v (by omega), hw]
        rfl
      · rw [Multiplexer.perform, h.setRepeat_error hd code v (by omega)]
  | _ => exact hc.elim

theorem perform_ok (h : m.InService) {b : Backend} (hb : b.Obeys) (hc : c.Targets p)
    (ha : ∀ o, p o → m.IsActive o.device) : (m.perform b c).2 = .ok () := by
  cases c with
  | frame es =>
    rw [Multiplexer.perform, frame_eq b h.finished h.quiet fun x hx => ha _ (hc x hx)]
    exact verdictOf_of_obeys hb es
  | setRepeat d code v i =>
    by_cases hi : i < 0
    · rw [Multiplexer.perform, setRepeat_neg m d code v hi]
    · rw [Multiplexer.perform, h.setRepeat_eq (ha _ hc) code v (by omega)]
  | _ => exact hc.elim

theorem update (h : m.InService) (b : Backend) (ms : Nat) :
    (m.update b ms).1.InService ∧ (m.update b ms).1.SameDevices m ∧
      ∀ o, (m.update b ms).1.level o = m.level o := by
  rw [h.update_eq b ms]
  refine ⟨(h.aged ms).log _, ⟨rfl, rfl⟩, fun o => ?_⟩
  rw [level_deliver_of_not_named b (m.aged ms) fun x hx hk => ?_]
  · simp [level, valueOn, written, Multiplexer.aged, timerOn, Std.ExtTreeMap.getElem?_map,
      Function.comp_def, Repeat.advance]
  · obtain ⟨o, y, -, rfl⟩ := mem_dueEvents hx
    exact (hk rfl).elim

theorem events_perform_frame (h : m.InService) (b : Backend) (hc : c.Targets p)
    {x : DeviceId × Event} (hx : x ∈ Journal.events (m.perform b c).1.journal.batches) :
    x ∈ Journal.events m.journal.batches ∨ ∃ es, c = .frame es ∧ x ∈ es := by
  cases c with
  | frame es =>
    rcases h.frame_cases b es with ⟨-, he⟩ | ⟨d, -, -, a, he⟩
    · rw [Multiplexer.perform, he] at hx
      change x ∈ Journal.events (m.journal.batches ++ batchesOf b es) at hx
      rw [Journal.events_append] at hx
      rcases List.mem_append.mp hx with hx | hx
      · exact Or.inl hx
      · exact Or.inr ⟨es, rfl, mem_events_batchesOf hx⟩
    · rw [Multiplexer.perform, he] at hx
      exact Or.inl hx
  | setRepeat d code v i =>
    by_cases hi : i < 0
    · rw [Multiplexer.perform, setRepeat_neg m d code v hi] at hx
      exact Or.inl hx
    · by_cases hd : m.IsActive d
      · rw [Multiplexer.perform, h.setRepeat_eq hd code v (by omega)] at hx
        exact Or.inl hx
      · rw [Multiplexer.perform, h.setRepeat_error hd code v (by omega)] at hx
        exact Or.inl hx
  | _ => exact hc.elim

theorem events_perform (h : m.InService) (b : Backend) (hc : c.Targets p) {x : DeviceId × Event}
    (hx : x ∈ Journal.events (m.perform b c).1.journal.batches) :
    x ∈ Journal.events m.journal.batches ∨ p (x.2.output x.1) := by
  rcases h.events_perform_frame b hc hx with hold | ⟨es, rfl, hnew⟩
  · exact Or.inl hold
  · exact Or.inr (hc x hnew)

theorem events_update (h : m.InService) (b : Backend) (ms : Nat) {x : DeviceId × Event}
    (hx : x ∈ Journal.events (m.update b ms).1.journal.batches) :
    x ∈ Journal.events m.journal.batches ∨
      ∃ d code, m.level ⟨d, .rel, code⟩ ≠ none ∧ x.2.output x.1 = ⟨d, .rel, code⟩ := by
  rw [h.update_eq b ms] at hx
  change x ∈ Journal.events (m.journal.batches ++ batchesOf b (m.dueEvents ms)) at hx
  rw [Journal.events_append] at hx
  rcases List.mem_append.mp hx with hx | hx
  · exact Or.inl hx
  · obtain ⟨o, t, ho, rfl⟩ := mem_dueEvents (mem_events_batchesOf hx)
    exact Or.inr ⟨o.device, o.code, by rw [level_rel, ho]; simp, rfl⟩

theorem update_ok (h : m.InService) {b : Backend} (hb : b.Obeys) (ms : Nat) :
    (m.update b ms).2 = .ok () := by
  rw [h.update_eq b ms]
  exact verdictOf_of_obeys hb _

end InService

end Multiplexer

end PadRemap
