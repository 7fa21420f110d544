import PadRemap.Proofs.Mapper.Drive

/-! What failures leave behind. A mapper takes no notice of a refused frame: it goes on as though
the frame had been written. The main statement says what a reset then repairs. It brings an output
to rest that was written at some other value, unless the mapper had ordered that rest before and
the order was refused. -/

namespace PadRemap

namespace Draft

structure Stable (P : Draft → Prop) : Prop where
  push : ∀ {d} device e, P d → P (d.push device e)
  setRepeat : ∀ {d} device code value interval, P d →
    P (d.setRepeat device code value interval)
  setActive : ∀ {d} b e, P d → P (d.setActive b e)
  setRelative : ∀ {d} a v, P d → P (d.setRelative a v)

namespace Stable

variable {P : Draft → Prop} {d : Draft}

theorem press (h : Stable P) (hd : P d) (e : ButtonEvent) : P (d.press e) := by
  cases e with
  | void => exact hd
  | key device code => exact h.push _ _ hd
  | abs device code v => exact h.push _ _ hd
  | rel device code v i =>
    unfold Draft.press
    simp only
    split
    · exact h.setRepeat _ _ _ _ (h.push _ _ hd)
    · exact h.push _ _ hd

theorem release (h : Stable P) (hd : P d) (e : ButtonEvent) : P (d.release e) := by
  cases e with
  | void => exact hd
  | key device code => exact h.push _ _ hd
  | abs device code v => exact h.push _ _ hd
  | rel device code v i => exact h.setRepeat _ _ _ _ hd

theorem drop (h : Stable P) (hd : P d) (b : Button) : P (d.drop b) :=
  h.release (h.setActive _ _ hd) _

theorem changeButton (h : Stable P) (hd : P d) (before now : Message) (b : Button) :
    P (d.changeButton before now b) := by
  have hs : P (d.dropShifted before b) := by
    refine List.foldlRecOn _ _ hd fun d hd c _ => ?_
    split
    · exact h.drop hd c
    · exact hd
  unfold Draft.changeButton
  simp only
  split
  · exact h.press (h.setActive _ _ hs) _
  · exact h.drop hs b

theorem changeAxis (h : Stable P) (hd : P d) (now : Message) (a : Axis) :
    P (d.changeAxis now a) := by
  unfold Draft.changeAxis
  split
  · exact hd
  · exact h.push _ _ hd
  · next device code speed interval _ =>
    have hr := h.setRelative a (relativeValue speed now a) hd
    simp only
    split
    · exact h.setRepeat _ _ _ _ hr
    · split
      · exact h.setRepeat _ _ _ _ (h.push _ _ hr)
      · exact h.setRepeat _ _ _ _ hr

theorem restAxis (h : Stable P) (hd : P d) (s : Mapper) (a : Axis) : P (s.restAxis d a) := by
  unfold Mapper.restAxis
  split
  · split
    · exact h.push _ _ hd
    · exact hd
  · split
    · exact h.setRelative _ _ (h.setRepeat _ _ _ _ hd)
    · exact hd
  · exact hd

/-- What holds of an empty draft and is stable holds of every draft that a mapper makes. -/
theorem draft (h : Stable P) {s : Mapper} (hs : P ⟨[], s⟩) (job : Mapper.Job) :
    P (s.draft job) := by
  cases job with
  | process now =>
    refine Mapper.draft_process_induct hs (fun d b hd _ => ?_) fun d a hd _ => ?_
    · exact h.changeButton hd _ _ b
    · exact h.changeAxis hd _ a
  | reset =>
    exact Mapper.draft_reset_induct hs (fun d b hd => h.drop hd b) fun d a hd => h.restAxis hd s a

end Stable

theorem timers_of_mem_steps {s : Mapper} {job : Mapper.Job} {x : Step}
    (hx : x ∈ (s.draft job).steps) : ∃ d code v i, x.call = .setRepeat d code v i := by
  let P : Draft → Prop := fun d => ∀ x ∈ d.steps, ∃ d code v i, x.call = .setRepeat d code v i
  have hstable : Stable P := by
    refine ⟨fun _ _ hd => hd, fun device code v i hd x hx => ?_, fun _ _ hd => hd,
      fun _ _ hd => hd⟩
    rcases List.mem_append.mp hx with hx | hx
    · exact hd x hx
    · rw [List.mem_singleton.mp hx]
      exact ⟨_, code, v, i, rfl⟩
  exact hstable.draft (P := P) (fun _ hx => nomatch hx) job x hx

end Draft

namespace Multiplexer

theorem Fresh.valueOn {m : Multiplexer} (h : m.Fresh) (o : Output) : m.valueOn o = none := by
  unfold Multiplexer.valueOn written
  rw [h.batches]
  rfl

def withTimers (m : Multiplexer) (timers : OutletMap Repeat) : Multiplexer :=
  { m with repeats := timers }

theorem valueOn_congr {m n : Multiplexer} (h : n.journal = m.journal) (o : Output) :
    n.valueOn o = m.valueOn o := by
  unfold valueOn written
  rw [h]

namespace InService

variable {m : Multiplexer}

theorem perform_timer (h : m.InService) (b : Backend) {d : DeviceId} (hd : m.IsActive d)
    (code : UInt16) (v i : Int) : ∃ timers, (m.withTimers timers).InService ∧
      (∀ o, (m.withTimers timers).level o =
        ((Call.setRepeat d code v i).writes o).getD (m.level o)) ∧
      m.perform b (.setRepeat d code v i) = (m.withTimers timers, .ok ()) := by
  by_cases hi : i < 0
  · exact ⟨_, h.disarmed _, m.level_disarmed d code v hi, setRepeat_neg m d code v hi⟩
  · have hi : 0 ≤ i := by omega
    exact ⟨_, h.armed hd _ _, m.level_armed d code v hi, h.setRepeat_eq hd code v hi⟩

theorem valueOn_frame (h : m.InService) (b : Backend) (es : List (DeviceId × Event)) {o : Output}
    (hk : o.kind ≠ .rel) : (m.frame b es).1.valueOn o = m.valueOn o ∨
      ∃ v, (Call.frame es).writes o = some (.hold v) ∧ (m.frame b es).1.valueOn o = some v := by
  rcases h.frame_cases b es with ⟨-, he⟩ | ⟨_, _, _, _, he⟩
  · rw [he, valueOn_deliver]
    unfold accepted
    split
    · cases hv : Journal.lastValue o.kind o.code (Journal.eventsOn o.device es) with
      | none => exact Or.inl rfl
      | some v => exact Or.inr ⟨v, by rw [Call.writes, if_neg hk, hv]; rfl, rfl⟩
    · exact Or.inl rfl
  · rw [he]
    exact Or.inl rfl

theorem frame_of_obeys (h : m.InService) {b : Backend} (hb : b.Obeys)
    (es : List (DeviceId × Event)) :
    (∃ p ∈ es, ¬m.IsActive p.1 ∧ ∃ a, m.frame b es = (m, .error (.unknownDevice a))) ∨
    (m.frame b es).2 = .ok () ∧ ∀ o : Output, o.kind ≠ .rel → ∀ v,
      (Call.frame es).writes o = some (.hold v) → (m.frame b es).1.valueOn o = some v := by
  rcases h.frame_cases b es with ⟨-, he⟩ | ⟨d, hd, hn, he⟩
  · rw [he]
    refine Or.inr ⟨verdictOf_of_obeys hb es, fun o hk v hw => ?_⟩
    rw [Call.writes, if_neg hk] at hw
    obtain ⟨u, hu, hv⟩ := Option.map_eq_some_iff.mp hw
    rw [valueOn_deliver, accepted, if_pos (hb _ _), hu, Level.hold_injective hv]
    rfl
  · obtain ⟨e, hmem⟩ := mem_touched.mp hd
    exact Or.inl ⟨(d, e), hmem, hn, he⟩

end InService

end Multiplexer

/-- Whether the relative outputs of a wiring are all on active devices. -/
def Wiring.TimersActive (w : Wiring) (m : Multiplexer) : Prop :=
  ∀ d code, w.Uses ⟨d, .rel, code⟩ → m.IsActive d

namespace Mapper

variable {s : Mapper} {m : Multiplexer}

theorem writes_plan (s : Mapper) (job : Job) {o : Output} (hk : o.kind ≠ .rel) :
    Step.writes o (s.plan job) = (Call.frame (s.draft job).mapper.frame).writes o := by
  have hnone : Step.writes o (s.draft job).steps = none := by
    rw [Step.writes, List.findSome?_eq_none_iff]
    intro x hx
    obtain ⟨d, code, v, i, hc⟩ := Draft.timers_of_mem_steps (List.mem_reverse.mp hx)
    rw [hc, Call.writes, if_neg]
    rintro rfl
    exact hk rfl
  rw [plan_eq, Step.writes_append, Step.writes_singleton, hnone, Option.or_none]

/-- Changes of timers on active devices do not keep the last call of a plan from being made. -/
theorem follow_append (b : Backend) {xs : List Step} (y : Step) (s : Mapper) (hm : m.InService)
    (hx : ∀ x ∈ xs, ∃ d code v i, x.call = .setRepeat d code v i ∧ m.IsActive d) :
    ∃ timers, (m.withTimers timers).InService ∧
      (∀ o, (m.withTimers timers).level o = (Step.writes o xs).getD (m.level o)) ∧
      follow b (xs ++ [y]) s m = (y.mapper, (m.withTimers timers).perform b y.call) := by
  induction xs generalizing s m with
  | nil =>
    refine ⟨m.repeats, hm, fun _ => rfl, ?_⟩
    change follow b [y] s m = (y.mapper, m.perform b y.call)
    rw [follow]
    rcases m.perform b y.call with ⟨n, _ | _⟩ <;> rfl
  | cons x xs ih =>
    obtain ⟨d, code, v, i, hc, hd⟩ := hx x List.mem_cons_self
    obtain ⟨first, hl, hlevel, he⟩ := hm.perform_timer b hd code v i
    obtain ⟨timers, hn, hlevels, he'⟩ := ih x.mapper hl fun z hz =>
      hx z (List.mem_cons_of_mem x hz)
    refine ⟨timers, hn, fun o => (hlevels o).trans ?_, ?_⟩
    · rw [hlevel, Step.writes_cons, hc]
      cases Step.writes o xs <;> rfl
    · rw [List.cons_append, follow, hc, he]
      exact he'

theorem Settled.follow_frame (h : s.Settled) (hm : m.InService) (ht : s.wiring.TimersActive m)
    (b : Backend) (job : Job) : ∃ timers, (m.withTimers timers).InService ∧
      (∀ o, (m.withTimers timers).level o =
        (Step.writes o (s.draft job).steps).getD (m.level o)) ∧
      follow b (s.plan job) s m =
        (s.after job, (m.withTimers timers).frame b (s.draft job).mapper.frame) := by
  rw [plan_eq]
  refine follow_append b _ s hm fun x hx => ?_
  obtain ⟨d, code, v, i, hc⟩ := Draft.timers_of_mem_steps hx
  have htarget := ((h.keeps.draft job).steps x hx).1
  rw [hc] at htarget
  exact ⟨d, code, v, i, hc, ht d code htarget⟩

theorem Settled.follow_plan (h : s.Settled) (hm : m.InService) (ht : s.wiring.TimersActive m)
    (b : Backend) (job : Job) : ∃ n : Multiplexer, n.InService ∧ n.devices = m.devices ∧
      n.journal = m.journal ∧
      follow b (s.plan job) s m = (s.after job, n.frame b (s.draft job).mapper.frame) := by
  obtain ⟨timers, hn, -, he⟩ := h.follow_frame hm ht b job
  exact ⟨_, hn, rfl, rfl, he⟩

/-- A mapper between two jobs after some messages, whatever became of its frames. -/
def heard (s : Mapper) (ms : List Message) : Mapper :=
  ms.foldl (fun s now => s.after (.process now)) s

def orders : Mapper → List Message → List Step
  | _, [] => []
  | s, now :: ms => s.process now ++ orders (s.after (.process now)) ms

theorem heard_append (s : Mapper) (ms ns : List Message) :
    s.heard (ms ++ ns) = (s.heard ms).heard ns := List.foldl_append

theorem orders_append (s : Mapper) (ms ns : List Message) :
    s.orders (ms ++ ns) = s.orders ms ++ (s.heard ms).orders ns := by
  induction ms generalizing s with
  | nil => rfl
  | cons now ms ih =>
    rw [List.cons_append, orders, orders, ih, List.append_assoc]
    rfl

theorem orders_split {ms : List Message} {o : Output} {y : Level}
    (h : Step.writes o (s.orders ms) = some y) :
    ∃ before now later, ms = before ++ now :: later ∧
      Step.writes o ((s.heard before).process now) = some y ∧
      Step.writes o ((s.heard (before ++ [now])).orders later) = none := by
  induction ms generalizing s with
  | nil => cases h
  | cons now ms ih =>
    rw [orders, Step.writes_append] at h
    cases hl : Step.writes o ((s.after (.process now)).orders ms) with
    | none =>
      rw [hl] at h
      exact ⟨[], now, ms, rfl, h, hl⟩
    | some z =>
      rw [hl] at h
      obtain ⟨before, turn, later, rfl, hw, hn⟩ := ih (hl.trans h)
      exact ⟨now :: before, turn, later, rfl, hw, hn⟩

theorem Settled.heard (h : s.Settled) (ms : List Message) : (s.heard ms).Settled :=
  List.foldlRecOn ms _ h fun _ hs now _ => hs.after (.process now)

theorem Settled.wiring_after (h : s.Settled) (job : Job) : (s.after job).wiring = s.wiring :=
  (h.keeps.after job).wiring

theorem Settled.wiring_heard (h : s.Settled) (ms : List Message) :
    (s.heard ms).wiring = s.wiring := by
  induction ms generalizing s with
  | nil => rfl
  | cons now ms ih => exact (ih (h.after _)).trans (h.wiring_after _)

theorem Settled.group_heard (h : s.Settled) (ms : List Message) : (s.heard ms).group = s.group :=
  congrArg Wiring.group (h.wiring_heard ms)

/-- The level ordered last for an output is driven by a source, and an output for which none was
ordered is driven as before. -/
theorem Settled.orders_writes (h : s.Settled) (ms : List Message) (o : Output) :
    (Step.writes o (s.orders ms) = none ∧ ∀ x, (s.heard ms).level o x = s.level o x) ∨
    ∃ x, Step.writes o (s.orders ms) = some ((s.heard ms).level o x) := by
  induction ms generalizing s with
  | nil => exact Or.inl ⟨rfl, fun _ => rfl⟩
  | cons now ms ih =>
    rw [orders, Step.writes_append]
    rcases ih (h.after (.process now)) with ⟨hn, hsame⟩ | ⟨x, hx⟩
    · rw [hn, Option.none_or]
      rcases h.plan_writes (.process now) o with ⟨hw, hl⟩ | ⟨x, -, hw⟩
      · exact Or.inl ⟨hw, fun x => (hsame x).trans (hl x)⟩
      · exact Or.inr ⟨x, hw.trans (congrArg some (hsame x).symm)⟩
    · rw [hx]
      exact Or.inr ⟨x, rfl⟩

/-- A reset brings to rest what it names, and it names all that is not at rest. -/
theorem Settled.reset_writes (h : s.Settled) (o : Output) :
    (Step.writes o (s.plan .reset) = none ∧ ∀ x, s.level o x = none) ∨
    Step.writes o (s.plan .reset) = some none := by
  have hrest : ∀ x, (s.after .reset).level o x = none := by
    intro x
    rw [(h.after .reset).eq_mapper rfl]
    exact level_mapper _ o x
  rcases h.plan_writes .reset o with ⟨hn, hsame⟩ | ⟨x, -, hw⟩
  · exact Or.inl ⟨hn, fun x => (hsame x).symm.trans (hrest x)⟩
  · exact Or.inr (hw.trans (congrArg some (hrest x)))

/-- A message with the answers of the backend while it is processed. -/
structure Trial where
  now : Message
  backend : Backend

def endure : Mapper → Multiplexer → List Trial → Mapper × Multiplexer
  | s, m, [] => (s, m)
  | s, m, t :: ts =>
    let (s, m, _) := s.runProcess t.backend t.now m
    s.endure m ts

/-- Failures do not show in the mapper, and an output is written only if that was ordered. -/
theorem Settled.endure (h : s.Settled) (hm : m.InService) (ht : s.wiring.TimersActive m)
    (ts : List Trial) :
    (s.endure m ts).1 = s.heard (ts.map Trial.now) ∧ (s.endure m ts).2.InService ∧
      (s.endure m ts).2.SameDevices m ∧ ∀ o : Output, o.kind ≠ .rel →
        Step.writes o (s.orders (ts.map Trial.now)) = none →
          (s.endure m ts).2.valueOn o = m.valueOn o := by
  induction ts generalizing s m with
  | nil => exact ⟨rfl, hm, ⟨rfl, rfl⟩, fun _ _ _ => rfl⟩
  | cons t ts ih =>
    obtain ⟨n, hn, hdev, hj, he⟩ := h.follow_plan hm ht t.backend (.process t.now)
    have hrun : s.runProcess t.backend t.now m = _ := he
    have hframe := hn.perform t.backend (c := .frame (s.draft (.process t.now)).mapper.frame)
      (p := s.wiring.Uses) (h.keeps.draft (.process t.now)).mapper.frame
    have hsame : (n.frame t.backend (s.draft (.process t.now)).mapper.frame).1.SameDevices m :=
      ⟨hframe.2.1.trans hdev, hframe.2.2.trans (congrArg Journal.created hj)⟩
    have hwiring := h.wiring_after (.process t.now)
    obtain ⟨hmapper, hservice, hdevices, hvalue⟩ := ih (h.after (.process t.now)) hframe.1
      fun d code hu => hsame.isActive (ht d code (hwiring ▸ hu))
    rw [Mapper.endure, hrun]
    refine ⟨hmapper, hservice, hdevices.trans hsame, fun o hk hw => ?_⟩
    rw [List.map_cons, orders, Step.writes_append, Option.or_eq_none_iff] at hw
    have hwrites := writes_plan s (.process t.now) hk
    refine (hvalue o hk hw.1).trans ?_
    rcases hn.valueOn_frame t.backend (s.draft (.process t.now)).mapper.frame hk with
      hv | ⟨v, hv, -⟩
    · exact hv.trans (Multiplexer.valueOn_congr hj o)
    · rw [← hwrites] at hv
      exact nomatch hw.2.symm.trans hv

/-- After any messages, each processed or failed, a reset that meets no refusal either names a
device that is not there and then writes nothing, or it leaves at zero every key and absolute axis
that was written last at another value; except where the mapper had ordered zero last already, and
the frame with that order was refused. -/
theorem rest_or_refused {w : Wiring} (hm : m.Fresh) (ht : w.TimersActive m) (ts : List Trial)
    {b : Backend} (hb : b.Obeys) :
    let x := w.mapper.endure m ts
    let y := x.1.runReset b x.2
    ((∃ o, w.Uses o ∧ ¬m.IsActive o.device) ∧ (∃ d, y.2.2 = .error (.unknownDevice d)) ∧
      y.2.1.journal = x.2.journal) ∨
    y.2.2 = .ok () ∧ ∀ (o : Output) (v : Int), o.kind ≠ .rel → x.2.valueOn o = some v → v ≠ 0 →
      y.2.1.valueOn o = some 0 ∨
      y.2.1.valueOn o = some v ∧
        Step.writes o (w.mapper.orders (ts.map Trial.now)) = some none := by
  intro x y
  have hw := settled_mapper w
  obtain ⟨hmapper, hservice, hdevices, hvalue⟩ := hw.endure hm.inService ht ts
  have hx : x.1.Settled := by
    rw [show x.1 = _ from hmapper]
    exact hw.heard _
  have hwiring : x.1.wiring = w := by
    rw [show x.1 = _ from hmapper]
    exact hw.wiring_heard _
  obtain ⟨n, hn, hdev, hj, he⟩ := hx.follow_plan hservice
    (fun d code hu => hdevices.isActive (ht d code (hwiring ▸ hu))) b .reset
  have hreset : y = (x.1.after .reset, n.frame b (x.1.draft .reset).mapper.frame) := he
  have hvalues : ∀ o, n.valueOn o = x.2.valueOn o := Multiplexer.valueOn_congr hj
  rw [hreset]
  rcases hn.frame_of_obeys hb (x.1.draft .reset).mapper.frame with ⟨p, hp, hna, a, hf⟩ | ⟨hok, hset⟩
  · left
    rw [hf]
    have hu : w.Uses (p.2.output p.1) := hwiring ▸ (hx.keeps.draft .reset).mapper.frame p hp
    refine ⟨⟨_, hu, fun ha => hna ?_⟩, ⟨a, rfl⟩, hj⟩
    unfold Multiplexer.IsActive
    rw [hdev]
    exact hdevices.isActive ha
  · refine Or.inr ⟨hok, fun o v hk hv hne => ?_⟩
    rcases hx.reset_writes o with ⟨hnone, hlevel⟩ | hzero
    · -- the reset does not name the output, so it was at rest in the mapper
      right
      constructor
      · rcases hn.valueOn_frame b (x.1.draft .reset).mapper.frame hk with hsame | ⟨u, hu, -⟩
        · exact hsame.trans ((hvalues o).trans hv)
        · rw [← writes_plan _ _ hk, hnone] at hu
          cases hu
      · rcases hw.orders_writes (ts.map Trial.now) o with ⟨hno, -⟩ | ⟨z, hz⟩
        · have hfirst := hvalue o hk hno
          rw [hm.valueOn] at hfirst
          exact nomatch hfirst.symm.trans hv
        · rw [hz, ← hmapper]
          exact congrArg some (hlevel z)
    · left
      refine hset o hk 0 ?_
      rw [← writes_plan _ _ hk, hzero]
      rfl

/-- A release was refused, but the key was pressed again before the reset. -/
theorem rest_or_refused_pressed_again :
    let pad : DeviceId := .joystick 0
    let w : Wiring := .single 0 .faceA (.key 0 304)
    let m : Multiplexer :=
      { base := "pad"
        devices := (∅ : DeviceMap Device).insert pad (.active (.forDevice "pad" pad) [])
        finished := true }
    let pressed := Message.neutral.setButton .faceA true
    let x := w.mapper.endure m
      [⟨pressed, .reliable⟩, ⟨.neutral, .refusing [] [pad]⟩, ⟨pressed, .reliable⟩]
    let y := x.1.runReset .reliable x.2
    m.Fresh ∧ w.TimersActive m ∧ x.2.valueOn ⟨pad, .key, 304⟩ = some 1 ∧ y.2.2 = .ok () ∧
      y.2.1.valueOn ⟨pad, .key, 304⟩ = some 0 := by
  intro pad w m pressed x y
  have hm : m.Fresh := Multiplexer.fresh_insert _ _ _
  have ht : w.TimersActive m := by
    rintro d code ⟨z, hz⟩
    obtain ⟨-, ho⟩ := Wiring.canWrite_single.mp hz
    cases ho
  have hrun : x.2.valueOn ⟨pad, .key, 304⟩ = some 1 ∧ y.2.2 = .ok () ∧
      Step.writes ⟨pad, .key, 304⟩ (w.mapper.orders [pressed, .neutral, pressed]) =
        some (.hold 1) := by
    decide +kernel
  obtain ⟨hone, hok, horder⟩ := hrun
  refine ⟨hm, ht, hone, hok, ?_⟩
  simp only [x, y] at hone hok ⊢
  rcases rest_or_refused hm ht [⟨pressed, .reliable⟩, ⟨.neutral, .refusing [] [pad]⟩,
    ⟨pressed, .reliable⟩] (b := .reliable) fun _ _ => rfl with ⟨-, ⟨d, hd⟩, -⟩ | ⟨-, hrest⟩
  · rw [hok] at hd
    cases hd
  · rcases hrest _ 1 (by decide) hone (by decide) with hzero | ⟨-, hno⟩
    · exact hzero
    · have hne : some (Level.hold 1) = some none := horder.symm.trans hno
      cases hne

/-- A key is released and an axis centred in a frame that is refused: the reset leaves both as they
were written before. -/
theorem not_rest_of_refused :
    let pad : DeviceId := .joystick 0
    let w : Wiring := ⟨.bind .empty .faceA (.key 0 304), .bind .empty .x1 (.abs 0 0), 0⟩
    let m : Multiplexer :=
      { base := "pad"
        devices := (∅ : DeviceMap Device).insert pad (.active (.forDevice "pad" pad) [])
        finished := true }
    let moved := (Message.neutral.setButton .faceA true).setAxis .x1 1000
    let x := w.mapper.endure m [⟨moved, .reliable⟩, ⟨.neutral, .refusing [] [pad]⟩]
    let y := x.1.runReset .reliable x.2
    y.2.2 = .ok () ∧ y.2.1.valueOn ⟨pad, .key, 304⟩ = some 1 ∧
      y.2.1.valueOn ⟨pad, .abs, 0⟩ = some 1000 ∧
      ¬∀ (o : Output) (v : Int), o.kind ≠ .rel → x.2.valueOn o = some v → v ≠ 0 →
        y.2.1.valueOn o = some 0 := by
  intro pad w m moved x y
  have hrun : y.2.2 = .ok () ∧ x.2.valueOn ⟨pad, .key, 304⟩ = some 1 ∧
      y.2.1.valueOn ⟨pad, .key, 304⟩ = some 1 ∧ y.2.1.valueOn ⟨pad, .abs, 0⟩ = some 1000 := by
    decide +kernel
  obtain ⟨hok, hone, hkey, habs⟩ := hrun
  refine ⟨hok, hkey, habs, fun hall => ?_⟩
  have hzero := hall ⟨pad, .key, 304⟩ 1 (by decide) hone (by decide)
  have hne : some (1 : Int) = some 0 := hkey.symm.trans hzero
  cases hne

end Mapper

end PadRemap
