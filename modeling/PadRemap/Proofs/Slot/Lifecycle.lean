import PadRemap.Proofs.Slot.Phase

/-! The life of one slot under calls in any order, while its worker takes turns or dies. The state
of the slot tells whether it has a device and a worker. Each source that the slot is given is
released once, and hears of the LED status of the slot first. -/

namespace PadRemap

/-- A slot with what its workers act on, and the number of sources it has been given. -/
structure Bay where
  slot : Slot
  rig : Rig
  opened : Nat := 0

namespace Bay

/-- What can happen to a slot: a call, or something that its worker does. Other slots may drive the
multiplexer meanwhile. -/
inductive Event where
  | reserve (d : Identity)
  | abort
  | start (path : String)
  | tryDisconnect
  | poll
  | disconnect (b : Backend)
  | setLed (status : UInt8)
  | command (c : Command)
  | work (b : Backend) (reading : Reading) (ms : Nat)
  | crash (given : Nat)
  | elsewhere (mux : Multiplexer)

def call (l : Bay) : Event → Bay × Except SlotError Unit
  | .reserve d =>
    let (slot, answer) := l.slot.reserve d
    ({ l with slot }, answer)
  | .abort => ({ l with slot := l.slot.abort }, .ok ())
  | .start path =>
    let (slot, rig, answer) := l.slot.start ⟨l.opened, path⟩ l.rig
    ({ slot, rig, opened := l.opened + 1 }, answer)
  | .tryDisconnect => ({ l with slot := l.slot.tryDisconnect.1 }, .ok ())
  | .poll => ({ l with slot := l.slot.poll.1 }, .ok ())
  | .disconnect b =>
    let (slot, rig) := l.slot.disconnect b l.rig
    ({ l with slot, rig }, .ok ())
  | .setLed status =>
    let (slot, answer) := l.slot.setLed status
    ({ l with slot }, answer)
  | .command c =>
    let (slot, answer) := l.slot.command c
    ({ l with slot }, answer)
  | .work b reading ms =>
    let (slot, rig) := l.slot.work b reading ms l.rig
    ({ l with slot, rig }, .ok ())
  | .crash given =>
    let (slot, rig) := l.slot.crash given l.rig
    ({ l with slot, rig }, .ok ())
  | .elsewhere mux => ({ l with rig := { l.rig with mux } }, .ok ())

def next (l : Bay) (e : Event) : Bay := (l.call e).1

def run (l : Bay) (events : List Event) : Bay := events.foldl next l

def ledAfter (led : UInt8) (events : List Event) : UInt8 :=
  events.foldl (fun led e => match e with | .setLed status => status | _ => led) led

variable {l : Bay}

theorem run_append (l : Bay) (pre post : List Event) :
    l.run (pre ++ post) = (l.run pre).run post := List.foldl_append

theorem start_cases (h : l.slot.Orderly) (path : String) :
    (∃ d p, l.slot.state = .connecting ∧ l.slot.worker = none ∧
      l.call (.start path) =
        (⟨l.slot.boundTo d ⟨l.opened, path⟩ p, l.rig, l.opened + 1⟩, .ok ())) ∨
    (l.slot.state ≠ .connecting ∧ l.call (.start path) =
      (⟨l.slot, l.rig.notice ⟨l.opened, path⟩ .released, l.opened + 1⟩,
        .error (.wrongState l.slot.id l.slot.state .connecting))) := by
  rcases h.start_cases ⟨l.opened, path⟩ l.rig with ⟨d, p, -, hc, hw, he⟩ | ⟨hc, he⟩
  · refine Or.inl ⟨d, p, hc, hw, ?_⟩
    simp only [call, he]
  · refine Or.inr ⟨hc, ?_⟩
    simp only [call, he]

/-- The commands that a source has been given, and those that wait for it. -/
def told (l : Bay) (n : Nat) : List Command := l.rig.commands n ++ l.slot.waiting n

theorem opened_le_next (l : Bay) (e : Event) : l.opened ≤ (l.next e).opened := by
  cases e with
  | start path => exact Nat.le_succ _
  | _ => exact Nat.le_refl _

/-- An event adds to what a source is told, and nothing any more once its worker has ended. Only
a worker that dies may leave something unsaid. -/
theorem told_next (h : l.slot.Orderly) (e : Event) {n : Nat}
    (hn : ∀ path, e = .start path → n ≠ l.opened) :
    (∃ more, (l.next e).told n = l.told n ++ more ∧ (l.slot.runs n = 0 → more = [])) ∨
      (∃ given, e = .crash given) ∧ (l.next e).slot.runs n = 0 ∧
        (l.next e).told n <+: l.told n := by
  have quiet : ∀ {slot : Slot}, (∃ more, slot.waiting n = l.slot.waiting n ++ more ∧
      (l.slot.runs n = 0 → more = [])) →
      ∃ more, ({ l with slot } : Bay).told n = l.told n ++ more ∧
        (l.slot.runs n = 0 → more = []) := by
    rintro slot ⟨more, hw, hmore⟩
    refine ⟨more, ?_, hmore⟩
    simp only [told, hw, List.append_assoc]
  have same : ∀ {slot : Slot}, slot.waiting n = l.slot.waiting n →
      ∃ more, ({ l with slot } : Bay).told n = l.told n ++ more ∧
        (l.slot.runs n = 0 → more = []) :=
    fun hw => quiet ⟨[], by rw [hw, List.append_nil], fun _ => rfl⟩
  cases e with
  | reserve d => exact Or.inl (same (Slot.waiting_congr n (Slot.worker_reserve l.slot d)))
  | abort => exact Or.inl (same (Slot.waiting_congr n (Slot.worker_abort l.slot)))
  | start path =>
    left
    refine ⟨[], ?_, fun _ => rfl⟩
    unfold Bay.next told
    rcases start_cases h path with ⟨d, p, -, hw, he⟩ | ⟨-, he⟩
    · have hne : l.opened ≠ n := (hn path rfl).symm
      rw [he, Slot.waiting_of_idle n hw]
      simp [Slot.waiting, Slot.boundTo, Worker.waiting, hne]
    · rw [he]
      simp [Rig.commands_notice_released]
  | tryDisconnect => exact Or.inl (same (Slot.waiting_tryDisconnect n l.slot))
  | poll => exact Or.inl (same (Slot.waiting_poll n l.slot))
  | disconnect b =>
    left
    refine ⟨[], ?_, fun _ => rfl⟩
    rw [List.append_nil]
    exact Slot.commands_disconnect b l.slot l.rig n
  | setLed status => exact Or.inl (quiet (Slot.waiting_setLed n l.slot status))
  | command c => exact Or.inl (quiet (Slot.waiting_command n l.slot c))
  | work b reading ms =>
    left
    obtain ⟨hc, hw⟩ := Slot.commands_work b reading ms l.slot l.rig n
    refine ⟨[], ?_, fun _ => rfl⟩
    simp only [Bay.next, call, told, hc, hw, List.append_nil]
  | crash given =>
    obtain ⟨hr, hw⟩ := Slot.crash_ends given l.slot l.rig n
    refine Or.inr ⟨⟨given, rfl⟩, hr, ?_⟩
    simp only [Bay.next, call, told, Slot.commands_crash, hw, List.append_nil]
    exact (List.prefix_append_right_inj _).mpr (List.take_prefix _ _)
  | elsewhere mux => exact Or.inl ⟨[], (List.append_nil _).symm, fun _ => rfl⟩

theorem runs_next_le (h : l.slot.Orderly) (e : Event) {n : Nat} (hn : n < l.opened) :
    (l.next e).slot.runs n ≤ l.slot.runs n := by
  cases e with
  | reserve d => exact Nat.le_of_eq (Slot.runs_congr n (Slot.worker_reserve l.slot d))
  | abort => exact Nat.le_of_eq (Slot.runs_congr n (Slot.worker_abort l.slot))
  | start path =>
    unfold Bay.next
    rcases start_cases h path with ⟨d, p, -, -, he⟩ | ⟨-, he⟩
    · have hne : l.opened ≠ n := by omega
      simp [he, Slot.runs_boundTo, hne]
    · simp [he]
  | tryDisconnect => exact Nat.le_of_eq (Slot.runs_tryDisconnect n l.slot)
  | poll => exact Nat.le_of_eq (Slot.runs_poll n l.slot)
  | disconnect b => exact Slot.runs_disconnect_le b l.slot l.rig n
  | setLed status => exact Nat.le_of_eq (Slot.runs_setLed n l.slot status)
  | command c => exact Nat.le_of_eq (Slot.runs_command n l.slot c)
  | work b reading ms => exact Slot.runs_work_le b reading ms l.slot l.rig n
  | crash given =>
    rw [show (l.next (.crash given)).slot.runs n = 0 from
      (Slot.crash_ends given l.slot l.rig n).1]
    exact Nat.zero_le _
  | elsewhere mux => exact Nat.le_refl _

structure Sound (l : Bay) : Prop where
  slot : l.slot.Orderly
  sources : ∀ n, l.rig.released n + l.slot.runs n = if n < l.opened then 1 else 0
  silent : ∀ n, l.opened ≤ n → l.told n = []

theorem Sound.start (h : l.Sound) (path : String) (n : Nat) :
    (l.next (.start path)).rig.released n + (l.next (.start path)).slot.runs n =
      if n < l.opened + 1 then 1 else 0 := by
  have hold := h.sources n
  unfold Bay.next
  rcases start_cases h.slot path with ⟨d, p, -, hw, he⟩ | ⟨-, he⟩
  · have hidle : l.slot.runs n = 0 := by simp [Slot.runs, hw]
    rw [he]
    simp only [Slot.runs_boundTo]
    grind
  · rw [he]
    simp only [Rig.released_notice_released]
    grind

theorem Sound.silent_next (h : l.Sound) (e : Event) {n : Nat} (hn : (l.next e).opened ≤ n) :
    (l.next e).told n = [] := by
  have hle : l.opened ≤ n := Nat.le_trans (opened_le_next l e) hn
  have hold := h.silent n hle
  have hidle : l.slot.runs n = 0 := by
    have hsum := h.sources n
    rw [if_neg (by omega)] at hsum
    omega
  have hne : ∀ path, e = .start path → n ≠ l.opened := by
    rintro path rfl
    exact Nat.ne_of_gt hn
  rcases told_next h.slot e hne with ⟨more, ht, hmore⟩ | ⟨-, -, ht⟩
  · rw [ht, hold, hmore hidle, List.append_nil]
  · rw [hold] at ht
    exact List.prefix_nil.mp ht

theorem Sound.next (h : l.Sound) (e : Event) : (l.next e).Sound := by
  have hs := h.slot
  have silent : ∀ n, (l.next e).opened ≤ n → (l.next e).told n = [] := fun n => h.silent_next e
  have quiet : ∀ {slot : Slot}, (∀ n, slot.runs n = l.slot.runs n) →
      ∀ n, l.rig.released n + slot.runs n = if n < l.opened then 1 else 0 := by
    intro slot hr n
    rw [hr]
    exact h.sources n
  cases e with
  | reserve d =>
    exact ⟨hs.reserve d, quiet fun n => Slot.runs_congr n (Slot.worker_reserve l.slot d), silent⟩
  | abort => exact ⟨hs.abort, quiet fun n => Slot.runs_congr n (Slot.worker_abort l.slot), silent⟩
  | start path => exact ⟨hs.start _ _, h.start path, silent⟩
  | tryDisconnect =>
    exact ⟨hs.tryDisconnect, quiet fun n => Slot.runs_tryDisconnect n l.slot, silent⟩
  | poll => exact ⟨hs.poll, quiet fun n => Slot.runs_poll n l.slot, silent⟩
  | disconnect b =>
    exact ⟨hs.disconnect b l.rig, fun n =>
      (Slot.disconnect_accounts b l.slot l.rig n).trans (h.sources n), silent⟩
  | setLed status =>
    exact ⟨hs.setLed status, quiet fun n => Slot.runs_setLed n l.slot status, silent⟩
  | command c => exact ⟨hs.command c, quiet fun n => Slot.runs_command n l.slot c, silent⟩
  | work b reading ms =>
    exact ⟨hs.work b reading ms l.rig, fun n =>
      (Slot.work_accounts b reading ms l.slot l.rig n).trans (h.sources n), silent⟩
  | crash given =>
    exact ⟨hs.crash given l.rig, fun n =>
      (Slot.crash_accounts given l.slot l.rig n).trans (h.sources n), silent⟩
  | elsewhere mux => exact ⟨hs, h.sources, silent⟩

theorem Sound.run (h : l.Sound) (events : List Event) : (l.run events).Sound := by
  induction events generalizing l with
  | nil => exact h
  | cons e events ih => exact ih (h.next e)

/-- A source hears of an LED status before anything else, unless its worker dies too early. -/
def Greeted (l : Bay) (n : Nat) (status : UInt8) : Prop :=
  (∃ rest, l.told n = .led status :: rest) ∨ l.slot.runs n = 0 ∧ l.told n = []

theorem Sound.greeted_start (h : l.Sound) (hc : l.slot.state = .connecting) (path : String) :
    (l.next (.start path)).told l.opened = [.led l.slot.led] := by
  have hcommands : l.rig.commands l.opened = [] :=
    (List.append_eq_nil_iff.mp (h.silent l.opened (Nat.le_refl _))).1
  unfold Bay.next told
  rcases start_cases h.slot path with ⟨d, p, -, -, he⟩ | ⟨hno, -⟩
  · rw [he]
    simp [hcommands, Slot.waiting, Slot.boundTo, Worker.waiting]
  · exact (hno hc).elim

theorem greeted_keep (h : l.slot.Orderly) {n : Nat} (hn : n < l.opened) {status : UInt8}
    (hg : ∃ rest, l.told n = .led status :: rest) {e : Event} (he : ∀ given, e ≠ .crash given) :
    ∃ rest, (l.next e).told n = .led status :: rest := by
  obtain ⟨rest, hrest⟩ := hg
  rcases told_next h e (fun _ _ => Nat.ne_of_lt hn) with ⟨more, ht, -⟩ | ⟨⟨given, hc⟩, -⟩
  · exact ⟨rest ++ more, by rw [ht, hrest, List.cons_append]⟩
  · exact (he given hc).elim

theorem Greeted.next (h : l.slot.Orderly) {n : Nat} (hn : n < l.opened) {status : UInt8}
    (hg : l.Greeted n status) (e : Event) : (l.next e).Greeted n status := by
  rcases told_next h e (fun _ _ => Nat.ne_of_lt hn) with ⟨more, ht, hmore⟩ | ⟨-, hr, ht⟩
  · rcases hg with ⟨rest, hrest⟩ | ⟨hr, hnil⟩
    · exact Or.inl ⟨rest ++ more, by rw [ht, hrest, List.cons_append]⟩
    · have hr' := runs_next_le h e hn
      refine Or.inr ⟨by omega, ?_⟩
      rw [ht, hnil, hmore hr, List.append_nil]
  · -- the worker has died, and its source has been told a part of what it was to be told
    cases hnew : (l.next e).told n with
    | nil => exact Or.inr ⟨hr, hnew⟩
    | cons c rest =>
      rw [hnew] at ht
      rcases hg with ⟨old, hold⟩ | ⟨-, hnil⟩
      · rw [hold] at ht
        obtain ⟨rfl, -⟩ := List.cons_prefix_cons.mp ht
        exact Or.inl ⟨rest, hnew⟩
      · rw [hnil] at ht
        cases List.prefix_nil.mp ht

theorem Greeted.run (h : l.Sound) {n : Nat} (hn : n < l.opened) {status : UInt8}
    (hg : l.Greeted n status) (events : List Event) : (l.run events).Greeted n status := by
  induction events generalizing l with
  | nil => exact hg
  | cons e events ih =>
    exact ih (h.next e) (Nat.lt_of_lt_of_le hn (opened_le_next l e)) (hg.next h.slot hn e)

theorem greeted_keep_run (h : l.Sound) {n : Nat} (hn : n < l.opened) {status : UInt8}
    (hg : ∃ rest, l.told n = .led status :: rest) {events : List Event}
    (he : ∀ given, Event.crash given ∉ events) :
    ∃ rest, (l.run events).told n = .led status :: rest := by
  induction events generalizing l with
  | nil => exact hg
  | cons e events ih =>
    refine ih (h.next e) (Nat.lt_of_lt_of_le hn (opened_le_next l e)) ?_ ?_
    · refine greeted_keep h.slot hn hg fun given hc => he given ?_
      rw [hc]
      exact List.mem_cons_self
    · intro given hc
      exact he given (List.mem_cons_of_mem _ hc)

theorem led_next (l : Bay) (e : Event) : (l.next e).slot.led = ledAfter l.slot.led [e] := by
  have hstop : l.slot.tryDisconnect.1.led = l.slot.led := by
    unfold Slot.tryDisconnect Slot.abort
    split
    · rfl
    · simp only
      split <;> rfl
  have hreap : ∀ s : Slot, s.reap.led = s.led := by
    intro s
    unfold Slot.reap
    split <;> rfl
  have hwork : ∀ (s : Slot) (b : Backend) (reading : Reading) (ms : Nat) (r : Rig),
      (s.work b reading ms r).1.led = s.led := by
    intro s b reading ms r
    unfold Slot.work
    split <;> rfl
  have hcommand : ∀ (s : Slot) (c : Command), (s.command c).1.led = s.led := by
    intro s c
    unfold Slot.command
    split <;> rfl
  cases e with
  | reserve d =>
    simp only [Bay.next, call, ledAfter, Slot.reserve]
    split <;> rfl
  | abort =>
    simp only [Bay.next, call, ledAfter, Slot.abort]
    split <;> rfl
  | start path =>
    simp only [Bay.next, call, ledAfter, Slot.start]
    split
    · rfl
    · split <;> rfl
  | tryDisconnect => exact hstop
  | poll =>
    simp only [Bay.next, call, ledAfter, Slot.poll]
    split
    · exact hreap l.slot
    · rfl
  | disconnect b =>
    simp only [Bay.next, call, ledAfter, Slot.disconnect]
    split
    · next s he =>
      rw [he] at hstop
      exact hstop
    · next s he =>
      rw [he] at hstop
      exact (hreap _).trans ((hwork s b .idle 0 l.rig).trans hstop)
  | setLed status =>
    simp only [Bay.next, call, ledAfter, Slot.setLed]
    split
    · exact hcommand _ _
    · rfl
  | command c => exact hcommand l.slot c
  | work b reading ms => exact hwork l.slot b reading ms l.rig
  | crash given =>
    simp only [Bay.next, call, ledAfter, Slot.crash]
    split <;> rfl
  | elsewhere mux => rfl

theorem led_run (l : Bay) (events : List Event) :
    (l.run events).slot.led = ledAfter l.slot.led events := by
  induction events generalizing l with
  | nil => rfl
  | cons e events ih =>
    change ((l.next e).run events).slot.led = _
    rw [ih, led_next]
    rfl

/-- A slot that refuses a call because of its state stays as it is. -/
theorem next_of_wrongState (h : l.slot.Orderly) {e : Event} {k : Nat} {state expected : SlotState}
    (he : (l.call e).2 = .error (.wrongState k state expected)) :
    (l.next e).slot = l.slot := by
  have hcommand : ∀ (s : Slot) (c : Command),
      (s.command c).2 ≠ .error (.wrongState k state expected) := by
    intro s c
    unfold Slot.command
    split <;> simp
  cases e with
  | reserve d =>
    simp only [call, Slot.reserve, Bay.next] at he ⊢
    split at he
    · cases he
    · next hu => rw [if_neg hu]
  | start path =>
    unfold Bay.next
    rcases start_cases h path with ⟨d, p, -, -, hs⟩ | ⟨-, hs⟩
    · rw [hs] at he
      cases he
    · rw [hs]
  | setLed status =>
    simp only [call, Slot.setLed] at he
    split at he
    · exact (hcommand _ _ he).elim
    · cases he
  | command c => exact (hcommand _ _ he).elim
  | _ => cases he

theorem led_of_new {id : Nat} {c : SlotConfig} {s : Slot} (h : Slot.new id c = .ok s) :
    s.led = c.led.getD (Slot.standardLed id) := by
  unfold Slot.new at h
  split at h
  · cases h
  · cases h
    rfl

theorem sound_of_new {id : Nat} {c : SlotConfig} {s : Slot} (h : Slot.new id c = .ok s)
    (mux : Multiplexer) : (Bay.mk s { mux } 0).Sound := by
  have hs : s.Orderly := Slot.Orderly.new h
  have hw : s.worker = none := (Slot.Sound.new h).2.2.2.2
  refine ⟨hs, fun n => ?_, fun n _ => ?_⟩
  · simp [Rig.released, Slot.runs, hw]
  · simp [told, Rig.commands, Slot.waiting, hw]

/-- However a new slot is used and its workers end, its state tells whether it has a device and a
worker, and without a worker it is ready to start one. A refused call changes nothing. Each source
is released once, at the latest when the slot is unbound, and the first command it gets sets the
LED status that was in force when it was started. -/
theorem orderly_of_new {id : Nat} {c : SlotConfig} {s : Slot} (h : Slot.new id c = .ok s)
    (mux : Multiplexer) (events : List Event) :
    let start := Bay.mk s { mux } 0
    let l := start.run events
    (l.slot.state = .unbound ↔ l.slot.identity = none ∧ l.slot.worker = none) ∧
    (l.slot.state = .connecting ↔ l.slot.identity ≠ none ∧ l.slot.worker = none) ∧
    (l.slot.state = .connected ∨ l.slot.state = .disconnecting ↔
      l.slot.identity ≠ none ∧ l.slot.worker ≠ none) ∧
    (l.slot.worker = none → l.slot.pipeline ≠ none) ∧
    (l.slot.state = .connecting → ∀ path, (l.call (.start path)).2 = .ok ()) ∧
    (∀ e k state expected, (l.call e).2 = .error (.wrongState k state expected) →
      (l.next e).slot = l.slot) ∧
    (∀ n, l.rig.released n ≤ if n < l.opened then 1 else 0) ∧
    (l.slot.state = .unbound → ∀ n < l.opened, l.rig.released n = 1) ∧
    ∀ pre path post, events = pre ++ .start path :: post →
      (start.run pre).slot.state = .connecting →
      let n := (start.run pre).opened
      let first := Command.led (ledAfter (c.led.getD (Slot.standardLed id)) pre)
      (∀ heard rest, l.rig.commands n = heard :: rest → heard = first) ∧
      (0 < l.slot.runs n → ∀ b reading ms, ∃ rest,
        (l.next (.work b reading ms)).rig.commands n = first :: rest) ∧
      ((∀ given, .crash given ∉ post) → l.slot.runs n = 0 →
        ∃ rest, l.rig.commands n = first :: rest) := by
  intro start l
  have hstart : start.Sound := sound_of_new h mux
  have hl : l.Sound := hstart.run events
  refine ⟨hl.slot.unbound_iff, hl.slot.connecting_iff, hl.slot.working_iff,
    hl.slot.pipeline_of_idle, ?_, ?_, ?_, ?_, ?_⟩
  · intro hc path
    rcases start_cases hl.slot path with ⟨d, p, -, -, he⟩ | ⟨hno, -⟩
    · rw [he]
    · exact (hno hc).elim
  · intro e k state expected he
    exact next_of_wrongState hl.slot he
  · intro n
    have hn := hl.sources n
    omega
  · intro hu n hn
    have hidle : l.slot.runs n = 0 := by
      simp [Slot.runs, (hl.slot.unbound_iff.mp hu).2]
    have hsum := hl.sources n
    rw [if_pos hn, hidle] at hsum
    exact hsum
  · intro pre path post hevents hc n first
    have hpre : (start.run pre).Sound := hstart.run pre
    have hled : (start.run pre).slot.led = ledAfter (c.led.getD (Slot.standardLed id)) pre := by
      rw [led_run, ← led_of_new h]
    have hfirst := hpre.greeted_start hc path
    rw [hled] at hfirst
    have hrun : l = ((start.run pre).next (.start path)).run post := by
      change start.run events = _
      rw [hevents, run_append]
      rfl
    have hn : n < ((start.run pre).next (.start path)).opened := Nat.lt_succ_self _
    have hg := Greeted.run (hpre.next (.start path)) hn (Or.inl ⟨[], hfirst⟩) post
    rw [← hrun] at hg
    refine ⟨?_, ?_, ?_⟩
    · intro heard rest hh
      rcases hg with ⟨old, hold⟩ | ⟨-, hnil⟩
      · rw [told, hh, List.cons_append] at hold
        injection hold
      · rw [told, hh, List.cons_append] at hnil
        cases hnil
    · intro hr b reading ms
      rcases hg with ⟨old, hold⟩ | ⟨hidle, -⟩
      · refine ⟨old, ?_⟩
        rw [← hold]
        exact (Slot.commands_work b reading ms l.slot l.rig n).1
      · omega
    · intro hno hidle
      obtain ⟨rest, hrest⟩ := greeted_keep_run (hpre.next (.start path)) hn ⟨[], hfirst⟩ hno
      rw [← hrun, told, Slot.waiting_of_runs hidle, List.append_nil] at hrest
      exact ⟨rest, hrest⟩

/-- The worker of the first device dies before it has handed over anything, the second device is
lost. Both sources are released, and the second one has been given the status set in between. -/
theorem orderly_of_new_twice :
    let c : SlotConfig := ⟨.empty, .empty, [], 0, none, []⟩
    let d : Identity := ⟨.mock, 0, 0, 0, 0, "pad", "Pad"⟩
    ∃ s, Slot.new 0 c = .ok s ∧
      let l := (Bay.mk s { mux := .new "Pads" } 0).run
        [.reserve d, .start "a", .setLed 9, .crash 0, .poll, .reserve d, .start "b",
          .work .reliable .failed 5, .poll]
      (∀ n < 2, l.rig.released n = 1) ∧ l.slot.pipeline ≠ none ∧
        ∃ rest, l.rig.commands 1 = .led 9 :: rest := by
  intro c d
  let pre : List Event := [.reserve d, .start "a", .setLed 9, .crash 0, .poll, .reserve d]
  let post : List Event := [.work .reliable .failed 5, .poll]
  let bay (s : Slot) : Bay := Bay.mk s { mux := .new "Pads" } 0
  have hrun : (Slot.new 0 c).toOption.map (fun s =>
      let l := (bay s).run (pre ++ .start "b" :: post)
      (((bay s).run pre).slot.state, ((bay s).run pre).opened, l.slot.state, l.opened)) =
        some (.connecting, 1, .unbound, 2) := by
    decide +kernel
  cases hs : Slot.new 0 c with
  | error e =>
    rw [hs] at hrun
    cases hrun
  | ok s =>
    rw [hs] at hrun
    simp only [Except.toOption, Option.map_some, Option.some.injEq, Prod.mk.injEq] at hrun
    obtain ⟨hc, hserial, hu, hopened⟩ := hrun
    obtain ⟨hunbound, -, -, hready, -, -, -, hreleased, hled⟩ :=
      orderly_of_new hs (.new "Pads") (pre ++ .start "b" :: post)
    have hworker : ((bay s).run (pre ++ .start "b" :: post)).slot.worker = none :=
      (hunbound.mp hu).2
    have hidle : ((bay s).run (pre ++ .start "b" :: post)).slot.runs ((bay s).run pre).opened =
        0 := by
      simp [Slot.runs, hworker]
    obtain ⟨-, -, hheard⟩ := hled pre "b" post rfl hc
    obtain ⟨rest, hrest⟩ := hheard (by simp [post]) hidle
    rw [hserial] at hrest
    refine ⟨s, rfl, fun n hn => hreleased hu n ?_, hready hworker, rest, hrest⟩
    rw [hopened]
    exact hn

end Bay

end PadRemap
