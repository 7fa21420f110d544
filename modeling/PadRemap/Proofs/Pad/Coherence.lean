import PadRemap.Evdev.Assembler
import PadRemap.Proofs.Filter.Order
import PadRemap.Xbox.Reader

/-! A message holds the dpad twice, as four buttons and as two axes, and the triggers twice, each
on its own and as their difference. Every way of making a message keeps the two views in agreement:
kernel events in any order and under any code maps, reports, and the filters that do not aim at one
view of the dpad alone. -/

namespace PadRemap

namespace Message

def TriggerCoherent (m : Message) : Prop := m.axis .trigger = m.axis .rt - m.axis .lt

instance (m : Message) : Decidable m.TriggerCoherent := inferInstanceAs (Decidable (_ = _))

variable {m : Message}

theorem count_nonneg (m : Message) (b : Button) : 0 ≤ m.count b := by
  unfold count
  split <;> decide

theorem count_le_one (m : Message) (b : Button) : m.count b ≤ 1 := by
  unfold count
  split <;> decide

namespace DpadCoherent

theorem neutral : Message.neutral.DpadCoherent := by decide

theorem congr {m n : Message} (h : m.DpadCoherent) (ha : n.AgreeOn [.dpadX, .dpadY] m)
    (hb : ∀ b : Button, b.isDpad = true → n.button b = m.button b) : n.DpadCoherent := by
  have hc : ∀ b : Button, b.isDpad = true → n.count b = m.count b := by
    intro b hd
    unfold count
    rw [hb b hd]
  rw [DpadCoherent, ha .dpadX (by simp), ha .dpadY (by simp), hc .dpadRight rfl, hc .dpadLeft rfl,
    hc .dpadDown rfl, hc .dpadUp rfl]
  exact h

theorem setAxis (h : m.DpadCoherent) {a : Axis} (ha : a ∉ [Axis.dpadX, .dpadY]) (v : Int) :
    (m.setAxis a v).DpadCoherent := by
  refine h.congr (fun c hc => ?_) fun b _ => rfl
  rw [axis_setAxis, if_neg]
  rintro rfl
  exact ha hc

theorem setButton (h : m.DpadCoherent) {b : Button} (hb : b.isDpad = false) (p : Bool) :
    (m.setButton b p).DpadCoherent := by
  refine h.congr (fun _ _ => rfl) fun c hc => ?_
  rw [button_setButton, if_neg]
  rintro rfl
  exact Bool.false_ne_true (hb.symm.trans hc)

theorem syncDpad (m : Message) : m.syncDpad.DpadCoherent := by
  have hr := m.count_nonneg .dpadRight
  have hl := m.count_nonneg .dpadLeft
  have hd := m.count_nonneg .dpadDown
  have hu := m.count_nonneg .dpadUp
  have hr' := m.count_le_one .dpadRight
  have hl' := m.count_le_one .dpadLeft
  have hd' := m.count_le_one .dpadDown
  have hu' := m.count_le_one .dpadUp
  constructor
  · change m.syncDpad.axis .dpadX = m.count .dpadRight - m.count .dpadLeft
    rw [Message.syncDpad, axis_setAxis, if_neg (by decide), axis_setAxis, if_pos rfl]
    exact Axis.clamp_of_inRange ⟨by simp [Axis.min]; omega, by simp [Axis.max]; omega⟩
  · change m.syncDpad.axis .dpadY = m.count .dpadDown - m.count .dpadUp
    rw [Message.syncDpad, axis_setAxis, if_pos rfl]
    exact Axis.clamp_of_inRange ⟨by simp [Axis.min]; omega, by simp [Axis.max]; omega⟩

theorem setDpadAxis (h : m.DpadCoherent) (a : Axis) (v : Int) :
    (m.setDpadAxis a v).DpadCoherent := by
  have hsplit : ∀ n : Int, -1 ≤ n → n ≤ 1 →
      n = (if 0 < n then 1 else 0) - (if n < 0 then 1 else 0) := by
    intro n hlow hhigh
    split <;> split <;> omega
  cases a with
  | dpadX =>
    obtain ⟨hlow, hhigh⟩ := Axis.dpadX.inRange_clamp v.sign
    refine ⟨?_, ?_⟩
    · simpa [Message.setDpadAxis, count] using hsplit _ hlow hhigh
    · simpa [Message.setDpadAxis, count] using h.2
  | dpadY =>
    obtain ⟨hlow, hhigh⟩ := Axis.dpadY.inRange_clamp v.sign
    refine ⟨?_, ?_⟩
    · simpa [Message.setDpadAxis, count] using h.1
    · simpa [Message.setDpadAxis, count] using hsplit _ hlow hhigh
  | _ => exact h.setAxis (by decide) _

theorem setTrigger (h : m.DpadCoherent) {a : Axis} (ha : a ∉ [Axis.dpadX, .dpadY]) (v : Int) :
    (m.setTrigger a v).DpadCoherent := by
  have hset : (m.setAxis a v).DpadCoherent := h.setAxis ha v
  cases a with
  | lt => exact (hset.setButton rfl _).setAxis (by decide) _
  | rt => exact (hset.setButton rfl _).setAxis (by decide) _
  | _ => exact hset

end DpadCoherent

namespace InRange

theorem syncDpad (h : m.InRange) : m.syncDpad.InRange :=
  (h.setAxis _ _).setAxis _ _

theorem setDpadAxis (h : m.InRange) (a : Axis) (v : Int) : (m.setDpadAxis a v).InRange := by
  cases a with
  | _ => exact h.setAxis _ _

theorem setTrigger (h : m.InRange) (a : Axis) (v : Int) : (m.setTrigger a v).InRange := by
  cases a with
  | lt | rt => exact (h.setAxis _ v).setAxis _ _
  | _ => exact h.setAxis _ v

end InRange

namespace TriggerCoherent

theorem neutral : Message.neutral.TriggerCoherent := by decide

theorem congr {m n : Message} (h : m.TriggerCoherent) (ha : n.AgreeOn [.trigger, .lt, .rt] m) :
    n.TriggerCoherent := by
  rw [TriggerCoherent, ha .trigger (by simp), ha .lt (by simp), ha .rt (by simp)]
  exact h

theorem setAxis (h : m.TriggerCoherent) {a : Axis} (ha : a ∉ [Axis.trigger, .lt, .rt]) (v : Int) :
    (m.setAxis a v).TriggerCoherent := by
  refine h.congr fun c hc => ?_
  rw [axis_setAxis, if_neg]
  rintro rfl
  exact ha hc

theorem setButton (h : m.TriggerCoherent) (b : Button) (p : Bool) :
    (m.setButton b p).TriggerCoherent := h

theorem syncDpad (h : m.TriggerCoherent) : m.syncDpad.TriggerCoherent :=
  (h.setAxis (by decide) _).setAxis (by decide) _

theorem setDpadAxis (h : m.TriggerCoherent) {a : Axis} (ha : a ∉ [Axis.trigger, .lt, .rt])
    (v : Int) : (m.setDpadAxis a v).TriggerCoherent := by
  cases a with
  | _ => exact h.setAxis ha _

theorem syncTrigger (hl : Axis.lt.InRange (m.axis .lt)) (hr : Axis.rt.InRange (m.axis .rt)) :
    m.syncTrigger.TriggerCoherent := by
  have hdiff : Axis.trigger.InRange (m.axis .rt - m.axis .lt) := by
    simp only [Axis.InRange, Axis.min, Axis.max] at hl hr ⊢
    omega
  simpa [TriggerCoherent, Message.syncTrigger] using Axis.clamp_of_inRange hdiff

theorem setTrigger (h : m.TriggerCoherent) (hm : m.InRange) {a : Axis} (ha : a ≠ .trigger)
    (v : Int) : (m.setTrigger a v).TriggerCoherent := by
  have hset : (m.setAxis a v).InRange := hm.setAxis a v
  cases a with
  | lt | rt => exact syncTrigger (hset .lt) (hset .rt)
  | trigger => exact (ha rfl).elim
  | _ => exact h.setAxis (by decide) v

end TriggerCoherent

end Message

namespace Evdev

/-- What an assembler keeps true of its frame, whatever comes in. A code may be mapped onto the
combined trigger axis, which is then written by itself. -/
structure Sound (maps : CodeMaps) (m : Message) : Prop where
  dpad : m.DpadCoherent
  inRange : m.InRange
  trigger : (∀ code : UInt16, maps.axes[code]? ≠ some Axis.trigger) → m.TriggerCoherent

namespace Sound

variable {maps : CodeMaps} {ranges : Std.ExtTreeMap UInt16 (Int × Int)} {m : Message}

theorem neutral (maps : CodeMaps) : Sound maps .neutral :=
  ⟨.neutral, .neutral, fun _ => .neutral⟩

theorem applyKey (h : Sound maps m) (code : UInt16) (v : Int) :
    Sound maps (Assembler.applyKey maps code v m) := by
  unfold Assembler.applyKey
  split
  · exact h
  · next b _ =>
    by_cases hb : b.isDpad = true
    · rw [if_pos hb]
      exact ⟨.syncDpad _, (h.inRange.setButton b _).syncDpad,
        fun ht => ((h.trigger ht).setButton b _).syncDpad⟩
    · rw [if_neg hb]
      exact ⟨h.dpad.setButton (eq_false_of_ne_true hb) _, h.inRange.setButton b _,
        fun ht => (h.trigger ht).setButton b _⟩

theorem applyAxis (h : Sound maps m) (code : UInt16) (v : Int) :
    Sound maps (Assembler.applyAxis maps ranges code v m) := by
  unfold Assembler.applyAxis
  split
  · exact h
  · next a ha =>
    cases a with
    | dpadX | dpadY =>
      exact ⟨h.dpad.setDpadAxis _ _, h.inRange.setDpadAxis _ _,
        fun ht => (h.trigger ht).setDpadAxis (by decide) _⟩
    | lt | rt =>
      exact ⟨h.dpad.setTrigger (by decide) _, h.inRange.setTrigger _ _,
        fun ht => (h.trigger ht).setTrigger h.inRange (by decide) _⟩
    | trigger =>
      exact ⟨h.dpad.setAxis (by decide) _, h.inRange.setAxis _ _, fun ht => (ht code ha).elim⟩
    | _ =>
      exact ⟨h.dpad.setAxis (by decide) _, h.inRange.setAxis _ _,
        fun ht => (h.trigger ht).setAxis (by decide) _⟩

theorem apply (h : Sound maps m) (e : RawEvent) : Sound maps (Assembler.apply maps ranges m e) := by
  unfold Assembler.apply
  split
  · exact h.applyKey e.code e.value
  · split
    · exact h.applyAxis e.code e.value
    · exact h

theorem advance (h : Sound maps m) (es : List RawEvent) :
    Sound maps (Assembler.advance maps ranges es m).1 := by
  induction es generalizing m with
  | nil => exact h
  | cons e es ih =>
    unfold Assembler.advance
    split
    · exact h
    · exact ih (h.apply e)

end Sound

namespace Assembler

/-- What is done with an assembler: an event comes in, or the next frame is asked for. -/
inductive Use where
  | push (e : RawEvent)
  | next

def frames : Assembler → List Use → List Message
  | _, [] => []
  | s, .push e :: us => (s.push e).frames us
  | s, .next :: us => s.nextFrame.2.toList ++ s.nextFrame.1.frames us

theorem nextFrame_eq (s : Assembler) :
    s.nextFrame.1.maps = s.maps ∧
      s.nextFrame.1.frame = (advance s.maps s.ranges s.pending s.frame).1 ∧
      ∀ m ∈ s.nextFrame.2, m = s.nextFrame.1.frame := by
  unfold nextFrame
  split
  · next m rest h =>
    rw [h]
    exact ⟨rfl, rfl, fun n hn => (Option.mem_some.mp hn).symm⟩
  · next m h =>
    rw [h]
    exact ⟨rfl, rfl, fun n hn => nomatch hn⟩

theorem sound_of_mem_frames {s : Assembler} (h : Sound s.maps s.frame) {us : List Use} {m : Message}
    (hm : m ∈ s.frames us) : Sound s.maps m := by
  induction us generalizing s with
  | nil => exact (List.not_mem_nil hm).elim
  | cons u us ih =>
    cases u with
    | push e => exact ih (s := s.push e) h hm
    | next =>
      obtain ⟨hmaps, hframe, hout⟩ := s.nextFrame_eq
      have hnext : Sound s.maps s.nextFrame.1.frame := hframe ▸ h.advance s.pending
      rcases List.mem_append.mp hm with hm | hm
      · exact hout m (Option.mem_toList.mp hm) ▸ hnext
      · have hrest := ih (s := s.nextFrame.1) (hmaps.symm ▸ hnext) hm
        exact hmaps ▸ hrest

end Assembler

end Evdev

namespace Xbox

theorem inRange_decodeAxes (bytes : List UInt8) (m : Message) {a : Axis}
    (ha : a ∉ [Axis.dpadX, .dpadY]) : a.InRange ((decodeAxes bytes m).axis a) := by
  cases a with
  | dpadX | dpadY => exact (ha (by decide)).elim
  | _ =>
    simp only [decodeAxes, Message.setTrigger, Message.syncTrigger, Message.axis_setAxis,
      Message.axis_setButton, reduceCtorEq, if_true, if_false]
    exact Axis.inRange_clamp _ _

theorem triggerCoherent_decodeAxes (bytes : List UInt8) (m : Message) :
    (decodeAxes bytes m).TriggerCoherent := by
  have hlt : ∀ v w, Axis.lt.InRange (((m.setTrigger .lt v).setAxis .rt w).axis .lt) := by
    intro v w
    simpa [Message.setTrigger, Message.syncTrigger] using Axis.lt.inRange_clamp v
  have hrt : ∀ (n : Message) w, Axis.rt.InRange ((n.setAxis .rt w).axis .rt) := by
    intro n w
    simpa using Axis.rt.inRange_clamp w
  have htriggers : ((m.setTrigger .lt (byteAt bytes 4)).setTrigger .rt
      (byteAt bytes 5)).TriggerCoherent := .syncTrigger (hlt _ _) (hrt _ _)
  exact (((htriggers.setAxis (by decide) _).setAxis (by decide) _).setAxis (by decide) _).setAxis
    (by decide) _

theorem coherent_decode {bytes : List UInt8} (h : reportLength ≤ bytes.length) (m : Message) :
    ∃ n, decode bytes m = .ok n ∧ n.DpadCoherent ∧ n.InRange ∧ n.TriggerCoherent := by
  refine ⟨_, if_neg (Nat.not_lt.mpr h), .syncDpad _, fun a => ?_,
    (triggerCoherent_decodeAxes bytes _).syncDpad⟩
  by_cases ha : a ∈ [Axis.dpadX, .dpadY]
  · simp only [List.mem_cons, List.not_mem_nil, or_false] at ha
    rcases ha with rfl | rfl
    · simpa [Message.syncDpad] using Axis.inRange_clamp _ _
    · simpa [Message.syncDpad] using Axis.inRange_clamp _ _
  · rw [List.mem_cons, List.mem_singleton, not_or] at ha
    rw [Message.syncDpad, Message.axis_setAxis, if_neg ha.2, Message.axis_setAxis, if_neg ha.1]
    exact inRange_decodeAxes bytes _ (by simp [ha])

end Xbox

namespace FourWay

theorem coherent_update (s : FourWay) {m : Message} (h : m.DpadCoherent) :
    (s.update m).2.DpadCoherent := by
  have hstick : ∀ {n : Message} {x y : Axis}, n.DpadCoherent → x ∉ [Axis.dpadX, .dpadY] →
      y ∉ [Axis.dpadX, .dpadY] → (restrictStick n x y).DpadCoherent := by
    intro n x y hn hx hy
    unfold restrictStick
    split
    · exact hn.setAxis hy 0
    · exact hn.setAxis hx 0
  simp only [update]
  split
  · exact hstick (hstick h (by decide) (by decide)) (by decide) (by decide)
  · unfold restrictDpad
    split <;> exact .syncDpad _

end FourWay

theorem DpadRotation.coherent_update (r : DpadRotation) {m : Message} (h : m.DpadCoherent) :
    (r.update m).DpadCoherent := by
  unfold update
  split
  · exact h
  · split
    · exact h
    · exact .syncDpad _

namespace Filter

/-- A filter that does not aim at one view of the dpad alone. -/
def SparesDpad : Filter → Prop
  | autofire s => s.button.isDpad = false
  | f => .dpadX ∉ f.axes ∧ .dpadY ∉ f.axes

variable {f : Filter}

theorem SparesDpad.update (h : f.SparesDpad) (ms : Nat) (m : Message) :
    (f.update ms m).1.SparesDpad := by
  cases f with
  | autofire s =>
    change (s.update ms m).1.button.isDpad = false
    unfold Autofire.update
    split <;> exact h
  | integrator s =>
    have haxes := (axes_update (integrator s) ms m).symm
    exact ⟨haxes ▸ h.1, haxes ▸ h.2⟩
  | _ => exact h

theorem SparesDpad.coherent_update (h : f.SparesDpad) (ms : Nat) {m : Message}
    (hm : m.DpadCoherent) : (f.update ms m).2.DpadCoherent := by
  have hapart : ∀ {as : List Axis}, .dpadX ∉ as ∧ .dpadY ∉ as → ∀ a ∈ [Axis.dpadX, .dpadY],
      a ∉ as := by
    intro as has a ha
    simp only [List.mem_cons, List.not_mem_nil, or_false] at ha
    rcases ha with rfl | rfl
    exacts [has.1, has.2]
  cases f with
  | autofire s =>
    change (s.update ms m).2.DpadCoherent
    unfold Autofire.update
    split
    · exact hm.setButton h _
    · exact hm
  | squareAxis =>
    exact (((hm.setAxis (by decide) _).setAxis (by decide) _).setAxis (by decide) _).setAxis
      (by decide) _
  | fourWay s => exact s.coherent_update hm
  | dpadRotation r => exact r.coherent_update hm
  | integrator s =>
    exact hm.congr (fun a ha => Integrator.axis_updateTracks_of_not_mem ms (hapart h a ha) m)
      fun b _ => Integrator.button_updateTracks ms s.tracks m b
  | calibration c => exact hm.setAxis (fun ha => hapart h _ ha List.mem_cons_self) _
  | deadzone d => exact hm.setAxis (fun ha => hapart h _ ha List.mem_cons_self) _
  | sensitivity s => exact hm.setAxis (fun ha => hapart h _ ha List.mem_cons_self) _

end Filter

namespace Chain

theorem sparesDpad_updateAll {fs : List Filter} (h : ∀ f ∈ fs, f.SparesDpad) (ms : Nat)
    (m : Message) : (∀ f ∈ (updateAll ms fs m).1, f.SparesDpad) ∧
      (m.DpadCoherent → (updateAll ms fs m).2.DpadCoherent) := by
  induction fs generalizing m with
  | nil => exact ⟨h, id⟩
  | cons f fs ih =>
    obtain ⟨hf, hfs⟩ := List.forall_mem_cons.mp h
    obtain ⟨hspares, hcoherent⟩ := ih hfs (f.update ms m).2
    rw [updateAll_cons]
    exact ⟨List.forall_mem_cons.mpr ⟨hf.update ms m, hspares⟩,
      fun hm => hcoherent (hf.coherent_update ms hm)⟩

theorem coherent_outputs {c : Chain} (h : ∀ f ∈ c.filters, f.SparesDpad) (ts : List Tick) :
    List.Forall₂ (fun t n => t.message.DpadCoherent → n.DpadCoherent) ts (c.outputs ts) := by
  induction ts generalizing c with
  | nil => exact .nil
  | cons t ts ih =>
    obtain ⟨hspares, hcoherent⟩ := sparesDpad_updateAll h t.ms t.message
    exact .cons hcoherent (ih hspares)

end Chain

/-- Both views of the dpad and of the triggers agree in every frame that is gathered from kernel
events and in every message that a report is read onto. A chain that spares the dpad lets a
coherent message through for every one that comes in, at every tick and whatever it remembers. -/
theorem views_coherent :
    (∀ maps ranges uses, ∀ m ∈ Evdev.Assembler.frames { maps, ranges } uses,
      m.DpadCoherent ∧ m.InRange ∧
        ((∀ code : UInt16, maps.axes[code]? ≠ some Axis.trigger) → m.TriggerCoherent)) ∧
    (∀ bytes m, Xbox.reportLength ≤ bytes.length → ∃ n, Xbox.decode bytes m = .ok n ∧
      n.DpadCoherent ∧ n.InRange ∧ n.TriggerCoherent) ∧
    ∀ c : Chain, (∀ f ∈ c.filters, f.SparesDpad) → ∀ ts : List Tick,
      List.Forall₂ (fun t n => t.message.DpadCoherent → n.DpadCoherent) ts (c.outputs ts) := by
  refine ⟨fun maps ranges uses m hm => ?_, fun bytes m h => Xbox.coherent_decode h m,
    fun c h ts => Chain.coherent_outputs h ts⟩
  have hsound := Evdev.Assembler.sound_of_mem_frames (.neutral maps) hm
  exact ⟨hsound.dpad, hsound.inRange, hsound.trigger⟩

/-- A key and a hat on one direction, a full report, and a chain that turns the dpad. -/
theorem views_coherent_key_and_hat :
    let maps := ((Evdev.CodeMaps.empty.bindKey 546 .dpadLeft).bindAxis 16 .dpadX).bindAxis 2 .lt
    let uses : List Evdev.Assembler.Use :=
      [.push (.key 546 1), .push .sync, .push (.abs 16 1), .push (.abs 2 200), .push .sync, .next,
        .next]
    let chain : Chain := ⟨[.squareAxis, .dpadRotation ⟨2⟩, .fourWay {}]⟩
    (∃ m n, Evdev.Assembler.frames { maps, ranges := ∅ } uses = [m, n] ∧
      m.button .dpadLeft = true ∧ m.axis .dpadX = -1 ∧ m.DpadCoherent ∧
      n.button .dpadLeft = false ∧ n.axis .dpadX = 1 ∧ n.DpadCoherent ∧
      n.axis .trigger = -200 ∧ n.TriggerCoherent) ∧
    (∃ n, Xbox.decode (List.replicate 20 255) .neutral = .ok n ∧ n.DpadCoherent) ∧
    ∃ n, chain.outputs [⟨10, Message.neutral.setDpadAxis .dpadX 1⟩] = [n] ∧ n.DpadCoherent := by
  intro maps uses chain
  obtain ⟨hframes, hdecode, hchain⟩ := views_coherent
  have hmaps : ∀ code : UInt16, maps.axes[code]? ≠ some Axis.trigger := by
    intro code
    simp only [maps, Evdev.CodeMaps.bindAxis, Std.ExtTreeMap.getElem?_insert]
    split
    · decide
    · split
      · decide
      · simp [Evdev.CodeMaps.bindKey, Evdev.CodeMaps.empty]
  refine ⟨?_, ?_, ?_⟩
  · have hrun : ∃ m n, Evdev.Assembler.frames { maps, ranges := ∅ } uses = [m, n] ∧
        m.button .dpadLeft = true ∧ m.axis .dpadX = -1 ∧ n.button .dpadLeft = false ∧
        n.axis .dpadX = 1 ∧ n.axis .trigger = -200 := ⟨_, _, rfl, by decide +kernel⟩
    obtain ⟨m, n, hmn, hml, hmx, hnl, hnx, hnt⟩ := hrun
    have hm := hframes maps ∅ uses m (hmn ▸ List.mem_cons_self)
    have hn := hframes maps ∅ uses n (hmn ▸ List.mem_cons_of_mem m List.mem_cons_self)
    exact ⟨m, n, hmn, hml, hmx, hm.1, hnl, hnx, hn.1, hnt, hn.2.2 hmaps⟩
  · obtain ⟨n, hn, hdpad, -⟩ := hdecode (List.replicate 20 255) .neutral (by decide)
    exact ⟨n, hn, hdpad⟩
  · have hspares : ∀ f ∈ chain.filters, f.SparesDpad := by
      intro f hf
      simp only [chain, List.mem_cons, List.not_mem_nil, or_false] at hf
      rcases hf with rfl | rfl | rfl
      all_goals exact ⟨List.not_mem_nil, List.not_mem_nil⟩
    have hall := hchain chain hspares [⟨10, Message.neutral.setDpadAxis .dpadX 1⟩]
    rw [Chain.outputs, Chain.outputs] at hall ⊢
    exact ⟨_, rfl, (List.forall₂_cons.mp hall).1 (by decide)⟩

end PadRemap
