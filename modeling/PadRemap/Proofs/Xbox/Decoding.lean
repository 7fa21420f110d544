import Mathlib.Data.Nat.Bitwise
import Mathlib.Tactic.IntervalCases
import PadRemap.Proofs.Pad.Coherence

/-! What a report says, and that a message says just that after it. Every button and every axis is
written, so nothing of the message before shines through, and no value is ever moved into range.
One bit of the two button bytes is spare; everything else between the header and the end of the
sticks can be read back from the message. -/

namespace PadRemap.Xbox

variable {xs ys : List UInt8} {m n : Message}

theorem byteAt_le (bytes : List UInt8) (i : Nat) : byteAt bytes i ≤ 255 :=
  Nat.le_of_lt_succ (UInt8.toNat_lt _)

theorem byteAt_inj {i : Nat} : byteAt xs i = byteAt ys i ↔ xs.getD i 0 = ys.getD i 0 :=
  UInt8.toNat_inj

theorem word_lt (bytes : List UInt8) (i : Nat) :
    byteAt bytes i + 256 * byteAt bytes (i + 1) < 65536 := by
  have hlow := byteAt_le bytes i
  have hhigh := byteAt_le bytes (i + 1)
  omega

theorem bmod_word {w : Nat} (h : w < 65536) :
    (w : Int).bmod 65536 = if w < 32768 then (w : Int) else w - 65536 := by
  have hword : (w : Int) % (65536 : Nat) = w := by omega
  rw [Int.bmod_def, hword]
  split <;> split <;> omega

theorem stickAt_eq (bytes : List UInt8) (i : Nat) : stickAt bytes i =
    if byteAt bytes i + 256 * byteAt bytes (i + 1) < 32768 then
      ((byteAt bytes i + 256 * byteAt bytes (i + 1) : Nat) : Int)
    else ((byteAt bytes i + 256 * byteAt bytes (i + 1) : Nat) : Int) - 65536 :=
  bmod_word (word_lt bytes i)

theorem stickAt_mem (bytes : List UInt8) (i : Nat) :
    -32768 ≤ stickAt bytes i ∧ stickAt bytes i ≤ 32767 := by
  have hword := word_lt bytes i
  rw [stickAt_eq]
  split <;> omega

theorem stickAt_inj {i : Nat} : stickAt xs i = stickAt ys i ↔
    xs.getD i 0 = ys.getD i 0 ∧ xs.getD (i + 1) 0 = ys.getD (i + 1) 0 := by
  have hx := byteAt_le xs i
  have hy := byteAt_le ys i
  have hxword := word_lt xs i
  have hyword := word_lt ys i
  rw [← byteAt_inj, ← byteAt_inj, stickAt_eq, stickAt_eq]
  split <;> split <;> omega

/-- What a message says after a report. -/
structure Shows (bytes : List UInt8) (n : Message) : Prop where
  button : ∀ x ∈ buttonBits, n.button x.1 = (byteAt bytes x.2.1).testBit x.2.2
  lt : n.axis .lt = byteAt bytes 4
  rt : n.axis .rt = byteAt bytes 5
  lt_button : n.button .lt = decide (0 < n.axis .lt)
  rt_button : n.button .rt = decide (0 < n.axis .rt)
  trigger : n.axis .trigger = n.axis .rt - n.axis .lt
  x1 : n.axis .x1 = stickAt bytes 6
  y1 : n.axis .y1 = -1 - stickAt bytes 8
  x2 : n.axis .x2 = stickAt bytes 10
  y2 : n.axis .y2 = -1 - stickAt bytes 12
  dpad : n.DpadCoherent

theorem button_decodeButtons (bytes : List UInt8) (m : Message) :
    ∀ x ∈ buttonBits, (decodeButtons bytes m).button x.1 = (byteAt bytes x.2.1).testBit x.2.2 := by
  simp [decodeButtons, buttonBits]

theorem axis_syncDpad (m : Message) {a : Axis} (ha : a ∉ [Axis.dpadX, .dpadY]) :
    m.syncDpad.axis a = m.axis a := by
  rw [List.mem_cons, List.mem_singleton, not_or] at ha
  rw [Message.syncDpad, Message.axis_setAxis, if_neg ha.2, Message.axis_setAxis, if_neg ha.1]

theorem button_syncDpad (m : Message) (b : Button) : m.syncDpad.button b = m.button b := by
  rw [Message.syncDpad, Message.button_setAxis, Message.button_setAxis]

theorem axis_setTrigger (m : Message) (a : Axis) (v : Int) {c : Axis} (hc : c ≠ .trigger) :
    (m.setTrigger a v).axis c = if c = a then a.clamp v else m.axis c := by
  cases a <;> simp [Message.setTrigger, Message.syncTrigger, hc]

theorem button_setTrigger (m : Message) (a : Axis) (v : Int) (b : Button) :
    (m.setTrigger a v).button b =
      if a = .lt ∧ b = .lt ∨ a = .rt ∧ b = .rt then decide (0 < a.clamp v) else m.button b := by
  cases a <;> simp [Message.setTrigger, Message.syncTrigger]

theorem button_decodeAxes (bytes : List UInt8) (m : Message) {b : Button} (hl : b ≠ .lt)
    (hr : b ≠ .rt) : (decodeAxes bytes m).button b = m.button b := by
  simp only [decodeAxes]
  rw [Message.button_setAxis, Message.button_setAxis, Message.button_setAxis,
    Message.button_setAxis, button_setTrigger, button_setTrigger, if_neg (by simp [hr]),
    if_neg (by simp [hl])]

theorem axis_decodeAxes (bytes : List UInt8) (m : Message) :
    let n := decodeAxes bytes m
    n.axis .lt = byteAt bytes 4 ∧ n.axis .rt = byteAt bytes 5 ∧
      n.button .lt = decide (0 < n.axis .lt) ∧ n.button .rt = decide (0 < n.axis .rt) ∧
      n.axis .x1 = stickAt bytes 6 ∧ n.axis .y1 = -1 - stickAt bytes 8 ∧
      n.axis .x2 = stickAt bytes 10 ∧ n.axis .y2 = -1 - stickAt bytes 12 := by
  have hbyte : ∀ i, 0 ≤ (byteAt bytes i : Int) ∧ (byteAt bytes i : Int) ≤ 255 := fun i =>
    ⟨Int.natCast_nonneg _, Int.ofNat_le.mpr (byteAt_le bytes i)⟩
  have hlt : Axis.lt.clamp (byteAt bytes 4) = byteAt bytes 4 := Axis.clamp_of_inRange (hbyte 4)
  have hrt : Axis.rt.clamp (byteAt bytes 5) = byteAt bytes 5 := Axis.clamp_of_inRange (hbyte 5)
  have hx1 : Axis.x1.clamp (stickAt bytes 6) = stickAt bytes 6 :=
    Axis.clamp_of_inRange (stickAt_mem bytes 6)
  have hx2 : Axis.x2.clamp (stickAt bytes 10) = stickAt bytes 10 :=
    Axis.clamp_of_inRange (stickAt_mem bytes 10)
  have hturned : ∀ i, -32768 ≤ -1 - stickAt bytes i ∧ -1 - stickAt bytes i ≤ 32767 := by
    intro i
    have := stickAt_mem bytes i
    omega
  have hy1 : Axis.y1.clamp (-1 - stickAt bytes 8) = -1 - stickAt bytes 8 :=
    Axis.clamp_of_inRange (hturned 8)
  have hy2 : Axis.y2.clamp (-1 - stickAt bytes 12) = -1 - stickAt bytes 12 :=
    Axis.clamp_of_inRange (hturned 12)
  simp -implicitDefEqProofs [decodeAxes, axis_setTrigger, button_setTrigger, hlt, hrt, hx1, hy1,
    hx2, hy2]

theorem shows_decode {bytes : List UInt8} (h : reportLength ≤ bytes.length) (m : Message) :
    ∃ n, decode bytes m = .ok n ∧ Shows bytes n := by
  refine ⟨_, if_neg (Nat.not_lt.mpr h), ?_⟩
  obtain ⟨hlt, hrt, hltb, hrtb, hx1, hy1, hx2, hy2⟩ :=
    axis_decodeAxes bytes (decodeButtons bytes m)
  have htrigger := triggerCoherent_decodeAxes bytes (decodeButtons bytes m)
  have hbutton : ∀ x ∈ buttonBits, (decodeAxes bytes (decodeButtons bytes m)).button x.1 =
      (byteAt bytes x.2.1).testBit x.2.2 := by
    intro x hx
    have hapart : ∀ x ∈ buttonBits, x.1 ≠ .lt ∧ x.1 ≠ .rt := by decide
    exact (button_decodeAxes bytes _ (hapart x hx).1 (hapart x hx).2).trans
      (button_decodeButtons bytes m x hx)
  generalize decodeAxes bytes (decodeButtons bytes m) = n at *
  have hkept : ∀ a, a ∉ [Axis.dpadX, .dpadY] → n.syncDpad.axis a = n.axis a := fun a ha =>
    axis_syncDpad n ha
  exact {
    button := fun x hx => (button_syncDpad n x.1).trans (hbutton x hx)
    lt := (hkept .lt (by decide)).trans hlt
    rt := (hkept .rt (by decide)).trans hrt
    lt_button := by rw [button_syncDpad, hkept .lt (by decide), hltb]
    rt_button := by rw [button_syncDpad, hkept .rt (by decide), hrtb]
    trigger := htrigger.syncDpad
    x1 := (hkept .x1 (by decide)).trans hx1
    y1 := (hkept .y1 (by decide)).trans hy1
    x2 := (hkept .x2 (by decide)).trans hx2
    y2 := (hkept .y2 (by decide)).trans hy2
    dpad := .syncDpad n }

namespace Shows

theorem unique (hm : Shows xs m) (hn : Shows xs n) : m = n := by
  have hbits : ∀ b : Button, b = .lt ∨ b = .rt ∨ ∃ i bit, (b, i, bit) ∈ buttonBits := by
    intro b
    cases b <;> simp [buttonBits]
  have hbutton : ∀ b, m.button b = n.button b := by
    intro b
    rcases hbits b with rfl | rfl | ⟨i, bit, hb⟩
    · rw [hm.lt_button, hn.lt_button, hm.lt, hn.lt]
    · rw [hm.rt_button, hn.rt_button, hm.rt, hn.rt]
    · exact (hm.button _ hb).trans (hn.button _ hb).symm
  have hcount : ∀ b, m.count b = n.count b := by
    intro b
    rw [Message.count, Message.count, hbutton b]
  ext a
  · rw [hbutton]
  · cases a with
    | x1 => rw [hm.x1, hn.x1]
    | y1 => rw [hm.y1, hn.y1]
    | x2 => rw [hm.x2, hn.x2]
    | y2 => rw [hm.y2, hn.y2]
    | lt => rw [hm.lt, hn.lt]
    | rt => rw [hm.rt, hn.rt]
    | dpadX => rw [hm.dpad.1, hn.dpad.1, hcount, hcount]
    | dpadY => rw [hm.dpad.2, hn.dpad.2, hcount, hcount]
    | trigger => rw [hm.trigger, hn.trigger, hm.lt, hn.lt, hm.rt, hn.rt]

end Shows

/-- The bits of the second button byte that belong to a button. -/
def spareless : UInt8 := 0xf7

/-- Two reports do not differ but in bytes and bits that are not read. -/
structure SameInput (xs ys : List UInt8) : Prop where
  first : xs.getD 2 0 = ys.getD 2 0
  second : xs.getD 3 0 &&& spareless = ys.getD 3 0 &&& spareless
  analog : ∀ i, 4 ≤ i → i < 14 → xs.getD i 0 = ys.getD i 0

theorem and_eq_and_iff {a b mask : UInt8} : a &&& mask = b &&& mask ↔
    ∀ i < 8, mask.toNat.testBit i = true → a.toNat.testBit i = b.toNat.testBit i := by
  rw [← UInt8.toNat_inj, UInt8.toNat_and, UInt8.toNat_and]
  constructor
  · intro h i _ hi
    simpa [hi] using congrArg (Nat.testBit · i) h
  · intro h
    refine Nat.eq_of_testBit_eq fun i => ?_
    rw [Nat.testBit_and, Nat.testBit_and]
    cases hi : mask.toNat.testBit i with
    | false => rw [Bool.and_false, Bool.and_false]
    | true =>
      have hlow : i < 8 := by
        by_contra hle
        have hmask : mask.toNat < 2 ^ i := Nat.lt_of_lt_of_le (UInt8.toNat_lt mask)
          (Nat.pow_le_pow_right (by decide) (Nat.le_of_not_lt hle))
        exact Bool.false_ne_true ((Nat.testBit_lt_two_pow hmask).symm.trans hi)
      rw [h i hlow hi]

theorem byte_eq_iff {a b : UInt8} :
    a = b ↔ ∀ i < 8, a.toNat.testBit i = b.toNat.testBit i := by
  have hall : ∀ i < 8, (0xff : UInt8).toNat.testBit i = true := by decide
  have hff : ∀ c : UInt8, c &&& 0xff = c := by
    intro c
    exact UInt8.and_neg_one
  rw [← hff a, ← hff b, and_eq_and_iff, hff, hff]
  exact ⟨fun h i hi => h i hi (hall i hi), fun h i hi _ => h i hi⟩

theorem bits_eq_iff : (∀ x ∈ buttonBits,
      (byteAt xs x.2.1).testBit x.2.2 = (byteAt ys x.2.1).testBit x.2.2) ↔
    xs.getD 2 0 = ys.getD 2 0 ∧ xs.getD 3 0 &&& spareless = ys.getD 3 0 &&& spareless := by
  rw [byte_eq_iff, and_eq_and_iff]
  constructor
  · intro h
    have hfirst : ∀ i < 8, ∃ x ∈ buttonBits, x.2 = (2, i) := by decide
    have hsecond : ∀ i < 8, spareless.toNat.testBit i = true → ∃ x ∈ buttonBits, x.2 = (3, i) := by
      decide
    constructor
    · intro i hi
      obtain ⟨x, hx, he⟩ := hfirst i hi
      have hbits := h x hx
      rwa [he] at hbits
    · intro i hi hbit
      obtain ⟨x, hx, he⟩ := hsecond i hi hbit
      have hbits := h x hx
      rwa [he] at hbits
  · rintro ⟨hfirst, hsecond⟩ ⟨b, i, bit⟩ hx
    have hplace : ∀ x ∈ buttonBits, x.2.2 < 8 ∧
        (x.2.1 = 2 ∨ x.2.1 = 3 ∧ spareless.toNat.testBit x.2.2 = true) := by decide
    obtain ⟨hbit, rfl | ⟨rfl, hspare⟩⟩ := hplace _ hx
    · exact hfirst bit hbit
    · exact hsecond bit hbit hspare

namespace Shows

theorem congr (h : SameInput xs ys) (hn : Shows xs n) : Shows ys n := by
  have hbits := bits_eq_iff.mpr ⟨h.first, h.second⟩
  have hbyte : ∀ i, 4 ≤ i → i < 14 → byteAt xs i = byteAt ys i := fun i hi hi' =>
    byteAt_inj.mpr (h.analog i hi hi')
  have hstick : ∀ i, 4 ≤ i → i + 1 < 14 → stickAt xs i = stickAt ys i := fun i hi hi' =>
    stickAt_inj.mpr ⟨h.analog i hi (by omega), h.analog (i + 1) (by omega) hi'⟩
  exact {
    button := fun x hx => (hn.button x hx).trans (hbits x hx)
    lt := hn.lt.trans (by rw [hbyte 4 (by decide) (by decide)])
    rt := hn.rt.trans (by rw [hbyte 5 (by decide) (by decide)])
    lt_button := hn.lt_button
    rt_button := hn.rt_button
    trigger := hn.trigger
    x1 := hn.x1.trans (hstick 6 (by decide) (by decide))
    y1 := hn.y1.trans (by rw [hstick 8 (by decide) (by decide)])
    x2 := hn.x2.trans (hstick 10 (by decide) (by decide))
    y2 := hn.y2.trans (by rw [hstick 12 (by decide) (by decide)])
    dpad := hn.dpad }

theorem sameInput (hx : Shows xs n) (hy : Shows ys n) : SameInput xs ys := by
  obtain ⟨hfirst, hsecond⟩ := bits_eq_iff.mp fun x hm =>
    (hx.button x hm).symm.trans (hy.button x hm)
  have h4 : xs.getD 4 0 = ys.getD 4 0 := byteAt_inj.mp (Int.ofNat_inj.mp (hx.lt.symm.trans hy.lt))
  have h5 : xs.getD 5 0 = ys.getD 5 0 := byteAt_inj.mp (Int.ofNat_inj.mp (hx.rt.symm.trans hy.rt))
  have h6 := stickAt_inj.mp (hx.x1.symm.trans hy.x1)
  have h8 : xs.getD 8 0 = ys.getD 8 0 ∧ xs.getD 9 0 = ys.getD 9 0 := by
    have hy1 := hx.y1.symm.trans hy.y1
    exact stickAt_inj.mp (by omega)
  have h10 := stickAt_inj.mp (hx.x2.symm.trans hy.x2)
  have h12 : xs.getD 12 0 = ys.getD 12 0 ∧ xs.getD 13 0 = ys.getD 13 0 := by
    have hy2 := hx.y2.symm.trans hy.y2
    exact stickAt_inj.mp (by omega)
  refine ⟨hfirst, hsecond, fun i hi hi' => ?_⟩
  interval_cases i
  exacts [h4, h5, h6.1, h6.2, h8.1, h8.2, h10.1, h10.2, h12.1, h12.2]

end Shows

def left (bytes : List UInt8) (m : Message) : Message :=
  match decode bytes m with
  | .ok n => n
  | .error _ => m

theorem decode_short {bytes : List UInt8} (h : bytes.length < reportLength) (m : Message) :
    decode bytes m = .error (.shortReport bytes.length) ∧ left bytes m = m := by
  have hdecode : decode bytes m = .error (.shortReport bytes.length) := if_pos h
  exact ⟨hdecode, by rw [left, hdecode]⟩

/-- Of two whole reports the same message is read just if the same input stands in them,
whatever the messages were that they are read onto. -/
theorem decode_eq_iff (hx : reportLength ≤ xs.length) (hy : reportLength ≤ ys.length)
    (m n : Message) : decode xs m = decode ys n ↔ SameInput xs ys := by
  obtain ⟨m', hm, hxm⟩ := shows_decode hx m
  obtain ⟨n', hn, hyn⟩ := shows_decode hy n
  rw [hm, hn, Except.ok.injEq]
  constructor
  · rintro rfl
    exact hxm.sameInput hyn
  · intro h
    exact (hxm.congr h).unique hyn

/-- A whole report is always read; what comes of it does not depend on the message it is read
onto, tells apart all reports that differ in what is read of them, and ties the buttons of the
triggers, the combined axis and the axes of the dpad to the rest. A short report is refused and
leaves the message alone. -/
theorem decode_lossless :
    (∀ xs, reportLength ≤ xs.length → ∃ n, (∀ m, decode xs m = .ok n ∧ left xs m = n) ∧
      (n.button .lt = true ↔ 0 < n.axis .lt) ∧ (n.button .rt = true ↔ 0 < n.axis .rt) ∧
      n.axis .trigger = n.axis .rt - n.axis .lt ∧
      n.axis .dpadX = n.count .dpadRight - n.count .dpadLeft ∧
      n.axis .dpadY = n.count .dpadDown - n.count .dpadUp) ∧
    (∀ xs ys m n, reportLength ≤ xs.length → reportLength ≤ ys.length →
      (decode xs m = decode ys n ↔ SameInput xs ys)) ∧
    ∀ xs m, xs.length < reportLength →
      decode xs m = .error (.shortReport xs.length) ∧ left xs m = m := by
  refine ⟨fun xs hx => ?_, fun xs ys m n hx hy => decode_eq_iff hx hy m n,
    fun xs m hx => decode_short hx m⟩
  obtain ⟨n, -, hn⟩ := shows_decode hx .neutral
  refine ⟨n, fun m => ?_, by rw [hn.lt_button, decide_eq_true_iff],
    by rw [hn.rt_button, decide_eq_true_iff], hn.trigger, hn.dpad⟩
  obtain ⟨n', hn', hshows⟩ := shows_decode hx m
  rw [left, hn', hshows.unique hn]
  exact ⟨rfl, rfl⟩

/-- Both sticks at their ends. The same report with another header and the spare bit set says the
same, onto a message of all buttons too; one with a single bit of a stick changed does not. -/
theorem decode_lossless_spare_bit :
    let report : UInt8 → UInt8 → List UInt8 := fun header bits =>
      [header, 20, 0x11, bits, 255, 0, 0xff, 0x7f, 0x00, 0x80, 0x00, 0x80, 0xff, 0x7f] ++
        List.replicate 6 0
    let pressed : Message := ⟨.fill true, .fill 1⟩
    (∃ n, decode (report 0 0x11) pressed = .ok n ∧ left (report 0 0x11) pressed = n ∧
      n.axis .y1 = 32767 ∧ n.axis .trigger = n.axis .rt - n.axis .lt) ∧
    decode (report 0 0x11) .neutral = decode (report 7 0x19) pressed ∧
    decode (report 0 0x11) .neutral ≠ decode ((report 0 0x11).set 6 0xfe) .neutral ∧
    decode [0, 20, 0] pressed = .error (.shortReport 3) ∧ left [0, 20, 0] pressed = pressed := by
  intro report pressed
  obtain ⟨hwhole, hiff, hshort⟩ := decode_lossless
  refine ⟨?_, ?_, fun h => ?_, hshort [0, 20, 0] pressed (by decide)⟩
  · obtain ⟨n, hn, -, -, htrigger, -⟩ := hwhole (report 0 0x11) (by decide)
    have hread : (decode (report 0 0x11) pressed).toOption.map (fun n => n.axis .y1) =
        some 32767 := by decide +kernel
    rw [(hn pressed).1] at hread
    exact ⟨n, (hn pressed).1, (hn pressed).2, Option.some.inj hread, htrigger⟩
  · exact (hiff _ _ .neutral pressed (by decide) (by decide)).mpr
      ⟨by decide, by decide, by decide +kernel⟩
  · have hsame := (hiff _ _ .neutral .neutral (by decide) (by decide)).mp h
    exact absurd (hsame.analog 6 (by decide) (by decide)) (by decide)

end PadRemap.Xbox
