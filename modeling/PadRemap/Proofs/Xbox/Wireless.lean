import Mathlib.Data.List.Induction
import PadRemap.Proofs.Xbox.Decoding
import PadRemap.Xbox.Reader

/-! A pad on a channel of a wireless receiver beside one on a cable. The main statement says that
the channel reads from a data packet what the cable reads from the report inside it, that no other
packet touches the message, and that presence and LED status follow from the packets and calls so
far, whatever becomes of the packets written back. -/

namespace PadRemap.Xbox.Reader

/-- What is done with a reader. -/
inductive Act where
  | packet (bytes : List UInt8)
  | led (status : UInt8)
  deriving DecidableEq, Repr

structure Use where
  act : Act
  taken : Bool
  deriving DecidableEq, Repr

/-- A reader in use, with the message read last and what was handed to the transport. -/
structure Session where
  reader : Reader
  message : Message
  handed : List (List UInt8 × Bool) := []

namespace Session

def next (s : Session) (u : Use) : Session :=
  match u.act with
  | .packet bytes => match s.reader.receive bytes s.message with
    | .ok x => ⟨x.reader, x.message, s.handed ++ x.written.map (·, u.taken)⟩
    | .error _ => s
  | .led status =>
    { s with
      reader := s.reader.setLed status
      handed := s.handed ++ [(s.reader.ledPacket status, u.taken)] }

def run (s : Session) (us : List Use) : Session := us.foldl next s

end Session

/-- A wireless data packet with a report inside. -/
def CarriesReport (bytes : List UInt8) : Prop :=
  29 ≤ bytes.length ∧ [0x00, 0x01] <+: bytes ∧ [0x00, 0x14] <+: bytes.drop 4

instance (bytes : List UInt8) : Decidable (CarriesReport bytes) :=
  inferInstanceAs (Decidable (_ ∧ _ ∧ _))

def embedded (bytes : List UInt8) : List UInt8 := (bytes.drop 4).take 20

def presence? (bytes : List UInt8) : Option Bool :=
  if bytes[0]? = some 0x08 then bytes[1]?.map fun flags => flags &&& 0x80 ≠ 0 else none

namespace Use

def presence? (u : Use) : Option Bool :=
  match u.act with
  | .packet bytes => Reader.presence? bytes
  | .led _ => none

def led? (u : Use) : Option UInt8 :=
  match u.act with
  | .packet _ => none
  | .led status => some status

/-- The same on a cable: the report of a data packet comes in by itself. -/
def onCable? (u : Use) : Option Use :=
  match u.act with
  | .packet bytes =>
    if CarriesReport bytes then some ⟨.packet (embedded bytes), u.taken⟩ else none
  | .led _ => none

end Use

def present (us : List Use) : Bool := (us.filterMap Use.presence?).getLast?.getD false

def lastLed? (us : List Use) : Option UInt8 := (us.filterMap Use.led?).getLast?

/-- The LED statuses that a use has to send after some others: its own, or the last one when a pad
has shown up. -/
def due (before : List Use) (u : Use) : List (UInt8 × Bool) :=
  match u.act with
  | .packet bytes =>
    if Reader.presence? bytes = some true ∧ present before = false then
      (lastLed? before).toList.map (·, u.taken)
    else []
  | .led status => [(status, u.taken)]

def dues (before : List Use) : List Use → List (UInt8 × Bool)
  | [] => []
  | u :: us => due before u ++ dues (before ++ [u]) us

theorem dues_concat (before us : List Use) (u : Use) :
    dues before (us ++ [u]) = dues before us ++ due (before ++ us) u := by
  induction us generalizing before with
  | nil => simp [dues]
  | cons v us ih => simp [dues, ih]

theorem decode_eq_left {bytes : List UInt8} (h : reportLength ≤ bytes.length) (m : Message) :
    decode bytes m = .ok (left bytes m) := by
  obtain ⟨n, hn, -⟩ := shows_decode h m
  rw [left, hn]

theorem receive_wired (bytes : List UInt8) (m : Message) :
    ∃ x, wired.receive bytes m = .ok x ∧ x.reader = wired := by
  unfold receive
  simp only
  split
  · exact ⟨_, rfl, rfl⟩
  · next h =>
    unfold report
    split
    · rw [decode_eq_left (Nat.le_of_not_lt h)]
      exact ⟨_, rfl, rfl⟩
    · exact ⟨_, rfl, rfl⟩

theorem receive_wired_report {bytes : List UInt8} (hlength : bytes.length = 20)
    (hheader : [0x00, 0x14] <+: bytes) (m : Message) : wired.receive bytes m =
      .ok { reader := wired, message := left bytes m, fresh := true } := by
  have htake : bytes.take bufferLength = bytes :=
    List.take_of_length_le (hlength ▸ show 20 ≤ 32 by decide)
  have hwhole : reportLength ≤ bytes.length := Nat.le_of_eq hlength.symm
  have hstart : reportHeader.isPrefixOf bytes = true := List.isPrefixOf_iff_prefix.mpr hheader
  simp only [receive, htake, if_neg (Nat.not_lt.mpr hwhole), report, if_pos hstart]
  rw [decode_eq_left hwhole]
  rfl

theorem testBit_seven (flags : UInt8) : flags.toNat.testBit 7 = decide (flags &&& 0x80 ≠ 0) := by
  have hall : ∀ n < 256, Nat.testBit n 7 = decide (UInt8.ofNat n &&& 0x80 ≠ 0) := by
    decide +kernel
  rw [hall _ (UInt8.toNat_lt flags), UInt8.ofNat_toNat]

def reading (c : Channel) (bytes : List UInt8) (m : Message) : Received where
  reader := wireless { c with connected := (presence? bytes).getD c.connected }
  message := if CarriesReport bytes then left (embedded bytes) m else m
  fresh := CarriesReport bytes
  written := if presence? bytes = some true ∧ c.connected = false then
    c.led.toList.map (wireless c).ledPacket else []

theorem reading_of_ignored (c : Channel) {bytes : List UInt8} (hp : presence? bytes = none)
    (hc : ¬CarriesReport bytes) (m : Message) : reading c bytes m = (wireless c).ignore m := by
  simp [reading, hp, hc, ignore]

theorem receive_status (c : Channel) (flags : UInt8) (rest : List UInt8) (m : Message) :
    (wireless c).receive (0x08 :: flags :: rest) m = .ok (reading c (0x08 :: flags :: rest) m) := by
  have hp : presence? (0x08 :: flags :: rest) = some (flags.toNat.testBit 7) := by
    simp [presence?, testBit_seven]
  have hc : ¬CarriesReport (0x08 :: flags :: rest) := by simp [CarriesReport]
  change Except.ok (presence c flags m) = _
  simp only [presence, reading, hp, hc, if_false]
  cases flags.toNat.testBit 7 <;> cases c.connected <;> cases c.led <;> rfl

theorem embedded_of_cut (bytes : List UInt8) :
    ((bytes.take bufferLength).drop wirelessOffset).take reportLength = embedded bytes := by
  rw [List.drop_take, List.take_take]
  rfl

theorem length_embedded {bytes : List UInt8} (h : 29 ≤ bytes.length) :
    (embedded bytes).length = 20 := by
  rw [embedded, List.length_take, List.length_drop]
  omega

theorem carriesReport_iff {bytes : List UInt8} (h : [0x00, 0x01] <+: bytes) :
    CarriesReport bytes ↔ 29 ≤ bytes.length ∧ reportHeader <+: embedded bytes := by
  rw [embedded, List.prefix_take_iff]
  exact ⟨fun ⟨hl, _, hr⟩ => ⟨hl, hr, by decide⟩, fun ⟨hl, hr, _⟩ => ⟨hl, h, hr⟩⟩

theorem receive_data (c : Channel) (rest : List UInt8) (m : Message) :
    (wireless c).receive (0x00 :: 0x01 :: rest) m = .ok (reading c (0x00 :: 0x01 :: rest) m) := by
  have hiff := @carriesReport_iff (0x00 :: 0x01 :: rest) ⟨rest, rfl⟩
  have hp : presence? (0x00 :: 0x01 :: rest) = none := rfl
  have hreceive : (wireless c).receive (0x00 :: 0x01 :: rest) m =
      if ((0x00 :: 0x01 :: rest).take bufferLength).length < wirelessLength then
        .ok ((wireless c).ignore m)
      else (wireless c).report (embedded (0x00 :: 0x01 :: rest)) m := by
    rw [← embedded_of_cut]
    rfl
  generalize (0x00 :: 0x01 :: rest) = bytes at *
  rw [hreceive, List.length_take]
  by_cases hlength : 29 ≤ bytes.length
  · have hlong : ¬min bufferLength bytes.length < wirelessLength := by
      simp only [bufferLength, wirelessLength]
      omega
    have hwhole : reportLength ≤ (embedded bytes).length :=
      Nat.le_of_eq (length_embedded hlength).symm
    rw [if_neg hlong, report]
    by_cases hheader : reportHeader <+: embedded bytes
    · have hc : CarriesReport bytes := hiff.mpr ⟨hlength, hheader⟩
      rw [if_pos (List.isPrefixOf_iff_prefix.mpr hheader), decode_eq_left hwhole]
      simp [reading, hp, hc, Except.map]
    · have hc : ¬CarriesReport bytes := fun hc => hheader (hiff.mp hc).2
      rw [if_neg (mt List.isPrefixOf_iff_prefix.mp hheader), reading_of_ignored c hp hc]
  · have hshort : min bufferLength bytes.length < wirelessLength := by
      simp only [bufferLength, wirelessLength]
      omega
    rw [if_pos hshort, reading_of_ignored c hp fun hc => hlength hc.1]

theorem receive_wireless (c : Channel) (bytes : List UInt8) (m : Message) :
    (wireless c).receive bytes m = .ok (reading c bytes m) := by
  match bytes with
  | [] =>
    rw [reading_of_ignored c rfl (by decide)]
    rfl
  | [b] =>
    have hp : presence? [b] = none := by simp [presence?]
    rw [reading_of_ignored c hp fun hc => absurd hc.1 (by simp)]
    simp [receive, bufferLength]
  | b :: b' :: rest =>
    by_cases hstatus : b = 0x08
    · exact hstatus ▸ receive_status c b' rest m
    · by_cases hdata : b = 0x00 ∧ b' = 0x01
      · exact hdata.1 ▸ hdata.2 ▸ receive_data c rest m
      · have hp : presence? (b :: b' :: rest) = none := by simp [presence?, hstatus]
        have hc : ¬CarriesReport (b :: b' :: rest) := by
          rintro ⟨-, h, -⟩
          simp only [List.cons_prefix_cons] at h
          exact hdata ⟨h.1.symm, h.2.1.symm⟩
        rw [reading_of_ignored c hp hc]
        unfold receive
        simp only [bufferLength, List.take_succ_cons]
        split
        · next h => exact absurd (List.cons.inj h).1 hstatus
        · next h =>
          simp only [List.cons.injEq] at h
          exact absurd ⟨h.1, h.2.1⟩ hdata
        · rfl

/-- On a channel and on a cable the report of a data packet reads the same. -/
theorem reading_of_carries (c : Channel) {bytes : List UInt8} (h : CarriesReport bytes)
    (m : Message) : wired.receive (embedded bytes) m =
      .ok { reader := wired, message := (reading c bytes m).message, fresh := true } := by
  have hheader : [0x00, 0x14] <+: embedded bytes :=
    List.prefix_take_iff.mpr ⟨h.2.2, by decide⟩
  rw [receive_wired_report (length_embedded h.1) hheader]
  simp [reading, h]

theorem present_concat (us : List Use) (u : Use) :
    present (us ++ [u]) = u.presence?.getD (present us) := by
  cases h : u.presence? <;> simp [present, h]

theorem lastLed?_concat (us : List Use) (u : Use) :
    lastLed? (us ++ [u]) = u.led?.or (lastLed? us) := by
  cases h : u.led? <;> simp [lastLed?, h]

theorem reader_run_wired (m : Message) (us : List Use) :
    ((Session.mk wired m []).run us).reader = wired := by
  induction us using List.reverseRecOn with
  | nil => rfl
  | append_singleton us u ih =>
    rw [Session.run, List.foldl_concat, ← Session.run]
    generalize (Session.mk wired m []).run us = s at ih
    obtain ⟨r, n, handed⟩ := s
    subst ih
    obtain ⟨⟨bytes⟩ | ⟨status⟩, taken⟩ := u
    · obtain ⟨x, hx, hr⟩ := receive_wired bytes n
      simp [Session.next, hx, hr]
    · rfl

theorem message_run_wired (m : Message) (us : List Use) {bytes : List UInt8}
    (h : CarriesReport bytes) (taken : Bool) (c : Channel) :
    ((Session.mk wired m []).run (us ++ [⟨.packet (embedded bytes), taken⟩])).message =
      (reading c bytes ((Session.mk wired m []).run us).message).message := by
  have hr := reader_run_wired m us
  rw [Session.run, List.foldl_concat, ← Session.run, Session.next, hr]
  simp only [reading_of_carries c h]

/-- Where a session on a channel stands after some uses. -/
structure Session.Follows (s : Session) (start : Message) (us : List Use) : Prop where
  reader : s.reader = wireless ⟨present us, lastLed? us⟩
  message : s.message = ((Session.mk wired start []).run (us.filterMap Use.onCable?)).message
  handed : s.handed = (dues [] us).map fun d => ((wireless {}).ledPacket d.1, d.2)

namespace Session.Follows

variable {s : Session} {start : Message} {us : List Use}

theorem packet (h : s.Follows start us) (bytes : List UInt8) (taken : Bool) :
    (s.next ⟨.packet bytes, taken⟩).Follows start (us ++ [⟨.packet bytes, taken⟩]) := by
  have hnext : s.next ⟨.packet bytes, taken⟩ =
      let x := reading ⟨present us, lastLed? us⟩ bytes s.message
      ⟨x.reader, x.message, s.handed ++ x.written.map (·, taken)⟩ := by
    simp only [Session.next, h.reader, receive_wireless]
  rw [hnext]
  constructor
  · rw [present_concat, lastLed?_concat]
    rfl
  · rw [List.filterMap_append]
    by_cases hc : CarriesReport bytes
    · simp only [List.filterMap_cons, Use.onCable?, hc, if_true, List.filterMap_nil]
      rw [message_run_wired start _ hc taken ⟨present us, lastLed? us⟩, ← h.message]
    · simp only [List.filterMap_cons, Use.onCable?, hc, if_false, List.filterMap_nil,
        List.append_nil, reading]
      exact h.message
  · rw [dues_concat, List.map_append, h.handed]
    simp only [reading, due, List.nil_append]
    split
    · simp [ledPacket]
    · rfl

theorem led (h : s.Follows start us) (status : UInt8) (taken : Bool) :
    (s.next ⟨.led status, taken⟩).Follows start (us ++ [⟨.led status, taken⟩]) := by
  constructor
  · rw [present_concat, lastLed?_concat]
    simp [Session.next, h.reader, setLed, Use.presence?, Use.led?]
  · simpa [Session.next, List.filterMap_append, List.filterMap_cons, Use.onCable?] using h.message
  · rw [dues_concat, List.map_append, ← h.handed]
    simp [Session.next, h.reader, due, ledPacket]

end Session.Follows

theorem follows_run (start : Message) (us : List Use) :
    ((Session.mk (wireless {}) start []).run us).Follows start us := by
  induction us using List.reverseRecOn with
  | nil => exact ⟨rfl, rfl, rfl⟩
  | append_singleton us u ih =>
    rw [Session.run, List.foldl_concat]
    obtain ⟨⟨bytes⟩ | ⟨status⟩, taken⟩ := u
    · exact ih.packet bytes taken
    · exact ih.led status taken

theorem ledPacket_toNat {status : UInt8} (h : status.toNat ≤ 191) (c : Channel) :
    ((wireless c).ledPacket status).map UInt8.toNat =
      [0, 0, 8, 64 + status.toNat] ++ List.replicate 8 0 := by
  have hsum : (0x40 + status).toNat = 64 + status.toNat := by
    rw [UInt8.toNat_add]
    exact Nat.mod_eq_of_lt (by simp; omega)
  simp [ledPacket, hsum]

theorem led_of_lastLed? {us : List Use} {status : UInt8} (h : lastLed? us = some status) :
    ∃ taken, ⟨.led status, taken⟩ ∈ us := by
  obtain ⟨⟨act, taken⟩, hu, hstatus⟩ := List.mem_filterMap.mp (List.mem_of_getLast? h)
  cases act with
  | packet bytes => cases hstatus
  | led status' =>
    cases hstatus
    exact ⟨taken, hu⟩

theorem led_of_mem_dues {before us : List Use} {d : UInt8 × Bool} (h : d ∈ dues before us) :
    ∃ taken, ⟨.led d.1, taken⟩ ∈ before ++ us := by
  induction us generalizing before with
  | nil => cases h
  | cons u us ih =>
    rw [dues, List.mem_append] at h
    obtain hdue | hlater := h
    · obtain ⟨⟨bytes⟩ | ⟨status⟩, taken⟩ := u
      · simp only [due] at hdue
        split at hdue
        · obtain ⟨status, hlast, rfl⟩ := List.mem_map.mp hdue
          obtain ⟨taken', hu⟩ := led_of_lastLed? (Option.mem_toList.mp hlast)
          exact ⟨taken', List.mem_append_left _ hu⟩
        · cases hdue
      · cases List.mem_singleton.mp hdue
        exact ⟨taken, by simp⟩
    · simpa using ih hlater

/-- A channel reads what a cable reads: on any packet it has a new message just when there is a
report inside, and then the message that a cable makes of that report. No reader ever fails. The
pad is there as the last packet about it said, and the packets handed to the transport are one for
each status set and one more, with the last of them, each time that a pad shows up. -/
theorem channel_reads_as_cable (start : Message) (us : List Use)
    (hled : ∀ status taken, ⟨.led status, taken⟩ ∈ us → status.toNat ≤ 191) :
    let s := (Session.mk (wireless {}) start []).run us
    (∀ bytes, ∃ x, s.reader.receive bytes s.message = .ok x ∧
      (x.fresh = true ↔ CarriesReport bytes) ∧
      (CarriesReport bytes → wired.receive (embedded bytes) s.message =
        .ok { reader := wired, message := x.message, fresh := true }) ∧
      (¬CarriesReport bytes → x.message = s.message)) ∧
    (∀ (r : Reader) bytes m, ∃ x, r.receive bytes m = .ok x) ∧
    s.message = ((Session.mk wired start []).run (us.filterMap Use.onCable?)).message ∧
    s.reader.connected? = some (present us) ∧
    s.handed.map (fun p => (p.1.map UInt8.toNat, p.2)) =
      (dues [] us).map fun d => ([0, 0, 8, 64 + d.1.toNat] ++ List.replicate 8 0, d.2) := by
  intro s
  have hs : s.Follows start us := follows_run start us
  refine ⟨fun bytes => ?packet, fun r bytes m => ?answers, hs.message, ?present, ?handed⟩
  case packet =>
    refine ⟨reading ⟨present us, lastLed? us⟩ bytes s.message, ?_, ?_, ?_, ?_⟩
    · rw [hs.reader, receive_wireless]
    · exact decide_eq_true_iff
    · exact fun hc => reading_of_carries _ hc _
    · exact fun hc => if_neg hc
  case answers =>
    cases r with
    | wired => exact (receive_wired bytes m).imp fun _ h => h.1
    | wireless c => exact ⟨_, receive_wireless c bytes m⟩
  case present => rw [hs.reader, connected?]
  case handed =>
    rw [hs.handed, List.map_map]
    refine List.map_congr_left fun d hd => ?_
    obtain ⟨taken, hu⟩ := led_of_mem_dues hd
    exact Prod.ext (ledPacket_toNat (hled d.1 taken hu) {}) rfl

/-- A packet about presence with nothing to send, a status that is not taken, a report, a pad that
goes and comes back twice, and a packet that is too short. -/
theorem channel_reads_as_cable_reconnecting :
    let us : List Use := [⟨.packet [0x08, 0x80], true⟩, ⟨.led 4, false⟩,
      ⟨.packet ([0x00, 0x01, 0x00, 0xf0, 0x00, 0x14, 0x00, 0x40] ++ List.replicate 21 0), true⟩,
      ⟨.packet [0x08, 0x00], true⟩, ⟨.packet [0x08, 0x80, 0x01], true⟩,
      ⟨.packet [0x08, 0xff], true⟩, ⟨.led 191, true⟩, ⟨.packet [0x08, 0x7f], true⟩,
      ⟨.packet [0x08, 0x80], false⟩,
      ⟨.packet ([0x00, 0x01, 0x00, 0xf0, 0x00, 0x14, 0x00, 0x80] ++ List.replicate 20 0), true⟩]
    let s := (Session.mk (wireless {}) .neutral []).run us
    (∀ status taken, ⟨.led status, taken⟩ ∈ us → status.toNat ≤ 191) ∧
    s.message.pressed = [.faceX] ∧ s.reader.connected? = some true ∧
    s.handed.map (fun p => (p.1.map UInt8.toNat, p.2)) =
      [([0, 0, 8, 68, 0, 0, 0, 0, 0, 0, 0, 0], false),
        ([0, 0, 8, 68, 0, 0, 0, 0, 0, 0, 0, 0], true),
        ([0, 0, 8, 255, 0, 0, 0, 0, 0, 0, 0, 0], true),
        ([0, 0, 8, 255, 0, 0, 0, 0, 0, 0, 0, 0], false)] := by
  intro us s
  have hled : ∀ status taken, ⟨.led status, taken⟩ ∈ us → status.toNat ≤ 191 := by
    intro status taken h
    simp only [us, List.mem_cons, Use.mk.injEq, Act.led.injEq, reduceCtorEq, false_and, false_or,
      List.not_mem_nil, or_false] at h
    obtain ⟨rfl, -⟩ | ⟨rfl, -⟩ := h <;> decide
  obtain ⟨-, -, hmessage, hpresent, hhanded⟩ := channel_reads_as_cable .neutral us hled
  refine ⟨hled, ?_, hpresent.trans (by decide +kernel), hhanded.trans (by decide +kernel)⟩
  rw [hmessage]
  decide +kernel

end PadRemap.Xbox.Reader
