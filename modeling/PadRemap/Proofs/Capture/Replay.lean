import PadRemap.Discovery.Opener
import PadRemap.Xbox.Reader

/-! Capture and replay. Records have one length, so a file falls apart into the frames it was made
of whatever the frames hold; the main statement says that a pad replayed from its capture answers
as it did live, without the reads that brought nothing. -/

namespace PadRemap

namespace Capture

theorem length_encode (frame : List UInt8) : (encode frame).length = recordLength := by
  simp only [encode, frameLimit, recordLength, List.cons_append, List.length_cons,
    List.length_append, List.length_replicate, List.length_take]
  omega

theorem decodeRecord_encode (frame : List UInt8) :
    decodeRecord (encode frame) = frame.take frameLimit := by
  have hle : (frame.take frameLimit).length ≤ frameLimit := List.length_take_le ..
  have hn : (UInt8.ofNat (frame.take frameLimit).length).toNat =
      (frame.take frameLimit).length := by
    rw [UInt8.toNat_ofNat']
    exact Nat.mod_eq_of_lt (Nat.lt_of_le_of_lt hle (by decide))
  simp only [encode, decodeRecord, List.cons_append, hn, List.take_take, Nat.min_eq_left hle,
    List.take_left']

theorem length_decodeRecord_le (record : List UInt8) :
    (decodeRecord record).length ≤ frameLimit := by
  cases record with
  | nil => exact Nat.zero_le _
  | cons n bytes =>
    rw [decodeRecord, List.length_take, List.length_take]
    omega

theorem decode_of_lt {bytes : List UInt8} (h : bytes.length < recordLength) :
    decode bytes = [] := by
  rw [decode, Nat.div_eq_of_lt h]
  rfl

theorem decode_append {record : List UInt8} (h : record.length = recordLength)
    (bytes : List UInt8) : decode (record ++ bytes) = decodeRecord record :: decode bytes := by
  have hcount : (record ++ bytes).length / recordLength = bytes.length / recordLength + 1 := by
    rw [List.length_append, h, Nat.add_comm, Nat.add_div_right _ (by decide)]
  rw [decode, hcount, decodeCount, List.take_left' h, List.drop_left' h]
  rfl

theorem decode_encode_append (frames : List (List UInt8)) {trailing : List UInt8}
    (h : trailing.length < recordLength) :
    decode (frames.flatMap encode ++ trailing) = frames.map fun f => f.take frameLimit := by
  induction frames with
  | nil => exact decode_of_lt h
  | cons frame frames ih =>
    rw [List.flatMap_cons, List.append_assoc, decode_append (length_encode frame),
      decodeRecord_encode, ih]
    rfl

theorem length_le_of_mem_decode {bytes frame : List UInt8} (h : frame ∈ decode bytes) :
    frame.length ≤ frameLimit := by
  unfold decode at h
  generalize bytes.length / recordLength = count at h
  induction count generalizing bytes with
  | zero => cases h
  | succ count ih =>
    rcases List.mem_cons.mp h with rfl | h
    · exact length_decodeRecord_le _
    · exact ih h

theorem decode_flatMap_encode {frames : List (List UInt8)}
    (h : ∀ f ∈ frames, f.length ≤ frameLimit) : decode (frames.flatMap encode) = frames := by
  have hall := decode_encode_append frames (show ([] : List UInt8).length < recordLength by decide)
  rw [List.append_nil] at hall
  rw [hall]
  calc frames.map (fun f => f.take frameLimit) = frames.map id :=
        List.map_congr_left fun f hf => List.take_of_length_le (h f hf)
    _ = frames := List.map_id frames

def brought : Delivery → Option (List UInt8)
  | .ok (b :: bytes) => some (b :: bytes)
  | _ => none

theorem file_eq (reads : List Delivery) :
    file reads = (reads.filterMap brought).flatMap encode := by
  induction reads with
  | nil => rfl
  | cons d reads ih =>
    rw [file, List.flatMap_cons, ← file, ih]
    rcases d with e | _ | ⟨b, bytes⟩ <;> rfl

theorem replay_eq (frames : List (List UInt8)) (n : Nat) :
    replay frames (frames.length + n) =
      frames.map .ok ++ List.replicate n (.error (.io "end of capture")) := by
  refine List.ext_getElem? fun i => ?_
  rw [replay, List.getElem?_map]
  by_cases hi : i < frames.length
  · rw [List.getElem?_append_left (by simpa using hi), List.getElem?_range (by omega)]
    simp [hi]
  · rw [List.getElem?_append_right (by simpa using hi), List.getElem?_replicate]
    by_cases hn : i < frames.length + n
    · rw [List.getElem?_range hn, if_pos (by simp; omega)]
      simp [hi]
    · rw [List.getElem?_eq_none (by simpa using hn), if_neg (by simp; omega)]
      rfl

end Capture

namespace Xbox.Reader

open Capture (Delivery brought)

/-- What is heard from reading again and again: whether each read brought a new message, or why it
failed, and the message then. -/
def answers : Reader → Message → List Delivery → List (Except SourceError Bool × Message)
  | _, _, [] => []
  | r, m, d :: ds => match d >>= fun bytes => r.receive bytes m with
    | .ok x => (.ok x.fresh, x.message) :: x.reader.answers x.message ds
    | .error e => (.error e, m) :: r.answers m ds

def lastMessage (m : Message) (as : List (Except SourceError Bool × Message)) : Message :=
  (as.getLast?.map Prod.snd).getD m

def heard (ds : List Delivery) (as : List (Except SourceError Bool × Message)) :
    List (Except SourceError Bool × Message) :=
  ((ds.zip as).filter fun x => (brought x.1).isSome).map Prod.snd

theorem lastMessage_cons (m : Message) (a : Except SourceError Bool × Message)
    (as : List (Except SourceError Bool × Message)) :
    lastMessage m (a :: as) = lastMessage a.2 as := by
  unfold lastMessage
  rw [List.getLast?_cons]
  cases as.getLast? <;> rfl

theorem receive_nil (r : Reader) (m : Message) : r.receive [] m = .ok (r.ignore m) := by
  cases r <;> rfl

/-- A read that brings nothing changes neither the message nor what the reader knows. -/
theorem answers_of_nothing (r : Reader) (m : Message) {d : Delivery} (h : brought d = none)
    (ds : List Delivery) : ∃ a, r.answers m (d :: ds) = (a, m) :: r.answers m ds := by
  rcases d with e | _ | ⟨b, bytes⟩
  · exact ⟨.error e, rfl⟩
  · refine ⟨.ok false, ?_⟩
    simp only [answers, bind, Except.bind, receive_nil]
    rfl
  · cases h

/-- Leaving out the reads that bring nothing leaves out their answers. -/
theorem answers_brought (r : Reader) (m : Message) (ds : List Delivery) :
    r.answers m ((ds.filterMap brought).map fun b => (.ok b : Delivery)) =
        heard ds (r.answers m ds) ∧
      lastMessage m (r.answers m ((ds.filterMap brought).map fun b => (.ok b : Delivery))) =
        lastMessage m (r.answers m ds) := by
  induction ds generalizing r m with
  | nil => exact ⟨rfl, rfl⟩
  | cons d ds ih =>
    cases hd : brought d with
    | none =>
      obtain ⟨a, ha⟩ := r.answers_of_nothing m hd ds
      obtain ⟨hans, hlast⟩ := ih r m
      rw [List.filterMap_cons_none hd, ha, lastMessage_cons]
      refine ⟨?_, hlast⟩
      rw [hans]
      simp [heard, hd]
    | some bytes =>
      have hok : d = .ok bytes := by
        rcases d with e | _ | ⟨b, bs⟩ <;> cases hd
        rfl
      subst hok
      rw [List.filterMap_cons_some hd, List.map_cons]
      simp only [answers, bind, Except.bind]
      split
      · next x hx =>
        obtain ⟨hans, hlast⟩ := ih x.reader x.message
        rw [lastMessage_cons, lastMessage_cons]
        refine ⟨?_, hlast⟩
        rw [hans]
        simp [heard, hd]
      · next e he =>
        obtain ⟨hans, hlast⟩ := ih r m
        rw [lastMessage_cons, lastMessage_cons]
        refine ⟨?_, hlast⟩
        rw [hans]
        simp [heard, hd]

theorem answers_failing (r : Reader) (m : Message) (e : SourceError) (n : Nat) :
    r.answers m (List.replicate n (.error e)) = List.replicate n (.error e, m) := by
  induction n with
  | zero => rfl
  | succ n ih =>
    rw [List.replicate_succ, List.replicate_succ, ← ih]
    rfl

theorem answers_append_failing (r : Reader) (m : Message) (ds : List Delivery) (e : SourceError)
    (n : Nat) : r.answers m (ds ++ List.replicate n (.error e)) =
      r.answers m ds ++ List.replicate n (.error e, lastMessage m (r.answers m ds)) := by
  induction ds generalizing r m with
  | nil => exact r.answers_failing m e n
  | cons d ds ih =>
    rw [List.cons_append]
    simp only [answers]
    split
    · next x hx => rw [ih, lastMessage_cons, List.cons_append]
    · next e he => rw [ih, lastMessage_cons, List.cons_append]

end Xbox.Reader

namespace Capture

open Xbox (bufferLength)

theorem decode_file_live (reads : List Delivery) :
    decode (file (reads.map (throughBuffer bufferLength))) =
      (reads.map (throughBuffer bufferLength)).filterMap brought := by
  rw [file_eq]
  apply decode_flatMap_encode
  intro f hf
  obtain ⟨d, hd, hb⟩ := List.mem_filterMap.mp hf
  obtain ⟨x, -, rfl⟩ := List.mem_map.mp hd
  rcases x with e | bytes
  · cases hb
  · have hlen : (bytes.take bufferLength).length ≤ frameLimit :=
      Nat.le_trans (List.length_take_le ..) (by decide)
    change brought (.ok (bytes.take bufferLength)) = some f at hb
    generalize bytes.take bufferLength = kept at hb hlen
    cases kept with
    | nil => cases hb
    | cons b kept =>
      cases hb
      exact hlen

/-- Decoding what was encoded, and an incomplete record after it, gives the frames cut to the length
of a record. The frames of any file, also of a broken one, fit into records and survive encoding.
A reader on the replay of a capture answers as on the live device, except that the reads are left
out that brought no bytes, and every read fails once the capture has been served. -/
theorem replays_capture (frames : List (List UInt8)) {trailing : List UInt8}
    (h : trailing.length < recordLength) (bytes : List UInt8) (r : Xbox.Reader) (m : Message)
    (reads : List Delivery) (n : Nat) :
    decode (frames.flatMap encode ++ trailing) = (frames.map fun f => f.take 63) ∧
    (∀ f ∈ decode bytes, f.length ≤ 63) ∧
    decode ((decode bytes).flatMap encode) = decode bytes ∧
    let live := reads.map (throughBuffer bufferLength)
    let captured := decode (file live)
    r.answers m (replay captured (captured.length + n)) =
      Xbox.Reader.heard live (r.answers m live) ++
        List.replicate n
          (.error (.io "end of capture"), Xbox.Reader.lastMessage m (r.answers m live)) := by
  refine ⟨decode_encode_append frames h, fun f hf => length_le_of_mem_decode hf,
    decode_flatMap_encode fun f hf => length_le_of_mem_decode hf, ?_⟩
  intro live captured
  have hcaptured : captured = live.filterMap brought := decode_file_live reads
  obtain ⟨hans, hlast⟩ := r.answers_brought m live
  rw [replay_eq, r.answers_append_failing, hcaptured, hlast, hans]

/-- A frame is longer than a record, the length byte of another one lies, and a pad is captured
while a timeout and a short packet come between two reports. -/
theorem replays_capture_truncated :
    let long : List UInt8 := List.replicate 70 1
    let broken : List UInt8 := 200 :: List.replicate 63 7
    let press : List UInt8 := [0x00, 0x14, 0x00, 0x10] ++ List.replicate 16 0
    let release : List UInt8 := [0x00, 0x14] ++ List.replicate 18 0
    let reads : List Delivery := [.ok press, .ok [], .ok [0x01, 0x03], .ok release]
    let captured := decode (file (reads.map (throughBuffer bufferLength)))
    decode ([long, [1, 2]].flatMap encode ++ [3, 4, 5]) = [List.replicate 63 1, [1, 2]] ∧
    decode ((decode broken).flatMap encode) = [List.replicate 63 7] ∧
    (Xbox.Reader.wired.answers .neutral (replay captured (captured.length + 1))).map
        (fun a => (a.1.toOption, a.2.button .faceA)) =
      [(some true, true), (some false, true), (some true, false), (none, false)] := by
  intro long broken press release reads captured
  have hbroken : decode broken = [List.replicate 63 7] := by decide +kernel
  have hcut : [long, [1, 2]].map (fun f => f.take 63) = [List.replicate 63 1, [1, 2]] := by
    decide +kernel
  obtain ⟨hdecode, -, hkept, hreplay⟩ := replays_capture [long, [1, 2]]
    (show ([3, 4, 5] : List UInt8).length < recordLength by decide) broken .wired .neutral reads 1
  exact ⟨hdecode.trans hcut, hkept.trans hbroken,
    (congrArg (List.map _) hreplay).trans (by decide +kernel)⟩

end Capture

end PadRemap
