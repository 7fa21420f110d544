import PadRemap.Proofs.Pad.Coherence

/-! What a stream of kernel events means does not depend on the pieces in which it comes in. Each
event says something about the pad or nothing; the picture of a stream is what all its events say,
one after the other, and every sync report asks for the picture up to there. An assembler returns
these pictures in order, as far as it has been asked, and keeps what came after the last one. -/

namespace PadRemap.Evdev

inductive Reading where
  | button (b : Button) (pressed : Bool)
  | axis (a : Axis) (v : Int)

/-- Keys and axes with a mapped code have a reading, the value of an axis moved onto its range. All
other events have none: unmapped codes, reports of any kind, other types. -/
def RawEvent.reading? (maps : CodeMaps) (ranges : Std.ExtTreeMap UInt16 (Int × Int))
    (e : RawEvent) : Option Reading :=
  if e.kind = 1 then maps.keys[e.code]?.map fun b => .button b (e.value != 0)
  else if e.kind = 3 then maps.axes[e.code]?.map fun a =>
    let (low, high) := Assembler.rangeOf ranges e.code a
    .axis a (scale a e.value low high)
  else none

def Reading.write (m : Message) : Reading → Message
  | .button b pressed =>
    if b.isDpad then (m.setButton b pressed).syncDpad else m.setButton b pressed
  | .axis a v => match a with
    | .dpadX | .dpadY => m.setDpadAxis a v
    | .lt | .rt => m.setTrigger a v
    | _ => m.setAxis a v

section Picture

variable (maps : CodeMaps) (ranges : Std.ExtTreeMap UInt16 (Int × Int))

/-- What a stream says as a whole. -/
def picture (es : List RawEvent) : Message :=
  (es.filterMap (·.reading? maps ranges)).foldl Reading.write .neutral

/-- The picture of what comes before each sync report of a stream. -/
def pictures (es : List RawEvent) : List Message :=
  (es.zipIdx.filter fun x => x.1.isSync).map fun x => picture maps ranges (es.take x.2)

variable {maps ranges}

theorem reading_of_isSync {e : RawEvent} (h : e.isSync = true) : e.reading? maps ranges = none := by
  obtain ⟨kind, code, value⟩ := e
  simp only [RawEvent.isSync, Bool.and_eq_true, beq_iff_eq] at h
  obtain ⟨rfl, rfl⟩ := h
  rfl

theorem apply_eq (m : Message) (e : RawEvent) :
    Assembler.apply maps ranges m e = (e.reading? maps ranges).elim m (Reading.write m) := by
  unfold Assembler.apply RawEvent.reading?
  split
  · unfold Assembler.applyKey
    cases maps.keys[e.code]? <;> rfl
  · split
    · unfold Assembler.applyAxis
      cases maps.axes[e.code]? <;> rfl
    · rfl

theorem foldl_apply (m : Message) (es : List RawEvent) :
    es.foldl (Assembler.apply maps ranges) m =
      (es.filterMap (·.reading? maps ranges)).foldl Reading.write m := by
  induction es generalizing m with
  | nil => rfl
  | cons e es ih =>
    rw [List.foldl_cons, ih, apply_eq]
    cases he : e.reading? maps ranges <;> simp [he]

theorem picture_append (es fs : List RawEvent) :
    picture maps ranges (es ++ fs) =
      fs.foldl (Assembler.apply maps ranges) (picture maps ranges es) := by
  rw [foldl_apply, picture, List.filterMap_append, List.foldl_append]
  rfl

theorem picture_sync {z : RawEvent} (hz : z.isSync = true) (es : List RawEvent) :
    picture maps ranges (es ++ [z]) = picture maps ranges es := by
  simp [picture, reading_of_isSync hz]

theorem pictures_concat (es : List RawEvent) (e : RawEvent) :
    pictures maps ranges (es ++ [e]) =
      pictures maps ranges es ++ if e.isSync then [picture maps ranges es] else [] := by
  have hold : ∀ x ∈ es.zipIdx.filter (fun x => x.1.isSync),
      picture maps ranges ((es ++ [e]).take x.2) = picture maps ranges (es.take x.2) := by
    intro x hx
    have hlt : x.2 < 0 + es.length := (List.mem_zipIdx (List.mem_of_mem_filter hx)).2.1
    rw [List.take_append_of_le_length (by omega)]
  unfold pictures
  rw [List.zipIdx_append, List.filter_append, List.map_append, List.map_congr_left hold]
  congr 1
  cases he : e.isSync <;> simp [he]

theorem pictures_append_of_no_sync (es : List RawEvent) {fs : List RawEvent}
    (h : ∀ e ∈ fs, e.isSync = false) :
    pictures maps ranges (es ++ fs) = pictures maps ranges es := by
  induction fs generalizing es with
  | nil => rw [List.append_nil]
  | cons e fs ih =>
    rw [← List.singleton_append, ← List.append_assoc,
      ih _ fun x hx => h x (List.mem_cons_of_mem e hx), pictures_concat,
      h e List.mem_cons_self]
    exact List.append_nil _

theorem pictures_mono (es fs : List RawEvent) :
    pictures maps ranges es <+: pictures maps ranges (es ++ fs) := by
  induction fs generalizing es with
  | nil => simp
  | cons e fs ih =>
    have hnext := ih (es ++ [e])
    rw [List.append_assoc, List.singleton_append] at hnext
    exact (List.prefix_append ..).trans ((pictures_concat es e) ▸ hnext)

theorem length_pictures (es : List RawEvent) :
    (pictures maps ranges es).length = es.countP RawEvent.isSync := by
  rw [pictures, List.length_map, ← List.countP_eq_length_filter]
  conv_rhs => rw [← List.zipIdx_map_fst 0 es, List.countP_map]
  rfl

end Picture

namespace Assembler

variable {maps : CodeMaps} {ranges : Std.ExtTreeMap UInt16 (Int × Int)}

def pushed : List Use → List RawEvent
  | [] => []
  | .push e :: us => e :: pushed us
  | .next :: us => pushed us

def after : Assembler → List Use → Assembler
  | s, [] => s
  | s, .push e :: us => (s.push e).after us
  | s, .next :: us => s.nextFrame.1.after us

theorem split_at_sync (es : List RawEvent) :
    (∀ e ∈ es, e.isSync = false) ∨
      ∃ fs z rest, es = fs ++ z :: rest ∧ (∀ e ∈ fs, e.isSync = false) ∧ z.isSync = true := by
  cases hfind : es.find? RawEvent.isSync with
  | none => exact Or.inl fun e he => eq_false_of_ne_true (List.find?_eq_none.mp hfind e he)
  | some z =>
    obtain ⟨hz, fs, rest, hes, hfs⟩ := List.find?_eq_some_iff_append.mp hfind
    exact Or.inr ⟨fs, z, rest, hes, fun e he => by simpa using hfs e he, hz⟩

theorem advance_at_sync (maps : CodeMaps) (ranges : Std.ExtTreeMap UInt16 (Int × Int))
    {fs : List RawEvent} (hfs : ∀ e ∈ fs, e.isSync = false) {z : RawEvent} (hz : z.isSync = true)
    (rest : List RawEvent) (m : Message) :
    advance maps ranges (fs ++ z :: rest) m = (fs.foldl (apply maps ranges) m, some rest) := by
  induction fs generalizing m with
  | nil => simp [advance, hz]
  | cons e fs ih =>
    obtain ⟨he, hfs⟩ := List.forall_mem_cons.mp hfs
    rw [List.cons_append, advance, he, ih hfs]
    rfl

theorem advance_without_sync (maps : CodeMaps) (ranges : Std.ExtTreeMap UInt16 (Int × Int))
    {es : List RawEvent} (hes : ∀ e ∈ es, e.isSync = false) (m : Message) :
    advance maps ranges es m = (es.foldl (apply maps ranges) m, none) := by
  induction es generalizing m with
  | nil => rfl
  | cons e es ih =>
    obtain ⟨he, hes⟩ := List.forall_mem_cons.mp hes
    rw [advance, he, ih hes]
    rfl

/-- An assembler that has gone through a part of its stream. -/
structure Shows (maps : CodeMaps) (ranges : Std.ExtTreeMap UInt16 (Int × Int))
    (done : List RawEvent) (s : Assembler) : Prop where
  maps_eq : s.maps = maps
  ranges_eq : s.ranges = ranges
  frame_eq : s.frame = picture maps ranges done

namespace Shows

variable {done : List RawEvent} {s : Assembler}

theorem new (maps : CodeMaps) (ranges : Std.ExtTreeMap UInt16 (Int × Int)) :
    Shows maps ranges [] { maps, ranges } :=
  ⟨rfl, rfl, rfl⟩

theorem foldl_frame (h : Shows maps ranges done s) (es : List RawEvent) :
    es.foldl (apply s.maps s.ranges) s.frame = picture maps ranges (done ++ es) := by
  rw [h.maps_eq, h.ranges_eq, h.frame_eq, picture_append]

/-- Asking for a frame takes the events up to the next sync report and returns their picture. -/
theorem nextFrame_at_sync (h : Shows maps ranges done s) {fs rest : List RawEvent} {z : RawEvent}
    (hp : s.pending = fs ++ z :: rest) (hfs : ∀ e ∈ fs, e.isSync = false) (hz : z.isSync = true) :
    s.nextFrame.2 = some (picture maps ranges (done ++ fs)) ∧ s.nextFrame.1.pending = rest ∧
      Shows maps ranges (done ++ fs ++ [z]) s.nextFrame.1 := by
  have hrun := advance_at_sync s.maps s.ranges hfs hz rest s.frame
  rw [h.foldl_frame] at hrun
  unfold Assembler.nextFrame
  rw [hp, hrun]
  exact ⟨rfl, rfl, h.maps_eq, h.ranges_eq, (picture_sync hz _).symm⟩

theorem nextFrame_without_sync (h : Shows maps ranges done s)
    (hes : ∀ e ∈ s.pending, e.isSync = false) :
    s.nextFrame.2 = none ∧ s.nextFrame.1.pending = [] ∧
      Shows maps ranges (done ++ s.pending) s.nextFrame.1 := by
  have hrun := advance_without_sync s.maps s.ranges hes s.frame
  rw [h.foldl_frame] at hrun
  unfold Assembler.nextFrame
  rw [hrun]
  exact ⟨rfl, rfl, h.maps_eq, h.ranges_eq, rfl⟩

/-- The frames returned are the pictures of the part gone through, and the rest of what has been
pushed waits. -/
theorem after (h : Shows maps ranges done s) (us : List Use) :
    ∃ done', Shows maps ranges done' (s.after us) ∧
      done ++ s.pending ++ pushed us = done' ++ (s.after us).pending ∧
      pictures maps ranges done ++ s.frames us = pictures maps ranges done' := by
  induction us generalizing s done with
  | nil => exact ⟨done, h, List.append_nil _, List.append_nil _⟩
  | cons u us ih =>
    cases u with
    | push e =>
      obtain ⟨done', hs, hp, hf⟩ := ih (s := s.push e) ⟨h.maps_eq, h.ranges_eq, h.frame_eq⟩
      refine ⟨done', hs, Eq.trans ?_ hp, hf⟩
      simp [Assembler.push, pushed]
    | next =>
      rcases split_at_sync s.pending with hes | ⟨fs, z, rest, hsplit, hfs, hz⟩
      · obtain ⟨hout, hrest, hs⟩ := h.nextFrame_without_sync hes
        obtain ⟨done', hs', hp, hf⟩ := ih hs
        refine ⟨done', hs', Eq.trans ?_ hp, ?_⟩
        · simp [hrest, pushed]
        · rw [← hf, pictures_append_of_no_sync done hes, frames, hout]
          rfl
      · obtain ⟨hout, hrest, hs⟩ := h.nextFrame_at_sync hsplit hfs hz
        obtain ⟨done', hs', hp, hf⟩ := ih hs
        refine ⟨done', hs', Eq.trans ?_ hp, ?_⟩
        · simp [hsplit, hrest, pushed]
        · rw [← hf, pictures_concat, hz, pictures_append_of_no_sync done hfs, frames, hout]
          simp

end Shows

theorem after_map_push (s : Assembler) (es : List RawEvent) :
    s.after (es.map .push) = { s with pending := s.pending ++ es } := by
  induction es generalizing s with
  | nil => simp [after]
  | cons e es ih =>
    rw [List.map_cons, after, ih]
    simp [Assembler.push]

/-- However events come in and frames are asked for, the frames returned are the first pictures of
the stream. No frame is returned exactly when all of them have been; then nothing waits any more,
and what came after the last sync report shows in the next frame with what comes in later. -/
theorem frames_of_stream (maps : CodeMaps) (ranges : Std.ExtTreeMap UInt16 (Int × Int))
    (us : List Use) :
    let new : Assembler := { maps, ranges }
    let s := new.after us
    new.frames us <+: pictures maps ranges (pushed us) ∧
      (s.nextFrame.2 = none ↔ new.frames us = pictures maps ranges (pushed us)) ∧
      (s.nextFrame.2 = none → s.nextFrame.1.hasPending = false ∧
        ∀ (es : List RawEvent) (z : RawEvent), (∀ e ∈ es, e.isSync = false) → z.isSync = true →
          (s.nextFrame.1.after ((es ++ [z]).map .push)).nextFrame.2 =
            some (picture maps ranges (pushed us ++ es))) := by
  intro new s
  obtain ⟨done, hs, hp, hf⟩ := (Shows.new maps ranges).after us
  have hp : pushed us = done ++ s.pending := hp
  have hf : new.frames us = pictures maps ranges done := hf
  rw [hf, hp]
  rcases split_at_sync s.pending with hes | ⟨fs, z, rest, hsplit, hfs, hz⟩
  · obtain ⟨hout, hempty, hrest⟩ := hs.nextFrame_without_sync hes
    refine ⟨pictures_mono .., ⟨fun _ => (pictures_append_of_no_sync done hes).symm, fun _ => hout⟩,
      fun _ => ⟨by rw [hasPending, hempty]; rfl, fun es z hno hz => ?_⟩⟩
    rw [after_map_push, hempty]
    have hnext : Shows maps ranges (done ++ s.pending)
        { s.nextFrame.1 with pending := [] ++ (es ++ [z]) } :=
      ⟨hrest.maps_eq, hrest.ranges_eq, hrest.frame_eq⟩
    exact (hnext.nextFrame_at_sync rfl hno hz).1
  · obtain ⟨hout, -, -⟩ := hs.nextFrame_at_sync hsplit hfs hz
    have hsome : s.nextFrame.2 ≠ none := fun hnone => nomatch hout.symm.trans hnone
    -- one more sync report has been pushed than frames have been returned
    have hmore : pictures maps ranges done ≠ pictures maps ranges (done ++ s.pending) := by
      intro heq
      have hlen := congrArg List.length heq
      rw [length_pictures, length_pictures, hsplit] at hlen
      simp [hz] at hlen
    exact ⟨pictures_mono .., ⟨fun hnone => (hsome hnone).elim, fun heq => (hmore heq).elim⟩,
      fun hnone => (hsome hnone).elim⟩

/-- A stream in pieces, with a code that is not mapped, a report of another kind, and a stick that
moves after the sync report. -/
theorem frames_of_stream_in_pieces :
    let maps := (CodeMaps.empty.bindKey 304 .faceA).bindAxis 0 .x1
    let new : Assembler := { maps }
    let us : List Use :=
      [.push (.key 304 1), .next, .push (.key 999 1), .push ⟨0, 3, 0⟩, .push .sync,
        .push (.abs 0 100), .next]
    let s := new.after us
    let pressed := Message.neutral.setButton .faceA true
    s.nextFrame.2 = none ∧ new.frames us = [pressed] ∧ s.nextFrame.1.hasPending = false ∧
      (s.nextFrame.1.after [.push .sync]).nextFrame.2 = some (pressed.setAxis .x1 100) := by
  intro maps new us s pressed
  obtain ⟨-, hall, hrest⟩ := frames_of_stream maps ∅ us
  have hnone : s.nextFrame.2 = none := by decide +kernel
  have hpictures : pictures maps ∅ (pushed us) = [pressed] := by decide +kernel
  have hpicture : picture maps ∅ (pushed us ++ []) = pressed.setAxis .x1 100 := by decide +kernel
  obtain ⟨hpending, hnext⟩ := hrest hnone
  exact ⟨hnone, (hall.mp hnone).trans hpictures, hpending,
    (hnext [] .sync (by simp) rfl).trans (congrArg some hpicture)⟩

end Assembler

end PadRemap.Evdev
