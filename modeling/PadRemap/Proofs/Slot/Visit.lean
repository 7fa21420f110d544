import PadRemap.Proofs.Filter.Memory
import PadRemap.Proofs.Mapper.Ending
import PadRemap.Proofs.Output.Past
import PadRemap.Proofs.Slot.Life

/-! Visits of devices to a slot. A device is bound, its worker takes turns while the manager ticks,
and is stopped in the end. The statements say what a visit depends on, and what it leaves in the
slot and on the multiplexer. -/

namespace PadRemap

open Mapper (Job)

/-- What happens while a device is bound: its worker takes a turn, or the manager ticks. -/
inductive Beat where
  | turn (b : Backend) (reading : Reading) (ms : Nat)
  | tick (b : Backend) (ms : Nat)

namespace Beat

def backend : Beat → Backend
  | turn b _ _ | tick b _ => b

def Uncrashed : Beat → Prop
  | turn _ reading _ => reading ≠ .crashed
  | tick .. => True

def Neutral : Beat → Prop
  | turn _ (.frame m) _ => m = .neutral
  | _ => True

end Beat

structure Visit where
  device : Identity
  source : Source
  beats : List Beat
  last : Backend

namespace Visit

def Uncrashed (v : Visit) : Prop := ∀ x ∈ v.beats, x.Uncrashed

def Neutral (v : Visit) : Prop := ∀ x ∈ v.beats, x.Neutral

def Obeyed (v : Visit) : Prop := v.last.Obeys ∧ ∀ x ∈ v.beats, x.backend.Obeys

def opening : List Beat → Message
  | [] => .neutral
  | .turn _ (.frame m) _ :: _ => m
  | .turn .. :: _ => .neutral
  | .tick .. :: beats => opening beats

end Visit

namespace Rig

def pass (b : Backend) (ms : Nat) (r : Rig) : Rig := { r with mux := (r.mux.update b ms).1 }

def withPast (batches : List Batch) (sightings : List (Source × Sighting)) (r : Rig) : Rig :=
  ⟨r.mux.withPast batches, sightings ++ r.sightings⟩

end Rig

namespace Slot

def beat (s : Slot) (r : Rig) : Beat → Slot × Rig
  | .turn b reading ms => s.work b reading ms r
  | .tick b ms => (s.poll.1, r.pass b ms)

def live (s : Slot) (r : Rig) : List Beat → Slot × Rig
  | [] => (s, r)
  | x :: beats => (s.beat r x).1.live (s.beat r x).2 beats

/-- A device is bound to the slot, stays for a while and is disconnected. -/
def host (s : Slot) (v : Visit) (r : Rig) : Slot × Rig :=
  let (s, r, _) := (s.reserve v.device).1.start v.source r
  let (s, r) := s.live r v.beats
  s.disconnect v.last r

end Slot

namespace Worker

def beat (w : Worker) (r : Rig) : Beat → Worker × Rig
  | .turn b reading ms => w.turn b reading ms r
  | .tick b ms => (w, r.pass b ms)

def live (w : Worker) (r : Rig) : List Beat → Worker × Rig
  | [] => (w, r)
  | x :: beats => (w.beat r x).1.live (w.beat r x).2 beats

def finish (b : Backend) (r : Rig) : Worker → Option Pipeline × Rig
  | running s =>
    let (s, r) := s.deliver r
    (some (s.pipeline.reset b r.mux).1,
      { r with mux := (s.pipeline.reset b r.mux).2.1 }.notice s.source .released)
  | ended left => (left, r)

/-- The pipeline that a worker leaves behind after a visit, if any. -/
def spend (w : Worker) (v : Visit) (r : Rig) : Option Pipeline × Rig :=
  (w.live r v.beats).1.finish v.last (w.live r v.beats).2

theorem turn_askToStop (w : Worker) (b : Backend) (r : Rig) :
    w.askToStop.turn b .idle 0 r = (.ended (w.finish b r).1, (w.finish b r).2) := by
  cases w <;> rfl

theorem live_ended (left : Option Pipeline) (r : Rig) (beats : List Beat) :
    ((ended left).live r beats).1 = ended left := by
  induction beats generalizing r with
  | nil => rfl
  | cons x beats ih => cases x <;> exact ih _

theorem rig_live_ended (left left' : Option Pipeline) (r : Rig) (beats : List Beat) :
    ((ended left).live r beats).2 = ((ended left').live r beats).2 := by
  induction beats generalizing r with
  | nil => rfl
  | cons x beats ih => cases x <;> exact ih _

end Worker

namespace Slot

/-- A slot that nothing is bound to, with a pipeline at hand. -/
structure Vacant (s : Slot) (p : Pipeline) : Prop where
  unbound : s.state = .unbound
  identity : s.identity = none
  worker : s.worker = none
  pipeline : s.pipeline = some p

def vacated (s : Slot) (left : Option Pipeline) : Slot :=
  { s with
    worker := none, identity := none, state := .unbound
    pipeline := match left with
      | some p => some p
      | none => (Pipeline.ofConfig s.config).toOption }

theorem reap_of_ended {s : Slot} {left : Option Pipeline} (h : s.worker = some (.ended left)) :
    s.reap = s.vacated left := by
  rw [reap, h]
  rfl

theorem live_vacated (s : Slot) (left : Option Pipeline) (r : Rig) (beats : List Beat) :
    (s.vacated left).live r beats = (s.vacated left, ((Worker.ended left).live r beats).2) := by
  induction beats generalizing r with
  | nil => rfl
  | cons x beats ih => cases x <;> exact ih _

/-- However its end is noticed, by a tick or in the end, a worker is reaped once. -/
theorem disconnect_live {s : Slot} {w : Worker} (h : s.worker = some w) (b : Backend) (r : Rig)
    (beats : List Beat) :
    (s.live r beats).1.disconnect b (s.live r beats).2 =
      (s.vacated ((w.live r beats).1.finish b (w.live r beats).2).1,
        ((w.live r beats).1.finish b (w.live r beats).2).2) := by
  induction beats generalizing s w r with
  | nil =>
    simp only [live, Worker.live, disconnect, tryDisconnect, h, work, Worker.turn_askToStop]
    rw [reap_of_ended rfl]
    rfl
  | cons x beats ih =>
    cases x with
    | turn b' reading ms =>
      have hwork : s.work b' reading ms r =
          ({ s with worker := some (w.turn b' reading ms r).1 }, (w.turn b' reading ms r).2) := by
        rw [work, h]
      rw [live, beat, hwork]
      exact ih rfl _
    | tick b' ms =>
      cases w with
      | running session =>
        have hpoll : s.poll.1 = s := by rw [poll, h]
        rw [live, beat, hpoll]
        exact ih h _
      | ended left =>
        have hpoll : s.poll.1 = s.vacated left := by
          rw [poll, h]
          exact reap_of_ended h
        rw [live, beat, hpoll, live_vacated]
        simp only [Worker.live, Worker.beat, Worker.live_ended]
        rfl

def session (s : Slot) (v : Visit) (p : Pipeline) : Session :=
  { source := v.source, pipeline := p, commands := [.led s.led] }

theorem Vacant.host {s : Slot} {p : Pipeline} (h : s.Vacant p) (v : Visit) (r : Rig) :
    let w : Worker := .running (s.session v p)
    s.host v r = (s.vacated (w.spend v r).1, (w.spend v r).2) := by
  intro w
  have hstart : (s.reserve v.device).1.start v.source r =
      (s.boundTo v.device v.source p, r, .ok ()) := by
    simp [reserve, start, takePipeline, boundTo, h.unbound, h.pipeline]
  rw [Slot.host, hstart]
  exact disconnect_live (s := s.boundTo v.device v.source p) rfl v.last r v.beats

theorem Vacant.vacated {s : Slot} {p : Pipeline} (h : s.Vacant p) (q : Pipeline) :
    s.vacated (some q) = { s with pipeline := some q } := by
  obtain ⟨hu, hi, hw, -⟩ := h
  cases s
  cases hu
  cases hi
  cases hw
  rfl

end Slot

theorem Session.mux_deliver (s : Session) (r : Rig) : (s.deliver r).2.mux = r.mux :=
  List.foldlRecOn s.commands _ (motive := fun t : Rig => t.mux = r.mux) rfl fun _ ht _ _ => ht

theorem Session.turn_cases (b : Backend) (reading : Reading) (ms : Nat) (s : Session) (r : Rig) :
    s.turn b reading ms r = (s.deliver r).1.close b (s.deliver r).2 ∨
    (∃ m, (reading = .frame m ∨ m = s.seen) ∧ s.turn b reading ms r =
      ({ (s.deliver r).1 with seen := m } : Session).process b ms (s.deliver r).2) ∨
    (reading = .crashed ∧
      s.turn b reading ms r = (.ended none, (s.deliver r).2.notice s.source .released)) := by
  unfold turn
  simp only
  split
  · exact Or.inl rfl
  · cases reading with
    | idle => exact Or.inr (Or.inl ⟨s.seen, Or.inr rfl, rfl⟩)
    | frame m => exact Or.inr (Or.inl ⟨m, Or.inl rfl, rfl⟩)
    | failed => exact Or.inl rfl
    | crashed => exact Or.inr (Or.inr ⟨rfl, rfl⟩)

section Past

variable (bs : List Batch) (ss : List (Source × Sighting))

theorem Rig.notice_withPast (r : Rig) (s : Source) (what : Sighting) :
    (r.withPast bs ss).notice s what = (r.notice s what).withPast bs ss := by
  simp [Rig.notice, Rig.withPast]

theorem Rig.pass_withPast (b : Backend) (ms : Nat) (r : Rig) :
    (r.withPast bs ss).pass b ms = (r.pass b ms).withPast bs ss := by
  unfold Rig.pass Rig.withPast
  rw [Multiplexer.update_withPast]
  rfl

theorem Pipeline.process_withPast (b : Backend) (p : Pipeline) (ms : Nat) (m : Message)
    (mux : Multiplexer) : p.process b ms m (mux.withPast bs) =
      ((p.process b ms m mux).1, (p.process b ms m mux).2.1.withPast bs,
        (p.process b ms m mux).2.2) := by
  simp only [process, Mapper.runProcess, Mapper.follow_withPast]

theorem Pipeline.reset_withPast (b : Backend) (p : Pipeline) (mux : Multiplexer) :
    p.reset b (mux.withPast bs) =
      ((p.reset b mux).1, (p.reset b mux).2.1.withPast bs, (p.reset b mux).2.2) := by
  simp only [reset, Mapper.runReset, Mapper.follow_withPast]

theorem Session.deliver_withPast (s : Session) (r : Rig) :
    s.deliver (r.withPast bs ss) = ((s.deliver r).1, (s.deliver r).2.withPast bs ss) := by
  have hnotices : ∀ (cs : List Command) (r : Rig),
      cs.foldl (fun r c => r.notice s.source (.command c)) (r.withPast bs ss) =
        (cs.foldl (fun r c => r.notice s.source (.command c)) r).withPast bs ss := by
    intro cs
    induction cs with
    | nil => exact fun _ => rfl
    | cons c cs ih =>
      intro r
      rw [List.foldl_cons, Rig.notice_withPast, ih, List.foldl_cons]
  exact congrArg (Prod.mk _) (hnotices s.commands r)

theorem Session.close_withPast (b : Backend) (s : Session) (r : Rig) :
    s.close b (r.withPast bs ss) = ((s.close b r).1, (s.close b r).2.withPast bs ss) := by
  have hreset := Pipeline.reset_withPast bs b s.pipeline r.mux
  simp only [Session.close, show (r.withPast bs ss).mux = r.mux.withPast bs from rfl, hreset]
  exact congrArg (Prod.mk _)
    (Rig.notice_withPast bs ss { r with mux := (s.pipeline.reset b r.mux).2.1 } _ _)

theorem Session.process_withPast (b : Backend) (s : Session) (ms : Nat) (r : Rig) :
    s.process b ms (r.withPast bs ss) =
      ((s.process b ms r).1, (s.process b ms r).2.withPast bs ss) := by
  rw [Session.process, show (r.withPast bs ss).mux = r.mux.withPast bs from rfl,
    Pipeline.process_withPast, Session.process]
  rcases s.pipeline.process b ms s.seen r.mux with ⟨p, m, _ | _⟩
  · exact Session.close_withPast bs ss b _ { r with mux := m }
  · rfl

theorem Worker.turn_withPast (b : Backend) (reading : Reading) (ms : Nat) (w : Worker) (r : Rig) :
    w.turn b reading ms (r.withPast bs ss) =
      ((w.turn b reading ms r).1, (w.turn b reading ms r).2.withPast bs ss) := by
  cases w with
  | ended left => rfl
  | running s =>
    simp only [Worker.turn, Session.turn, Session.deliver_withPast]
    split
    · exact Session.close_withPast bs ss b _ _
    · cases reading with
      | idle => exact Session.process_withPast bs ss b _ ms _
      | frame m => exact Session.process_withPast bs ss b _ ms _
      | failed => exact Session.close_withPast bs ss b _ _
      | crashed => exact congrArg (Prod.mk _) (Rig.notice_withPast bs ss _ _ _)

theorem Worker.live_withPast (w : Worker) (r : Rig) (beats : List Beat) :
    w.live (r.withPast bs ss) beats = ((w.live r beats).1, (w.live r beats).2.withPast bs ss) := by
  induction beats generalizing w r with
  | nil => rfl
  | cons x beats ih =>
    cases x with
    | turn b reading ms =>
      rw [Worker.live, Worker.beat, Worker.turn_withPast]
      exact ih _ _
    | tick b ms =>
      rw [Worker.live, Worker.beat, Rig.pass_withPast]
      exact ih _ _

/-- What a worker does in a visit does not depend on what happened before. -/
theorem Worker.spend_withPast (w : Worker) (v : Visit) (r : Rig) :
    w.spend v (r.withPast bs ss) = ((w.spend v r).1, (w.spend v r).2.withPast bs ss) := by
  have hturn := Worker.turn_withPast bs ss v.last .idle 0 (w.live r v.beats).1.askToStop
    (w.live r v.beats).2
  rw [Worker.turn_askToStop, Worker.turn_askToStop] at hturn
  rw [Worker.spend, Worker.live_withPast]
  injection hturn with hleft hrig
  injection hleft with hleft
  exact Prod.ext hleft hrig

end Past

theorem Worker.mux_spend (w : Worker) (v : Visit) {r r' : Rig} {past : List Batch}
    (h : r'.mux = r.mux.withPast past) :
    (w.spend v r').2.mux = (w.spend v r).2.mux.withPast past := by
  have hr : r = (⟨r.mux, []⟩ : Rig).withPast [] r.sightings := by simp [Rig.withPast]
  have hr' : r' = (⟨r.mux, []⟩ : Rig).withPast past r'.sightings := by
    simp [Rig.withPast, ← h]
  rw [hr, hr', Worker.spend_withPast, Worker.spend_withPast]
  rfl

end PadRemap
