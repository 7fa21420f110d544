import PadRemap.Manager.Run
import PadRemap.Proofs.Manager.Binding

/-! The manager's list of devices follows the scans. Changes wait in a queue between scanner and
manager, so the manager may be some scans behind; whenever it has handled all changes up to a scan,
it knows the devices of that scan, each of them once. -/

namespace PadRemap

namespace Discovery

def Change.device : Change → Identity
  | added d => d
  | removed d => d

/-- Two lists of the same devices, under whatever names and however often. -/
def Alike (ds es : List Identity) : Prop := ∀ d, present d ds = present d es

def Apart (ds : List Identity) : Prop := ds.Pairwise fun d e => ¬d.SameDevice e

def track (ds : List Identity) : Change → List Identity
  | .added d => if present d ds then ds else ds ++ [d]
  | .removed d => ds.filter fun e => !decide (e.SameDevice d)

def trackAll (ds : List Identity) (cs : List Change) : List Identity := cs.foldl track ds

/-- The changes that some scans report one after the other, the first one against `known`. -/
def reports (known : List Identity) : List (List Identity) → List Change
  | [] => []
  | now :: scans => changes known now ++ reports now scans

theorem present_iff {d : Identity} {ds : List Identity} :
    present d ds = true ↔ ∃ e ∈ ds, d.SameDevice e := by
  simp [present]

theorem present_nil (d : Identity) : present d [] = false := rfl

theorem present_filter {d : Identity} {p : Identity → Bool}
    (hp : ∀ e, d.SameDevice e → p e = p d) (ds : List Identity) :
    present d (ds.filter p) = (present d ds && p d) := by
  induction ds with
  | nil => rfl
  | cons e ds ih =>
    have hcons : ∀ es, present d (e :: es) = (decide (d.SameDevice e) || present d es) :=
      fun _ => rfl
    rw [List.filter_cons, hcons]
    by_cases he : d.SameDevice e
    · rw [hp e he]
      cases hpd : p d with
      | true => simp [hcons, he]
      | false => simp [ih, hpd]
    · split
      · simp [hcons, ih, he]
      · simp [ih, he]

theorem present_congr {d e : Identity} (h : d.SameDevice e) (ds : List Identity) :
    present d ds = present e ds := by
  apply Bool.eq_iff_iff.mpr
  rw [present_iff, present_iff]
  constructor
  · rintro ⟨f, hf, hd⟩
    exact ⟨f, hf, h.symm.trans hd⟩
  · rintro ⟨f, hf, he⟩
    exact ⟨f, hf, h.trans he⟩

theorem present_track_removed (d e : Identity) (ds : List Identity) :
    present d (track ds (.removed e)) = (present d ds && !decide (d.SameDevice e)) := by
  apply present_filter
  intro f hf
  congr 2
  apply propext
  constructor
  · intro h
    exact hf.trans h
  · intro h
    exact hf.symm.trans h

theorem present_track_added (d e : Identity) (ds : List Identity) :
    present d (track ds (.added e)) = (present d ds || decide (d.SameDevice e)) := by
  simp only [track]
  split
  · next he =>
    by_cases hd : d.SameDevice e
    · rw [present_congr hd, he, Bool.true_or]
    · simp [hd]
  · simp [present]

theorem present_trackAll_removed (d : Identity) (es ds : List Identity) :
    present d (trackAll ds (es.map .removed)) = (present d ds && !present d es) := by
  induction es generalizing ds with
  | nil => simp [trackAll, present_nil]
  | cons e es ih =>
    change present d (trackAll (track ds (.removed e)) (es.map .removed)) = _
    rw [ih, present_track_removed, Bool.and_assoc, ← Bool.not_or]
    rfl

theorem present_trackAll_added (d : Identity) (es ds : List Identity) :
    present d (trackAll ds (es.map .added)) = (present d ds || present d es) := by
  induction es generalizing ds with
  | nil => simp [trackAll, present_nil]
  | cons e es ih =>
    change present d (trackAll (track ds (.added e)) (es.map .added)) = _
    rw [ih, present_track_added, Bool.or_assoc]
    rfl

theorem present_filter_absent (d : Identity) (ds es : List Identity) :
    present d (ds.filter fun e => !present e es) = (present d ds && !present d es) := by
  apply present_filter
  intro e he
  rw [present_congr he]

/-- Who knows the devices of one scan knows those of the next after its changes. -/
theorem alike_changes {ds before : List Identity} (h : Alike ds before) (now : List Identity) :
    Alike (trackAll ds (changes before now)) now := by
  intro d
  have hsplit : trackAll ds (changes before now) =
      trackAll (trackAll ds ((before.filter fun e => !present e now).map .removed))
        ((now.filter fun e => !present e before).map .added) := List.foldl_append
  rw [hsplit, present_trackAll_added, present_trackAll_removed, present_filter_absent,
    present_filter_absent, h d]
  cases present d before <;> cases present d now <;> rfl

theorem apart_track {ds : List Identity} (h : Apart ds) (c : Change) : Apart (track ds c) := by
  cases c with
  | added d =>
    simp only [track]
    split
    · exact h
    · next hd =>
      apply List.pairwise_append.mpr
      refine ⟨h, List.pairwise_singleton _ _, ?_⟩
      intro e he f hf hs
      rw [List.mem_singleton.mp hf] at hs
      exact hd (present_iff.mpr ⟨e, he, hs.symm⟩)
  | removed d => exact h.filter _

theorem apart_trackAll {ds : List Identity} (h : Apart ds) (cs : List Change) :
    Apart (trackAll ds cs) := by
  induction cs generalizing ds with
  | nil => exact h
  | cons c cs ih => exact ih (apart_track h c)

theorem alike_reports {scans : List (List Identity)} {k : Nat} {found : List Identity}
    (hk : scans[k]? = some found) {ds known : List Identity} (h : Alike ds known) :
    ∃ handled, reports known scans = handled ++ reports found (scans.drop (k + 1)) ∧
      Alike (trackAll ds handled) found := by
  induction scans generalizing k ds known with
  | nil => cases hk
  | cons now scans ih =>
    have hnow := alike_changes h now
    cases k with
    | zero =>
      cases hk
      exact ⟨changes known found, rfl, hnow⟩
    | succ k =>
      obtain ⟨handled, hreports, halike⟩ := ih hk hnow
      refine ⟨changes known now ++ handled, ?_, ?_⟩
      · rw [reports, hreports, List.append_assoc]
        rfl
      · rw [trackAll, List.foldl_append]
        exact halike

theorem reports_append (known : List Identity) (scans : List (List Identity))
    (now : List Identity) :
    reports known (scans ++ [now]) =
      reports known scans ++ changes (scans.getLast?.getD known) now := by
  induction scans generalizing known with
  | nil => simp [reports]
  | cons first scans ih =>
    rw [List.cons_append, reports, ih, reports, List.append_assoc]
    cases scans with
    | nil => rfl
    | cons second scans =>
      rw [List.getLast?_cons_cons, List.getLast?_cons]
      rfl

theorem not_present_of_mem_changes {before now : List Identity} {c : Change}
    (hc : c ∈ changes before now) :
    ¬(present c.device before = true ∧ present c.device now = true) := by
  rintro ⟨hbefore, hnow⟩
  rcases List.mem_append.mp hc with hc | hc
  · obtain ⟨d, hd, rfl⟩ := List.mem_map.mp hc
    have hgone := (List.mem_filter.mp hd).2
    rw [show present d now = true from hnow] at hgone
    cases hgone
  · obtain ⟨d, hd, rfl⟩ := List.mem_map.mp hc
    have hnew := (List.mem_filter.mp hd).2
    rw [show present d before = true from hbefore] at hnew
    cases hnew

end Discovery

def Operation.isQuiet : Operation → Bool
  | assign _ _ | remove _ | handle _ _ => false
  | _ => true

namespace Manager

variable {m : Manager}

theorem discovered_assign (opener : Opener) (m : Manager) (d : Identity) :
    (m.assign opener d).1.discovered = Discovery.track m.discovered (.added d) := by
  have hd : (m.discover d).discovered = Discovery.track m.discovered (.added d) := by
    simp only [discover, Discovery.track]
    split <;> rfl
  rw [← hd]
  unfold assign
  simp only
  split
  · rfl
  · split
    · rfl
    · split
      · rfl
      · split
        · unfold connect
          split
          · rfl
          · simp only
            split <;> rfl
        · rfl

theorem discovered_remove (m : Manager) (d : Identity) :
    (m.remove d).1.discovered = Discovery.track m.discovered (.removed d) := by
  unfold remove
  simp only
  split
  · rfl
  · split <;> rfl

theorem discovered_handle (opener : Opener) (m : Manager) (c : Discovery.Change) :
    (m.handle opener c).discovered = Discovery.track m.discovered c := by
  cases c with
  | added d => exact discovered_assign opener m d
  | removed d => exact discovered_remove m d

theorem discovered_onSlot (m : Manager) (i : Nat) (call : Slot → Slot × Except SlotError Unit) :
    (m.onSlot i call).1.discovered = m.discovered := by
  unfold onSlot
  split <;> rfl

theorem discovered_apply {op : Operation} (hq : op.isQuiet = true) (m : Manager) :
    (m.apply op).discovered = m.discovered := by
  cases op with
  | assign opener d => cases hq
  | remove d => cases hq
  | handle opener c => cases hq
  | tick b ms => rfl
  | setLed i status => exact discovered_onSlot m i _
  | setRumble i left right => exact discovered_onSlot m i _
  | shutdown b => rfl
  | work b reading ms i =>
    simp only [apply, work]
    split <;> rfl

theorem follow_eq (opener : Opener) (m : Manager) (c : Discovery.Change) :
    (m.follow opener c).1 = m.handle opener c := by
  cases c with
  | added d => rfl
  | removed d =>
    simp only [follow, handle]
    split <;> next he => rw [he]

theorem discovered_followAll (opener : Opener) (cs : List Discovery.Change) (m : Manager) :
    (followAll opener cs m).1.discovered = Discovery.trackAll m.discovered cs := by
  induction cs generalizing m with
  | nil => rfl
  | cons c cs ih =>
    change (followAll opener cs (m.follow opener c).1).1.discovered = _
    rw [ih, follow_eq, discovered_handle]
    rfl

def lastFound (known : List Identity) : List ScanResult → List Identity
  | [] => known
  | .crashed :: _ => known
  | .failed :: scans => lastFound known scans
  | .found now :: scans => lastFound now scans

/-- In the manager's own loop every scan is handled before the next one. -/
theorem alike_watch (b : Backend) (opener : Opener) {known : List Identity}
    (h : Discovery.Alike m.discovered known) (scans : List ScanResult) :
    Discovery.Alike (watch b opener scans known m).1.discovered (lastFound known scans) := by
  induction scans generalizing known m with
  | nil => exact h
  | cons scan scans ih =>
    cases scan with
    | crashed => exact h
    | failed => exact ih h
    | found now =>
      apply ih
      change Discovery.Alike
        (followAll opener (Discovery.changes known now) m).1.discovered now
      rw [discovered_followAll]
      exact Discovery.alike_changes h now

end Manager

/-- A manager and the scanner that reports to it: what each successful scan found and the changes
reported but not yet handled, both oldest first. -/
structure Watch where
  manager : Manager
  scans : List (List Identity) := []
  queue : List Discovery.Change := []

namespace Watch

/-- A scan, the handling of the change that waits longest, or anything else on the manager. -/
inductive Event where
  | scan (result : ScanResult)
  | deliver (opener : Opener)
  | other (op : Operation) (quiet : op.isQuiet = true)

def known (w : Watch) : List Identity := w.scans.getLast?.getD []

def next (w : Watch) : Event → Watch
  | .scan (.found now) =>
    { w with scans := w.scans ++ [now], queue := w.queue ++ Discovery.changes w.known now }
  | .scan _ => w
  | .deliver opener => match w.queue with
    | [] => w
    | c :: queue => { w with manager := w.manager.handle opener c, queue }
  | .other op _ => { w with manager := w.manager.apply op }

def run (w : Watch) (events : List Event) : Watch := events.foldl next w

/-- What has been handled and what waits are all changes reported, and the manager has followed the
former. -/
def Sound (w : Watch) : Prop :=
  ∃ handled, Discovery.reports [] w.scans = handled ++ w.queue ∧
    w.manager.discovered = Discovery.trackAll [] handled

variable {w : Watch}

theorem Sound.next (h : w.Sound) (e : Event) : (w.next e).Sound := by
  obtain ⟨handled, hreports, hdiscovered⟩ := h
  cases e with
  | scan result =>
    cases result with
    | found now =>
      refine ⟨handled, ?_, hdiscovered⟩
      change Discovery.reports [] (w.scans ++ [now]) = _
      rw [Discovery.reports_append, hreports, List.append_assoc]
      rfl
    | failed => exact ⟨handled, hreports, hdiscovered⟩
    | crashed => exact ⟨handled, hreports, hdiscovered⟩
  | deliver opener =>
    cases hq : w.queue with
    | nil =>
      have hsame : w.next (.deliver opener) = w := by simp only [Watch.next, hq]
      rw [hsame]
      exact ⟨handled, hreports, hdiscovered⟩
    | cons c queue =>
      have hnext : w.next (.deliver opener) =
          { w with manager := w.manager.handle opener c, queue } := by
        simp only [Watch.next, hq]
      rw [hnext]
      refine ⟨handled ++ [c], ?_, ?_⟩
      · rw [hreports, hq, List.append_assoc]
        rfl
      · rw [Discovery.trackAll, List.foldl_append]
        change (w.manager.handle opener c).discovered =
          Discovery.track (Discovery.trackAll [] handled) c
        rw [Manager.discovered_handle, hdiscovered]
  | other op quiet =>
    refine ⟨handled, hreports, ?_⟩
    rw [← hdiscovered]
    exact Manager.discovered_apply quiet w.manager

theorem Sound.run (h : w.Sound) (events : List Event) : (w.run events).Sound := by
  induction events generalizing w with
  | nil => exact h
  | cons e events ih => exact ih (h.next e)

theorem Sound.alike (h : w.Sound) {k : Nat} {found : List Identity}
    (hk : w.scans[k]? = some found)
    (hq : w.queue = Discovery.reports found (w.scans.drop (k + 1))) :
    Discovery.Alike w.manager.discovered found := by
  obtain ⟨handled, hreports, hdiscovered⟩ := h
  have hstart : Discovery.Alike [] [] := fun _ => rfl
  obtain ⟨upTo, hsplit, halike⟩ := Discovery.alike_reports hk hstart
  have heq : handled ++ w.queue = upTo ++ w.queue := by
    rw [← hreports, hsplit, hq]
  rw [hdiscovered, List.append_cancel_right heq]
  exact halike

theorem Sound.alike_known (h : w.Sound) (hq : w.queue = []) :
    Discovery.Alike w.manager.discovered w.known := by
  unfold known
  cases hs : w.scans.getLast? with
  | some found =>
    have hlast : w.scans[w.scans.length - 1]? = some found := by
      rw [← List.getLast?_eq_getElem?, hs]
    apply h.alike hlast
    rw [hq, List.drop_eq_nil_of_le (by omega)]
    rfl
  | none =>
    obtain ⟨handled, hreports, hdiscovered⟩ := h
    rw [List.getLast?_eq_none_iff.mp hs, hq, List.append_nil] at hreports
    rw [hdiscovered, ← hreports]
    intro d
    rfl

/-- In whatever order scans, deliveries, ticks and turns of workers come, and whether devices can be
opened or not, the manager lists no device twice. Having handled the changes up to a scan it lists
the devices of that scan. A device found by two scans in a row is in no change between them. -/
theorem tracks_scans {m₀ : Manager} (h : m₀.discovered = []) (events : List Event) :
    let w := (Watch.mk m₀ [] []).run events
    w.manager.discovered.Pairwise (fun d e => ¬d.SameDevice e) ∧
    (w.queue = [] → Discovery.Alike w.manager.discovered w.known) ∧
    (∀ k found, w.scans[k]? = some found →
      w.queue = Discovery.reports found (w.scans.drop (k + 1)) →
      Discovery.Alike w.manager.discovered found) ∧
    ∀ now, ∃ new, (w.next (.scan (.found now))).queue = w.queue ++ new ∧
      ∀ c ∈ new, ¬(Discovery.present c.device w.known = true ∧
        Discovery.present c.device now = true) := by
  intro w
  have hstart : (Watch.mk m₀ [] []).Sound := ⟨[], rfl, h⟩
  have hw : w.Sound := hstart.run events
  refine ⟨?_, hw.alike_known, fun k found => hw.alike, ?_⟩
  · obtain ⟨handled, -, hdiscovered⟩ := hw
    rw [hdiscovered]
    exact Discovery.apart_trackAll List.Pairwise.nil handled
  · intro now
    refine ⟨Discovery.changes w.known now, rfl, ?_⟩
    intro c hc
    exact Discovery.not_present_of_mem_changes hc

/-- The first pad is found twice under two names and cannot be opened, the other one is renamed
before the first one vanishes. -/
theorem tracks_scans_renamed :
    let c : SlotConfig := ⟨.empty, .empty, [], 0, none, []⟩
    let first : Identity := ⟨.mock, 0, 0, 0, 0, "first", "Pad"⟩
    let second : Identity := ⟨.mock, 0, 0, 0, 0, "second", "Pad"⟩
    let opener : Opener := fun d => if d.path = "first" then some (.noHardware "first") else none
    ∃ m₀, Manager.new .reliable [c] "Pads" = .ok m₀ ∧
      let w := (Watch.mk m₀ [] []).run
        [.scan (.found [first, { first with name := "Twin" }, second]), .deliver opener,
          .other (.tick .reliable 5) rfl, .scan .failed, .deliver opener,
          .scan (.found [{ second with name := "Other" }]), .deliver opener,
          .other (.work .reliable .failed 5 0) rfl, .deliver opener, .deliver opener]
      w.queue = [] ∧ w.known = [{ second with name := "Other" }] ∧
        Discovery.Alike w.manager.discovered [second] := by
  intro c first second opener
  let events : List Event :=
    [.scan (.found [first, { first with name := "Twin" }, second]), .deliver opener,
      .other (.tick .reliable 5) rfl, .scan .failed, .deliver opener,
      .scan (.found [{ second with name := "Other" }]), .deliver opener,
      .other (.work .reliable .failed 5 0) rfl, .deliver opener, .deliver opener]
  have hrun : (Manager.new .reliable [c] "Pads").toOption.map (fun m =>
      let w := (Watch.mk m [] []).run events
      (m.discovered, w.queue, w.known)) =
        some ([], [], [{ second with name := "Other" }]) := by
    decide +kernel
  cases hm : Manager.new .reliable [c] "Pads" with
  | error e =>
    rw [hm] at hrun
    cases hrun
  | ok m₀ =>
    rw [hm] at hrun
    simp only [Except.toOption, Option.map_some, Option.some.injEq, Prod.mk.injEq] at hrun
    obtain ⟨hnone, hqueue, hknown⟩ := hrun
    obtain ⟨-, halike, -⟩ := tracks_scans hnone events
    have hlike := halike hqueue
    rw [hknown] at hlike
    exact ⟨m₀, rfl, hqueue, hknown, hlike⟩

end Watch

end PadRemap
