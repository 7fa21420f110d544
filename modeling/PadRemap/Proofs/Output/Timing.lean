import Mathlib.Algebra.Group.Int.Defs
import Mathlib.Algebra.GroupWithZero.Nat
import PadRemap.Proofs.Output.Batches

/-! Repeat timers. A timer never loses time and never makes any: what it has sent, counted by the
interval in force each time, and what is still on it make up the time that has passed since it was
installed. The main statement says this for every life of a timer among whatever else happens to
its multiplexer. -/

namespace PadRemap

namespace Repeat

/-- The loop that empties a timer: as long as a full interval is on it, the interval is taken off
and the timer fires. -/
inductive Drains : Repeat → Nat → Repeat → Prop where
  | rest {r} : r.elapsed < r.interval → Drains r 0 r
  | fire {r s n} : r.interval ≤ r.elapsed →
      Drains { r with elapsed := r.elapsed - r.interval } n s → Drains r (n + 1) s

theorem drains_of_elapsed {r : Repeat} (h : 1 ≤ r.interval) (n : Nat) :
    Drains { r with elapsed := n } (n / r.interval) { r with elapsed := n % r.interval } := by
  induction n using Nat.strongRecOn with
  | ind n ih =>
    by_cases hn : n < r.interval
    · rw [Nat.div_eq_of_lt hn, Nat.mod_eq_of_lt hn]
      exact .rest hn
    · have hle : r.interval ≤ n := by omega
      rw [Nat.div_eq_sub_div h hle, Nat.mod_eq_sub_mod hle]
      have hlt : n - r.interval < n := by omega
      exact .fire hle (ih _ hlt)

theorem drains_advance {r : Repeat} (h : 1 ≤ r.interval) (ms : Nat) :
    Drains { r with elapsed := r.due ms } (r.firings ms) (r.advance ms) :=
  drains_of_elapsed h _

end Repeat

namespace Call

def setting (o : Outlet) (s : Int × Nat) : Call → Int × Nat
  | .setRepeat d code v i => if (⟨d, code⟩ : Outlet) = o then (v, max i.toNat 1) else s
  | _ => s

def milliseconds : Call → Nat
  | .update ms => ms
  | _ => 0

/-- A call that ends the life of a timer. -/
def Removes (o : Outlet) : Call → Prop
  | .setRepeat d code _ i => (⟨d, code⟩ : Outlet) = o ∧ i < 0
  | _ => False

def concerns (o : Outlet) : Call → Bool
  | .setRepeat d code _ _ => (⟨d, code⟩ : Outlet) = o
  | .update _ => true
  | _ => false

theorem Removes.concerns {o : Outlet} {c : Call} (h : c.Removes o) : c.concerns o = true := by
  cases c with
  | setRepeat d code v i => exact decide_eq_true h.1
  | _ => exact h.elim

/-- What removes a timer is a call of its own, so histories with the same such calls agree on it. -/
theorem not_removes_of_filter_eq {o : Outlet} {rs ss : List Request}
    (hsame : (ss.map Request.call).filter (concerns o) = (rs.map Request.call).filter (concerns o))
    (hkeep : ∀ x ∈ rs, ¬x.call.Removes o) : ∀ x ∈ ss, ¬x.call.Removes o := by
  intro x hx hrem
  have hown : x.call ∈ (ss.map Request.call).filter (concerns o) :=
    List.mem_filter.mpr ⟨List.mem_map_of_mem hx, hrem.concerns⟩
  rw [hsame] at hown
  obtain ⟨y, hy, he⟩ := List.mem_map.mp (List.mem_filter.mp hown).1
  exact hkeep y hy (he ▸ hrem)

/-- Intervals are signed numbers of 32 bits, and time passes in portions of at most `2 ^ 31`. -/
def InRange : Call → Prop
  | .setRepeat _ _ _ i => i < 2 ^ 31
  | .update ms => ms ≤ 2 ^ 31
  | _ => True

end Call

namespace Repeat

def next (o : Outlet) (r : Repeat) : Call → Repeat
  | .setRepeat d code v i =>
    if (⟨d, code⟩ : Outlet) = o then { r with value := v, interval := max i.toNat 1 } else r
  | .update ms => r.advance ms
  | _ => r

def sends (o : Outlet) (r : Repeat) : Call → List Event
  | .update ms => .replicate (r.firings ms) ⟨.rel, o.code, r.value⟩
  | _ => []

def sendings (o : Outlet) : Repeat → List Call → List (Event × Int × Nat)
  | _, [] => []
  | r, c :: cs => (r.sends o c).map (·, r.value, r.interval) ++ sendings o (r.next o c) cs

structure Sound (r : Repeat) : Prop where
  positive : 1 ≤ r.interval
  interval : r.interval < 2 ^ 31
  elapsed : r.elapsed < 2 ^ 31

variable {o : Outlet} {r : Repeat}

theorem setting_next (r : Repeat) (o : Outlet) (c : Call) :
    ((r.next o c).value, (r.next o c).interval) = c.setting o (r.value, r.interval) := by
  cases c with
  | setRepeat d code v i =>
    simp only [next, Call.setting]
    split <;> rfl
  | _ => rfl

theorem setting_foldl (r : Repeat) (o : Outlet) (cs : List Call) :
    ((cs.foldl (next o) r).value, (cs.foldl (next o) r).interval) =
      cs.foldl (Call.setting o) (r.value, r.interval) := by
  induction cs generalizing r with
  | nil => rfl
  | cons c cs ih => rw [List.foldl_cons, List.foldl_cons, ih, setting_next]

theorem Sound.due_eq (h : r.Sound) {ms : Nat} (hms : ms ≤ 2 ^ 31) : r.due ms = r.elapsed + ms := by
  have := h.elapsed
  unfold due ceiling
  omega

theorem Sound.next (h : r.Sound) {c : Call} (hc : c.InRange) : (r.next o c).Sound := by
  cases c with
  | setRepeat d code v i =>
    have hi : i < 2 ^ 31 := hc
    simp only [Repeat.next]
    split
    · refine ⟨?_, ?_, h.elapsed⟩
      · exact Nat.le_max_right _ _
      · change max i.toNat 1 < 2 ^ 31
        omega
    · exact h
  | update ms =>
    have hmod : r.due ms % r.interval < r.interval := Nat.mod_lt _ h.positive
    exact ⟨h.positive, h.interval, Nat.lt_trans hmod h.interval⟩
  | _ => exact h

theorem Sound.foldl (h : r.Sound) {cs : List Call} (hcs : ∀ c ∈ cs, c.InRange) :
    (cs.foldl (Repeat.next o) r).Sound := by
  induction cs generalizing r with
  | nil => exact h
  | cons c cs ih =>
    exact ih (h.next (hcs c List.mem_cons_self)) fun c hc => hcs c (List.mem_cons_of_mem _ hc)

/-- One call: what is sent pays for what goes off the timer. -/
theorem Sound.elapsed_next (h : r.Sound) {c : Call} (hc : c.InRange) :
    (r.sends o c).length * r.interval + (r.next o c).elapsed = r.elapsed + c.milliseconds := by
  cases c with
  | update ms =>
    have hdue : r.due ms = r.elapsed + ms := h.due_eq hc
    have hdiv := Nat.div_add_mod (r.due ms) r.interval
    simp only [sends, List.length_replicate, firings, Repeat.next, advance, Call.milliseconds]
    rw [Nat.mul_comm]
    omega
  | setRepeat d code v i =>
    simp only [Repeat.next]
    split <;> simp [sends, Call.milliseconds]
  | _ => simp [sends, Repeat.next, Call.milliseconds]

theorem Sound.conserves (h : r.Sound) {cs : List Call} (hcs : ∀ c ∈ cs, c.InRange) :
    ((r.sendings o cs).map (·.2.2)).sum + (cs.foldl (Repeat.next o) r).elapsed =
      r.elapsed + (cs.map Call.milliseconds).sum := by
  induction cs generalizing r with
  | nil => simp [sendings]
  | cons c cs ih =>
    have hc : c.InRange := hcs c List.mem_cons_self
    have hnow := h.elapsed_next (o := o) hc
    have hrest := ih (h.next (o := o) hc) fun c hc => hcs c (List.mem_cons_of_mem _ hc)
    have hsum : (((r.sends o c).map (·, r.value, r.interval)).map (·.2.2)).sum =
        (r.sends o c).length * r.interval := by
      simp [Function.comp_def]
    rw [sendings, List.map_append, List.sum_append, hsum, List.foldl_cons, List.map_cons,
      List.sum_cons]
    omega

theorem Sound.elapsed_lt_of_getLast (h : r.Sound) {cs : List Call} (hcs : ∀ c ∈ cs, c.InRange)
    {ms : Nat} (hms : cs.getLast? = some (.update ms)) :
    (cs.foldl (Repeat.next o) r).elapsed < (cs.foldl (Repeat.next o) r).interval := by
  obtain ⟨before, hsplit⟩ := List.getLast?_eq_some_iff.mp hms
  have hbefore : (before.foldl (Repeat.next o) r).Sound :=
    h.foldl fun c hc => hcs c (hsplit ▸ List.mem_append_left _ hc)
  rw [hsplit, List.foldl_append]
  exact Nat.mod_lt _ hbefore.positive

theorem mem_sendings {cs : List Call} {x : Event × Int × Nat} (h : x ∈ r.sendings o cs) :
    x.1 = ⟨.rel, o.code, x.2.1⟩ := by
  induction cs generalizing r with
  | nil => cases h
  | cons c cs ih =>
    rw [sendings, List.mem_append] at h
    rcases h with h | h
    · obtain ⟨e, he, rfl⟩ := List.mem_map.mp h
      cases c with
      | update ms => exact (List.mem_replicate.mp he).2
      | _ => cases he
    · exact ih h

theorem next_of_not_concerns (r : Repeat) {c : Call} (hc : c.concerns o = false) :
    r.next o c = r := by
  cases c with
  | setRepeat d code v i =>
    have hne : (⟨d, code⟩ : Outlet) ≠ o := by simpa [Call.concerns] using hc
    exact if_neg hne
  | update ms => cases hc
  | _ => rfl

theorem sendings_filter (r : Repeat) (o : Outlet) (cs : List Call) :
    r.sendings o (cs.filter (Call.concerns o)) = r.sendings o cs := by
  induction cs generalizing r with
  | nil => rfl
  | cons c cs ih =>
    by_cases hc : c.concerns o = true
    · rw [List.filter_cons_of_pos hc, sendings, sendings, ih]
    · have hnone : r.sends o c = [] := by
        cases c with
        | update ms => exact (hc rfl).elim
        | _ => rfl
      rw [List.filter_cons_of_neg hc, sendings, hnone, next_of_not_concerns r (by simpa using hc),
        ih]
      rfl

def Fixed (o : Outlet) (n : Nat) (cs : List Call) : Prop :=
  ∀ c ∈ cs, ∀ v i, c = .setRepeat o.device o.code v i → max i.toNat 1 = n

theorem fixed_next {n : Nat} {c : Call} {cs : List Call} (hf : Fixed o n (c :: cs))
    (hn : r.interval = n) : (r.next o c).interval = n := by
  cases c with
  | setRepeat d code v i =>
    simp only [next]
    split
    · next he =>
      subst he
      exact hf _ List.mem_cons_self v i rfl
    · exact hn
  | _ => exact hn

theorem elapsed_next_lt {n : Nat} (hpos : 1 ≤ n) (hn : r.interval = n) (hlt : r.elapsed < n)
    (c : Call) : (r.next o c).elapsed < n := by
  cases c with
  | setRepeat d code v i =>
    simp only [next]
    split <;> exact hlt
  | update ms =>
    have hmod : r.due ms % r.interval < r.interval := Nat.mod_lt _ (hn ▸ hpos)
    rw [hn] at hmod
    simpa [next, advance, hn] using hmod
  | _ => exact hlt

theorem fixed_sendings {n : Nat} {cs : List Call} (hpos : 1 ≤ n) (hn : r.interval = n)
    (hlt : r.elapsed < n) (hf : Fixed o n cs) :
    (cs.foldl (Repeat.next o) r).elapsed < n ∧ ∀ x ∈ r.sendings o cs, x.2.2 = n := by
  induction cs generalizing r with
  | nil => exact ⟨hlt, fun x hx => nomatch hx⟩
  | cons c cs ih =>
    obtain ⟨hlast, hall⟩ := ih (fixed_next hf hn) (elapsed_next_lt hpos hn hlt c) fun c hc =>
      hf c (List.mem_cons_of_mem _ hc)
    refine ⟨hlast, fun x hx => ?_⟩
    rw [sendings, List.mem_append] at hx
    rcases hx with hx | hx
    · obtain ⟨e, -, rfl⟩ := List.mem_map.mp hx
      exact hn
    · exact hall x hx

theorem Sound.length_of_fixed (h : r.Sound) {cs : List Call} (hcs : ∀ c ∈ cs, c.InRange)
    (hnew : r.elapsed = 0) (hf : Fixed o r.interval cs) :
    (r.sendings o cs).length = (cs.map Call.milliseconds).sum / r.interval := by
  have hpos := h.positive
  obtain ⟨hlast, hall⟩ := fixed_sendings hpos rfl (by omega) hf
  have hrep : (r.sendings o cs).map (·.2.2) =
      .replicate (r.sendings o cs).length r.interval := by
    rw [List.eq_replicate_iff, List.length_map]
    refine ⟨rfl, fun n hn => ?_⟩
    obtain ⟨x, hx, rfl⟩ := List.mem_map.mp hn
    exact hall x hx
  have hcons := h.conserves (o := o) hcs
  rw [hrep, List.sum_replicate_nat, hnew, Nat.zero_add] at hcons
  rw [← hcons, Nat.add_comm, Nat.add_mul_div_right _ _ hpos, Nat.div_eq_of_lt hlast, Nat.zero_add]

end Repeat

namespace Turn

open Multiplexer

/-- What a turn adds for a device: the events that the backend is given and those that wait at the
end, less those that waited before. -/
def moved (t : Turn) (d : DeviceId) : List Event :=
  (Journal.eventsOn d (Journal.events t.emits) ++ t.after.waiting d).drop
    (t.before.waiting d).length

/-- What a turn adds for a timer, unless the events come from a writer. -/
def fired (o : Outlet) (t : Turn) : List Event :=
  match t.call with
  | .send .. | .frame _ => []
  | _ => (t.moved o.device).filter (·.code = o.code)

/-- What a timer sends over some turns, each event with the value and interval in force. -/
def sendings (o : Outlet) : Int × Nat → List Turn → List (Event × Int × Nat)
  | _, [] => []
  | s, t :: ts => (t.fired o).map (·, s) ++ sendings o (t.call.setting o s) ts

end Turn

namespace Multiplexer

theorem flatMap_of_key {l : List (Outlet × Repeat)} (hl : l.Pairwise fun p q => p.1 ≠ q.1)
    {p : Outlet × Repeat} (hp : p ∈ l) {g : Outlet × Repeat → List Event}
    (hg : ∀ q ∈ l, q.1 ≠ p.1 → g q = []) : l.flatMap g = g p := by
  induction l with
  | nil => cases hp
  | cons q l ih =>
    obtain ⟨hq, hl⟩ := List.pairwise_cons.mp hl
    rw [List.flatMap_cons]
    rcases List.mem_cons.mp hp with rfl | hp
    · have hnil : l.flatMap g = [] := List.flatMap_eq_nil_iff.mpr fun a ha =>
        hg a (List.mem_cons_of_mem _ ha) (hq a ha).symm
      rw [hnil, List.append_nil]
    · rw [hg q List.mem_cons_self (hq p hp), List.nil_append]
      exact ih hl hp fun a ha => hg a (List.mem_cons_of_mem _ ha)

theorem filter_firingEvents (ms : Nat) (o a : Outlet) (r : Repeat) :
    (Journal.eventsOn o.device (firingEvents ms a r)).filter (·.code = o.code) =
      if a = o then r.sends o (.update ms) else [] := by
  obtain ⟨d, code⟩ := a
  obtain ⟨d', code'⟩ := o
  by_cases hd : d = d'
  · subst hd
    by_cases hc : code = code'
    · subst hc
      simp [firingEvents, Journal.eventsOn, Repeat.sends]
    · simp [firingEvents, Journal.eventsOn, hc]
  · simp [firingEvents, Journal.eventsOn, hd]

theorem emits_eq_reliable (m : Multiplexer) (b : Backend) (c : Call) :
    m.emits b c = m.emits .reliable c := by
  have hids : m.deviceIds.Nodup := DeviceId.nodup_of_pairwise Std.ExtTreeMap.ordered_keys
  cases c with
  | frame es => simp only [emits, handed_eq _ _ (nodup_touched es)]
  | update ms => simp only [emits, handed_eq _ _ (nodup_touched (m.dueEvents ms))]
  | sync => simp only [emits, handed_eq _ _ hids]
  | _ => rfl

/-- Among all that is due at a moment, the events of one timer are those of that timer alone. -/
theorem filter_dueEvents (m : Multiplexer) (ms : Nat) (o : Outlet) :
    (Journal.eventsOn o.device (m.dueEvents ms)).filter (·.code = o.code) =
      match m.repeats[o]? with
      | some r => r.sends o (.update ms)
      | none => [] := by
  rw [dueEvents, Journal.eventsOn_flatMap, List.filter_flatMap]
  simp only [filter_firingEvents]
  have hkeys : m.repeats.toList.Pairwise fun p q => p.1 ≠ q.1 := by
    refine Std.ExtTreeMap.distinct_keys_toList.imp ?_
    rintro p q h he
    exact h (by rw [he]; exact Std.ReflCmp.compare_self)
  cases hr : m.repeats[o]? with
  | none =>
    refine List.flatMap_eq_nil_iff.mpr fun p hp => if_neg ?_
    rintro rfl
    rw [Std.ExtTreeMap.mem_toList_iff_getElem?_eq_some.mp hp] at hr
    cases hr
  | some r =>
    have hmem : (o, r) ∈ m.repeats.toList := Std.ExtTreeMap.mem_toList_iff_getElem?_eq_some.mpr hr
    rw [flatMap_of_key hkeys hmem fun q _ hq => if_neg hq]
    exact if_pos rfl

end Multiplexer

namespace Turn

variable {t : Turn} {o : Outlet}

/-- The events that a turn adds are those that it takes, each of them once and in order. -/
theorem Settles.moved_eq (h : t.Settles) (d : DeviceId) :
    t.moved d = Journal.eventsOn d t.admitted := by
  rw [moved, ← h.eventsOn_backlog d, backlog, Multiplexer.backlog, List.drop_left]

theorem fired_eq (h : t.before.Regular) {r : Repeat} (hr : t.before.repeats[o]? = some r) :
    t.fired o = r.sends o t.call := by
  have hmoved : t.moved o.device = Journal.eventsOn o.device t.admitted :=
    (settles h).moved_eq o.device
  cases hc : t.call with
  | send d e | frame es =>
    simp only [fired, hc]
    rfl
  | update ms =>
    have hrej : t.rejected = false := by
      have hres := congrArg Prod.snd (h.update_eq t.request.backend ms)
      refine not_rejected_of_verdict (Eq.trans ?_ hres)
      rw [result, hc]
      rfl
    have hadm : t.admitted = t.before.dueEvents ms := by
      rw [admitted_of_not_rejected hrej, hc]
      rfl
    simp only [fired, hc]
    rw [hmoved, hadm, Multiplexer.filter_dueEvents, hr]
  | _ =>
    have hadm : t.admitted = [] := by simp [admitted, hc, Multiplexer.offered]
    simp only [fired, hc]
    rw [hmoved, hadm]
    rfl

theorem Settles.waiting_of_fired (h : t.Settles) (hf : t.fired o ≠ []) :
    t.after.waiting o.device = [] := by
  have hsend : ∀ d e, t.call ≠ .send d e := by
    intro d e hc
    simp [fired, hc] at hf
  have htouched : o.device ∈ t.touched := by
    by_contra hd
    have hmoved : t.moved o.device = [] :=
      (h.moved_eq o.device).trans (Settles.eventsOn_admitted_eq_nil hsend hd)
    refine hf ?_
    unfold fired
    split
    · rfl
    · rfl
    · rw [hmoved, List.filter_nil]
  rw [h.waiting o.device, if_pos htouched]

/-- What a turn hands over is what a backend that obeys has written in the end. -/
theorem batches_reliable (h : t.before.Regular) :
    (t.before.perform .reliable t.call).1.journal.batches =
      t.before.journal.batches ++ t.emits := by
  let u : Turn := ⟨t.before, t.call, .reliable⟩
  have hbatches : u.after.journal.batches = u.before.journal.batches ++ u.written :=
    (settles (t := u) h).batches
  have hemits : u.emits = t.emits := (t.before.emits_eq_reliable t.request.backend t.call).symm
  have hall : u.written = u.emits := List.filter_eq_self.mpr fun x _ => rfl
  rw [hall, hemits] at hbatches
  exact hbatches

end Turn

namespace Multiplexer

variable {m : Multiplexer}

namespace Regular

variable {o : Outlet} {r : Repeat}

theorem getElem?_repeats (h : m.Regular) (b : Backend) {c : Call} (hc : c.concerns o = false) :
    (m.perform b c).1.repeats[o]? = m.repeats[o]? := by
  have hr := h.reaction b c
  generalize m.perform b c = out at hr
  generalize m.emits b c = xs at hr
  cases hr with
  | rejected _ => rfl
  | setUp _ _ hrep _ _ _ => rw [hrep]
  | @disarmed d code v i _ =>
    have hne : (⟨d, code⟩ : Outlet) ≠ o := by simpa [Call.concerns] using hc
    simp [disarmed, Std.ExtTreeMap.getElem?_erase, hne]
  | @armed d code v i _ _ =>
    have hne : (⟨d, code⟩ : Outlet) ≠ o := by simpa [Call.concerns] using hc
    simp [armed, Std.ExtTreeMap.getElem?_insert, hne]
  | settled hw _ =>
    cases c with
    | update ms => cases hc
    | _ => rfl

theorem repeats_perform (h : m.Regular) (b : Backend) {c : Call} (hr : m.repeats[o]? = some r)
    (hc : ¬c.Removes o) : (m.perform b c).1.repeats[o]? = some (r.next o c) := by
  cases hcon : c.concerns o with
  | false => rw [h.getElem?_repeats b hcon, hr, Repeat.next_of_not_concerns r hcon]
  | true =>
    cases c with
    | setRepeat d code v i =>
      have he : (⟨d, code⟩ : Outlet) = o := by simpa [Call.concerns] using hcon
      have hi : 0 ≤ i := by
        by_contra hneg
        exact hc ⟨he, by omega⟩
      have hacc : m.Accepts o.device := by
        refine h.timers o ?_
        rw [Std.ExtTreeMap.mem_iff_isSome_getElem?, hr]
        rfl
      subst he
      rw [Multiplexer.perform, setRepeat_of_accepts hacc code v hi]
      simp [armed, hr, Repeat.next]
    | update ms =>
      rw [Multiplexer.perform, h.update_eq b ms]
      change (m.aged ms).repeats[o]? = _
      simp [aged, Std.ExtTreeMap.getElem?_map, hr, Repeat.next]
    | _ => cases hcon

/-- A life of a timer, seen from the timer. -/
theorem sendings_turns (h : m.Regular) (hr : m.repeats[o]? = some r) {rs : List Request}
    (hkeep : ∀ x ∈ rs, ¬x.call.Removes o) :
    Turn.sendings o (r.value, r.interval) (m.turns rs) = r.sendings o (rs.map Request.call) ∧
      (m.serve rs).repeats[o]? = some ((rs.map Request.call).foldl (Repeat.next o) r) := by
  induction rs generalizing m r with
  | nil => exact ⟨rfl, hr⟩
  | cons x rs ih =>
    have hnext := h.repeats_perform x.backend hr (hkeep x List.mem_cons_self)
    obtain ⟨hsend, hlast⟩ := ih (h.perform x.backend x.call) hnext fun y hy =>
      hkeep y (List.mem_cons_of_mem _ hy)
    refine ⟨?_, hlast⟩
    have hfired : (Turn.mk m x).fired o = r.sends o x.call := Turn.fired_eq (t := ⟨m, x⟩) h hr
    have hset : (Turn.mk m x).call.setting o (r.value, r.interval) =
        ((r.next o x.call).value, (r.next o x.call).interval) :=
      (Repeat.setting_next r o x.call).symm
    rw [turns, Turn.sendings, hfired, hset, hsend, List.map_cons, Repeat.sendings]

end Regular

theorem repeats_of_installed {o : Outlet} {b : Backend} {v i : Int} (hi : 0 ≤ i)
    (hnew : m.repeats[o]? = none)
    (hok : (m.perform b (.setRepeat o.device o.code v i)).2 = .ok ()) :
    (m.perform b (.setRepeat o.device o.code v i)).1.repeats[o]? =
      some ⟨v, max i.toNat 1, 0⟩ := by
  have hd : m.Accepts o.device := by
    by_contra hd
    obtain ⟨e, -, hq⟩ := queue_eq_error hd
    rw [perform, setRepeat_eq_error hi hq] at hok
    cases hok
  rw [perform, setRepeat_of_accepts hd o.code v hi]
  simp [armed, hnew]

/-- Repeat timers conserve time. A timer is installed and lives on, whatever else its multiplexer
is asked to do. Then what has gone out for it, each event counted by the interval in force, and
what is on it make up the time that has passed; it sends the value in force, less than an interval
is left when time has passed, its loop ends, and no other call has any influence on it. What goes
out is handed over at once: the journal has it, unless the backend refuses and the call fails. -/
theorem time_conserved (base : String) (opening life : List Request) (b : Backend) (o : Outlet)
    (v i : Int) (hnew : ((new base).serve opening).repeats[o]? = none) (hi : 0 ≤ i)
    (hok : (((new base).serve opening).perform b (.setRepeat o.device o.code v i)).2 = .ok ())
    (hkeep : ∀ x ∈ life, ¬x.call.Removes o)
    (hrange : i < 2 ^ 31 ∧ ∀ x ∈ life, x.call.InRange) :
    let m := (((new base).serve opening).perform b (.setRepeat o.device o.code v i)).1
    let calls := life.map Request.call
    let total := (calls.map Call.milliseconds).sum
    let sent := Turn.sendings o (v, max i.toNat 1) (m.turns life)
    (∃ r : Repeat, (m.serve life).repeats[o]? = some r ∧
      (r.value, r.interval) = calls.foldl (Call.setting o) (v, max i.toNat 1) ∧
      1 ≤ r.interval ∧ (sent.map (·.2.2)).sum + r.elapsed = total ∧
      (∀ ms, calls.getLast? = some (.update ms) → r.elapsed < r.interval) ∧
      ∀ ms ≤ 2 ^ 31, r.due ms = r.elapsed + ms ∧
        Repeat.Drains { r with elapsed := r.due ms } (r.firings ms) (r.advance ms)) ∧
    (∀ x ∈ sent, x.1 = ⟨.rel, o.code, x.2.1⟩) ∧
    (∀ t ∈ m.turns life, t.HandsOver ∧ (t.fired o ≠ [] → t.after.waiting o.device = []) ∧
      t.after.journal.batches = t.before.journal.batches ++ t.written ∧
      (t.before.perform .reliable t.call).1.journal.batches =
        t.before.journal.batches ++ t.emits) ∧
    (Repeat.Fixed o (max i.toNat 1) calls → sent.length = total / max i.toNat 1) ∧
    ∀ base' opening' life',
      ((new base').serve opening').repeats[o]? = some ⟨v, max i.toNat 1, 0⟩ →
      (life'.map Request.call).filter (Call.concerns o) = calls.filter (Call.concerns o) →
      Turn.sendings o (v, max i.toNat 1) (((new base').serve opening').turns life') = sent := by
  intro m calls total sent
  let r₀ : Repeat := ⟨v, max i.toNat 1, 0⟩
  have hreg : ((new base).serve opening).Regular := (regular_new base).serve opening
  have hm : m.Regular := hreg.perform _ _
  have hr₀ : m.repeats[o]? = some r₀ := repeats_of_installed hi hnew hok
  have hsound : r₀.Sound := by
    refine ⟨Nat.le_max_right _ _, ?_, Nat.two_pow_pos 31⟩
    have := hrange.1
    change max i.toNat 1 < 2 ^ 31
    omega
  have hcalls : ∀ c ∈ calls, c.InRange := by
    intro c hc
    obtain ⟨x, hx, rfl⟩ := List.mem_map.mp hc
    exact hrange.2 x hx
  obtain ⟨hsent, hlast⟩ := hm.sendings_turns hr₀ hkeep
  have hsent : sent = r₀.sendings o calls := hsent
  have hend : (calls.foldl (Repeat.next o) r₀).Sound := hsound.foldl hcalls
  refine ⟨⟨_, hlast, Repeat.setting_foldl r₀ o calls, hend.positive, ?_, ?_, ?_⟩, ?_, ?_, ?_, ?_⟩
  · rw [hsent, hsound.conserves hcalls]
    exact Nat.zero_add _
  · exact fun ms hms => hsound.elapsed_lt_of_getLast hcalls hms
  · intro ms hms
    exact ⟨hend.due_eq hms, Repeat.drains_advance hend.positive ms⟩
  · rw [hsent]
    exact fun x hx => Repeat.mem_sendings hx
  · intro t ht
    have hbefore : t.before.Regular :=
      (turns_induct hm (fun _ hm r _ => hm.perform r.backend r.call) t ht).1
    have hs : t.Settles := Turn.settles hbefore
    exact ⟨hs.handsOver, hs.waiting_of_fired, hs.batches, Turn.batches_reliable hbefore⟩
  · rw [hsent]
    exact hsound.length_of_fixed hcalls rfl
  · intro base' opening' life' hr' hsame
    have hkeep' := Call.not_removes_of_filter_eq hsame hkeep
    have hreg' := (regular_new base').serve opening'
    rw [(hreg'.sendings_turns hr' hkeep').1, hsent, ← Repeat.sendings_filter, hsame,
      Repeat.sendings_filter]

/-- A timer that is given a new value and an interval below what is on it, next to another one, on
a device that refuses once. -/
theorem time_conserved_changed :
    let mouse : DeviceId := .mouse 0
    let opening : List Request := [⟨.addRel mouse 0, .reliable⟩, ⟨.addRel mouse 8, .reliable⟩,
      ⟨.finish, .reliable⟩, ⟨.setRepeat mouse 8 1 7, .reliable⟩]
    let life : List Request := [⟨.update 27, .refusing [] [mouse]⟩,
      ⟨.setRepeat mouse 0 (-3) 5, .reliable⟩, ⟨.setRepeat mouse 8 1 (-1), .reliable⟩,
      ⟨.update 4, .reliable⟩]
    let m := (((new "pad").serve opening).perform .reliable (.setRepeat mouse 0 7 10)).1
    let sent := Turn.sendings ⟨mouse, 0⟩ (7, 10) (m.turns life)
    sent = [(⟨.rel, 0, 7⟩, 7, 10), (⟨.rel, 0, 7⟩, 7, 10), (⟨.rel, 0, -3⟩, -3, 5),
      (⟨.rel, 0, -3⟩, -3, 5)] ∧
    (m.serve life).journal.batches = [⟨mouse, [⟨.rel, 0, -3⟩, ⟨.rel, 0, -3⟩]⟩] ∧
    ∃ r : Repeat, (m.serve life).repeats[(⟨mouse, 0⟩ : Outlet)]? = some r ∧
      r.elapsed < r.interval ∧ (sent.map (·.2.2)).sum + r.elapsed = 31 := by
  intro mouse opening life m sent
  have hkeep : ∀ x ∈ life, ¬x.call.Removes ⟨mouse, 0⟩ := by
    intro x hx
    simp only [life, List.mem_cons, List.not_mem_nil, or_false] at hx
    rcases hx with rfl | rfl | rfl | rfl <;> simp [Call.Removes, mouse]
  have hrange : ∀ x ∈ life, x.call.InRange := by
    intro x hx
    simp only [life, List.mem_cons, List.not_mem_nil, or_false] at hx
    rcases hx with rfl | rfl | rfl | rfl <;> simp [Call.InRange]
  obtain ⟨⟨r, hr, -, -, hsum, hlast, -⟩, -⟩ := time_conserved "pad" opening life .reliable
    ⟨mouse, 0⟩ 7 10 (by decide +kernel) (by decide) (by decide +kernel) hkeep ⟨by decide, hrange⟩
  exact ⟨by decide +kernel, by decide +kernel, r, hr, hlast 4 rfl, hsum⟩

end Multiplexer

end PadRemap
