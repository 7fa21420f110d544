import PadRemap.Proofs.Output.Activation

/-! Which range a device advertises for an absolute axis. Declarations of one axis do not add up:
each one replaces what was declared before, and activation takes the blueprint as it stands
then. -/

namespace PadRemap

namespace AbsRange

def Holds (r : AbsRange) (v : Int) : Prop := r.min ≤ v ∧ v ≤ r.max

instance (r : AbsRange) (v : Int) : Decidable (r.Holds v) := inferInstanceAs (Decidable (_ ∧ _))

end AbsRange

namespace Call

def range? (o : Outlet) : Call → Option AbsRange
  | addAbs d code r => if (⟨d, code⟩ : Outlet) = o then some r else none
  | _ => none

def lastRange (cs : List Call) (o : Outlet) : Option AbsRange := cs.reverse.findSome? (range? o)

variable {cs : List Call} {o : Outlet} {r : AbsRange}

theorem range?_eq_some {c : Call} : c.range? o = some r ↔ c = .addAbs o.device o.code r := by
  obtain ⟨d, code⟩ := o
  cases c <;> simp [range?, and_assoc]

theorem lastRange_append (cs ds : List Call) (o : Outlet) :
    lastRange (cs ++ ds) o = (lastRange ds o).or (lastRange cs o) := by
  simp [lastRange, List.findSome?_append]

theorem lastRange_cons (c : Call) (cs : List Call) (o : Outlet) :
    lastRange (c :: cs) o = (lastRange cs o).or (c.range? o) := by
  simp [lastRange, List.findSome?_append]

theorem mem_of_lastRange (h : lastRange cs o = some r) : .addAbs o.device o.code r ∈ cs := by
  obtain ⟨c, hc, hr⟩ := List.exists_of_findSome?_eq_some h
  exact range?_eq_some.mp hr ▸ List.mem_reverse.mp hc

/-- A declared range is the last one, or another one is declared after it. -/
theorem lastRange_cases (h : .addAbs o.device o.code r ∈ cs) :
    lastRange cs o = some r ∨
      ∃ before later, cs = before ++ .addAbs o.device o.code r :: later ∧
        lastRange cs o = lastRange later o ∧ lastRange later o ≠ none := by
  obtain ⟨before, later, rfl⟩ := List.append_of_mem h
  have hown : (addAbs o.device o.code r).range? o = some r := range?_eq_some.mpr rfl
  rw [lastRange_append, lastRange_cons, hown]
  cases hl : lastRange later o with
  | none => exact Or.inl rfl
  | some r' => exact Or.inr ⟨before, later, rfl, hl.symm, by simp [hl]⟩

theorem range_grow (base : String) (o : Outlet) (p : Option Blueprint) (c : Call) :
    ((c.grow base o.device p).bind fun q => q.abs[o.code]?) =
      (c.range? o).or (p.bind fun q => q.abs[o.code]?) := by
  have hnew : ∀ d, (p.getD (.forDevice base d)).abs[o.code]? = p.bind fun q => q.abs[o.code]? := by
    intro d
    cases p with
    | none => exact Std.ExtTreeMap.getElem?_empty
    | some q => rfl
  obtain ⟨d, code⟩ := o
  cases c with
  | addKey a k | addRel a k =>
    simp only [grow, growth?, range?, Option.none_or]
    split
    · exact hnew d
    · rfl
  | addAbs a k r =>
    simp only [grow, growth?, range?, Outlet.mk.injEq]
    by_cases ha : a = d
    · rw [if_pos ha, Option.bind_some, Blueprint.addAbs, Std.ExtTreeMap.getElem?_insert]
      by_cases hk : k = code
      · simp [ha, hk]
      · simp [hk, hnew]
    · simp [ha]
  | _ => rfl

end Call

def Device.blueprint : Device → Blueprint
  | .declared p | .active p _ => p

namespace Multiplexer

def range (m : Multiplexer) (o : Outlet) : Option AbsRange :=
  (m.devices[o.device]?.map Device.blueprint).bind fun p => p.abs[o.code]?

variable {m n : Multiplexer} {b : Backend}

theorem range_new (base : String) (o : Outlet) : (new base).range o = none := by
  simp [range, new]

theorem Declaring.range_perform (h : m.Declaring) (b : Backend) {c : Call} {o : Output}
    (hc : c.declares? = some o) (a : Outlet) :
    (m.perform b c).1.range a = (c.range? a).or (m.range a) := by
  obtain ⟨-, -, hdevices, -⟩ := perform_declaration h.finished b hc
  have hmap : ∀ p : Option Blueprint, (p.map Device.declared).map Device.blueprint = p := by
    intro p
    cases p <;> rfl
  have hentry : ∃ p : Option Blueprint, m.devices[a.device]? = p.map .declared := by
    cases hv : m.devices[a.device]? with
    | none => exact ⟨none, rfl⟩
    | some v =>
      cases v with
      | declared p => exact ⟨some p, rfl⟩
      | active p q => exact (h.inactive a.device ⟨p, q, hv⟩).elim
  obtain ⟨p, hp⟩ := hentry
  rw [range, range, hdevices, hp, regrow_map, hmap, hmap]
  exact Call.range_grow m.base a p c

/-- Of all declarations of an axis the last one counts. -/
theorem Declaring.range_performAll (h : m.Declaring) (b : Backend) {cs : List Call}
    (hcs : ∀ c ∈ cs, ∃ o, c.declares? = some o) (a : Outlet) :
    (m.performAll b cs).1.range a = (Call.lastRange cs a).or (m.range a) := by
  induction cs generalizing m with
  | nil => rfl
  | cons c cs ih =>
    obtain ⟨o, hc⟩ := hcs c List.mem_cons_self
    obtain ⟨n, hn, hdec, -⟩ := h.perform b hc
    have hstep := h.range_perform b hc a
    rw [hn] at hstep
    have hrun : m.performAll b (c :: cs) = n.performAll b cs := by rw [Multiplexer.performAll, hn]
    rw [hrun, ih hdec fun c hc => hcs c (List.mem_cons_of_mem _ hc), hstep, Call.lastRange_cons,
      Option.or_assoc]

theorem refusal_of_finish (hf : m.finished = false) (h : m.finish b = (n, .ok ())) (d : DeviceId) :
    m.refusal b d = none := by
  by_contra hd
  obtain ⟨_, _, _, -, -, hfail, -⟩ := finish_refused hf hd
  rw [h] at hfail
  cases hfail

/-- A device keeps its ranges when it is activated; one that is dropped had none. -/
theorem Declaring.range_finish (h : m.Declaring) (hn : m.finish b = (n, .ok ())) (a : Outlet) :
    n.range a = m.range a := by
  obtain ⟨-, hdevices⟩ := finish_obeyed h.finished (refusal_of_finish h.finished hn)
  rw [hn] at hdevices
  have hmap : ∀ p : Option Blueprint, (p.map (Device.active · [])).map Device.blueprint = p := by
    intro p
    cases p <;> rfl
  rw [range, range, hdevices, hmap]
  cases hv : m.devices[a.device]? with
  | none => simp [activated, hv]
  | some v =>
    cases v with
    | active p q => exact (h.inactive a.device ⟨p, q, hv⟩).elim
    | declared p =>
      by_cases hp : p.isEmpty = true
      · have habs : p.abs = ∅ := by
          simp only [Blueprint.isEmpty, Bool.and_eq_true] at hp
          exact Std.ExtTreeMap.isEmpty_iff.mp hp.2
        simp [activated, hv, hp, Device.blueprint, habs]
      · simp [activated, hv, hp, Device.blueprint]

theorem Declaring.active_of_created (h : m.Declaring) (hn : m.finish b = (n, .ok ()))
    {d : DeviceId} {p : Blueprint} (hd : (d, p) ∈ n.journal.created) :
    n.devices[d]? = some (.active p []) := by
  obtain ⟨k, hrun, hall⟩ := finish_eq h.finished (refusal_of_finish h.finished hn)
  cases hrun.symm.trans hn
  change k.devices[d]? = _
  rw [hall.devices_of_all, (hall.mem_created h.created).mp hd]
  rfl

theorem range_of_active {d : DeviceId} {p : Blueprint} {q : List Event}
    (hd : m.devices[d]? = some (.active p q)) (code : UInt16) :
    m.range ⟨d, code⟩ = p.abs[code]? := by
  simp [range, hd, Device.blueprint]

/-- The value of an event lies in the range that its device was created with. -/
def Advertises (m : Multiplexer) (x : DeviceId × Event) : Prop :=
  ∃ p r, (x.1, p) ∈ m.journal.created ∧ (∀ q, (x.1, q) ∈ m.journal.created → q = p) ∧
    p.abs[x.2.code]? = some r ∧ r.Holds x.2.value

theorem advertises_congr (h : n.journal.created = m.journal.created) (x : DeviceId × Event) :
    n.Advertises x ↔ m.Advertises x := by
  rw [Advertises, Advertises, h]

end Multiplexer

end PadRemap
