import PadRemap.Proofs.Manager.Setup
import PadRemap.Proofs.Mapper.Values
import PadRemap.Proofs.Output.Ranges

/-! Whether absolute output stays within the range that its device advertises. Every binding
declares a range with room for all that it brings, but slots and bindings that share an axis
replace each other's ranges, and the last one stands. The main statement says that nothing else can
lead a value out of its range, and for which configurations no run ever does. -/

namespace PadRemap

open Mapper (Job)

namespace SlotConfig

variable {c : SlotConfig} {o : Outlet} {r : AbsRange}

theorem range_cases (h : .addAbs o.device o.code r ∈ c.declarations) :
    (∃ reach : Int, 0 ≤ reach ∧ r = .plain (-reach) reach) ∨
      ∃ a : Axis, r.min = a.min ∧ r.max = a.max := by
  rcases List.mem_append.mp h with h | h
  · obtain ⟨e, -, he⟩ := List.mem_flatMap.mp h
    cases e with
    | abs device code v =>
      obtain ⟨-, -, rfl⟩ := Call.addAbs.inj (List.mem_singleton.mp he)
      exact Or.inl ⟨max v.natAbs 1, by omega, rfl⟩
    | _ => simp [ButtonEvent.declarations] at he
  · obtain ⟨a, -, ha⟩ := List.mem_flatMap.mp h
    cases hl : c.axes.lookup a with
    | abs device code =>
      rw [hl] at ha
      obtain ⟨-, -, rfl⟩ := Call.addAbs.inj (List.mem_singleton.mp ha)
      refine Or.inr ⟨a, ?_⟩
      split <;> exact ⟨rfl, rfl⟩
    | _ => simp [hl, AxisEvent.declarations] at ha

theorem holds_zero (h : .addAbs o.device o.code r ∈ c.declarations) : r.Holds 0 := by
  rcases range_cases h with ⟨reach, hreach, rfl⟩ | ⟨a, hmin, hmax⟩
  · exact ⟨Int.neg_nonpos_of_nonneg hreach, hreach⟩
  · exact ⟨hmin ▸ a.min_le_zero, hmax ▸ Int.le_of_lt a.zero_lt_max⟩

/-- A source declares a range with room for what it brings. -/
theorem exists_room {v : Int} {y : Origin} (h : c.wiring.Brings o v y) :
    ∃ r, .addAbs o.device o.code r ∈ c.declarations ∧ r.Holds v := by
  obtain ⟨⟨group, kind⟩, code⟩ := o
  cases y with
  | button b =>
    obtain ⟨hg, hy⟩ := h
    cases hg
    have he : .abs kind code v ∈ c.buttons.events :=
      ButtonBindings.mem_events_of_binds hy.binds fun h => nomatch h
    let reach : Int := max v.natAbs 1
    refine ⟨.plain (-reach) reach, List.mem_append_left _
      (List.mem_flatMap.mpr ⟨_, he, List.mem_singleton.mpr rfl⟩), ?_⟩
    simp only [AbsRange.Holds, AbsRange.plain, reach]
    omega
  | axis a =>
    obtain ⟨hg, he, ha⟩ := h
    cases hg
    have he : c.axes.lookup a = .abs kind code := he
    refine ⟨if a.isStick then .stick a.min a.max else .plain a.min a.max, List.mem_append_right _
      (List.mem_flatMap.mpr ⟨a, Enumerated.mem_all a, ?_⟩), ?_⟩
    · rw [he]
      exact List.mem_singleton.mpr rfl
    · split <;> exact ha

theorem uses_of_brings {v : Int} {y : Origin} (h : c.wiring.Brings o v y) :
    c.wiring.Uses ⟨o.device, .abs, o.code⟩ := by
  obtain ⟨⟨group, kind⟩, code⟩ := o
  cases y with
  | button b =>
    obtain ⟨hg, hy⟩ := h
    cases hg
    exact Wiring.uses_of_binds hy.binds rfl
  | axis a =>
    obtain ⟨hg, he, -⟩ := h
    cases hg
    exact Wiring.uses_of_lookup (congrArg (AxisEvent.output? _) he)

/-- A slot has declared a range with room for a value that one of its sources brings, and what has
been declared for the axis since then has none. -/
def Overruled (configs : List SlotConfig) (o : Outlet) (v : Int) : Prop :=
  ∃ c ∈ configs, (∃ y, c.wiring.Brings o v y) ∧
    ∃ before later r r', configs.flatMap declarations =
        before ++ .addAbs o.device o.code r :: later ∧
      .addAbs o.device o.code r ∈ c.declarations ∧ r.Holds v ∧
      Call.lastRange later o = some r' ∧ ¬r'.Holds v

end SlotConfig

namespace Multiplexer

variable {configs : List SlotConfig} {m n : Multiplexer} {b : Backend}

/-- A multiplexer that some slots have been declared on and that has been activated then. -/
structure Serves (configs : List SlotConfig) (m : Multiplexer) : Prop where
  fresh : m.Fresh
  issued : m.Issued
  offers : ∀ c ∈ configs, ∀ o, c.wiring.Uses o → m.Offers o
  range : ∀ o, m.range o = Call.lastRange (configs.flatMap SlotConfig.declarations) o
  created : ∀ d p, (d, p) ∈ m.journal.created → m.devices[d]? = some (.active p [])

/-- Declaring slots always succeeds, and an activation that succeeds then brings all of them into
service. -/
theorem exists_serves (configs : List SlotConfig) (base : String) (b : Backend) :
    ∃ n, performAll b (configs.flatMap SlotConfig.declarations) (new base) = (n, .ok ()) ∧
      ∀ m, n.finish b = (m, .ok ()) → m.Serves configs := by
  have hcalls : ∀ c ∈ configs.flatMap SlotConfig.declarations, ∃ o, c.declares? = some o := by
    intro c hc
    obtain ⟨s, -, hs⟩ := List.mem_flatMap.mp hc
    exact SlotConfig.declares_of_mem hs
  obtain ⟨n, hn, hdec, hnew, -⟩ := (declaring_new base).performAll b hcalls
  refine ⟨n, hn, fun m hm => ?_⟩
  obtain ⟨m', hm', hfresh, hissued, hoffers⟩ :=
    hdec.finish (b := b) (refusal_of_finish hdec.finished hm)
  cases hm'.symm.trans hm
  refine ⟨hfresh, hissued, fun c hc o ho => ?_, fun o => ?_, fun d p => hdec.active_of_created hm⟩
  · obtain ⟨call, hcall, hdeclares⟩ := SlotConfig.exists_declares ho
    exact hoffers o (hnew call (List.mem_flatMap.mpr ⟨c, hc, hcall⟩) o hdeclares)
  · have hrange := (declaring_new base).range_performAll b hcalls o
    rw [hn, range_new, Option.or_none] at hrange
    exact (hdec.range_finish hm o).trans hrange

namespace Serves

theorem abs_of_created (h : m.Serves configs) {d : DeviceId} {p : Blueprint}
    (hd : (d, p) ∈ m.journal.created) (code : UInt16) :
    p.abs[code]? = Call.lastRange (configs.flatMap SlotConfig.declarations) ⟨d, code⟩ := by
  rw [← h.range, range_of_active (h.created d p hd)]

theorem exists_range (h : m.Serves configs) {c : SlotConfig} (hc : c ∈ configs) {o : Outlet}
    (ho : c.wiring.Uses ⟨o.device, .abs, o.code⟩) :
    ∃ r, Call.lastRange (configs.flatMap SlotConfig.declarations) o = some r := by
  obtain ⟨p, q, hd, hp⟩ := h.offers c hc _ ho
  have habs : o.code ∈ p.abs := Std.ExtTreeMap.contains_iff_mem.mp hp
  rw [← h.range o, range_of_active hd o.code]
  exact Option.isSome_iff_exists.mp (Std.ExtTreeMap.mem_iff_isSome_getElem?.mp habs)

theorem advertises_iff (h : m.Serves configs) {c : SlotConfig} (hc : c ∈ configs)
    {x : DeviceId × Event} (hx : c.wiring.Uses ⟨x.1, .abs, x.2.code⟩) :
    m.Advertises x ↔ ∀ r, Call.lastRange (configs.flatMap SlotConfig.declarations)
      ⟨x.1, x.2.code⟩ = some r → r.Holds x.2.value := by
  constructor
  · rintro ⟨p, r, hp, -, hr, hv⟩ r' hr'
    rw [← h.abs_of_created hp, hr] at hr'
    exact Option.some.inj hr' ▸ hv
  · intro hall
    obtain ⟨p, q, hd, -⟩ := h.offers c hc _ hx
    obtain ⟨hp, huniq⟩ := h.issued _ p q hd
    obtain ⟨r, hr⟩ := h.exists_range hc (o := ⟨x.1, x.2.code⟩) hx
    exact ⟨p, r, hp, huniq, (h.abs_of_created hp _).trans hr, hall r hr⟩

theorem holds_zero {o : Outlet} {r : AbsRange}
    (hr : Call.lastRange (configs.flatMap SlotConfig.declarations) o = some r) : r.Holds 0 := by
  obtain ⟨c, -, hc⟩ := List.mem_flatMap.mp (Call.mem_of_lastRange hr)
  exact SlotConfig.holds_zero hc

theorem overruled {c : SlotConfig} (hc : c ∈ configs) {o : Outlet} {v : Int} {y : Origin}
    (hy : c.wiring.Brings o v y) {r : AbsRange}
    (hr : Call.lastRange (configs.flatMap SlotConfig.declarations) o = some r)
    (hv : ¬r.Holds v) : SlotConfig.Overruled configs o v := by
  obtain ⟨r₀, hdeclared, hroom⟩ := SlotConfig.exists_room hy
  have hmem : .addAbs o.device o.code r₀ ∈ configs.flatMap SlotConfig.declarations :=
    List.mem_flatMap.mpr ⟨c, hc, hdeclared⟩
  rcases Call.lastRange_cases hmem with hlast | ⟨before, later, hsplit, hlater, -⟩
  · cases hlast.symm.trans hr
    exact (hv hroom).elim
  · exact ⟨c, hc, ⟨y, hy⟩, before, later, r₀, r, hsplit, hdeclared, hroom, hlater ▸ hr, hv⟩

end Serves

end Multiplexer

namespace Ensemble

variable {configs : List SlotConfig} {m : Multiplexer}

/-- A value that a run writes to an absolute axis lies in the range that stands for the axis, or a
source of one of the slots brings it although it lies outside. -/
theorem advertises_or_brings (h : m.Serves configs) {scripts : Fin configs.length → List Job}
    (hs : ∀ i, ∀ job ∈ scripts i, job.message.InRange) (moves : List (Move (Fin configs.length))) :
    let e := (start m (fun i => configs[i].wiring) scripts).run moves
    ∀ x ∈ Journal.events e.mux.journal.batches, x.2.kind = .abs → e.mux.Advertises x ∨
      ∃ (i : Fin configs.length) (y : Origin) (r : AbsRange),
        configs[i].wiring.Brings ⟨x.1, x.2.code⟩ x.2.value y ∧
        Call.lastRange (configs.flatMap SlotConfig.declarations) ⟨x.1, x.2.code⟩ = some r ∧
        ¬r.Holds x.2.value := by
  intro e x hx hk
  let w := fun i : Fin configs.length => configs[i].wiring
  have hsends : e.Sends m w := .run h.fresh w hs moves
  have hsame := Multiplexer.advertises_congr hsends.wired.devices.2 x
  obtain ⟨i, hi⟩ := (Confined.run h.fresh w scripts moves).events x hx
  rw [Event.output, hk] at hi
  have hc : configs[i] ∈ configs := List.getElem_mem _
  obtain ⟨r, hr⟩ := h.exists_range hc (o := ⟨x.1, x.2.code⟩) hi
  by_cases hroom : r.Holds x.2.value
  · refine Or.inl (hsame.mpr ((h.advertises_iff hc hi).mpr fun r' hr' => ?_))
    cases hr.symm.trans hr'
    exact hroom
  · rcases hsends.events x hx hk with hzero | ⟨j, y, hy⟩
    · exact (hroom (hzero ▸ Multiplexer.Serves.holds_zero hr)).elim
    · exact Or.inr ⟨j, y, r, hy, hr, hroom⟩

/-- Where no run leaves the ranges, they have room for everything that a source can bring: a run of
its slot alone, with one message, writes the value. -/
theorem holds_of_advertises (h : m.Serves configs)
    (hall : ∀ scripts moves, (∀ i, ∀ job ∈ scripts i, job.message.InRange) →
      let e := (start m (fun i : Fin configs.length => configs[i].wiring) scripts).run moves
      ∀ x ∈ Journal.events e.mux.journal.batches, x.2.kind = .abs → e.mux.Advertises x)
    {i : Fin configs.length} {o : Outlet} {v : Int} {y : Origin}
    (hy : configs[i].wiring.Brings o v y) {r : AbsRange}
    (hr : Call.lastRange (configs.flatMap SlotConfig.declarations) o = some r) : r.Holds v := by
  by_cases hv : v = 0
  · exact hv ▸ Multiplexer.Serves.holds_zero hr
  · let w := fun i : Fin configs.length => configs[i].wiring
    have hc : configs[i] ∈ configs := List.getElem_mem _
    obtain ⟨job, hj, hmem⟩ := Mapper.exists_draft hy hv
    have hactive : ∀ o, (w i).Uses o → m.IsActive o.device := by
      intro o ho
      obtain ⟨p, q, hd, -⟩ := h.offers _ hc o ho
      exact ⟨p, q, hd⟩
    obtain ⟨moves, hwritten⟩ := exists_run h.fresh hactive job
    have hs : ∀ j, ∀ k ∈ (if j = i then [job] else []), k.message.InRange := by
      intro j k hk
      split at hk
      · cases List.mem_singleton.mp hk
        exact hj
      · cases hk
    have hin := hall _ moves hs _ (hwritten _ hmem) rfl
    have hsame := Multiplexer.advertises_congr (Sends.run h.fresh w hs moves).wired.devices.2
      (o.device, ⟨.abs, o.code, v⟩)
    exact (h.advertises_iff hc (SlotConfig.uses_of_brings hy)).mp (hsame.mp hin) r hr

/-- Whatever slots are declared on one multiplexer, each device advertises for each axis the range
that was declared last. A value outside of it is one that a slot has declared a wider range for
before; and no run ever leaves the ranges just if they have room for all that the sources of the
slots can bring. -/
theorem in_range_unless_overruled (configs : List SlotConfig) (base : String) (b : Backend) :
    let calls := configs.flatMap SlotConfig.declarations
    let w := fun i : Fin configs.length => configs[i].wiring
    ∃ n, Multiplexer.performAll b calls (.new base) = (n, .ok ()) ∧
      ∀ m, n.finish b = (m, .ok ()) →
        (∀ d p, (d, p) ∈ m.journal.created →
          ∀ code, p.abs[code]? = Call.lastRange calls ⟨d, code⟩) ∧
        (∀ scripts moves, (∀ i, ∀ job ∈ scripts i, job.message.InRange) →
          let e := (start m w scripts).run moves
          ∀ x ∈ Journal.events e.mux.journal.batches, x.2.kind = .abs →
            e.mux.Advertises x ∨ SlotConfig.Overruled configs ⟨x.1, x.2.code⟩ x.2.value) ∧
        ((∀ scripts moves, (∀ i, ∀ job ∈ scripts i, job.message.InRange) →
          let e := (start m w scripts).run moves
          ∀ x ∈ Journal.events e.mux.journal.batches, x.2.kind = .abs → e.mux.Advertises x) ↔
        ∀ i o v y, (w i).Brings o v y → ∀ r, Call.lastRange calls o = some r → r.Holds v) := by
  intro calls w
  obtain ⟨n, hn, hserves⟩ := Multiplexer.exists_serves configs base b
  refine ⟨n, hn, fun m hm => ?_⟩
  have h : m.Serves configs := hserves m hm
  refine ⟨fun d p hd code => h.abs_of_created hd code, fun scripts moves hs => ?_,
    fun hall i o v y hy r hr => holds_of_advertises h hall hy hr, fun hall scripts moves hs => ?_⟩
  · intro e x hx hk
    rcases advertises_or_brings h hs moves x hx hk with hin | ⟨i, y, r, hy, hr, hv⟩
    · exact Or.inl hin
    · exact Or.inr (Multiplexer.Serves.overruled (List.getElem_mem _) hy hr hv)
  · intro e x hx hk
    rcases advertises_or_brings h hs moves x hx hk with hin | ⟨i, y, r, hy, hr, hv⟩
    · exact hin
    · exact (hv (hall i _ _ y hy r hr)).elim

/-- The two ends of a hat on two buttons: every run stays in its range. -/
theorem in_range_unless_overruled_hat :
    let c : SlotConfig :=
      { buttons := .bind (.bind .empty .dpadLeft (.abs 0 16 (-1))) .dpadRight (.abs 0 16 1)
        axes := .empty, filters := [], group := 0, led := none, rules := [] }
    let n := (Multiplexer.performAll .reliable ([c].flatMap SlotConfig.declarations)
      (.new "Pad")).1
    let m := (n.finish .reliable).1
    (n.finish .reliable).2 = .ok () ∧
      ∀ scripts moves, (∀ i, ∀ job ∈ scripts i, job.message.InRange) →
        let e := (start m (fun i : Fin [c].length => [c][i].wiring) scripts).run moves
        ∀ x ∈ Journal.events e.mux.journal.batches, x.2.kind = .abs → e.mux.Advertises x := by
  intro c n m
  have hcalls : [c].flatMap SlotConfig.declarations =
      [.addAbs ⟨0, 0⟩ 16 (.plain (-1) 1), .addAbs ⟨0, 0⟩ 16 (.plain (-1) 1)] := by decide +kernel
  have hok : (n.finish .reliable).2 = .ok () := by decide +kernel
  obtain ⟨n', hn, hserves⟩ := in_range_unless_overruled [c] "Pad" .reliable
  have hn' : n = n' := congrArg Prod.fst hn
  have hm : n.finish .reliable = (m, .ok ()) :=
    (Prod.eta _).symm.trans (congrArg (Prod.mk m) hok)
  clear_value m n
  subst hn'
  obtain ⟨-, -, hiff⟩ := hserves m hm
  refine ⟨hok, hiff.mpr fun i o v y hy r hr => ?_⟩
  have hi : [c][i] = c := List.mem_singleton.mp (List.getElem_mem _)
  change [c][i].wiring.Brings o v y at hy
  rw [hi] at hy
  have hrange : r = .plain (-1) 1 := by
    have hmem := Call.mem_of_lastRange hr
    rw [hcalls] at hmem
    simp only [List.mem_cons, List.not_mem_nil, or_false, or_self] at hmem
    exact (Call.addAbs.inj hmem).2.2
  have hv : v = -1 ∨ v = 1 := by
    cases y with
    | axis a =>
      have hvoid : c.axes.lookup a = .void := Table.get_fill _ _
      cases hvoid.symm.trans hy.2.1
    | button b =>
      have hplain : c.buttons.lookup b = if b = .dpadRight then .abs 0 16 1
          else if b = .dpadLeft then .abs 0 16 (-1) else .void := by
        have hempty : ButtonBindings.empty.lookup b = .void := Table.get_fill _ _
        simp only [c, ButtonBindings.lookup_bind, hempty]
      have hshifted : ∀ s, c.buttons.lookupShifted s b = .void := by
        simp [c, ButtonBindings.lookupShifted, ButtonBindings.bind, ButtonBindings.empty]
      rcases hy.2 with he | ⟨s, -, he⟩
      · replace he := he.trans hplain
        split at he
        · exact Or.inr (ButtonEvent.abs.inj he).2.2
        · split at he
          · exact Or.inl (ButtonEvent.abs.inj he).2.2
          · cases he
      · cases he.trans (hshifted s)
  rcases hv with rfl | rfl
  · rw [hrange]
    decide
  · rw [hrange]
    decide

/-- A button that brings an axis to 100 and one that brings it to 1. The range declared for the
second one stands, and pressing the first one goes beyond it. -/
theorem out_of_range_by_later_button :
    let c : SlotConfig :=
      { buttons := .bind (.bind .empty .faceA (.abs 0 0 100)) .faceB (.abs 0 0 1)
        axes := .empty, filters := [], group := 0, led := none, rules := [] }
    let n := (Multiplexer.performAll .reliable ([c].flatMap SlotConfig.declarations)
      (.new "Pad")).1
    let m := (n.finish .reliable).1
    let e := (start m (fun i : Fin [c].length => [c][i].wiring)
        fun _ => [.process (Message.neutral.setButton .faceA true)]).run
      (List.replicate 2 (.advance 0 .reliable))
    (n.finish .reliable).2 = .ok () ∧ e.mux.journal.batches = [⟨⟨0, 0⟩, [⟨.abs, 0, 100⟩]⟩] ∧
      (e.mux.journal.created.map fun (d, p) => (d, p.abs[(0 : UInt16)]?)) =
        [(⟨0, 0⟩, some (.plain (-1) 1))] ∧
      ¬∀ x ∈ Journal.events e.mux.journal.batches, x.2.kind = .abs → e.mux.Advertises x := by
  intro c n m e
  have hrun : (n.finish .reliable).2 = .ok () ∧
      e.mux.journal.batches = [⟨⟨0, 0⟩, [⟨.abs, 0, 100⟩]⟩] ∧
      (e.mux.journal.created.map fun (d, p) => (d, p.abs[(0 : UInt16)]?)) =
        [(⟨0, 0⟩, some (.plain (-1) 1))] := by decide +kernel
  obtain ⟨hok, hwritten, hcreated⟩ := hrun
  refine ⟨hok, hwritten, hcreated, fun hall => ?_⟩
  obtain ⟨p, r, hp, -, hr, hv⟩ := hall (⟨0, 0⟩, ⟨.abs, 0, 100⟩) (by rw [hwritten]; decide) rfl
  have hmem := List.mem_map_of_mem (f := fun (d, p) => (d, p.abs[(0 : UInt16)]?)) hp
  rw [hcreated, List.mem_singleton] at hmem
  cases hr.symm.trans (Prod.ext_iff.mp hmem).2
  exact absurd hv (by decide)

end Ensemble

end PadRemap
