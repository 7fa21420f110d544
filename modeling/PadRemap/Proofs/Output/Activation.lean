import PadRemap.Proofs.Output.Declaring
import PadRemap.Proofs.Output.Reaction

/-! Activation that the backend refuses half way. Devices before the refused one are active then,
those after it are declared still, and the refused one is gone; the main statement follows all of
them through further declarations into a second activation. -/

namespace PadRemap

theorem DeviceId.ne_of_order_lt {a d : DeviceId} (h : DeviceId.order a d = .lt) : a ≠ d := by
  rintro rfl
  simp [Std.ReflCmp.compare_self] at h

namespace Call

def growth? : Call → Option (DeviceId × (Blueprint → Blueprint))
  | addKey d code => some (d, fun p => p.addKey code)
  | addRel d code => some (d, fun p => p.addRel code)
  | addAbs d code range => some (d, fun p => p.addAbs code range)
  | _ => none

def grow (base : String) (a : DeviceId) (p : Option Blueprint) (c : Call) : Option Blueprint :=
  match c.growth? with
  | some (d, g) => if d = a then some (g (p.getD (.forDevice base a))) else p
  | none => p

theorem growth_of_declares {c : Call} {o : Output} (hc : c.declares? = some o) :
    ∃ g, c.growth? = some (o.device, g) ∧ ∀ p, (g p).isEmpty = false := by
  cases c with
  | addKey d code =>
    cases hc
    exact ⟨_, rfl, fun p => Blueprint.not_isEmpty_of_allows (p.allows_addKey code)⟩
  | addRel d code =>
    cases hc
    exact ⟨_, rfl, fun p => Blueprint.not_isEmpty_of_allows (p.allows_addRel code)⟩
  | addAbs d code range =>
    cases hc
    exact ⟨_, rfl, fun p => Blueprint.not_isEmpty_of_allows (p.allows_addAbs code range)⟩
  | _ => cases hc

end Call

def Declarations (rs : List Request) : Prop := ∀ r ∈ rs, ∃ o, r.call.declares? = some o

def growAll (base : String) (a : DeviceId) (p : Option Blueprint) (rs : List Request) :
    Option Blueprint :=
  rs.foldl (fun p r => r.call.grow base a p) p

/-- The blueprint that some requests to a new multiplexer declare for a device. -/
def blueprintOf (base : String) (rs : List Request) (a : DeviceId) : Option Blueprint :=
  growAll base a none rs

theorem blueprintOf_append (base : String) (rs ss : List Request) (a : DeviceId) :
    blueprintOf base (rs ++ ss) a = growAll base a (blueprintOf base rs a) ss :=
  List.foldl_append

theorem Declarations.not_isEmpty {rs : List Request} (h : Declarations rs) {base : String}
    {a : DeviceId} {p : Option Blueprint} (hp : ∀ x, p = some x → x.isEmpty = false) {x : Blueprint}
    (hx : growAll base a p rs = some x) : x.isEmpty = false := by
  induction rs generalizing p with
  | nil => exact hp x hx
  | cons r rs ih =>
    refine ih (fun s hs => h s (List.mem_cons_of_mem _ hs)) ?_ hx
    obtain ⟨o, ho⟩ := h r List.mem_cons_self
    obtain ⟨g, hg, hnew⟩ := Call.growth_of_declares ho
    intro y hy
    simp only [Call.grow, hg] at hy
    split at hy
    · cases hy
      exact hnew _
    · exact hp y hy

namespace Multiplexer

/-- What a declaration makes of the entry of a device: an active device stays as it is. -/
def regrow (base : String) (a : DeviceId) (v : Option Device) (c : Call) : Option Device :=
  match v with
  | some (.active p q) => some (.active p q)
  | some (.declared p) => (c.grow base a (some p)).map .declared
  | none => (c.grow base a none).map .declared

theorem regrow_map (base : String) (a : DeviceId) (p : Option Blueprint) (c : Call) :
    regrow base a (p.map .declared) c = (c.grow base a p).map .declared := by
  cases p <;> rfl

theorem regrow_of_ne {base : String} {a d : DeviceId} {g : Blueprint → Blueprint} {c : Call}
    (hg : c.growth? = some (d, g)) (h : d ≠ a) (v : Option Device) : regrow base a v c = v := by
  have hsame : ∀ p, c.grow base a p = p := by
    intro p
    simp [Call.grow, hg, h]
  unfold regrow
  split <;> simp [hsame]

variable {m : Multiplexer} {b : Backend}

theorem not_isActive_of_declared {d : DeviceId} {p : Option Blueprint}
    (hd : m.devices[d]? = p.map .declared) : ¬m.IsActive d := by
  rintro ⟨x, q, hx⟩
  rw [hx] at hd
  obtain ⟨_, -, hy⟩ := Option.map_eq_some_iff.mp hd.symm
  cases hy

theorem perform_declaration (hf : m.finished = false) (b : Backend) {c : Call} {o : Output}
    (hc : c.declares? = some o) :
    let n := (m.perform b c).1
    n.finished = false ∧ n.base = m.base ∧
      (∀ a, n.devices[a]? = regrow m.base a m.devices[a]? c) ∧
      (m.IsActive o.device → (m.perform b c).2 = .error .alreadyActive) ∧
      (¬m.IsActive o.device → (m.perform b c).2 = .ok ()) := by
  obtain ⟨g, hg, -⟩ := Call.growth_of_declares hc
  have hdeclare : m.perform b c = m.declare o.device g := by
    cases c <;> cases hg <;> rfl
  -- unless the device is active, its entry is replaced, and no other one changes
  have hinsert : ∀ p, m.devices[o.device]? = (p : Option Blueprint).map .declared → ∀ a,
      (m.devices.insert o.device (.declared (g (p.getD (.forDevice m.base o.device)))))[a]? =
        regrow m.base a m.devices[a]? c := by
    intro p hp a
    rw [Std.ExtTreeMap.getElem?_insert]
    by_cases ha : o.device = a
    · subst ha
      rw [hp, regrow_map]
      simp [Call.grow, hg]
    · rw [if_neg (by simpa using ha), regrow_of_ne hg ha]
  rw [hdeclare]
  cases hv : m.devices[o.device]? with
  | none =>
    have hno : ¬m.IsActive o.device := not_isActive_of_declared (p := none) hv
    let p : Device := .declared (g (.forDevice m.base o.device))
    have hrun : m.declare o.device g =
        ({ m with devices := m.devices.insert o.device p }, .ok ()) := by
      simp [declare, hf, hv, p]
    rw [hrun]
    exact ⟨hf, rfl, hinsert none hv, fun ha => (hno ha).elim, fun _ => rfl⟩
  | some v =>
    cases v with
    | declared p =>
      have hno : ¬m.IsActive o.device := not_isActive_of_declared (p := some p) hv
      have hrun : m.declare o.device g =
          ({ m with devices := m.devices.insert o.device (.declared (g p)) }, .ok ()) := by
        simp [declare, hf, hv]
      rw [hrun]
      exact ⟨hf, rfl, hinsert (some p) hv, fun ha => (hno ha).elim, fun _ => rfl⟩
    | active p q =>
      have hrun : m.declare o.device g = (m, .error .alreadyActive) := by
        simp [declare, hf, hv]
      rw [hrun]
      refine ⟨hf, rfl, ?_, fun _ => rfl, fun hno => (hno ⟨p, q, hv⟩).elim⟩
      intro a
      by_cases ha : o.device = a
      · rw [← ha, hv]
        rfl
      · exact (regrow_of_ne hg ha _).symm

theorem serve_declarations (hf : m.finished = false) {rs : List Request} (hrs : Declarations rs) :
    (m.serve rs).finished = false ∧ (m.serve rs).base = m.base ∧
      ∀ a, (m.serve rs).devices[a]? =
        rs.foldl (fun v r => regrow m.base a v r.call) m.devices[a]? := by
  induction rs generalizing m with
  | nil => exact ⟨hf, rfl, fun _ => rfl⟩
  | cons r rs ih =>
    obtain ⟨o, ho⟩ := hrs r List.mem_cons_self
    obtain ⟨hfinished, hbase, hdevices, -⟩ := perform_declaration hf r.backend ho
    obtain ⟨hf', hb', hd'⟩ := ih hfinished fun s hs => hrs s (List.mem_cons_of_mem _ hs)
    refine ⟨hf', hb'.trans hbase, fun a => ?_⟩
    rw [serve_cons, hd', hbase, hdevices]
    rfl

theorem foldl_regrow_map (base : String) (a : DeviceId) (p : Option Blueprint)
    (rs : List Request) : rs.foldl (fun v r => regrow base a v r.call) (p.map .declared) =
      (growAll base a p rs).map .declared := by
  induction rs generalizing p with
  | nil => rfl
  | cons r rs ih =>
    rw [List.foldl_cons, regrow_map, ih]
    rfl

theorem foldl_regrow_active (base : String) (a : DeviceId) (p : Blueprint) (q : List Event)
    (rs : List Request) : rs.foldl (fun v r => regrow base a v r.call) (some (.active p q)) =
      some (.active p q) := by
  induction rs with
  | nil => rfl
  | cons r rs ih => exact ih

theorem activated_of_declared {d : DeviceId} {p : Option Blueprint}
    (hd : m.devices[d]? = p.map .declared) (hp : ∀ x, p = some x → x.isEmpty = false) :
    m.activated d = p := by
  rw [activated, hd]
  cases p with
  | none => rfl
  | some x => simp [hp x rfl]

theorem activated_of_active {d : DeviceId} (hd : m.IsActive d) : m.activated d = none := by
  obtain ⟨p, q, hd⟩ := hd
  rw [activated, hd]

theorem activate_append (b : Backend) (ds es : List DeviceId) (m : Multiplexer) :
    activate b (ds ++ es) m = match activate b ds m with
      | (n, .ok ()) => activate b es n
      | failed => failed := by
  induction ds generalizing m with
  | nil => rfl
  | cons d ds ih =>
    rw [List.cons_append, activate, activate]
    split
    · split
      · exact ih _
      · split
        · rfl
        · exact ih _
    · exact ih _

theorem activate_settings (b : Backend) (ds : List DeviceId) (m : Multiplexer) :
    (activate b ds m).1.finished = m.finished ∧ (activate b ds m).1.base = m.base := by
  induction ds generalizing m with
  | nil => exact ⟨rfl, rfl⟩
  | cons d ds ih =>
    unfold activate
    split
    · split
      · exact ih _
      · split
        · exact ⟨rfl, rfl⟩
        · exact ih _
    · exact ih _

/-- All declarations become active, and devices that were active before are dropped. -/
theorem finish_obeyed (hf : m.finished = false) (hb : ∀ d, m.refusal b d = none) :
    (m.finish b).2 = .ok () ∧
      ∀ a, (m.finish b).1.devices[a]? = (m.activated a).map (Device.active · []) := by
  obtain ⟨n, hrun, hall⟩ := finish_eq hf hb
  rw [hrun]
  exact ⟨rfl, hall.devices_of_all⟩

theorem mem_before_iff {before after : List DeviceId} {d : DeviceId}
    (hids : m.deviceIds = before ++ d :: after) (a : DeviceId) :
    a ∈ before ↔ a ∈ m.deviceIds ∧ DeviceId.order a d = .lt := by
  have hsorted : m.deviceIds.Pairwise fun a b => DeviceId.order a b = .lt :=
    Std.ExtTreeMap.ordered_keys
  rw [hids, List.pairwise_append] at hsorted
  obtain ⟨-, hrest, hcross⟩ := hsorted
  constructor
  · intro ha
    exact ⟨hids ▸ List.mem_append_left _ ha, hcross a ha d List.mem_cons_self⟩
  · rintro ⟨ha, hlt⟩
    rw [hids, List.mem_append, List.mem_cons] at ha
    rcases ha with ha | rfl | ha
    · exact ha
    · exact (DeviceId.ne_of_order_lt hlt rfl).elim
    · have hgt : DeviceId.order d a = .lt := (List.pairwise_cons.mp hrest).1 a ha
      exact (DeviceId.ne_of_order_lt (Std.TransCmp.lt_trans hlt hgt) rfl).elim

theorem exists_first_refused {x : DeviceId} (hx : m.refusal b x ≠ none) :
    ∃ before d after p fault, m.deviceIds = before ++ d :: after ∧
      (∀ a ∈ before, m.refusal b a = none) ∧ m.activated d = some p ∧
      b.create d p = some fault := by
  have hmem : x ∈ m.deviceIds := by
    by_contra hno
    exact hx (by rw [refusal, activated_of_not_mem hno]; rfl)
  cases hfind : m.deviceIds.find? fun d => (m.refusal b d).isSome with
  | none =>
    have hall := List.find?_eq_none.mp hfind x hmem
    exact (hall (Option.isSome_iff_ne_none.mpr hx)).elim
  | some d =>
    obtain ⟨hd, before, after, hids, hbefore⟩ := List.find?_eq_some_iff_append.mp hfind
    obtain ⟨fault, hfault⟩ := Option.isSome_iff_exists.mp hd
    obtain ⟨p, hp, hcreate⟩ := Option.bind_eq_some_iff.mp hfault
    exact ⟨before, d, after, p, fault, hids, fun a ha => by simpa using hbefore a ha, hp, hcreate⟩

/-- The devices before the one that is refused become active, those after it are left alone. -/
theorem finish_refused (hf : m.finished = false) {x : DeviceId} (hx : m.refusal b x ≠ none) :
    ∃ d p fault, m.activated d = some p ∧ b.create d p = some fault ∧
      (m.finish b).2 = .error (.backend fault) ∧ (m.finish b).1.finished = false ∧
      (m.finish b).1.base = m.base ∧
      ∀ a, (m.finish b).1.devices[a]? = match DeviceId.order a d with
        | .lt => (m.activated a).map (Device.active · [])
        | .eq => none
        | .gt => m.devices[a]? := by
  obtain ⟨before, d, after, p, fault, hids, hbefore, hp, hcreate⟩ := exists_first_refused hx
  have hmem := mem_before_iff hids
  have hnot : d ∉ before := fun hin => DeviceId.ne_of_order_lt ((hmem d).mp hin).2 rfl
  have hnodup : (before ++ d :: after).Nodup := hids ▸ Std.ExtTreeMap.nodup_keys
  obtain ⟨n, hrun, hdevices, -⟩ := activate_eq (List.nodup_append.mp hnodup).1 hbefore
  obtain ⟨hdeclared, hfull⟩ := declared_of_activated hp
  have hactivate : activate b m.deviceIds m =
      ({ n with devices := n.devices.erase d }, .error (.backend fault)) := by
    have hentry : n.devices[d]? = some (.declared p) := by
      rw [hdevices, if_neg hnot, hdeclared]
    rw [hids, activate_append, hrun]
    simp [activate, hentry, hfull, hcreate]
  have hfinish : m.finish b =
      ({ n with devices := n.devices.erase d }, .error (.backend fault)) := by
    rw [finish, if_neg (by simp [hf]), hactivate]
  obtain ⟨hfinished, hbase⟩ := activate_settings b before m
  rw [hrun] at hfinished hbase
  rw [hfinish]
  refine ⟨d, p, fault, hp, hcreate, rfl, hfinished.trans hf, hbase, fun a => ?_⟩
  change (n.devices.erase d)[a]? = _
  rw [Std.ExtTreeMap.getElem?_erase, hdevices]
  cases hord : DeviceId.order a d with
  | eq =>
    rw [DeviceId.eq_of_order hord, if_pos Std.ReflCmp.compare_self]
  | lt =>
    have hne := DeviceId.ne_of_order_lt hord
    rw [if_neg (by simpa using hne.symm)]
    by_cases ha : a ∈ before
    · rw [if_pos ha]
    · -- a device before the refused one that is not among those activated is none at all
      have hno : a ∉ m.deviceIds := fun hin => ha ((hmem a).mpr ⟨hin, hord⟩)
      rw [if_neg ha, activated_of_not_mem hno]
      exact not_not.mp (mem_deviceIds.not.mp hno)
  | gt =>
    have hne : d ≠ a := DeviceId.ne_of_order_lt (Std.OrientedCmp.gt_iff_lt.mp hord)
    have hno : a ∉ before := by
      intro hin
      rw [((hmem a).mp hin).2] at hord
      cases hord
    rw [if_neg (by simpa using hne), if_neg hno]

/-- What is left to activate after the device `d` has been refused and more has been declared. -/
def remainder (base : String) (rs later : List Request) (d a : DeviceId) : Option Blueprint :=
  match DeviceId.order a d with
  | .lt => if (blueprintOf base rs a).isSome then none else blueprintOf base later a
  | .eq => blueprintOf base later a
  | .gt => blueprintOf base (rs ++ later) a

theorem remainder_not_isEmpty {base : String} {rs later : List Request} (hrs : Declarations rs)
    (hlater : Declarations later) {d a : DeviceId} {x : Blueprint}
    (hx : remainder base rs later d a = some x) : x.isEmpty = false := by
  have hboth : Declarations (rs ++ later) := fun r hr =>
    (List.mem_append.mp hr).elim (hrs r) (hlater r)
  unfold remainder at hx
  split at hx
  · split at hx
    · cases hx
    · exact hlater.not_isEmpty (by simp) hx
  · exact hlater.not_isEmpty (by simp) hx
  · exact hboth.not_isEmpty (by simp) hx

/-- What later declarations leave, device by device: an active device before the refused one, or
what remains to be activated. -/
theorem entry_after_refusal {base : String} {rs later : List Request} {d : DeviceId}
    (hf : m.finished = false) (hbase : m.base = base)
    (hentries : ∀ a, m.devices[a]? = match DeviceId.order a d with
      | .lt => (blueprintOf base rs a).map (Device.active · [])
      | .eq => none
      | .gt => (blueprintOf base rs a).map .declared)
    (hlater : Declarations later) (a : DeviceId) :
    let kept := DeviceId.order a d = .lt ∧ (blueprintOf base rs a).isSome
    kept ∧ (m.serve later).IsActive a ∧ remainder base rs later d a = none ∨
      ¬kept ∧ (m.serve later).devices[a]? = (remainder base rs later d a).map .declared := by
  obtain ⟨-, -, hserved⟩ := serve_declarations hf hlater
  have hstart := hserved a
  rw [hbase, hentries] at hstart
  unfold remainder
  cases hord : DeviceId.order a d with
  | lt =>
    rw [hord] at hstart
    cases hbp : blueprintOf base rs a with
    | none =>
      rw [hbp] at hstart
      exact .inr ⟨by simp, hstart.trans (foldl_regrow_map base a none later)⟩
    | some p =>
      rw [hbp] at hstart
      exact .inl ⟨by simp, ⟨p, [], hstart.trans (foldl_regrow_active base a p [] later)⟩, rfl⟩
  | eq =>
    rw [hord] at hstart
    exact .inr ⟨by simp, hstart.trans (foldl_regrow_map base a none later)⟩
  | gt =>
    rw [hord] at hstart
    refine .inr ⟨by simp, hstart.trans ((foldl_regrow_map base a _ later).trans ?_)⟩
    exact congrArg (Option.map _) (blueprintOf_append base rs later a).symm

/-- After declarations on a new multiplexer the backend refuses an activation. Then it has refused
one declared device; the devices before that one are active, it is gone itself, and those after it
are declared as they were. A later declaration is refused for the active devices only. A second
activation with a backend that obeys succeeds, but it drops the devices that were active and knows
only later declarations of the refused one; the devices after it become active as if nothing had
happened. -/
theorem activation_after_refusal (base : String) {rs later : List Request}
    (hrs : Declarations rs) (hlater : Declarations later) {b c : Backend}
    (hc : ∀ d p, c.create d p = none) {e : OutputError}
    (he : (((new base).serve rs).finish b).2 = .error e) :
    let first := (((new base).serve rs).finish b).1
    let second := (first.serve later).finish c
    ∃ d p fault, blueprintOf base rs d = some p ∧ b.create d p = some fault ∧
      e = .backend fault ∧ first.finished = false ∧
      (∀ a, first.devices[a]? = match DeviceId.order a d with
        | .lt => (blueprintOf base rs a).map (Device.active · [])
        | .eq => none
        | .gt => (blueprintOf base rs a).map .declared) ∧
      (∀ (r : Request) (o : Output), r.call.declares? = some o →
        ((first.serve later).perform r.backend r.call).2 =
          if DeviceId.order o.device d = .lt ∧ (blueprintOf base rs o.device).isSome then
            .error .alreadyActive else .ok ()) ∧
      second.2 = .ok () ∧
      ∀ a, second.1.devices[a]? = Option.map (Device.active · []) (match DeviceId.order a d with
        | .lt => if (blueprintOf base rs a).isSome then none else blueprintOf base later a
        | .eq => blueprintOf base later a
        | .gt => blueprintOf base (rs ++ later) a) := by
  intro first second
  obtain ⟨hf, hbase, hdevices⟩ := serve_declarations (m := new base) rfl hrs
  have hdeclared : ∀ a, ((new base).serve rs).devices[a]? = (blueprintOf base rs a).map .declared :=
    fun a => (hdevices a).trans (foldl_regrow_map base a none rs)
  have hactivated : ∀ a, ((new base).serve rs).activated a = blueprintOf base rs a :=
    fun a => activated_of_declared (hdeclared a) fun x hx => hrs.not_isEmpty (by simp) hx
  by_cases hall : ∀ x, ((new base).serve rs).refusal b x = none
  · rw [(finish_obeyed hf hall).1] at he
    cases he
  obtain ⟨x, hx⟩ := not_forall.mp hall
  obtain ⟨d, p, fault, hp, hcreate, herror, hfirst, hfbase, hentries⟩ := finish_refused hf hx
  rw [herror] at he
  cases he
  simp only [hactivated, hdeclared] at hp hentries
  obtain ⟨hn, -, -⟩ := serve_declarations (m := first) hfirst hlater
  have hname : first.base = base := hfbase.trans hbase
  have hentry := entry_after_refusal (m := first) hfirst hname hentries hlater
  refine ⟨d, p, fault, hp, hcreate, rfl, hfirst, hentries, ?_, ?_⟩
  · intro r o ho
    obtain ⟨-, -, -, hactive, hinactive⟩ := perform_declaration hn r.backend ho
    rcases hentry o.device with ⟨hkept, ha, -⟩ | ⟨hkept, hd⟩
    · rw [if_pos hkept]
      exact hactive ha
    · rw [if_neg hkept]
      exact hinactive (not_isActive_of_declared hd)
  · obtain ⟨hok, hsecond⟩ := finish_obeyed hn fun a => refusal_of_obeying hc _ a
    refine ⟨hok, fun a => ?_⟩
    have hact : (first.serve later).activated a = remainder base rs later d a := by
      rcases hentry a with ⟨-, ha, hnone⟩ | ⟨-, hd⟩
      · rw [activated_of_active ha, hnone]
      · exact activated_of_declared hd fun x hx => remainder_not_isEmpty hrs hlater hx
    rw [hsecond a, hact]
    rfl

/-- Of three devices the second one is refused, and more is declared for the first two. -/
theorem activation_after_refusal_second :
    let pad : DeviceId := .joystick 0
    let mouse : DeviceId := .mouse 0
    let keys : DeviceId := .keyboard 0
    let rs : List Request :=
      [⟨.addKey pad 304, .reliable⟩, ⟨.addRel mouse 0, .reliable⟩, ⟨.addKey keys 30, .reliable⟩]
    let later : List Request := [⟨.addRel mouse 1, .reliable⟩, ⟨.addKey pad 305, .reliable⟩]
    let x := ((new "Pads").serve rs).finish (.refusing [mouse] [])
    let y := (x.1.serve later).finish .reliable
    x.2 = .error (.backend (.operation "create 0.mouse")) ∧ y.2 = .ok () ∧
      y.1.devices[pad]? = none ∧
      y.1.devices[mouse]? = some (.active ((Blueprint.forDevice "Pads" mouse).addRel 1) []) ∧
      y.1.devices[keys]? = some (.active ((Blueprint.forDevice "Pads" keys).addKey 30) []) := by
  intro pad mouse keys rs later x y
  have hrs : Declarations rs := by simp [rs, Declarations, Call.declares?]
  have hlater : Declarations later := by simp [later, Declarations, Call.declares?]
  have he : x.2 = .error (.backend (.operation "create 0.mouse")) := by decide +kernel
  obtain ⟨d, p, fault, -, hcreate, -, -, -, -, hok, hdevices⟩ :=
    activation_after_refusal "Pads" hrs hlater (c := .reliable) (fun _ _ => rfl) he
  have hd : d = mouse := by
    by_contra hne
    rw [show Backend.create _ d p = none from if_neg (by simpa using hne)] at hcreate
    cases hcreate
  subst hd
  have hpad : (blueprintOf "Pads" rs pad).isSome = true := by decide +kernel
  refine ⟨he, hok, ?_, ?_, ?_⟩
  · rw [hdevices pad, show DeviceId.order pad mouse = .lt from rfl]
    simp only [hpad]
    rfl
  · rw [hdevices mouse, show DeviceId.order mouse mouse = .eq from rfl]
    rfl
  · rw [hdevices keys, show DeviceId.order keys mouse = .gt from rfl]
    rfl

/-- The first of two devices is created, the second one is refused: neither of them is there when
activation has succeeded in the second try. -/
theorem devices_lost_by_refusal :
    let pad : DeviceId := .joystick 0
    let mouse : DeviceId := .mouse 0
    let rs : List Request := [⟨.addKey pad 304, .reliable⟩, ⟨.addRel mouse 0, .reliable⟩]
    let x := ((new "Pads").serve rs).finish (.refusing [mouse] [])
    let y := x.1.finish .reliable
    x.1.deviceIds = [pad] ∧ y.2 = .ok () ∧ y.1.deviceIds = [] ∧
      ¬∀ (base : String) (rs : List Request) (b c : Backend) (e : OutputError), Declarations rs →
        (∀ d p, c.create d p = none) → (((new base).serve rs).finish b).2 = .error e →
        ∀ a, ((((new base).serve rs).finish b).1.finish c).1.devices[a]? =
          (blueprintOf base rs a).map (Device.active · []) := by
  intro pad mouse rs x y
  have hrun : x.1.deviceIds = [pad] ∧ y.2 = .ok () ∧ y.1.deviceIds = [] := by decide +kernel
  obtain ⟨hfirst, hok, hnone⟩ := hrun
  refine ⟨hfirst, hok, hnone, fun hall => ?_⟩
  have hrs : Declarations rs := by simp [rs, Declarations, Call.declares?]
  have hpad := hall "Pads" rs (.refusing [mouse] []) .reliable
    (.backend (.operation "create 0.mouse")) hrs (fun _ _ => rfl) (by decide +kernel) pad
  have hno : pad ∉ y.1.deviceIds := by
    rw [hnone]
    exact List.not_mem_nil
  exact hno (mem_deviceIds.mpr fun habsent => nomatch habsent.symm.trans hpad)

end Multiplexer

end PadRemap
