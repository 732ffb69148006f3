import FleetEnergy.Proofs.Simulation.Interleaving

/-! What a run shows of a vehicle is what a run of that vehicle alone would show: its times, positions, speeds and
energies are a fold over its own profile and movement, whatever other vehicles there are. -/
namespace FleetEnergy
open Binary64
set_option autoImplicit false

/-! ## One vehicle alone -/

/-- What can be seen of a firing. -/
inductive Showing
  | tick (time : Float) (position : Vec3 Float) (speed consumed : Float)
  | stopped (time : Float)

/-- What can be seen of a vehicle. -/
def showingsIn (id : VehicleId) (es : List (Float × Event)) : List Showing :=
  es.filterMap fun
    | (time, .tick t) => if t.vehicle = id then some (.tick time t.position t.speed t.consumed) else none
    | (time, .stopped v _ _) => if v = id then some (.stopped time) else none
    | _ => none

/-- All that the firings of a vehicle depend on. -/
structure Course where
  profile : Profile Float
  model : MovementModel Float
  interval : Float
  endTime : Float
  rule : Recuperation

/-- The course of a vehicle of a simulation. -/
def courseOf (settings : Settings) (endTime : Float) (p : Profile Float) (m : MovementModel Float) : Course :=
  ⟨p, m, UpdateLoop.normalizeInterval settings.updateInterval, endTime, settings.recuperation⟩

/-- What is remembered of a vehicle when it is admitted. -/
def firstState (settings : Settings) (m : MovementModel Float) (t : Float) : PreviousState Float :=
  if settings.baseline then .ofSnapshot (m.snapshot t) else .unknown

namespace Course

/-- The first firings after `t`, at most so many, from the state before. -/
def firings (c : Course) : Nat → Float → PreviousState Float → List Showing
  | 0, _, _ => []
  | k + 1, t, previous =>
    let now := nextTime c.interval c.endTime t
    let snapshot := c.model.snapshot now
    if now < c.endTime then
      .tick now snapshot.position snapshot.speed
          (energyDelta c.profile previous snapshot (Scalar.positivePart (now - t)) c.rule) ::
        c.firings k now (.ofSnapshot snapshot)
    else [.stopped now]

/-- The vehicle is where its course would be alone after what was shown of it: ahead of an armed one lies the rest
of the course, ahead of a stopped one nothing. -/
structure Followed (c : Course) (t₀ : Float) (previous₀ : PreviousState Float) (id : VehicleId)
    (es : List (Float × Event)) (v : Vehicle) : Prop where
  profile : v.profile = c.profile
  armed : v.Armed → ∀ k, c.firings ((showingsIn id es).length + k) t₀ previous₀ =
    showingsIn id es ++ c.firings k v.ledger.updateTime v.ledger.previous
  stopped : v.loop.state = .stopped → (∃ time, (showingsIn id es).getLast? = some (.stopped time)) ∧
    ∀ k, c.firings ((showingsIn id es).length + k) t₀ previous₀ = showingsIn id es

end Course

theorem showingsIn_append (id : VehicleId) (es more : List (Float × Event)) :
    showingsIn id (es ++ more) = showingsIn id es ++ showingsIn id more := List.filterMap_append

namespace Course

variable {c : Course} {t₀ : Float} {previous₀ : PreviousState Float} {id : VehicleId} {es more : List (Float × Event)}
  {v : Vehicle}

theorem Followed.frame (h : c.Followed t₀ previous₀ id es v) (hm : showingsIn id more = []) :
    c.Followed t₀ previous₀ id (es ++ more) v := by
  have hes : showingsIn id (es ++ more) = showingsIn id es := by
    rw [showingsIn_append, hm, List.append_nil]
  obtain ⟨hp, ha, hs⟩ := h
  rw [← hes] at ha hs
  exact ⟨hp, ha, hs⟩

/-- A tick is the next firing of the course. -/
theorem Followed.ticked (h : c.Followed t₀ previous₀ id es v) (ha : v.Armed) (hid : v.id = id) {now : Float}
    (hnow : now = nextTime c.interval c.endTime v.ledger.updateTime) (hlt : now < c.endTime)
    (hle : ¬now < v.ledger.updateTime) :
    c.Followed t₀ previous₀ id
      (es ++ [(now, .tick (Simulation.tickOf (v.ticked now c.model c.rule) v.ledger.remaining
        (v.stepEnergy now c.model c.rule) (c.model.snapshot now)))]) (v.ticked now c.model c.rule) := by
  have hshow : showingsIn id [(now, .tick (Simulation.tickOf (v.ticked now c.model c.rule) v.ledger.remaining
      (v.stepEnergy now c.model c.rule) (c.model.snapshot now)))] =
        [.tick now (c.model.snapshot now).position (c.model.snapshot now).speed
          (v.stepEnergy now c.model c.rule)] := by
    simp only [showingsIn, List.filterMap_cons, List.filterMap_nil, Simulation.tickOf, Vehicle.ticked, hid, if_true]
  refine ⟨h.profile, fun _ k => ?_, fun hs => by cases hs⟩
  have hnext := h.armed ha (k + 1)
  have hupd : (v.ticked now c.model c.rule).ledger.updateTime = now := Ledger.applyTick_updateTime hle _ _
  have hprev : (v.ticked now c.model c.rule).ledger.previous = .ofSnapshot (c.model.snapshot now) :=
    Ledger.applyTick_previous hle _ _
  rw [showingsIn_append, hshow, hupd, hprev, List.length_append, List.length_singleton, Nat.add_assoc,
    Nat.add_comm 1 k, hnext, firings]
  simp only [← hnow, if_pos hlt, List.append_assoc, List.singleton_append]
  rw [Vehicle.stepEnergy, h.profile, Ledger.elapsedSince]

/-- A stop is the last firing of the course. -/
theorem Followed.halted (h : c.Followed t₀ previous₀ id es v) (ha : v.Armed) {now : Float}
    (hnow : now = nextTime c.interval c.endTime v.ledger.updateTime) (hge : ¬now < c.endTime)
    (remaining total : Float) :
    c.Followed t₀ previous₀ id (es ++ [(now, .stopped id remaining total)]) v.halted := by
  have hshow : showingsIn id [(now, .stopped id remaining total)] = [.stopped now] := by
    simp only [showingsIn, List.filterMap_cons, List.filterMap_nil, if_true]
  refine ⟨h.profile, fun hv => ?_, fun _ => ⟨⟨now, ?_⟩, fun k => ?_⟩⟩
  · obtain ⟨next, hv⟩ := hv
    cases hv
  · rw [showingsIn_append, hshow, List.getLast?_append]
    rfl
  · have hnext := h.armed ha (k + 1)
    rw [showingsIn_append, hshow, List.length_append, List.length_singleton, Nat.add_assoc, Nat.add_comm 1 k, hnext,
      firings]
    simp only [← hnow, if_neg hge]

end Course

namespace Simulation

variable {first s : Simulation} {t : Float} {fired rest a : List VehicleId} {acc : List (VehicleId × Profile Float)}
  {es : List (Float × Event)}

/-! ## All vehicles side by side -/

/-- Every accepted vehicle follows its own course. -/
structure Accompanied (first : Simulation) (acc : List (VehicleId × Profile Float)) (es : List (Float × Event))
    (s : Simulation) : Prop where
  settings : s.settings = first.settings
  endTime : s.scheduler.endTime = first.scheduler.endTime
  mobility : s.mobility = first.mobility
  followed : ∀ id p, (id, p) ∈ acc → ∃ m v, first.mobility.get? id = some m ∧ s.garage.get? id = some v ∧
    (courseOf first.settings first.scheduler.endTime p m).Followed first.scheduler.now
      (firstState first.settings m first.scheduler.now) id es v

theorem Accompanied.frame (h : Accompanied first acc es s) {more : List (Float × Event)}
    (hm : ∀ id, showingsIn id more = []) : Accompanied first acc (es ++ more) s := by
  refine ⟨h.settings, h.endTime, h.mobility, ?_⟩
  intro id p hmem
  obtain ⟨m, v, hmob, hv, hf⟩ := h.followed id p hmem
  exact ⟨m, v, hmob, hv, hf.frame (hm id)⟩

/-- Only the course of the vehicle that fires is carried on. -/
theorem Accompanied.put (h : Accompanied first acc es s) {v : Vehicle} (v' : Vehicle) {m : MovementModel Float}
    {more : List (Float × Event)} {scheduler : Scheduler} (hv : s.garage.get? v.id = some v)
    (hm : s.mobility.get? v.id = some m) (hid : v'.id = v.id) (hend : scheduler.endTime = s.scheduler.endTime)
    (hother : ∀ id, v.id ≠ id → showingsIn id more = [])
    (hself : ∀ p, (courseOf first.settings first.scheduler.endTime p m).Followed first.scheduler.now
        (firstState first.settings m first.scheduler.now) v.id es v →
      (courseOf first.settings first.scheduler.endTime p m).Followed first.scheduler.now
        (firstState first.settings m first.scheduler.now) v.id (es ++ more) v') :
    Accompanied first acc (es ++ more) { s with scheduler := scheduler, garage := s.garage.put v' } := by
  refine ⟨h.settings, hend.trans h.endTime, h.mobility, ?_⟩
  intro id p hmem
  obtain ⟨m', w, hm', hw, hf⟩ := h.followed id p hmem
  simp only [Garage.get?_put, hid]
  by_cases heq : v.id = id
  · subst heq
    rw [hv] at hw
    cases hw
    rw [h.mobility, hm'] at hm
    cases hm
    rw [if_pos rfl]
    exact ⟨m, v', hm', rfl, hself p hf⟩
  · rw [if_neg heq]
    exact ⟨m', w, hm', hw, hf.frame (hother id heq)⟩

theorem Accompanied.pass (h : Accompanied first acc es s) (hin : s.InRound t fired rest) {s' : Simulation}
    {report report' : Float} {hs : List Happening} (hp : s.pass report = some ((s', report'), hs)) :
    Accompanied first acc (es ++ published hs) s' ∧ ∃ t' fired' rest', s'.InRound t' fired' rest' := by
  have hq : s.scheduler.queue.toList ≠ [] := by
    intro hq
    rw [pass_of_next_none (Scheduler.next_nil hq)] at hp
    cases hp
  -- The time of the round that the pass belongs to is the time at which its vehicle last booked.
  obtain ⟨t, fired, id, rest, hin⟩ := hin.exists_rest hq
  have hround : s.roundAfter t = nextTime (UpdateLoop.normalizeInterval first.settings.updateInterval)
      first.scheduler.endTime t := by
    rw [roundAfter, interval, h.settings, h.endTime]
  by_cases hlt : s.roundAfter t < s.scheduler.endTime
  · obtain ⟨r, hs', v, m, hv, hm, ha, rfl, hupd, hp', hpub, hin'⟩ := hin.tick hlt report
    rw [hp'] at hp
    cases hp
    refine ⟨?_, _, _, _, hin'⟩
    rw [hpub]
    refine h.put (v.ticked (s.roundAfter t) m s.settings.recuperation) hv hm rfl rfl ?_ ?_
    · intro id hne
      simp only [showingsIn, List.filterMap_cons, List.filterMap_nil, tickOf, Vehicle.ticked, hne, if_false]
    · intro p hf
      have hrule : s.settings.recuperation = (courseOf first.settings first.scheduler.endTime p m).rule := by
        rw [h.settings]
        rfl
      rw [hrule]
      refine hf.ticked ha rfl ?_ ?_ ?_
      · rw [hupd]
        exact hround
      · rw [h.endTime] at hlt
        exact hlt
      · rw [hupd]
        exact hin.roundAfter_not_lt
  · obtain ⟨r, hs', v, m, hv, hm, ha, rfl, hupd, hp', hpub, hin'⟩ := hin.stop hlt report
    rw [hp'] at hp
    cases hp
    refine ⟨?_, _, _, _, hin'⟩
    rw [hpub]
    refine h.put v.halted hv hm rfl rfl ?_ ?_
    · intro id hne
      simp only [showingsIn, List.filterMap_cons, List.filterMap_nil, hne, if_false]
    · intro p hf
      refine hf.halted ha ?_ ?_ _ _
      · rw [hupd]
        exact hround
      · rw [h.endTime] at hlt
        exact hlt

theorem Accompanied.after_passes (h : Accompanied first acc es s) (hin : s.InRound t fired rest) (n : Nat) (report : Float) :
    Accompanied first acc (es ++ published (passes n s report).2) (passes n s report).1.1 ∧
      (passes n s report).1.1.Consistent := by
  obtain ⟨h', _, _, _, hin'⟩ := passes_keep
    (P := fun es s => Accompanied first acc es s ∧ ∃ t fired rest, s.InRound t fired rest)
    (fun _ _ _ _ _ _ ⟨h, _, _, _, hin⟩ hp => h.pass hin hp) n report ⟨h, t, fired, rest, hin⟩
  exact ⟨h', hin'.consistent⟩

theorem Accompanied.followed_after (h : Accompanied first acc es s) (hin : s.InRound t fired rest) {id : VehicleId}
    {p : Profile Float} (hmem : (id, p) ∈ acc) {m : MovementModel Float} (hm : first.mobility.get? id = some m)
    (n : Nat) (report : Float) :
    ∃ v, (passes n s report).1.1.Consistent ∧ (passes n s report).1.1.garage.get? id = some v ∧
      (courseOf first.settings first.scheduler.endTime p m).Followed first.scheduler.now
        (firstState first.settings m first.scheduler.now) id (es ++ published (passes n s report).2) v := by
  obtain ⟨h', hcon⟩ := h.after_passes hin n report
  obtain ⟨m', v, hm', hv, hf⟩ := h'.followed id p hmem
  rw [hm] at hm'
  cases hm'
  exact ⟨v, hcon, hv, hf⟩

/-! ## Before the first round -/

theorem newcomer_previous (s : Simulation) (id : VehicleId) (p : Profile Float) (m : MovementModel Float) :
    (s.newcomer id p m).ledger.previous = firstState s.settings m s.scheduler.now := by
  change (UpdateLoop.openLedger p s.scheduler.now
    (if s.settings.baseline then some (m.snapshot s.scheduler.now) else none)).previous = _
  rw [firstState]
  split_ifs
  · exact Ledger.applyTick_previous (l := .new p.initialEnergy s.scheduler.now) (lt_irrefl s.scheduler.now) 0.0 _
  · rfl

/-- A vehicle that is taken in has its whole course ahead. -/
theorem followed_newcomer (s : Simulation) (id : VehicleId) (p : Profile Float) (m : MovementModel Float)
    (hes : showingsIn id es = []) :
    (courseOf s.settings s.scheduler.endTime p m).Followed s.scheduler.now
      (firstState s.settings m s.scheduler.now) id es (s.newcomer id p m) := by
  have hupd : (s.newcomer id p m).ledger.updateTime = s.scheduler.now := openLedger_updateTime _ _ _
  refine ⟨rfl, fun _ k => ?_, fun hs => ?_⟩
  · rw [hes, hupd, newcomer_previous, List.length_nil, Nat.zero_add]
    rfl
  · exact absurd (s.newcomer_armed id p m) (not_armed_of_stopped hs)

theorem Accompanied.take (h : Accompanied first acc es s) (hclock : s.scheduler.clock = first.scheduler.clock)
    {id : VehicleId} (p : Profile Float) {m : MovementModel Float} (hm : s.mobility.get? id = some m)
    (hg : s.garage.get? id = none) (hes : showingsIn id es = []) :
    Accompanied first (acc ++ [(id, p)]) es (s.take id p m) := by
  have hnow : s.scheduler.now = first.scheduler.now := congrArg Instant.toFloat hclock
  have hid : (s.newcomer id p m).id = id := rfl
  have hget (id' : VehicleId) : (s.take id p m).garage.get? id' =
      if id = id' then some (s.newcomer id p m) else s.garage.get? id' := s.garage.get?_put _ id'
  refine ⟨h.settings, h.endTime, h.mobility, ?_⟩
  intro id' p' hmem
  rcases List.mem_append.1 hmem with hold | hnew
  · obtain ⟨m', v, hm', hv, hf⟩ := h.followed id' p' hold
    have hne : id ≠ id' := by
      rintro rfl
      rw [hv] at hg
      cases hg
    refine ⟨m', v, hm', ?_, hf⟩
    rw [hget, if_neg hne]
    exact hv
  · rw [List.mem_singleton] at hnew
    cases hnew
    refine ⟨m, s.newcomer id p m, by rw [← h.mobility]; exact hm, ?_, ?_⟩
    · rw [hget, if_pos rfl]
    · have hf := s.followed_newcomer id p m hes
      rw [h.settings, h.endTime, hnow] at hf
      exact hf

theorem Accompanied.enrolAll (h : Accompanied first acc es s) (hclock : s.scheduler.clock = first.scheduler.clock)
    (hes : ∀ id, showingsIn id es = []) (ps : List (VehicleId × Profile Float)) :
    Accompanied first (acc ++ s.accepted ps) (es ++ published (Scenario.enrolAll s ps).2)
        (Scenario.enrolAll s ps).1 ∧
      ∀ id, showingsIn id (es ++ published (Scenario.enrolAll s ps).2) = [] := by
  induction ps generalizing acc es s with
  | nil =>
    rw [accepted, Scenario.enrolAll, List.append_nil]
    change Accompanied first acc (es ++ []) s ∧ ∀ id, showingsIn id (es ++ []) = []
    rw [List.append_nil]
    exact ⟨h, hes⟩
  | cons q ps ih =>
    obtain ⟨id, p⟩ := q
    rw [accepted, Scenario.enrolAll]
    cases he : s.enrol id p with
    | mk s' q =>
      obtain ⟨r, more⟩ := q
      cases r with
      | error e =>
        obtain ⟨rfl, hpub⟩ := enrol_refused he
        have hmore (id' : VehicleId) : showingsIn id' (published more) = [] := by
          rw [hpub]
          rfl
        simp only []
        rw [published_append, ← List.append_assoc]
        refine ih (h.frame hmore) hclock fun id' => ?_
        rw [showingsIn_append, hes, hmore]
        rfl
      | ok u =>
        obtain ⟨m, hm, hg, rfl, hpub⟩ := enrol_accepted he
        have hmore (id' : VehicleId) : showingsIn id' (published more) = [] := by
          rw [hpub]
          rfl
        have hnone (id' : VehicleId) : showingsIn id' (es ++ published more) = [] := by
          rw [showingsIn_append, hes, hmore]
          rfl
        simp only []
        rw [published_append, ← List.append_assoc, List.append_cons]
        exact ih ((h.frame hmore).take hclock p hm hg (hnone id)) hclock hnone

/-! ## From the first round to the last -/

theorem length_showingsIn (id : VehicleId) (es : List (Float × Event)) :
    (showingsIn id es).length = (marks es).countP (Mark.isOf .tick id) + (marks es).countP (Mark.isOf .stopped id) := by
  induction es with
  | nil => rfl
  | cons e es ih =>
    obtain ⟨time, e⟩ := e
    have hs : showingsIn id ((time, e) :: es) = showingsIn id [(time, e)] ++ showingsIn id es :=
      showingsIn_append id [(time, e)] es
    have hone : (showingsIn id [(time, e)]).length =
        (if Mark.isOf .tick id ⟨time, e.kind, e.vehicle⟩ then 1 else 0) +
          if Mark.isOf .stopped id ⟨time, e.kind, e.vehicle⟩ then 1 else 0 := by
      cases e with
      | tick v => by_cases hv : v.vehicle = id <;> simp [showingsIn, Mark.isOf, Event.kind, Event.vehicle, hv]
      | stopped v => by_cases hv : v = id <;> simp [showingsIn, Mark.isOf, Event.kind, Event.vehicle, hv]
      | _ => simp [showingsIn, Mark.isOf, Event.kind]
    rw [hs, List.length_append, ih, hone, marks_cons, List.countP_cons, List.countP_cons]
    omega

/-- The firings of a course are reached by so many rounds, if it has that many. -/
theorem Accompanied.reaches (h : Accompanied first acc es s) (hin : s.InRound t [] a) (ha : a.Nodup)
    {id : VehicleId} {p : Profile Float} (hid : id ∈ a) (hmem : (id, p) ∈ acc) (hes : showingsIn id es = [])
    {m : MovementModel Float} (hm : first.mobility.get? id = some m) (k : Nat) (report : Float) :
    ∃ n, showingsIn id (es ++ published (passes n s report).2) =
      (courseOf first.settings first.scheduler.endTime p m).firings k first.scheduler.now
        (firstState first.settings m first.scheduler.now) := by
  have hne : a ≠ [] := List.ne_nil_of_mem hid
  have hcount : a.count id = 1 := List.count_eq_one_of_mem ha hid
  have hlen (n : Nat) : (showingsIn id (es ++ published (passes n s report).2)).length =
      (marks (published (passes n s report).2)).countP (Mark.isOf .tick id) +
        (marks (published (passes n s report).2)).countP (Mark.isOf .stopped id) := by
    rw [showingsIn_append, hes, List.nil_append, length_showingsIn]
  -- Every vehicle fires once in a round, so that `k` rounds show `k` firings, if none of them is the last.
  rcases early_or_last s t k with hlt | ⟨j, hj, hlt, hge⟩
  · obtain ⟨s', r', hs, hp, hin', -, -, hmarks⟩ := hin.tick_rounds hne k hlt report
    obtain ⟨v, -, hv, hf⟩ := h.followed_after hin hmem hm (k * a.length) report
    have hk := hlen (k * a.length)
    refine ⟨k * a.length, ?_⟩
    rw [hp] at hk hv hf ⊢
    have harmed : v.Armed := by
      have hw : id ∈ s'.scheduler.waiting := by
        rw [Scheduler.waiting, hin'.queue, List.map_nil, ite_self, List.append_nil, List.map_map]
        exact List.mem_map.2 ⟨id, hid, rfl⟩
      rcases hin'.consistent.settled id v hv with ⟨harmed, -⟩ | ⟨-, h0⟩
      · exact harmed
      · exact absurd hw (List.count_eq_zero.1 h0)
    rw [hmarks, countP_tickRounds, countP_tickRounds, hcount, if_pos rfl, if_neg (by decide), roundTimes,
      List.length_map, List.length_range] at hk
    have hall := hf.armed harmed 0
    rw [hk, Course.firings, List.append_nil] at hall
    rw [← hall]
    congr 1
    omega
  · obtain ⟨s', r', hs, hp, hq, hmarks⟩ := hin.last_round hne j hlt hge report
    obtain ⟨v, hcon, hv, hf⟩ := h.followed_after hin hmem hm ((j + 1) * a.length) report
    have hk := hlen ((j + 1) * a.length)
    refine ⟨(j + 1) * a.length, ?_⟩
    rw [hp] at hk hv hf hcon ⊢
    have hall := (hf.stopped (hcon.stopped hq hv)).2 (k - (j + 1))
    rw [hmarks, List.countP_append, List.countP_append, countP_tickRounds, countP_tickRounds, countP_round,
      countP_round, hcount, if_pos rfl, if_neg (by decide), if_neg (by decide), if_pos rfl, roundTimes,
      List.length_map, List.length_range] at hk
    rw [hk] at hall
    rw [← hall]
    congr 1
    omega

/-- The firings of an accepted vehicle are those of its course alone: every number of passes shows a beginning of the
course, every beginning of it is shown, and a run that returns has shown it up to its stop. -/
theorem vehicle_runs_alone (start : Instant) (endTime : Float) (mobility : Mobility) (settings : Settings)
    (ps : List (VehicleId × Profile Float)) (id : VehicleId) (p : Profile Float)
    (hstart : start.toFloat.isFinite = true) (hend : endTime.isNaN = false)
    (hacc : (id, p) ∈ (new start endTime mobility settings).accepted ps) :
    ∃ m, mobility.get? id = some m ∧
      let s := (Scenario.enrolAll (new start endTime mobility settings) ps).1
      let admissions := (Scenario.enrolAll (new start endTime mobility settings) ps).2
      let alone := fun k => (courseOf settings endTime p m).firings k start.toFloat (firstState settings m start.toFloat)
      (∀ n report, ∃ k, showingsIn id (published (admissions ++ (passes n s report).2)) = alone k) ∧
      (∀ k report, ∃ n, showingsIn id (published (admissions ++ (passes n s report).2)) = alone k) ∧
      ∀ s' hs, s.run = some (s', hs) → ∃ k time, showingsIn id (published (admissions ++ hs)) = alone k ∧
        (alone k).getLast? = some (.stopped time) := by
  have hin := (inRound_new hstart hend mobility settings).enrolAll ps
  have hnodup := (history_of_admissions (new start endTime mobility settings) ps).audited.nodup
  have hnew : Accompanied (new start endTime mobility settings) [] [] (new start endTime mobility settings) := by
    refine ⟨rfl, rfl, rfl, ?_⟩
    intro id p hmem
    cases hmem
  obtain ⟨haccomp, hnone⟩ := hnew.enrolAll rfl (fun _ => rfl) ps
  obtain ⟨m, -, hm, -, -⟩ := haccomp.followed id p hacc
  refine ⟨m, hm, ?_, ?_, ?_⟩
  · intro n report
    obtain ⟨v, hcon, hv, hf⟩ := haccomp.followed_after hin hacc hm n report
    rw [published_append]
    rcases hcon.settled id v hv with ⟨harmed, -⟩ | ⟨hstop, -⟩
    · exact ⟨_, (List.append_nil _).symm.trans (hf.armed harmed 0).symm⟩
    · exact ⟨_, ((hf.stopped hstop).2 0).symm⟩
  · intro k report
    obtain ⟨n, hn⟩ := haccomp.reaches hin hnodup (List.mem_map_of_mem hacc) hacc (hnone id) hm k report
    refine ⟨n, ?_⟩
    rw [published_append]
    exact hn
  · intro s' hs hrun
    obtain ⟨n, rfl, hq, hpub⟩ := run_cases hrun
    obtain ⟨v, hcon, hv, hf⟩ := haccomp.followed_after hin hacc hm n _
    obtain ⟨⟨time, hlast⟩, hall⟩ := hf.stopped (hcon.stopped hq hv)
    have hwhole := hall 0
    rw [List.nil_append, ← hpub, ← published_append] at hwhole hlast
    exact ⟨_, time, hwhole.symm, (congrArg List.getLast? hwhole).trans hlast⟩

theorem parked_runs_alone :
    ∃ m, parked.mobility.get? ⟨7⟩ = some m ∧ ∃ s hs, (Scenario.enrolAll parked parkedRequests).1.run = some (s, hs) ∧
      ∃ k, showingsIn ⟨7⟩ (published ((Scenario.enrolAll parked parkedRequests).2 ++ hs)) =
        (courseOf .default 1.5 parkedProfile m).firings k (Instant.ofFloat 0.0).toFloat
          (firstState .default m (Instant.ofFloat 0.0).toFloat) := by
  obtain ⟨s, hs, hrun⟩ := run_parked
  have hmem : (⟨7⟩, parkedProfile) ∈ parked.accepted parkedRequests := by
    rw [accepted_parked]
    simp
  obtain ⟨m, hm, -, -, hall⟩ := vehicle_runs_alone (.ofFloat 0.0) 1.5
    ((Mobility.empty.add ⟨7⟩ parkedModel).add ⟨9⟩ parkedModel) .default parkedRequests ⟨7⟩ parkedProfile
    (by decide) (by decide) hmem
  obtain ⟨k, -, hk, -⟩ := hall s hs hrun
  exact ⟨m, hm, s, hs, hrun, k, hk⟩

end Simulation

end FleetEnergy
