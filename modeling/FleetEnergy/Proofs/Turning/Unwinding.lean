import FleetEnergy.Proofs.Binary64.Truncation
import FleetEnergy.Proofs.Turning.Turn

/-! How the difference of two angles is brought above `-pi` and to at most `pi`: as long as it is not there, a whole turn
is taken off or added. That leads to an end as long as a whole turn makes a difference. -/
namespace FleetEnergy
open Binary64
set_option autoImplicit false

namespace Turning

variable {d : Float}

/-! ## Many passes -/

section Loop

variable (again : Float → Prop) [DecidablePred again] (step : Float → Float)

/-- At most `n` passes of a loop. -/
def loop : Float → Nat → Float
  | d, 0 => d
  | d, n + 1 => if again d then loop (step d) n else d

variable {again step}

theorem loop_done (h : ¬again d) (n : Nat) : loop again step d n = d := by
  cases n with
  | zero => rfl
  | succ n => rw [loop, if_neg h]

theorem loop_stuck (h : step d = d) (n : Nat) : loop again step d n = d := by
  induction n with
  | zero => rfl
  | succ n ih => rw [loop, h, ih, ite_self]

/-- A loop that has come to its end stays there. -/
theorem loop_stable {j n : Nat} (h : ¬again (loop again step d j)) (hjn : j ≤ n) :
    loop again step d n = loop again step d j := by
  induction j generalizing d n with
  | zero => exact loop_done h n
  | succ j ih =>
    obtain ⟨n, rfl⟩ := Nat.exists_eq_succ_of_ne_zero (Nat.ne_of_gt (Nat.lt_of_lt_of_le j.succ_pos hjn))
    rw [loop] at h ⊢
    rw [loop]
    by_cases hd : again d
    · rw [if_pos hd] at h
      rw [if_pos hd, if_pos hd]
      exact ih h (Nat.le_of_succ_le_succ hjn)
    · rw [if_neg hd, if_neg hd]

/-- A loop comes to its end if each pass keeps to an invariant and lowers a size that is not below zero as long as
there is another pass. -/
theorem loop_ends {inv : Float → Prop} {size : Float → Int} {c : Int}
    (hstep : ∀ d, inv d → again d → 0 ≤ size d ∧ inv (step d) ∧ size (step d) + c ≤ size d)
    {n : Nat} (hd : inv d) (hn : size d < n * c) : inv (loop again step d n) ∧ ¬again (loop again step d n) := by
  induction n generalizing d with
  | zero =>
    rw [Nat.cast_zero, zero_mul] at hn
    exact ⟨hd, fun h => hn.not_ge (hstep d hd h).1⟩
  | succ n ih =>
    rw [loop]
    by_cases h : again d
    · obtain ⟨-, hinv, hlower⟩ := hstep d hd h
      rw [if_pos h]
      refine ih hinv ?_
      rw [Nat.cast_succ, add_mul, one_mul] at hn
      omega
    · rw [if_neg h]
      exact ⟨hd, h⟩

end Loop

theorem unwindDown_eq (d : Float) (n : Nat) :
    unwindDown d n = loop (Scalar.pi < ·) (· - Scalar.tau) d n := by
  induction n generalizing d with
  | zero => rfl
  | succ n ih => rw [unwindDown, loop, ih]

theorem unwindUp_eq (d : Float) (n : Nat) :
    unwindUp d n = loop (· ≤ -Scalar.pi) (· + Scalar.tau) d n := by
  induction n generalizing d with
  | zero => rfl
  | succ n ih => rw [unwindUp, loop, ih]

theorem unwindDown_done (h : ¬Scalar.pi < d) (n : Nat) : unwindDown d n = d := by
  rw [unwindDown_eq]
  refine loop_done ?_ n
  exact h

theorem unwindUp_done (h : ¬d ≤ -Scalar.pi) (n : Nat) : unwindUp d n = d := by
  rw [unwindUp_eq]
  refine loop_done ?_ n
  exact h

theorem unwindDown_stuck (hd : d.isNaN = false) (h : reach < unitsOf d) (n : Nat) : unwindDown d n = d := by
  rw [unwindDown_eq]
  refine loop_stuck ?_ n
  exact sub_tau_stuck hd h

theorem unwindUp_stuck (hd : d.isNaN = false) (h : reach < -unitsOf d) (n : Nat) : unwindUp d n = d := by
  rw [unwindUp_eq]
  refine loop_stuck ?_ n
  exact add_tau_stuck hd h

theorem pi_lt_iff (hd : d.isNaN = false) : Scalar.pi < d ↔ unitsOf Scalar.pi < unitsOf d := lt_iff_units rfl hd

theorem le_neg_pi_iff (hd : d.isNaN = false) : d ≤ -Scalar.pi ↔ unitsOf d ≤ -unitsOf Scalar.pi := by
  rw [le_iff_units hd rfl, unitsOf_neg]

/-- The angle is finite and lies above `-pi` and at `pi` at most. -/
structure Reduced (d : Float) : Prop where
  finite : d.isFinite = true
  above : -unitsOf Scalar.pi < unitsOf d
  upTo : unitsOf d ≤ unitsOf Scalar.pi

theorem unwindDown_reduced (hd : d.isFinite = true) (hlo : -unitsOf Scalar.pi < unitsOf d) (hhi : unitsOf d ≤ reach)
    {n : Nat} (hn : unitsOf d < n * oneUnits) : Reduced (unwindDown d n) := by
  have hpi := units_pi_pos
  have hpass (d : Float) (h : d.isFinite = true ∧ -unitsOf Scalar.pi < unitsOf d ∧ unitsOf d ≤ reach)
      (hlt : Scalar.pi < d) : 0 ≤ unitsOf d ∧ ((d - Scalar.tau).isFinite = true ∧
        -unitsOf Scalar.pi < unitsOf (d - Scalar.tau) ∧ unitsOf (d - Scalar.tau) ≤ reach) ∧
        unitsOf (d - Scalar.tau) + oneUnits ≤ unitsOf d := by
    obtain ⟨hd, -, hhi⟩ := h
    rw [pi_lt_iff (isNaN_of_isFinite hd)] at hlt
    obtain ⟨hf, ht⟩ := sub_tau hd hlt.le hhi
    have hlower := ht.lower
    exact ⟨by omega, ⟨hf, ht.strict hlt, by omega⟩, hlower⟩
  obtain ⟨⟨hf, habove, -⟩, hdone⟩ := loop_ends hpass ⟨hd, hlo, hhi⟩ hn
  rw [← unwindDown_eq] at hf habove hdone
  rw [pi_lt_iff (isNaN_of_isFinite hf), not_lt] at hdone
  exact ⟨hf, habove, hdone⟩

theorem unwindUp_reduced (hd : d.isFinite = true) (hlo : -reach ≤ unitsOf d) (hhi : unitsOf d ≤ unitsOf Scalar.pi)
    {n : Nat} (hn : -unitsOf d < n * oneUnits) : Reduced (unwindUp d n) := by
  have hpi := units_pi_pos
  have hpass (d : Float) (h : d.isFinite = true ∧ -reach ≤ unitsOf d ∧ unitsOf d ≤ unitsOf Scalar.pi)
      (hle : d ≤ -Scalar.pi) : 0 ≤ -unitsOf d ∧ ((d + Scalar.tau).isFinite = true ∧
        -reach ≤ unitsOf (d + Scalar.tau) ∧ unitsOf (d + Scalar.tau) ≤ unitsOf Scalar.pi) ∧
        -unitsOf (d + Scalar.tau) + oneUnits ≤ -unitsOf d := by
    obtain ⟨hd, hlo, -⟩ := h
    rw [le_neg_pi_iff (isNaN_of_isFinite hd)] at hle
    obtain ⟨hf, ht⟩ := add_tau hd (by omega) (by omega)
    have hlower := ht.lower
    have habove := ht.above
    exact ⟨by omega, ⟨hf, by omega, by omega⟩, hlower⟩
  obtain ⟨⟨hf, -, hup⟩, hdone⟩ := loop_ends hpass ⟨hd, hlo, hhi⟩ hn
  rw [← unwindUp_eq] at hf hup hdone
  rw [le_neg_pi_iff (isNaN_of_isFinite hf), not_le] at hdone
  exact ⟨hf, hdone, hup⟩

/-- There are more passes than an angle within the reach has whole ones. -/
theorem lt_turnBound (hd : d.isFinite = true) (h : |unitsOf d| ≤ reach) :
    |unitsOf d| < (Scalar.turnBound d : Nat) * oneUnits := by
  have hg := grain_pos
  have ho := oneUnits_grain
  rw [reach] at h
  rw [← unitsOf_abs] at h ⊢
  have hone : (0 : Int) < oneUnits := by omega
  have hcount := toNat_toUInt64 ((isFinite_abs d).trans hd) (unitsOf_abs d ▸ abs_nonneg _) (by omega)
  change _ < ((d.abs.toUInt64.toNat + 1 : Nat) : Int) * oneUnits
  rw [Nat.cast_succ, hcount]
  exact Int.lt_ediv_add_one_mul_self _ hone

/-! ## From one heading to another -/

/-- The first loop ends within `j` passes and the second one within `k` more. -/
structure Unwound (start stop : Float) (j k : Nat) : Prop where
  down : ¬Scalar.pi < unwindDown (stop - start) j
  up : ¬unwindUp (unwindDown (stop - start) j) k ≤ -Scalar.pi

variable {start stop : Float}

/-- However many passes are allowed, what the loops end with is the same. -/
theorem Unwound.unique {j k j' k' : Nat} (h : Unwound start stop j k) (h' : Unwound start stop j' k') :
    unwindUp (unwindDown (stop - start) j) k = unwindUp (unwindDown (stop - start) j') k' := by
  obtain ⟨hdown, hup⟩ := h
  obtain ⟨hdown', hup'⟩ := h'
  have hmid : unwindDown (stop - start) j = unwindDown (stop - start) j' := by
    rw [unwindDown_eq] at hdown hdown' ⊢
    rw [unwindDown_eq, ← loop_stable hdown (le_max_left j j'), ← loop_stable hdown' (le_max_right j j')]
  rw [← hmid] at hup' ⊢
  rw [unwindUp_eq] at hup hup' ⊢
  rw [unwindUp_eq, ← loop_stable hup (le_max_left k k'), ← loop_stable hup' (le_max_right k k')]

theorem Unwound.of_reduced {j k : Nat} (hdown : unitsOf (unwindDown (stop - start) j) ≤ unitsOf Scalar.pi)
    (hmid : (unwindDown (stop - start) j).isNaN = false)
    (h : Reduced (unwindUp (unwindDown (stop - start) j) k)) : Unwound start stop j k where
  down := by
    rw [pi_lt_iff hmid]
    exact hdown.not_gt
  up := by
    rw [le_neg_pi_iff (isNaN_of_isFinite h.finite)]
    exact h.above.not_ge

theorem isFinite_of_reach (hd : d.isNaN = false) (h : |unitsOf d| ≤ reach) : d.isFinite = true := by
  have hlim := (isFinite_iff_units (x := 72057594037927936.0) rfl).1 rfl
  rw [units_reach] at hlim
  obtain ⟨hlo, hhi⟩ := abs_le.1 h
  exact (isFinite_iff_units hd).2 ⟨by omega, by omega⟩

/-- Within the reach the loops end where the difference of the headings is reduced. -/
theorem angleDifference_reduced (hn : (stop - start).isNaN = false) (h : |unitsOf (stop - start)| ≤ reach) :
    Reduced (angleDifference start stop) ∧ ∃ j k, Unwound start stop j k ∧
      unwindUp (unwindDown (stop - start) j) k = angleDifference start stop := by
  have hd := isFinite_of_reach hn h
  obtain ⟨hlo, hhi⟩ := abs_le.1 h
  have hpi := units_pi_pos
  have htau := units_tau_eq_two_pi
  have hfar := units_tau_lt_reach
  generalize hj : Scalar.turnBound (stop - start) = j
  -- The first loop leaves an angle that the second one can bring up.
  have hmid : (unwindDown (stop - start) j).isFinite = true ∧ |unitsOf (unwindDown (stop - start) j)| ≤ reach ∧
      unitsOf (unwindDown (stop - start) j) ≤ unitsOf Scalar.pi := by
    rcases le_or_gt (unitsOf (stop - start)) (-unitsOf Scalar.pi) with hle | hgt
    · have hnot : ¬Scalar.pi < stop - start := by
        rw [pi_lt_iff hn]
        omega
      rw [unwindDown_done hnot]
      exact ⟨hd, h, by omega⟩
    · have hpasses := (le_abs_self _).trans_lt (lt_turnBound hd h)
      rw [hj] at hpasses
      obtain ⟨hf, habove, hup⟩ := unwindDown_reduced hd hgt hhi hpasses
      exact ⟨hf, abs_le.2 ⟨by omega, by omega⟩, hup⟩
  obtain ⟨hf, habs, hup⟩ := hmid
  have hred := unwindUp_reduced hf (abs_le.1 habs).1 hup ((neg_le_abs _).trans_lt (lt_turnBound hf habs))
  have hresult : unwindUp (unwindDown (stop - start) j) (Scalar.turnBound (unwindDown (stop - start) j)) =
      angleDifference start stop := by
    rw [angleDifference, hj]
  exact ⟨hresult ▸ hred, j, _, .of_reduced hup (isNaN_of_isFinite hf) hred, hresult⟩

/-- Beyond the reach no pass changes anything, and there is always another one. -/
theorem unwinding_stuck (hd : (stop - start).isNaN = false) (h : reach < |unitsOf (stop - start)|) (j k : Nat) :
    unwindUp (unwindDown (stop - start) j) k = stop - start ∧ ¬Unwound start stop j k := by
  have hpi := units_pi_pos
  have htau := units_tau_eq_two_pi
  have hfar := units_tau_lt_reach
  rcases lt_abs.1 h with hpos | hneg
  · have hgt : Scalar.pi < stop - start := by
      rw [pi_lt_iff hd]
      omega
    have hnot : ¬stop - start ≤ -Scalar.pi := by
      rw [le_neg_pi_iff hd]
      omega
    have hdown := unwindDown_stuck hd hpos j
    refine ⟨?_, fun hu => hu.down ?_⟩
    · rw [hdown, unwindUp_done hnot]
    · rw [hdown]
      exact hgt
  · have hle : stop - start ≤ -Scalar.pi := by
      rw [le_neg_pi_iff hd]
      omega
    have hnot : ¬Scalar.pi < stop - start := by
      rw [pi_lt_iff hd]
      omega
    have hdown := unwindDown_done hnot j
    have hup := unwindUp_stuck hd hneg k
    refine ⟨?_, fun hu => hu.up ?_⟩
    · rw [hdown, hup]
    · rw [hdown, hup]
      exact hle

/-! ## Headings -/

/-- What at most one correction, and an exact one, makes of the difference of two headings. -/
inductive Corrected (start stop angle : Float) : Prop
  | none (ends : Unwound start stop 0 0) (result : angle = stop - start)
  | less (ends : Unwound start stop 1 0) (result : angle = stop - start - Scalar.tau)
    (exact : unitsOf angle = unitsOf (stop - start) - unitsOf Scalar.tau)
  | more (ends : Unwound start stop 0 1) (result : angle = stop - start + Scalar.tau)
    (exact : unitsOf angle = unitsOf (stop - start) + unitsOf Scalar.tau)

theorem abs_units_sub_le (hstart : start.isFinite = true) (hstop : stop.isFinite = true)
    (h1 : |unitsOf start| ≤ unitsOf Scalar.pi) (h2 : |unitsOf stop| ≤ unitsOf Scalar.pi) :
    |unitsOf (stop - start)| ≤ unitsOf Scalar.tau := by
  have hlim := limit_pos
  have hturn := units_tau_eq_two_pi
  have htau := (sharp_unitsOf isFinite_tau).roundInt_eq
  rw [abs_le] at h1 h2 ⊢
  have hlow : roundInt (-unitsOf Scalar.tau) ≤ roundInt (unitsOf stop - unitsOf start) := roundInt_mono (by omega)
  have hhigh : roundInt (unitsOf stop - unitsOf start) ≤ roundInt (unitsOf Scalar.tau) := roundInt_mono (by omega)
  rw [roundInt_neg, htau] at hlow
  rw [htau] at hhigh
  rw [(sub_finite hstop hstart).2, clamped]
  omega

/-- The difference of two headings is reduced in one pass, if it is not so already. -/
theorem corrected (hstart : start.isFinite = true) (hstop : stop.isFinite = true)
    (h1 : |unitsOf start| ≤ unitsOf Scalar.pi) (h2 : |unitsOf stop| ≤ unitsOf Scalar.pi) :
    Corrected start stop (angleDifference start stop) := by
  have hpi := units_pi_pos
  have htau := units_tau_eq_two_pi
  have hfar := units_tau_lt_reach
  have hle := abs_units_sub_le hstart hstop h1 h2
  have hn := (sub_finite hstop hstart).1
  have hreach : |unitsOf (stop - start)| ≤ reach := hle.trans (by omega)
  have hd := isFinite_of_reach hn hreach
  obtain ⟨-, j, k, hends, hresult⟩ := angleDifference_reduced hn hreach
  obtain ⟨hlo, hhi⟩ := abs_le.1 hle
  rcases le_or_gt (unitsOf (stop - start)) (unitsOf Scalar.pi) with hup | hgt
  · rcases le_or_gt (unitsOf (stop - start)) (-unitsOf Scalar.pi) with hdown | habove
    · obtain ⟨hf, hturned⟩ := add_tau hd (by omega) (by omega)
      have hexact := hturned.exact (by omega)
      have hpass : unwindUp (stop - start) 1 = stop - start + Scalar.tau := if_pos ((le_neg_pi_iff hn).2 hdown)
      have hred : Reduced (stop - start + Scalar.tau) := ⟨hf, by omega, by omega⟩
      have hun : Unwound start stop 0 1 := .of_reduced hup hn (hpass.symm ▸ hred)
      have hangle := hresult.symm.trans ((hends.unique hun).trans hpass)
      refine .more hun hangle ?_
      rw [hangle]
      omega
    · have hun : Unwound start stop 0 0 := .of_reduced hup hn ⟨hd, habove, hup⟩
      exact .none hun (hresult.symm.trans (hends.unique hun))
  · obtain ⟨hf, hturned⟩ := sub_tau hd hgt.le (by omega)
    have hexact := hturned.exact hhi
    have habove := hturned.strict hgt
    have hpass : unwindDown (stop - start) 1 = stop - start - Scalar.tau := if_pos ((pi_lt_iff hn).2 hgt)
    have hred : Reduced (stop - start - Scalar.tau) := ⟨hf, habove, by omega⟩
    have hun : Unwound start stop 1 0 := by
      refine .of_reduced ?_ ?_ ?_ <;> rw [hpass]
      · exact hred.upTo
      · exact isNaN_of_isFinite hf
      · exact hred
    have hangle := hresult.symm.trans ((hends.unique hun).trans hpass)
    refine .less hun hangle ?_
    rw [hangle]
    exact hexact

theorem reach_iff (hd : d.isNaN = false) :
    (-72057594037927936.0 ≤ d ∧ d ≤ 72057594037927936.0) ↔ |unitsOf d| ≤ reach := by
  rw [le_iff_units rfl hd, le_iff_units hd rfl, unitsOf_neg, units_reach, abs_le]

theorem heading_iff (hd : d.isNaN = false) : (-Scalar.pi ≤ d ∧ d ≤ Scalar.pi) ↔ |unitsOf d| ≤ unitsOf Scalar.pi := by
  rw [le_iff_units rfl hd, le_iff_units hd rfl, unitsOf_neg, abs_le]

/-- For two finite angles the loops come to an end just if the way from one to the other, as a float, is at most 2⁵⁶ in
size. Then the result is above `-pi` and at most `pi`; else every pass leaves the angle as it is, and there is always
another one. Headings need one correction at most, which is exact. -/
theorem unwinding_ends_iff_turn_matters (start stop : Float) (hstart : start.isFinite = true)
    (hstop : stop.isFinite = true) :
    ((∃ j k, Unwound start stop j k) ↔
      -72057594037927936.0 ≤ stop - start ∧ stop - start ≤ 72057594037927936.0) ∧
    ((¬∃ j k, Unwound start stop j k) → ∀ j k, unwindUp (unwindDown (stop - start) j) k = stop - start) ∧
    (∀ j k, Unwound start stop j k → unwindUp (unwindDown (stop - start) j) k = angleDifference start stop ∧
      -Scalar.pi < angleDifference start stop ∧ angleDifference start stop ≤ Scalar.pi) ∧
    (-Scalar.pi ≤ start ∧ start ≤ Scalar.pi → -Scalar.pi ≤ stop ∧ stop ≤ Scalar.pi →
      Corrected start stop (angleDifference start stop)) := by
  have hn := (sub_finite hstop hstart).1
  have hends : (∃ j k, Unwound start stop j k) ↔ |unitsOf (stop - start)| ≤ reach := by
    constructor
    · rintro ⟨j, k, h⟩
      by_contra hfar
      exact (unwinding_stuck hn (not_le.1 hfar) j k).2 h
    · intro hnear
      obtain ⟨-, j, k, h, -⟩ := angleDifference_reduced hn hnear
      exact ⟨j, k, h⟩
  refine ⟨hends.trans (reach_iff hn).symm, fun hnot j k => ?_, fun j k h => ?_, fun h1 h2 => ?_⟩
  · exact (unwinding_stuck hn (not_le.1 (hends.not.1 hnot)) j k).1
  · obtain ⟨hred, j', k', h', hresult⟩ := angleDifference_reduced hn (hends.1 ⟨j, k, h⟩)
    have hangle := isNaN_of_isFinite hred.finite
    refine ⟨(h.unique h').trans hresult, ?_, ?_⟩
    · rw [lt_iff_units rfl hangle, unitsOf_neg]
      exact hred.above
    · rw [le_iff_units hangle rfl]
      exact hred.upTo
  · rw [heading_iff (isNaN_of_isFinite hstart)] at h1
    rw [heading_iff (isNaN_of_isFinite hstop)] at h2
    exact corrected hstart hstop h1 h2

/-- From a heading just short of due west on one side to one just short of it on the other. -/
theorem astern_unwinds :
    ∃ j k, Unwound 3.0 (-3.0) j k ∧ -Scalar.pi < angleDifference 3.0 (-3.0) ∧
      angleDifference 3.0 (-3.0) ≤ (Scalar.pi : Float) ∧
      Corrected 3.0 (-3.0) (angleDifference 3.0 (-3.0)) := by
  obtain ⟨hends, -, hresult, hheading⟩ := unwinding_ends_iff_turn_matters 3.0 (-3.0) rfl rfl
  obtain ⟨j, k, h⟩ := hends.2 (by decide +kernel)
  obtain ⟨-, habove, hup⟩ := hresult j k h
  exact ⟨j, k, h, habove, hup, hheading (by decide +kernel) (by decide +kernel)⟩

/-- From due east to an angle of 10¹⁷ the loops never end. -/
theorem far_angle_never_unwinds :
    (0.0 : Float).isFinite = true ∧ (100000000000000000.0 : Float).isFinite = true ∧
      ∀ j k, ¬Unwound 0.0 100000000000000000.0 j k := by
  have hn : (100000000000000000.0 - 0.0 : Float).isNaN = false := by decide +kernel
  have hlt : (72057594037927936.0 : Float) < 100000000000000000.0 - 0.0 := by decide +kernel
  rw [lt_iff_units rfl hn, units_reach] at hlt
  exact ⟨rfl, rfl, fun j k => (unwinding_stuck hn (hlt.trans_le (le_abs_self _)) j k).2⟩

end Turning

end FleetEnergy
