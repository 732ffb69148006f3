import FleetEnergy.Proofs.Binary64.Difference
import FleetEnergy.Proofs.Binary64.Product

/-! What a zero leaves of a sum. A term that is zero changes at most the sign of a zero. -/
namespace FleetEnergy.Binary64
open Float.Model (Format UnpackedFloat)
set_option autoImplicit false

variable {x y z : Float}

def IsZero (x : Float) : Prop := ∃ s, reading x = .zero s

/-- A finite number taken from itself leaves zero. -/
theorem isZero_sub_self (hx : x.isFinite = true) : IsZero (x - x) := by
  have hs : UnpackedFloat.sub Format.binary64 (reading x) (reading x) = .zero .positive := by
    refine (unpacked_sub_self (reading x)).resolve_right fun hnan => ?_
    change (reading x).isFinite = true at hx
    cases hr : reading x with
    | notANumber => rw [hr] at hx; cases hx
    | infinity s => rw [hr] at hx; cases hx
    | zero s => rw [hr] at hnan; cases s <;> cases hnan
    | finite s m e h =>
      rw [hr] at hnan
      simp only [UnpackedFloat.sub, Int.sub_self] at hnan
      cases hnan
  refine ⟨.positive, ?_⟩
  rw [reading_sub x x, hs]
  rfl

/-- A finite number times zero is zero. -/
theorem IsZero.mul (hy : IsZero y) (hx : x.isFinite = true) : IsZero (x * y) := by
  obtain ⟨s, hs⟩ := hy
  have hm : ∃ s', UnpackedFloat.mul Format.binary64 (reading x) (reading y) = .zero s' := by
    rw [hs]
    obtain ⟨s', hr⟩ | ⟨s', m, e, h, hr⟩ := @finite_cases (reading x) hx
    · exact ⟨_, by rw [hr]; rfl⟩
    · exact ⟨_, by rw [hr]; rfl⟩
  obtain ⟨s', hm⟩ := hm
  refine ⟨s', ?_⟩
  rw [reading_mul x y, hm]
  rfl

theorem SameUpToZero.refl (x : Float) : SameUpToZero x x := .inl rfl

theorem SameUpToZero.symm (h : SameUpToZero x y) : SameUpToZero y x := by
  obtain rfl | ⟨s, s', hx, hy⟩ := h
  · exact .inl rfl
  · exact .inr ⟨s', s, hy, hx⟩

theorem SameUpToZero.trans (h : SameUpToZero x y) (h' : SameUpToZero y z) : SameUpToZero x z := by
  obtain rfl | ⟨s, s', hx, hy⟩ := h
  · exact h'
  · obtain rfl | ⟨t, t', hy', hz⟩ := h'
    · exact .inr ⟨s, s', hx, hy⟩
    · exact .inr ⟨s, t', hx, hz⟩

theorem SameUpToZero.add_isZero (hy : IsZero y) (x : Float) : SameUpToZero (x + y) x := by
  obtain ⟨s, hs⟩ := hy
  by_cases hx : IsZero x
  · obtain ⟨s', hs'⟩ := hx
    exact .inr ⟨_, _, zero_add_zero hs' hs, hs'⟩
  · -- The sum is read with the zero first, where it is known.
    have hswap : x + y = y + x := by
      refine eq_of_reading_eq ?_
      rw [reading_add x y, unpacked_add_comm, ← reading_add y x]
    left
    rw [hswap, zero_add hs fun s' hs' => hx ⟨s', hs'⟩]

end FleetEnergy.Binary64
