import Mathlib.Algebra.Order.Ring.Int
import Mathlib.Algebra.Group.Nat.Even
import Mathlib.Data.Fintype.EquivFin
import Mathlib.Data.Nat.Prime.Basic
import FleetEnergy.Random

/-! No two vehicles draw from the same generator. Every step from the seed and the number of a vehicle to the words of
its generator can be undone, and so can every draw: generators that differ at the start differ after every number of
draws, and none gets into the state in which only zeros are drawn. -/
namespace FleetEnergy
set_option autoImplicit false

namespace Random

/-- The generator whose words are all zero. -/
def Generator.silent : Generator := ⟨0, 0, 0, 0⟩

/-! ## Words -/

/-- A word is known from what it differs in from its image, if differences go over to the images and only zero is its
own image. -/
theorem xor_image_injective {f : UInt64 → UInt64} (hxor : ∀ x y, f (x ^^^ y) = f x ^^^ f y)
    (hfixed : ∀ d, f d = d → d = 0) : Function.Injective fun x => x ^^^ f x := by
  intro x y h
  have hdiff : (x ^^^ y) ^^^ (f x ^^^ f y) = 0 := by
    have hzero := UInt64.xor_eq_zero_iff.2 h
    dsimp only at hzero
    rw [← hzero]
    ac_rfl
  rw [← hxor] at hdiff
  exact UInt64.xor_eq_zero_iff.1 (hfixed _ (UInt64.xor_eq_zero_iff.1 hdiff).symm)

theorem xor_shiftRight_injective {k : UInt64} (hk : k.toNat % 64 ≠ 0) :
    Function.Injective fun x : UInt64 => x ^^^ (x >>> k) := by
  refine xor_image_injective (fun x y => UInt64.shiftRight_xor) fun d hd => ?_
  have hnat : d.toNat / 2 ^ (k.toNat % 64) = d.toNat := by
    have h := congrArg UInt64.toNat hd
    rwa [UInt64.toNat_shiftRight, Nat.shiftRight_eq_div_pow] at h
  by_contra hne
  have hpos : 0 < d.toNat := Nat.pos_of_ne_zero fun h0 => hne (UInt64.toNat_inj.1 h0)
  exact (Nat.div_lt_self hpos (Nat.one_lt_two_pow hk)).ne hnat

/-- What is the same after a shift to the left is a multiple of the size of a word. -/
theorem xor_shiftLeft_injective {k : UInt64} (hk : k.toNat % 64 ≠ 0) :
    Function.Injective fun x : UInt64 => x ^^^ (x <<< k) := by
  refine xor_image_injective (fun x y => UInt64.shiftLeft_xor) fun d hd => ?_
  have hlt := d.toNat_lt
  have hnat : d.toNat * 2 ^ (k.toNat % 64) % 2 ^ 64 = d.toNat := by
    have h := congrArg UInt64.toNat hd
    rwa [UInt64.toNat_shiftLeft, Nat.shiftLeft_eq] at h
  have hdvd : 2 ^ 64 ∣ d.toNat * (2 ^ (k.toNat % 64) - 1) := by
    have h : 2 ^ 64 ∣ d.toNat * 2 ^ (k.toNat % 64) - d.toNat * 2 ^ (k.toNat % 64) % 2 ^ 64 := Nat.dvd_sub_mod _
    rwa [hnat, ← Nat.mul_sub_one] at h
  have hodd : Odd (2 ^ (k.toNat % 64) - 1) :=
    Nat.Even.sub_odd Nat.one_le_two_pow ((Nat.even_pow.2 ⟨even_two, hk⟩)) odd_one
  have hzero : 2 ^ 64 ∣ d.toNat := ((Nat.coprime_two_left.2 hodd).pow_left 64).dvd_of_dvd_mul_right hdvd
  exact UInt64.toNat_inj.1 (Nat.eq_zero_of_dvd_of_lt hzero hlt)

theorem mul_injective {c r : UInt64} (h : c * r = 1) : Function.Injective fun x : UInt64 => x * c := by
  intro x y hxy
  have hback := congrArg (· * r) hxy
  simpa only [UInt64.mul_assoc, h, UInt64.mul_one] using hback

section Rotation

variable {k : UInt64} (h0 : 0 < k.toNat) (hk : k.toNat < 64)
include hk

theorem two_pow_split : 2 ^ 64 = 2 ^ (64 - k.toNat) * 2 ^ k.toNat := by
  rw [← Nat.pow_add]
  congr 1
  omega

theorem upper_lt (x : UInt64) : x.toNat / 2 ^ (64 - k.toNat) < 2 ^ k.toNat := by
  rw [Nat.div_lt_iff_lt_mul (Nat.two_pow_pos _), Nat.mul_comm, ← two_pow_split hk]
  exact x.toNat_lt

include h0

/-- A rotation takes the upper digits to the end. -/
theorem toNat_rotateLeft (x : UInt64) :
    (rotateLeft x k).toNat = x.toNat % 2 ^ (64 - k.toNat) * 2 ^ k.toNat + x.toNat / 2 ^ (64 - k.toNat) := by
  have hrest : (64 - k).toNat = 64 - k.toNat := UInt64.toNat_sub_of_le _ _ (UInt64.le_iff_toNat_le.2 hk.le)
  have hleft : (x <<< k).toNat = (x.toNat % 2 ^ (64 - k.toNat)) <<< k.toNat := by
    rw [UInt64.toNat_shiftLeft, Nat.mod_eq_of_lt hk, Nat.shiftLeft_eq, Nat.shiftLeft_eq, two_pow_split hk,
      Nat.mul_mod_mul_right]
  have hright : (x >>> (64 - k)).toNat = x.toNat / 2 ^ (64 - k.toNat) := by
    rw [UInt64.toNat_shiftRight, hrest, Nat.mod_eq_of_lt (by omega), Nat.shiftRight_eq_div_pow]
  rw [rotateLeft, UInt64.toNat_or, hleft, hright, ← Nat.shiftLeft_add_eq_or_of_lt (upper_lt hk x), Nat.shiftLeft_eq]

theorem rotateLeft_injective : Function.Injective fun x => rotateLeft x k := by
  intro x y h
  have hnat := congrArg UInt64.toNat h
  dsimp only at hnat
  rw [toNat_rotateLeft h0 hk x, toNat_rotateLeft h0 hk y] at hnat
  have hupper : x.toNat / 2 ^ (64 - k.toNat) = y.toNat / 2 ^ (64 - k.toNat) := by
    have hmod := congrArg (· % 2 ^ k.toNat) hnat
    simpa only [Nat.mul_add_mod_self_right, Nat.mod_eq_of_lt (upper_lt hk _)] using hmod
  have hlower : x.toNat % 2 ^ (64 - k.toNat) = y.toNat % 2 ^ (64 - k.toNat) := by
    rw [hupper] at hnat
    exact Nat.eq_of_mul_eq_mul_right (Nat.two_pow_pos _) (Nat.add_right_cancel hnat)
  apply UInt64.toNat_inj.1
  rw [← Nat.div_add_mod x.toNat (2 ^ (64 - k.toNat)), hupper, hlower, Nat.div_add_mod]

end Rotation

/-! ## Seeding -/

theorem combine_injective (seed : UInt64) : Function.Injective (combine seed) := by
  intro v w h
  have hproduct := (UInt64.xor_right_inj seed).1 h
  have hnumber := mul_injective (c := goldenStep) (r := 0xF1DE83E19937733D) (by decide) hproduct
  have hnode := UInt32.toUInt64_inj.1 ((UInt64.add_left_inj 1).1 hnumber)
  cases v
  cases w
  exact congrArg VehicleId.mk hnode

/-- Combining a seed twice with a vehicle gives the seed back. -/
theorem combine_involutive (v : VehicleId) : Function.Involutive fun seed => combine seed v := by
  intro seed
  change (seed ^^^ _) ^^^ _ = seed
  rw [UInt64.xor_assoc, UInt64.xor_self, UInt64.xor_zero]

theorem mix_injective : Function.Injective mix := by
  have hfirst := (mul_injective (c := 0xBF58476D1CE4E5B9) (r := 0x96DE1B173F119089) (by decide)).comp
    (xor_shiftRight_injective (k := 30) (by decide))
  have hsecond := (mul_injective (c := 0x94D049BB133111EB) (r := 0x319642B2D24D8EC3) (by decide)).comp
    (xor_shiftRight_injective (k := 27) (by decide))
  exact (xor_shiftRight_injective (k := 31) (by decide)).comp (hsecond.comp hfirst)

theorem add_goldenStep_injective : Function.Injective (· + goldenStep) :=
  fun _ _ h => (UInt64.add_left_inj goldenStep).1 h

/-- Each of the four words tells the seed. -/
theorem word_injective : (Function.Injective fun x => (ofSeed x).s0) ∧ (Function.Injective fun x => (ofSeed x).s1) ∧
    (Function.Injective fun x => (ofSeed x).s2) ∧ Function.Injective fun x => (ofSeed x).s3 := by
  have hone := add_goldenStep_injective
  have htwo := hone.comp hone
  have hthree := hone.comp htwo
  exact ⟨mix_injective.comp hone, mix_injective.comp htwo, mix_injective.comp hthree,
    mix_injective.comp (hone.comp hthree)⟩

/-- Two of the words would have to be mixed from the same counter, zero. -/
theorem ofSeed_ne_silent (x : UInt64) : ofSeed x ≠ .silent := by
  intro h
  have h0 : mix (x + goldenStep) = mix 0 := congrArg Generator.s0 h
  have h1 : mix (x + goldenStep + goldenStep) = mix 0 := congrArg Generator.s1 h
  have hfirst : x + goldenStep = 0 := mix_injective h0
  have hsecond : x + goldenStep + goldenStep = 0 := mix_injective h1
  rw [hfirst] at hsecond
  exact absurd hsecond (by decide)

/-! ## Drawing -/

theorem next_silent : next .silent = (0, .silent) := by decide

/-- The words before a draw follow from those after it, the first one first. -/
theorem next_injective : Function.Injective fun g => (next g).2 := by
  rintro ⟨a0, a1, a2, a3⟩ ⟨b0, b1, b2, b3⟩ h
  simp only [next, Generator.mk.injEq] at h
  obtain ⟨h0, h1, h2, h3⟩ := h
  have hturned : a3 ^^^ a1 = b3 ^^^ b1 := rotateLeft_injective (k := 45) (by decide) (by decide) h3
  rw [hturned, UInt64.xor_left_inj] at h0
  have hshifted : a1 ^^^ (a1 <<< 17) = b1 ^^^ (b1 <<< 17) := by
    have hxor := congrArg₂ (· ^^^ ·) h1 h2
    rwa [UInt64.xor_assoc, ← UInt64.xor_assoc (a2 ^^^ a0), UInt64.xor_self, UInt64.zero_xor, UInt64.xor_assoc,
      ← UInt64.xor_assoc (b2 ^^^ b0), UInt64.xor_self, UInt64.zero_xor] at hxor
  obtain rfl := h0
  obtain rfl := xor_shiftLeft_injective (k := 17) (by decide) hshifted
  rw [UInt64.xor_right_inj, UInt64.xor_left_inj] at h1
  rw [UInt64.xor_left_inj] at hturned
  rw [h1, hturned]

/-- The generator after a number of draws. -/
def afterDraws (n : Nat) (g : Generator) : Generator := (fun g => (next g).2)^[n] g

theorem afterDraws_injective (n : Nat) : Function.Injective (afterDraws n) := next_injective.iterate n

theorem afterDraws_silent (n : Nat) : afterDraws n .silent = .silent :=
  Function.iterate_fixed (congrArg Prod.snd next_silent) n

/-- Vehicles get different generators from every seed, seeds give a vehicle different generators, and each of the four
words tells them apart. The generator that is silent for good is not among them, neither at the start nor later, and
two vehicles do not come to the same generator after the same number of draws. -/
theorem vehicles_draw_apart :
    (∀ seed, Function.Injective (combine seed)) ∧
    (∀ v, Function.Bijective fun seed => combine seed v) ∧
    ((Function.Injective fun x => (ofSeed x).s0) ∧ (Function.Injective fun x => (ofSeed x).s1) ∧
      (Function.Injective fun x => (ofSeed x).s2) ∧ Function.Injective fun x => (ofSeed x).s3) ∧
    (∀ n, (next (afterDraws n .silent)).1 = 0) ∧
    (∀ x n, afterDraws n (ofSeed x) ≠ .silent) ∧
    ∀ seed n, Function.Injective fun v => afterDraws n (forVehicle seed v) := by
  refine ⟨combine_injective, fun v => (combine_involutive v).bijective, word_injective, fun n => ?_, fun x n h => ?_,
    fun seed n v w h => ?_⟩
  · rw [afterDraws_silent, next_silent]
  · exact ofSeed_ne_silent x (afterDraws_injective n (h.trans (afterDraws_silent n).symm))
  · have hfirst := congrArg Generator.s0 (afterDraws_injective n h)
    exact combine_injective seed (word_injective.1 hfirst)

end Random

end FleetEnergy
