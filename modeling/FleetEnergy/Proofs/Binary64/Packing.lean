import Mathlib

/-! The 64 bit floats as packed words: every float is the packing of one canonical number, and
unpacking a packed canonical number gives it back, or infinity where the exponents end. -/
namespace FleetEnergy.Binary64
open Float.Model (Format UnpackedFloat)
open Float.Model.UnpackedFloat
set_option autoImplicit false

/-! ## Words and their fields -/

abbrev Word : Type := BitVec Format.binary64.numBits

theorem toNat_lt (b : Word) : b.toNat < 2 ^ 64 := b.isLt

theorem toNat_unpackMantissa (b : Word) : (unpackMantissa b).toNat = b.toNat % 2 ^ 52 := by
  simp [unpackMantissa, BitVec.extractLsb]

theorem toNat_unpackExponent (b : Word) : (unpackExponent b).toNat = b.toNat / 2 ^ 52 % 2 ^ 11 := by
  simp [unpackExponent, BitVec.extractLsb, Nat.shiftRight_eq_div_pow]

theorem toNat_unpackSign (b : Word) : (unpackSign b).toNat = b.toNat / 2 ^ 63 := by
  have := toNat_lt b
  simp [unpackSign, BitVec.extractLsb, Nat.shiftRight_eq_div_pow]
  omega

/-! ## Fields -/

def signOf (b : Word) : Sign := if b.toNat / 2 ^ 63 = 0 then .positive else .negative

def exponentField (b : Word) : Nat := b.toNat / 2 ^ 52 % 2 ^ 11

def fraction (b : Word) : Nat := b.toNat % 2 ^ 52

/-- The number that sign, exponent field and fraction stand for. -/
def decode (s : Sign) (e m : Nat) : UnpackedFloat :=
  if e = 2047 then if m = 0 then .infinity s else .notANumber
  else if e = 0 then if h : 0 < m then .finite s m (-1074) h else .zero s
  else .finite s (2 ^ 52 + m) (e - 1075) (by positivity)

theorem ofBitVec_unpackSign (b : Word) : Sign.ofBitVec (unpackSign b) = signOf b := by
  have h := toNat_unpackSign b
  unfold Sign.ofBitVec signOf
  simp only [← BitVec.toNat_inj, h]
  rfl

theorem toNat_append_implicit (m : BitVec Format.binary64.mantissaBitsWithoutImplicit) :
    (1#1 ++ m).toNat = 2 ^ 52 + m.toNat := by
  rw [BitVec.toNat_append, ← Nat.shiftLeft_add_eq_or_of_lt m.isLt]
  rfl

theorem finite_congr {s : Sign} {m m' : Nat} {e e' : Int} {h : 0 < m} {h' : 0 < m'} (hm : m = m')
    (he : e = e') : UnpackedFloat.finite s m e h = .finite s m' e' h' := by
  subst hm he
  rfl

theorem unpack_eq_decode (b : Word) :
    unpack Format.binary64 b = decode (signOf b) (exponentField b) (fraction b) := by
  have hm : (unpackMantissa b).toNat = fraction b := toNat_unpackMantissa b
  have he : (unpackExponent b).toNat = exponentField b := toNat_unpackExponent b
  have e1 : unpackExponent b = -1#_ ↔ exponentField b = 2047 := by
    rw [← BitVec.toNat_inj, he]
    rfl
  have e0 : unpackExponent b = 0#_ ↔ exponentField b = 0 := by
    rw [← BitVec.toNat_inj, he]
    rfl
  have m0 : unpackMantissa b = 0#_ ↔ fraction b = 0 := by
    rw [← BitVec.toNat_inj, hm]
    rfl
  unfold unpack decode
  simp only [e1, e0, m0, ofBitVec_unpackSign]
  split_ifs with h1 hz h0 hz hp hp
  · rfl
  · rfl
  · omega
  · rfl
  · exact finite_congr hm (by rw [he, h0]; rfl)
  · omega
  · refine finite_congr ?_ ?_
    · rw [toNat_append_implicit, hm]
    · rw [he]
      rfl

/-! ## Canonical numbers -/

/-- A mantissa of at most 53 bits, with all of them unless the exponent is the least one. -/
def Canonical : UnpackedFloat → Prop
  | .finite _ m e _ => m < 2 ^ 53 ∧ -1074 ≤ e ∧ (2 ^ 52 ≤ m ∨ e = -1074)
  | _ => True

/-- What is left of a canonical number when the exponents end: infinity beyond the last one. -/
def saturate : UnpackedFloat → UnpackedFloat
  | .finite s m e h => if 971 < e then .infinity s else .finite s m e h
  | u => u

theorem exponentField_lt (b : Word) : exponentField b < 2048 := Nat.mod_lt _ (by norm_num)

theorem fraction_lt (b : Word) : fraction b < 2 ^ 52 := Nat.mod_lt _ (by norm_num)

theorem canonical_decode (s : Sign) (e m : Nat) (hm : m < 2 ^ 52) : Canonical (decode s e m) := by
  unfold decode
  split_ifs with h1 hz h0 hp
  · trivial
  · trivial
  · exact ⟨by omega, le_refl _, .inr rfl⟩
  · trivial
  · exact ⟨by omega, by omega, .inl (by omega)⟩

theorem saturate_decode (s : Sign) (e m : Nat) (he : e < 2048) : saturate (decode s e m) = decode s e m := by
  unfold decode
  split_ifs with h1 hz h0 hp
  · rfl
  · rfl
  · rfl
  · rfl
  · exact if_neg (by omega)

theorem canonical_unpack (b : Word) : Canonical (unpack Format.binary64 b) := by
  rw [unpack_eq_decode]
  exact canonical_decode _ _ _ (fraction_lt b)

theorem saturate_unpack (b : Word) : saturate (unpack Format.binary64 b) = unpack Format.binary64 b := by
  rw [unpack_eq_decode]
  exact saturate_decode _ _ _ (exponentField_lt b)

/-- What the fields of packed components decode to. -/
theorem unpack_packComponents (s : Sign) (e m : Nat) (he : e < 2048) (hm : m < 2 ^ 52) :
    unpack Format.binary64 (packComponents Format.binary64 s (BitVec.ofNat _ e) (BitVec.ofNat _ m)) =
      decode s e m := by
  rw [unpack_eq_decode]
  congr 1
  · rw [← ofBitVec_unpackSign, unpackSign_packComponents, Sign.ofBitVec_toBitVec]
  · rw [exponentField, ← toNat_unpackExponent, unpackExponent_packComponents]
    exact Nat.mod_eq_of_lt he
  · rw [fraction, ← toNat_unpackMantissa, unpackMantissa_packComponents]
    exact Nat.mod_eq_of_lt hm

theorem allOnes_eq : (-1#_ : BitVec Format.binary64.exponentBits) = BitVec.ofNat _ 2047 := by decide

theorem unpack_packedInfinity (s : Sign) :
    unpack Format.binary64 (packedInfinity Format.binary64 s) = .infinity s := by
  have h := unpack_packComponents s 2047 0 (by norm_num) (by norm_num)
  rw [packedInfinity, allOnes_eq]
  exact h.trans (by simp [decode])

theorem unpack_pack (u : UnpackedFloat) (hu : Canonical u) :
    unpack Format.binary64 (pack Format.binary64 u) = saturate u := by
  cases u with
  | notANumber => exact unpack_packedNaN
  | infinity s => exact unpack_packedInfinity s
  | zero s => exact unpack_packedZero
  | finite s m e h =>
    obtain ⟨hm, he, hn⟩ := hu
    have hb : (Format.binary64.exponentBias : Int) = 1023 := rfl
    have hf : (Format.binary64.mantissaBitsWithoutImplicit : Int) = 52 := rfl
    have ht : 2 ^ Format.binary64.exponentBits = 2048 := rfl
    have hl : m.log2 + 1 = Format.binary64.mantissaBits ↔ 2 ^ 52 ≤ m := by
      change m.log2 + 1 = 53 ↔ _
      rw [← Nat.le_log2 h.ne']
      have := (Nat.log2_lt h.ne').2 hm
      omega
    simp only [pack, saturate, hl, hb, hf, ht]
    by_cases h1 : 971 < e
    · rw [if_pos (by omega), if_pos h1]
      exact unpack_packedInfinity s
    · rw [if_neg (by omega), if_neg h1]
      split_ifs with h2
      · have hsub : BitVec.ofNat Format.binary64.mantissaBitsWithoutImplicit m = BitVec.ofNat _ (m - 2 ^ 52) := by
          apply BitVec.eq_of_toNat_eq
          simp only [BitVec.toNat_ofNat]
          omega
        rw [hsub, unpack_packComponents s _ _ (by omega) (by omega)]
        unfold decode
        rw [if_neg (by omega), if_neg (by omega)]
        exact finite_congr (by omega) (by omega)
      · have he' : e = -1074 := by omega
        rw [show (0#_ : BitVec Format.binary64.exponentBits) = BitVec.ofNat _ 0 from rfl,
          unpack_packComponents s 0 m (by norm_num) (by omega)]
        unfold decode
        rw [if_neg (by norm_num), if_pos rfl, dif_pos h]
        exact finite_congr rfl he'.symm

theorem valid_of_defined (b : Word) (h : (unpack Format.binary64 b).isNaN = false) :
    Format.binary64.Valid b := by
  refine ⟨fun he hm => ?_⟩
  rw [unpack, if_pos he, if_neg hm] at h
  cases h

/-! ## Floats -/

/-- The number behind a float. -/
def reading (x : Float) : UnpackedFloat := x.toModel.unpack

/-- The float of a number. -/
def ofReading (u : UnpackedFloat) : Float := .ofModel (.pack u)

theorem canonical_reading (x : Float) : Canonical (reading x) := canonical_unpack _

theorem ofReading_reading (x : Float) : ofReading (reading x) = x := by
  obtain ⟨⟨bits, valid⟩⟩ := x
  unfold ofReading reading Float.Model.unpack Float.Model.pack
  simp only [pack_unpack_of_valid valid]

theorem reading_ofBits (w : UInt64) : reading (Float.ofBits w) = unpack Format.binary64 w.toBitVec :=
  (unpack_pack _ (canonical_unpack _)).trans (saturate_unpack _)

theorem toBits_ofBits (w : UInt64) (h : (Float.ofBits w).isNaN = false) : (Float.ofBits w).toBits = w := by
  change (reading (Float.ofBits w)).isNaN = false at h
  rw [reading_ofBits] at h
  exact congrArg UInt64.ofBitVec (pack_unpack_of_valid (valid_of_defined _ h))

theorem eq_of_reading_eq {x y : Float} (h : reading x = reading y) : x = y := by
  rw [← ofReading_reading x, h, ofReading_reading]

end FleetEnergy.Binary64
