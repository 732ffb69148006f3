import FleetEnergy.Document.Atom
import FleetEnergy.Proofs.Binary64.Difference
import FleetEnergy.Proofs.Decimal.Numeral
import FleetEnergy.Proofs.Instant

/-! Floats in configuration documents: every float is read back from its text, the zeros with their signs and the values
that are not finite among them. -/
namespace FleetEnergy.Decimal
open Binary64
open Float.Model (Format UnpackedFloat)
open Float.Model.UnpackedFloat
set_option autoImplicit false

variable {m : ℕ} {e : Int}

/-! ## The parts of a float -/

def signed (negative : Bool) : Sign := if negative then .negative else .positive

/-- The number that the parts of a float stand for. -/
def Parts.number : Parts → UnpackedFloat
  | .undefined => .notANumber
  | .infinite negative => .infinity (signed negative)
  | .finite negative m e => if h : 0 < m then .finite (signed negative) m e h else .zero (signed negative)

/-- The parts that sign, exponent field and fraction stand for. -/
def Parts.ofFields (negative : Bool) (field fraction : ℕ) : Parts :=
  if field = 2047 then (if fraction = 0 then .infinite negative else .undefined)
  else if field = 0 then .finite negative fraction (-1074)
  else .finite negative (2 ^ 52 + fraction) (field - 1075)

theorem ofBits_eq_ofFields (w : UInt64) : Parts.ofBits w =
    .ofFields (decide (2 ^ 63 ≤ w.toNat)) (exponentField w.toBitVec) (Binary64.fraction w.toBitVec) := rfl

theorem number_ofFields (negative : Bool) (field fraction : ℕ) :
    (Parts.ofFields negative field fraction).number = decode (signed negative) field fraction := by
  unfold Parts.ofFields decode
  split_ifs with hlast hzero hleast hpos
  · rfl
  · rfl
  · exact dif_pos hpos
  · exact dif_neg hpos
  · exact dif_pos (by positivity)

theorem signOf_eq_signed (w : UInt64) : signOf w.toBitVec = signed (decide (2 ^ 63 ≤ w.toNat)) := by
  have hn := w.toNat_lt
  unfold signOf signed
  simp only [UInt64.toNat_toBitVec, decide_eq_true_eq]
  split_ifs <;> first | rfl | omega

theorem reading_eq_number (x : Float) : reading x = (Parts.ofFloat x).number := by
  have hdecode := unpack_eq_decode x.toBits.toBitVec
  change reading x = _ at hdecode
  rw [hdecode, Parts.ofFloat, ofBits_eq_ofFields, number_ofFields, signOf_eq_signed]

/-- The parts of a float with a mantissa are those of a number in range. -/
theorem legal_of_parts {x : Float} {negative : Bool} (h : Parts.ofFloat x = .finite negative m e) (hm : 0 < m) :
    Legal m e := by
  have hr := reading_eq_number x
  rw [h, Parts.number, dif_pos hm] at hr
  obtain ⟨hcanonical, hsaturated⟩ := inRange_reading x
  rw [hr] at hcanonical hsaturated
  obtain ⟨hbits, hleast, hfull⟩ := hcanonical
  refine ⟨hm, hbits, hleast, ?_, hfull⟩
  by_contra hgreat
  rw [saturate, if_pos (by omega)] at hsaturated
  cases hsaturated

/-- A positive number has one float. -/
theorem reading_of_units {y : Float} (hl : Legal m e) (hn : y.isNaN = false) (hu : unitsOf y = magnitude m e) :
    reading y = .finite .positive m e hl.pos := by
  have hfloat : reading (ofReading (.finite .positive m e hl.pos)) = .finite .positive m e hl.pos := by
    have hsaturated : saturate (.finite .positive m e hl.pos) = .finite .positive m e hl.pos :=
      if_neg (by have := hl.greatest; omega)
    have hcanonical : Canonical (.finite .positive m e hl.pos) := ⟨hl.bits, hl.least, hl.full⟩
    exact (unpack_pack _ hcanonical).trans hsaturated
  have hpos := magnitude_pos m e hl.pos
  have hsame : y = ofReading (.finite .positive m e hl.pos) := by
    refine Instant.eq_of_units_eq hn (congrArg UnpackedFloat.isNaN hfloat) ?_ (by omega)
    rw [hu, unitsOf, hfloat]
    rfl
  rw [hsame, hfloat]

theorem number_negative (m : ℕ) (e : Int) : (Parts.finite true m e).number = (Parts.finite false m e).number.neg := by
  unfold Parts.number
  dsimp only
  split_ifs <;> rfl

/-! ## Finite floats -/

theorem toLower_of_isDigit {d : Char} (h : d.isDigit = true) : d.toLower = d := by
  unfold Char.isDigit at h
  unfold Char.toLower
  simp only [Bool.and_eq_true, decide_eq_true_eq] at h
  rw [dif_neg]
  rintro ⟨hA, -⟩
  have hlow := UInt32.le_iff_toNat_le.1 hA
  have hhigh := UInt32.le_iff_toNat_le.1 h.2
  have h9 : '9'.val.toNat = 57 := rfl
  have hA : 'A'.val.toNat = 65 := rfl
  omega

theorem readUnsigned_of_digit {cs : List Char} (h : StartsWithDigit cs) :
    readUnsigned cs = (readScientific cs).map fun p => nearest p.1 p.2 := by
  obtain ⟨d, r, rfl, hd⟩ := h
  have hname (c : Char) (name : List Char) (hc : c.isDigit = false) :
      (String.ofList ((d :: r).map Char.toLower) == String.ofList (c :: name)) = false := by
    rw [beq_eq_false_iff_ne]
    intro heq
    rw [String.ofList_inj, List.map_cons, toLower_of_isDigit hd] at heq
    rw [(List.cons.inj heq).1] at hd
    exact Bool.false_ne_true (hc.symm.trans hd)
  have hinf : (String.ofList ((d :: r).map Char.toLower) == "inf") = false := hname 'i' ['n', 'f'] rfl
  have hinfinity : (String.ofList ((d :: r).map Char.toLower) == "infinity") = false :=
    hname 'i' ['n', 'f', 'i', 'n', 'i', 't', 'y'] rfl
  have hnan : (String.ofList ((d :: r).map Char.toLower) == "nan") = false := hname 'n' ['a', 'n'] rfl
  unfold readUnsigned
  simp only [hinf, hinfinity, hnan, Bool.or_false, Bool.false_eq_true, if_false]

/-- A layout as numerals are read: a point and a zero end a whole number, and no plus sign stands before an exponent. -/
structure Layout.Pointed (l : Layout) : Prop where
  wholeEnding : l.wholeEnding = ".0"
  exponentPlus : l.exponentPlus = ""

variable {l : Layout}

/-- The text of a positive float is read as the float. -/
theorem readUnsigned_unsigned (hp : l.Pointed) (hl : Legal m e) :
    StartsWithDigit (l.unsigned m e).toList ∧
      ∃ y, readUnsigned (l.unsigned m e).toList = some y ∧ y.isNaN = false ∧ unitsOf y = magnitude m e := by
  obtain ⟨hpos, -⟩ := shortest_within l.tie hl
  obtain ⟨d, hd⟩ : ∃ d, d = shortest l.tie m e := ⟨_, rfl⟩
  have hdigits := areDigits_natDigits d.coefficient
  have hreads : Reads (l.unsigned m e).toList (natDigits d.coefficient) d.exponent := by
    unfold Layout.unsigned
    rw [if_neg hl.pos.ne', hp.wholeEnding, hp.exponentPlus]
    dsimp only
    rw [← hd]
    -- Whatever powers of ten are written with an exponent, both forms are read.
    split_ifs
    · exact reads_positionalText hdigits _
    · exact reads_exponentText hdigits _
  obtain ⟨hstart, M, E, hread, hvalue⟩ := hreads
  rw [readUnsigned_of_digit hstart, hread]
  refine ⟨hstart, _, rfl, ?_⟩
  rw [natOfDigits_natDigits] at hvalue
  have hM : 0 < M := by
    rw [Nat.pos_iff_ne_zero]
    rintro rfl
    rw [Nat.cast_zero, zero_mul, hd] at hvalue
    have hright : (0 : ℚ) < (shortest l.tie m e).coefficient * 10 ^ (shortest l.tie m e).exponent :=
      mul_pos (by exact_mod_cast hpos) (by positivity)
    exact hright.ne hvalue
  obtain ⟨hdef, hunits⟩ := nearest_decimal hM E
  refine units_nearest_shortest l.tie hl ⟨hdef, ?_⟩
  rw [hunits, decimalUnits, hvalue, hd, decimalUnits]

theorem readUnsigned_zero (hp : l.Pointed) (e : Int) : StartsWithDigit (l.unsigned 0 e).toList ∧
    readUnsigned (l.unsigned 0 e).toList = some 0.0 := by
  have htext : (l.unsigned 0 e).toList = ['0', '.', '0'] := by
    rw [Layout.unsigned, if_pos rfl, hp.wholeEnding]
    rfl
  have hstart : StartsWithDigit ['0', '.', '0'] := ⟨'0', ['.', '0'], rfl, rfl⟩
  rw [htext, readUnsigned_of_digit hstart]
  exact ⟨hstart, rfl⟩

theorem readNumber_of_digit {cs : List Char} {y : Float} (h : StartsWithDigit cs) (hy : readUnsigned cs = some y) :
    readNumber cs = .ok y ∧ readNumber ('-' :: cs) = .ok (-y) := by
  constructor
  · obtain ⟨d, r, rfl, hd⟩ := h
    unfold readNumber
    split
    · rename_i heq
      cases heq
      cases hd
    · rename_i heq
      cases heq
      cases hd
    · simp only [hy]
  · unfold readNumber
    simp only [hy, Option.map_some]

/-! ## Written floats -/

variable {x : Float} {negative : Bool}

/-- The text of the mantissa and the exponent of a float is read as the float without its sign. -/
theorem readUnsigned_parts (hp : l.Pointed) (h : Parts.ofFloat x = .finite negative m e) :
    StartsWithDigit (l.unsigned m e).toList ∧
      ∃ y, readUnsigned (l.unsigned m e).toList = some y ∧ reading y = (Parts.finite false m e).number := by
  rw [Parts.number]
  by_cases hm : 0 < m
  · have hl := legal_of_parts h hm
    obtain ⟨hstart, y, hy, hyn, hyu⟩ := readUnsigned_unsigned hp hl
    rw [dif_pos hm]
    exact ⟨hstart, y, hy, reading_of_units hl hyn hyu⟩
  · obtain rfl : m = 0 := by omega
    obtain ⟨hstart, hy⟩ := readUnsigned_zero hp e
    rw [dif_neg hm]
    exact ⟨hstart, 0.0, hy, rfl⟩

theorem isFinite_of_parts (h : Parts.ofFloat x = .finite negative m e) : x.isFinite = true := by
  have hr := reading_eq_number x
  rw [h, Parts.number] at hr
  change (reading x).isFinite = true
  rw [hr]
  split_ifs <;> rfl

/-- Every finite float is read back from its text, which is a digit first or a minus sign before one. -/
theorem readNumber_write_finite (hp : l.Pointed) (h : Parts.ofFloat x = .finite negative m e) :
    readNumber (l.write x).toList = .ok x ∧
      ∃ cs, StartsWithDigit cs ∧ ((l.write x).toList = cs ∨ (l.write x).toList = '-' :: cs) := by
  obtain ⟨hstart, y, hy, hyr⟩ := readUnsigned_parts hp h
  obtain ⟨hpos, hneg⟩ := readNumber_of_digit hstart hy
  have hr := reading_eq_number x
  rw [h] at hr
  have hwrite : (l.write x).toList = (if negative then "-" else "").toList ++ (l.unsigned m e).toList := by
    rw [Layout.write, h, String.toList_append]
  rw [hwrite]
  cases negative with
  | false =>
    obtain rfl : y = x := eq_of_reading_eq (hyr.trans hr.symm)
    exact ⟨hpos, _, hstart, .inl rfl⟩
  | true =>
    obtain rfl : -y = x := eq_of_reading_eq (by rw [reading_neg, hyr, hr, number_negative])
    exact ⟨hneg, _, hstart, .inr rfl⟩

/-- The floats whose texts are not numerals. -/
theorem write_cases (x : Float) : x = 0.0 / 0.0 ∨ x = 1.0 / 0.0 ∨ x = -1.0 / 0.0 ∨
    ∃ negative m e, Parts.ofFloat x = .finite negative m e := by
  have hr := reading_eq_number x
  cases h : Parts.ofFloat x with
  | undefined =>
    rw [h] at hr
    exact .inl (eq_of_reading_eq (hr.trans rfl))
  | infinite negative =>
    rw [h] at hr
    cases negative with
    | false => exact .inr (.inl (eq_of_reading_eq (hr.trans rfl)))
    | true => exact .inr (.inr (.inl (eq_of_reading_eq (hr.trans rfl))))
  | finite negative m e => exact .inr (.inr (.inr ⟨negative, m, e, rfl⟩))

end FleetEnergy.Decimal
