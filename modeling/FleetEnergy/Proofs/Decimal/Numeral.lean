import FleetEnergy.Decimal.Layout
import FleetEnergy.Proofs.Decimal.Shortest

/-! Numerals as they are written and read: digits with a point among them, and digits with a power of ten. What is read
has the value of what was written. -/
namespace FleetEnergy.Decimal
open Binary64
set_option autoImplicit false

/-! ## Digits -/

/-- Digits, and at least one of them. -/
structure AreDigits (cs : List Char) : Prop where
  nonempty : cs ≠ []
  digits : ∀ c ∈ cs, c.isDigit = true

theorem natOfDigits_eq (n : ℕ) (cs : List Char) : natOfDigits n cs = Nat.ofDigitChars 10 cs n := by
  rw [Nat.ofDigitChars_eq_foldl]
  refine congrArg (fun f => cs.foldl f n) ?_
  funext m c
  exact congrArg (· + (c.toNat - 48)) (Nat.mul_comm m 10)

theorem areDigits_natDigits (n : ℕ) : AreDigits (natDigits n) :=
  ⟨Nat.toDigits_ne_nil, fun _ hc => Nat.isDigit_of_mem_toDigits (by norm_num) (by norm_num) hc⟩

theorem natOfDigits_natDigits (n : ℕ) : natOfDigits 0 (natDigits n) = n := by
  rw [natOfDigits_eq]
  exact Nat.ofDigitChars_ten_toDigits

theorem natOfDigits_append (n : ℕ) (cs ds : List Char) : natOfDigits n (cs ++ ds) = natOfDigits (natOfDigits n cs) ds :=
  List.foldl_append

theorem natOfDigits_zeros (n k : ℕ) : natOfDigits n (List.replicate k '0') = n * 10 ^ k := by
  induction k generalizing n with
  | zero => rw [Nat.pow_zero, Nat.mul_one]; rfl
  | succ k ih =>
    have hstep : natOfDigits n (List.replicate (k + 1) '0') = natOfDigits (n * 10) (List.replicate k '0') := rfl
    rw [hstep, ih, Nat.pow_succ', Nat.mul_assoc]

theorem AreDigits.append {cs ds : List Char} (h : AreDigits cs) (hd : ∀ c ∈ ds, c.isDigit = true) :
    AreDigits (cs ++ ds) :=
  ⟨List.append_ne_nil_of_left_ne_nil h.nonempty ds, List.forall_mem_append.2 ⟨h.digits, hd⟩⟩

theorem isDigit_zeros (k : ℕ) : ∀ c ∈ List.replicate k '0', c.isDigit = true := fun _ hc =>
  (List.eq_of_mem_replicate hc).symm ▸ rfl

/-- The first of the characters is a digit. -/
def StartsWithDigit (cs : List Char) : Prop := ∃ d r, cs = d :: r ∧ d.isDigit = true

theorem AreDigits.starts {ds : List Char} (h : AreDigits ds) (rest : List Char) : StartsWithDigit (ds ++ rest) := by
  cases ds with
  | nil => exact absurd rfl h.nonempty
  | cons d r => exact ⟨d, r ++ rest, rfl, h.digits d List.mem_cons_self⟩

/-- Digits are taken up to the first other character. -/
theorem span_digits {ds : List Char} (rest : List Char) (hd : ∀ c ∈ ds, c.isDigit = true)
    (hr : ∀ c ∈ rest.head?, c.isDigit = false) :
    (ds ++ rest).takeWhile Char.isDigit = ds ∧ (ds ++ rest).dropWhile Char.isDigit = rest := by
  rw [List.takeWhile_append_of_pos hd, List.dropWhile_append_of_pos hd]
  cases rest with
  | nil => exact ⟨List.append_nil ds, rfl⟩
  | cons c r =>
    have hc : c.isDigit = false := hr c rfl
    rw [List.takeWhile_cons, List.dropWhile_cons, hc]
    exact ⟨List.append_nil ds, rfl⟩

/-! ## Reading -/

theorem readScientific_point {whole fraction : List Char} (hw : AreDigits whole)
    (hf : ∀ c ∈ fraction, c.isDigit = true) :
    readScientific (whole ++ '.' :: fraction) =
      some (natOfDigits (natOfDigits 0 whole) fraction, -(fraction.length : Int)) := by
  obtain ⟨htake, hdrop⟩ := span_digits ('.' :: fraction) hw.digits (by simp)
  obtain ⟨hftake, hfdrop⟩ := span_digits [] hf (by simp)
  rw [List.append_nil] at hftake hfdrop
  have hne : whole.isEmpty = false := by simpa using hw.nonempty
  unfold readScientific
  simp only [htake, hdrop, hftake, hfdrop, hne, Bool.false_and, Bool.false_eq_true, if_false]

theorem readScientific_power {whole power : List Char} (hw : AreDigits whole) :
    readScientific (whole ++ 'e' :: power) = (readExponent power).map fun e => (natOfDigits 0 whole, e) := by
  obtain ⟨htake, hdrop⟩ := span_digits ('e' :: power) hw.digits (by simp)
  have hne : whole.isEmpty = false := by simpa using hw.nonempty
  unfold readScientific
  simp only [htake, hdrop, hne, Bool.false_and, Bool.false_eq_true, if_false]
  change (readExponent power).map (fun e => (natOfDigits 0 whole, e + -((0 : ℕ) : Int))) = _
  simp only [Nat.cast_zero, neg_zero, Int.add_zero]

theorem readScientific_point_power {whole fraction power : List Char} (hw : AreDigits whole)
    (hf : ∀ c ∈ fraction, c.isDigit = true) :
    readScientific (whole ++ '.' :: (fraction ++ 'e' :: power)) =
      (readExponent power).map fun e => (natOfDigits 0 (whole ++ fraction), e - (fraction.length : Int)) := by
  obtain ⟨htake, hdrop⟩ := span_digits ('.' :: (fraction ++ 'e' :: power)) hw.digits (by simp)
  obtain ⟨hftake, hfdrop⟩ := span_digits ('e' :: power) hf (by simp)
  have hne : whole.isEmpty = false := by simpa using hw.nonempty
  unfold readScientific
  simp only [htake, hdrop, hftake, hfdrop, hne, Bool.false_and, Bool.false_eq_true, if_false, beq_self_eq_true,
    Bool.true_or, if_true, natOfDigits_append]
  rfl

theorem readExponent_written (k : Int) :
    readExponent ((if k < 0 then "-" else "").toList ++ natDigits k.natAbs) = some k := by
  have hd := areDigits_natDigits k.natAbs
  have hne : (natDigits k.natAbs).isEmpty = false := by simpa using hd.nonempty
  have hall : (natDigits k.natAbs).any (! ·.isDigit) = false := by
    rw [List.any_eq_false]
    intro c hc
    rw [hd.digits c hc]
    decide
  have hnat := natOfDigits_natDigits k.natAbs
  split_ifs with hk
  · have hneg : -(k.natAbs : Int) = k := by omega
    change (if (natDigits k.natAbs).isEmpty || (natDigits k.natAbs).any (! ·.isDigit) then none
      else some (-(natOfDigits 0 (natDigits k.natAbs) : Int))) = some k
    rw [hne, hall, hnat, hneg]
    rfl
  · have hpos : (k.natAbs : Int) = k := by omega
    rw [String.toList_empty, List.nil_append]
    have hfirst : ∀ c ∈ (natDigits k.natAbs).head?, c.isDigit = true := fun c hc =>
      hd.digits c (List.mem_of_mem_head? hc)
    revert hne hall hnat hfirst
    generalize natDigits k.natAbs = ds
    intro hne hall hnat hfirst
    unfold readExponent
    split
    rename_i x negative ds' heq
    split at heq
    · cases hfirst '-' rfl
    · cases hfirst '+' rfl
    · cases heq
      rw [hne, hall, hnat, hpos]
      rfl

/-! ## Writing and reading -/

/-- What is read is a numeral whose value is that of the digits before their power of ten. -/
structure Reads (cs digits : List Char) (g : Int) : Prop where
  starts : StartsWithDigit cs
  value : ∃ (m : ℕ) (e : Int), readScientific cs = some (m, e) ∧ (m : ℚ) * 10 ^ e = natOfDigits 0 digits * 10 ^ g

variable {digits : List Char}

/-- Digits with zeros behind them. -/
theorem reads_whole (h : AreDigits digits) (n : ℕ) :
    Reads (digits ++ List.replicate n '0' ++ '.' :: ['0']) digits n := by
  have hwhole := h.append (isDigit_zeros n)
  refine ⟨hwhole.starts _, _, _, readScientific_point hwhole (isDigit_zeros 1), ?_⟩
  have hzero : natOfDigits (natOfDigits 0 (digits ++ List.replicate n '0')) ['0'] = _ := natOfDigits_zeros _ 1
  have hvalue : natOfDigits 0 (digits ++ List.replicate n '0') = natOfDigits 0 digits * 10 ^ n := by
    rw [natOfDigits_append, natOfDigits_zeros]
  rw [hzero, hvalue, List.length_singleton, zpow_neg, zpow_natCast, zpow_natCast]
  push_cast
  field_simp

/-- Digits with a point before the last of them. -/
theorem reads_pointed (h : ∀ c ∈ digits, c.isDigit = true) {n : ℕ} (hn : n < digits.length) :
    Reads (digits.take (digits.length - n) ++ '.' :: digits.drop (digits.length - n)) digits (-n) := by
  have hwhole : AreDigits (digits.take (digits.length - n)) := by
    refine ⟨List.ne_nil_of_length_pos ?_, fun c hc => h c (List.mem_of_mem_take hc)⟩
    rw [List.length_take]
    omega
  refine ⟨hwhole.starts _, _, _, readScientific_point hwhole fun c hc => h c (List.mem_of_mem_drop hc), ?_⟩
  have hplaces : digits.length - (digits.length - n) = n := by omega
  rw [← natOfDigits_append, List.take_append_drop, List.length_drop, hplaces]

theorem reads_positionalText (h : AreDigits digits) (g : Int) :
    Reads (positionalText ".0" digits g).toList digits g := by
  unfold positionalText
  split_ifs with hg
  · obtain ⟨n, rfl⟩ := Int.eq_ofNat_of_zero_le hg
    rw [String.toList_append, String.toList_ofList, Int.toNat_natCast]
    exact reads_whole h n
  · obtain ⟨n, hn⟩ := Int.eq_ofNat_of_zero_le (a := -g) (by omega)
    obtain rfl : g = -(n : Int) := by omega
    rw [neg_neg, Int.toNat_natCast, String.toList_ofList]
    -- With zeros before the digits there are more of them than places.
    obtain ⟨padded, hpadded⟩ : ∃ p, p = List.replicate (n + 1 - digits.length) '0' ++ digits := ⟨_, rfl⟩
    have hall : ∀ c ∈ padded, c.isDigit = true := by
      rw [hpadded]
      exact List.forall_mem_append.2 ⟨isDigit_zeros _, h.digits⟩
    have hlen : n < padded.length := by
      rw [hpadded, List.length_append, List.length_replicate]
      omega
    have hvalue : natOfDigits 0 padded = natOfDigits 0 digits := by
      rw [hpadded, natOfDigits_append, natOfDigits_zeros, Nat.zero_mul]
    have hread := reads_pointed hall hlen
    rw [← hpadded]
    exact ⟨hread.starts, hvalue ▸ hread.value⟩

theorem reads_exponentText (h : AreDigits digits) (g : Int) :
    Reads (exponentText "" digits (g + (digits.length : Int) - 1)).toList digits g := by
  unfold exponentText
  obtain ⟨k, hk⟩ : ∃ k, k = g + (digits.length : Int) - 1 := ⟨_, rfl⟩
  have hpower := readExponent_written k
  rw [← hk]
  cases digits with
  | nil => exact absurd rfl h.nonempty
  | cons d ds =>
    have hd : AreDigits [d] :=
      ⟨List.cons_ne_nil _ _, fun c hc => h.digits c (List.mem_cons.2 (.inl (List.mem_singleton.1 hc)))⟩
    cases ds with
    | nil =>
      have htext : (String.ofList [d] ++ "e" ++ (if k < 0 then "-" else "") ++
          String.ofList (natDigits k.natAbs)).toList =
          [d] ++ 'e' :: ((if k < 0 then "-" else "").toList ++ natDigits k.natAbs) := by
        simp [String.toList_append]
      have hexp : k = g := by
        rw [hk, List.length_singleton]
        omega
      refine ⟨htext ▸ hd.starts _, _, k, ?_, by rw [hexp]⟩
      rw [htext, readScientific_power hd, hpower]
      rfl
    | cons d' ds =>
      have htext : (String.ofList (d :: '.' :: d' :: ds) ++ "e" ++ (if k < 0 then "-" else "") ++
          String.ofList (natDigits k.natAbs)).toList =
          [d] ++ '.' :: ((d' :: ds) ++ 'e' :: ((if k < 0 then "-" else "").toList ++ natDigits k.natAbs)) := by
        simp [String.toList_append]
      have hexp : k - ((d' :: ds).length : Int) = g := by
        rw [hk, List.length_cons (a := d)]
        omega
      refine ⟨htext ▸ hd.starts _, _, k - ((d' :: ds).length : Int), ?_, by rw [hexp]⟩
      rw [htext, readScientific_point_power hd fun c hc => h.digits c (List.mem_cons_of_mem d hc), hpower]
      rfl

end FleetEnergy.Decimal
