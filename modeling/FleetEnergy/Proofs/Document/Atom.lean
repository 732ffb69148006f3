import FleetEnergy.Document.Value
import FleetEnergy.Proofs.Decimal.Layout

/-! Atoms of documents that stand for a value are read as the value they were written for: numbers, flags and names. -/
namespace FleetEnergy.Document
open Binary64 Decimal
set_option autoImplicit false

/-! ## Floats -/

/-- A numeral, which is none of the names of the values that are not finite. -/
structure IsNumeral (cs : List Char) : Prop where
  noPlus : cs.head? ≠ some '+'
  noDot : cs.head? ≠ some '.'
  noMinusDot : cs.take 2 ≠ ['-', '.']

theorem IsNumeral.of_digit {cs : List Char} (h : StartsWithDigit cs) : IsNumeral cs ∧ IsNumeral ('-' :: cs) := by
  obtain ⟨d, r, rfl, hd⟩ := h
  have hne (c : Char) (hc : c.isDigit = false) : d ≠ c := by
    rintro rfl
    exact Bool.false_ne_true (hc.symm.trans hd)
  have hplus := hne '+' rfl
  have hdot := hne '.' rfl
  have hminus := hne '-' rfl
  refine ⟨⟨?_, ?_, ?_⟩, ⟨?_, ?_, ?_⟩⟩ <;> simp_all

theorem IsNumeral.notNamed {cs : List Char} (h : IsNumeral cs) (names : List String)
    (hnames : ∀ n ∈ names, n.toList.head? = some '.' ∨ n.toList.take 2 = ['-', '.']) :
    names.contains (String.ofList cs) = false := by
  rw [List.contains_eq_mem, decide_eq_false_iff_not]
  intro hmem
  obtain hdot | hdot := hnames _ hmem
  · rw [String.toList_ofList] at hdot
    exact h.noDot hdot
  · rw [String.toList_ofList] at hdot
    exact h.noMinusDot hdot

theorem float?_of_read {cs : List Char} {y : Float} (h : IsNumeral cs) (hread : readNumber cs = .ok y)
    (hf : y.isFinite = true) : float? cs = some y := by
  have hrest : dropPlus cs = cs := by
    unfold dropPlus
    split
    · exact absurd rfl h.noPlus
    · rfl
  have hinf := h.notNamed [".inf", ".Inf", ".INF"] (by decide)
  have hneg := h.notNamed ["-.inf", "-.Inf", "-.INF"] (by decide)
  have hnan := h.notNamed [".nan", ".NaN", ".NAN"] (by decide)
  unfold float?
  simp only [hrest, Nat.lt_irrefl, decide_false, Bool.false_and, Bool.false_eq_true, if_false, hinf, hneg, hnan, hread,
    hf, if_true]

/-- Every float is read back from its text. -/
theorem float?_write (x : Float) : float? (Layout.document.write x).toList = some x := by
  obtain rfl | rfl | rfl | ⟨negative, m, e, h⟩ := write_cases x
  · rfl
  · rfl
  · rfl
  · obtain ⟨hread, cs, hstart, htext⟩ := readNumber_write_finite (l := Layout.document) ⟨rfl, rfl⟩ h
    obtain ⟨hpos, hneg⟩ := IsNumeral.of_digit hstart
    have hnumeral : IsNumeral (Layout.document.write x).toList := by
      obtain htext | htext := htext
      · rwa [htext]
      · rwa [htext]
    exact float?_of_read hnumeral hread (isFinite_of_parts h)

/-! ## Whole numbers -/

/-- Only zero begins with a zero. -/
theorem head_natDigits {n : ℕ} (hn : n ≠ 0) : (natDigits n).head? ≠ some '0' := by
  induction n using Nat.strongRecOn with
  | ind n ih =>
    rw [natDigits, Nat.toDigits_eq_if (by norm_num)]
    split_ifs with hsmall
    · rw [List.head?_cons]
      interval_cases n <;> first | exact absurd rfl hn | decide
    · have hhead := ih (n / 10) (by omega) (by omega)
      rwa [List.head?_append_of_ne_nil _ Nat.toDigits_ne_nil]

theorem digitOf_of_isDigit {c : Char} (h : c.isDigit = true) : digitOf c = c.toNat - 48 ∧ digitOf c < 10 := by
  have hdigit : digitOf c = c.toNat - 48 := if_pos h
  unfold Char.isDigit at h
  simp only [Bool.and_eq_true, decide_eq_true_eq] at h
  have hhigh := UInt32.le_iff_toNat_le.1 h.2
  have h9 : '9'.val.toNat = 57 := rfl
  have hval : c.toNat = c.val.toNat := rfl
  exact ⟨hdigit, by omega⟩

theorem digits?_of_areDigits {cs : List Char} (h : AreDigits cs) : digits? 10 cs = some (natOfDigits 0 cs) := by
  have hne : cs.isEmpty = false := by simpa using h.nonempty
  have hall : cs.any (fun c => decide (10 ≤ digitOf c)) = false := by
    rw [List.any_eq_false]
    intro c hc
    rw [decide_eq_true_eq, not_le]
    exact (digitOf_of_isDigit (h.digits c hc)).2
  have hfold : cs.foldl (fun n c => n * 10 + digitOf c) 0 = natOfDigits 0 cs :=
    List.foldl_ext _ _ _ fun n c hc => congrArg (n * 10 + ·) (digitOf_of_isDigit (h.digits c hc)).1
  rw [digits?, hne, hall, hfold]
  rfl

/-- Every number is read back from its digits. -/
theorem unsigned?_natDigits (n : ℕ) : unsigned? (natDigits n) = some n := by
  by_cases hn : n = 0
  · rw [hn]
    rfl
  have hdigits := areDigits_natDigits n
  have hread := digits?_of_areDigits hdigits
  rw [natOfDigits_natDigits] at hread
  -- No zero comes first, which could begin a base or stand before the number.
  have hzero := head_natDigits hn
  have hfirst : ∀ c ∈ (natDigits n).head?, c.isDigit = true := fun c hc => hdigits.digits c (List.mem_of_mem_head? hc)
  revert hread hzero hfirst
  generalize natDigits n = cs
  intro hread hzero hfirst
  have hplus : dropPlus cs = cs := by
    unfold dropPlus
    split
    · cases hfirst '+' rfl
    · rfl
  have hpadded : isPadded cs = false := by
    unfold isPadded
    split
    · cases hfirst '+' rfl
    · cases hfirst '-' rfl
    · dsimp only
      split
      · exact absurd rfl hzero
      · rfl
  unfold unsigned?
  rw [hplus]
  split
  · exact absurd rfl hzero
  · exact absurd rfl hzero
  · exact absurd rfl hzero
  · rw [hpadded]
    exact hread

end FleetEnergy.Document
