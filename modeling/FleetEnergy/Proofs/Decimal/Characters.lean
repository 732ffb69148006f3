import FleetEnergy.Proofs.Decimal.Numeral

/-! The characters of numerals. What is read as a whole number has digits and at most a plus sign, and what is read as a
finite number has besides these only signs, points and marks of a power of ten. -/
namespace FleetEnergy.Decimal
set_option autoImplicit false

/-! ## Whole numbers -/

theorem readDigits_ok {limit n k : ℕ} {cs : List Char} (h : readDigits limit n cs = .ok k) :
    (∀ c ∈ cs, c.isDigit = true) ∧ (n < limit → k < limit) := by
  induction cs generalizing n with
  | nil =>
    cases h
    exact ⟨nofun, id⟩
  | cons c cs ih =>
    rw [readDigits, digit?] at h
    cases hc : c.isDigit with
    | false =>
      rw [hc] at h
      cases h
    | true =>
      rw [hc, if_pos rfl] at h
      dsimp only at h
      split_ifs at h with hlt
      obtain ⟨hdigits, hbound⟩ := ih h
      exact ⟨List.forall_mem_cons.2 ⟨hc, hdigits⟩, fun _ => hbound hlt⟩

theorem natOfDigits_ge (n : ℕ) (cs : List Char) : n ≤ natOfDigits n cs := by
  induction cs generalizing n with
  | nil => exact le_rfl
  | cons c cs ih =>
    have hstep := ih (n * 10 + (c.toNat - 48))
    change _ ≤ natOfDigits (n * 10 + (c.toNat - 48)) cs
    omega

theorem readDigits_digits {limit n : ℕ} {cs : List Char} (hd : ∀ c ∈ cs, c.isDigit = true)
    (hlt : natOfDigits n cs < limit) : readDigits limit n cs = .ok (natOfDigits n cs) := by
  induction cs generalizing n with
  | nil => rfl
  | cons c cs ih =>
    obtain ⟨hc, hcs⟩ := List.forall_mem_cons.1 hd
    change natOfDigits (n * 10 + (c.toNat - 48)) cs < limit at hlt
    have hstep := natOfDigits_ge (n * 10 + (c.toNat - 48)) cs
    rw [readDigits, digit?, if_pos hc]
    dsimp only
    rw [if_pos (by omega)]
    exact ih hcs hlt

/-- The characters of a whole number. -/
def IsWholeChar (c : Char) : Prop := c.isDigit = true ∨ c = '+'

theorem readWhole_ok {limit k : ℕ} (hlimit : 0 < limit) {cs : List Char} (h : readWhole limit cs = .ok k) :
    (∀ c ∈ cs, IsWholeChar c) ∧ k < limit := by
  unfold readWhole at h
  split at h
  · cases h
  · rename_i c cs
    obtain ⟨hdigits, hbound⟩ := readDigits_ok h
    exact ⟨List.forall_mem_cons.2 ⟨.inr rfl, fun a ha => .inl (hdigits a ha)⟩, hbound hlimit⟩
  · obtain ⟨hdigits, hbound⟩ := readDigits_ok h
    exact ⟨fun a ha => .inl (hdigits a ha), hbound hlimit⟩

/-- A whole number that is written in digits is read back. -/
theorem readWhole_natDigits {limit n : ℕ} (h : n < limit) : readWhole limit (natDigits n) = .ok n := by
  have hd := areDigits_natDigits n
  have hread : readDigits limit 0 (natDigits n) = .ok n := by
    have hn := natOfDigits_natDigits n
    rw [readDigits_digits hd.digits (hn.symm ▸ h), hn]
  revert hread
  unfold readWhole
  generalize natDigits n = ds at hd
  intro hread
  split
  · exact absurd rfl hd.nonempty
  · have hplus := hd.digits '+' List.mem_cons_self
    cases hplus
  · exact hread

/-! ## Finite numbers -/

/-- The characters of a finite number. -/
def IsNumeralChar (c : Char) : Prop := c.isDigit = true ∨ c ∈ ['+', '-', '.', 'e', 'E']

theorem readExponent_chars {cs : List Char} {k : Int} (h : readExponent cs = some k) : ∀ c ∈ cs, IsNumeralChar c := by
  have digits (ds : List Char) {z : Int}
      (hds : (if ds.isEmpty || ds.any (! ·.isDigit) then none else some z) = some k) : ∀ c ∈ ds, IsNumeralChar c := by
    intro c hc
    by_contra hnot
    rw [IsNumeralChar, not_or] at hnot
    have hany : ds.any (! ·.isDigit) = true := List.any_eq_true.2 ⟨c, hc, by simpa using hnot.1⟩
    rw [hany, Bool.or_true, if_pos rfl] at hds
    cases hds
  unfold readExponent at h
  dsimp only at h
  split at h
  · exact List.forall_mem_cons.2 ⟨.inr (by decide), digits _ h⟩
  · exact List.forall_mem_cons.2 ⟨.inr (by decide), digits _ h⟩
  · exact digits _ h

theorem readMark_chars {rest : List Char} {m : ℕ} {shift : Int} {r : ℕ × Int}
    (h : (match rest with
      | [] => some (m, shift)
      | c :: cs => if c == 'e' || c == 'E' then (readExponent cs).map fun e => (m, e + shift) else none) = some r) :
    ∀ c ∈ rest, IsNumeralChar c := by
  cases rest with
  | nil => exact nofun
  | cons c cs =>
    dsimp only at h
    split_ifs at h with hmark
    obtain ⟨e, he, -⟩ := Option.map_eq_some_iff.1 h
    refine List.forall_mem_cons.2 ⟨.inr ?_, readExponent_chars he⟩
    rw [Bool.or_eq_true, beq_iff_eq, beq_iff_eq] at hmark
    rcases hmark with rfl | rfl <;> decide

theorem readScientific_chars {cs : List Char} {r : ℕ × Int} (h : readScientific cs = some r) :
    ∀ c ∈ cs, IsNumeralChar c := by
  have taken (ds : List Char) : ∀ c ∈ ds.takeWhile Char.isDigit, IsNumeralChar c := fun c hc =>
    .inl (List.mem_takeWhile_imp hc)
  have hcs : cs = cs.takeWhile Char.isDigit ++ cs.dropWhile Char.isDigit := List.takeWhile_append_dropWhile.symm
  rw [hcs]
  unfold readScientific at h
  dsimp only at h
  generalize cs.dropWhile Char.isDigit = after at h ⊢
  refine List.forall_mem_append.2 ⟨taken cs, ?_⟩
  split at h
  · rename_i ds
    split_ifs at h
    have hds : ds = ds.takeWhile Char.isDigit ++ ds.dropWhile Char.isDigit := List.takeWhile_append_dropWhile.symm
    rw [hds]
    exact List.forall_mem_cons.2 ⟨.inr (by decide), List.forall_mem_append.2 ⟨taken ds, readMark_chars h⟩⟩
  · split_ifs at h
    exact readMark_chars h

theorem readUnsigned_chars {cs : List Char} {x : Float} (h : readUnsigned cs = some x)
    (hx : x.isFinite = true ∨ (-x).isFinite = true) : ∀ c ∈ cs, IsNumeralChar c := by
  have hinf : ¬((1.0 / 0.0 : Float).isFinite = true ∨ (-(1.0 / 0.0) : Float).isFinite = true) := by decide
  have hnan : ¬((0.0 / 0.0 : Float).isFinite = true ∨ (-(0.0 / 0.0) : Float).isFinite = true) := by decide
  unfold readUnsigned at h
  dsimp only at h
  split_ifs at h with hi hn
  · obtain rfl := Option.some.inj h
    exact absurd hx hinf
  · obtain rfl := Option.some.inj h
    exact absurd hx hnan
  · obtain ⟨r, hr, -⟩ := Option.map_eq_some_iff.1 h
    exact readScientific_chars hr

theorem readNumber_chars {cs : List Char} {x : Float} (h : readNumber cs = .ok x) (hx : x.isFinite = true) :
    cs ≠ [] ∧ ∀ c ∈ cs, IsNumeralChar c := by
  unfold readNumber at h
  dsimp only at h
  split at h
  · cases h
  · rename_i hne hread
    cases h
    refine ⟨fun hnil => hne hnil, ?_⟩
    split at hread
    · rename_i ds
      obtain ⟨y, hy, rfl⟩ := Option.map_eq_some_iff.1 hread
      exact List.forall_mem_cons.2 ⟨.inr (by decide), readUnsigned_chars hy (.inr hx)⟩
    · exact List.forall_mem_cons.2 ⟨.inr (by decide), readUnsigned_chars hread (.inl hx)⟩
    · exact readUnsigned_chars hread (.inl hx)
  · cases h

end FleetEnergy.Decimal
