import Mathlib.Data.List.Basic
import Mathlib.Data.List.TakeWhile
import FleetEnergy.Text.Blank

/-! Words of a text. A blank cuts a text into two whose words follow each other, and what has no blank is one word; all
else about words comes from these two. -/
namespace FleetEnergy.Text
set_option autoImplicit false

variable {p : Char → Bool} {c : Char} {cs ds : List Char}

theorem not_blank_of_digit (h : c.isDigit = true) : isBlank c = false := by
  have hn : 48 ≤ c.toNat ∧ c.toNat ≤ 57 := Char.isDigit_iff_toNat.1 h
  simp [isBlank]
  omega

/-! ## Ends -/

theorem strip_cons (hc : p c = true) (cs : List Char) : strip p (c :: cs) = strip p cs := by
  rw [strip, List.dropWhile_cons_of_pos hc, strip]

theorem dropRight_append (hd : ∀ c ∈ ds, p c = true) : dropRight p (cs ++ ds) = dropRight p cs := by
  have hrev : ∀ c ∈ ds.reverse, p c = true := fun c hc => hd c (List.mem_reverse.1 hc)
  rw [dropRight, List.reverse_append, List.dropWhile_append_of_pos hrev, dropRight]

/-- Only characters of the class are dropped. -/
theorem exists_dropRight (p : Char → Bool) (cs : List Char) :
    ∃ tail, cs = dropRight p cs ++ tail ∧ ∀ c ∈ tail, p c = true := by
  refine ⟨(cs.reverse.takeWhile p).reverse, ?_, fun c hc => ?_⟩
  · rw [dropRight, ← List.reverse_append, List.takeWhile_append_dropWhile, List.reverse_reverse]
  · exact List.mem_takeWhile_imp (List.mem_reverse.1 hc)

theorem dropRight_eq_self (h : ∀ c ∈ cs.getLast?, p c = false) : dropRight p cs = cs := by
  rcases List.eq_nil_or_concat' cs with rfl | ⟨front, last, rfl⟩
  · rfl
  · have hlast : p last = false := h last List.getLast?_concat
    rw [dropRight, List.reverse_append, List.reverse_singleton, List.singleton_append,
      List.dropWhile_cons_of_neg (by simp [hlast]), List.reverse_cons, List.reverse_reverse]

theorem dropWhile_eq_self (h : ∀ c ∈ cs.head?, p c = false) : cs.dropWhile p = cs := by
  cases cs with
  | nil => rfl
  | cons c cs =>
    have hc : p c = false := h c rfl
    exact List.dropWhile_cons_of_neg (by simp [hc])

theorem strip_eq_self (hhead : ∀ c ∈ cs.head?, p c = false) (hlast : ∀ c ∈ cs.getLast?, p c = false) :
    strip p cs = cs := by
  rw [strip, dropWhile_eq_self hhead, dropRight_eq_self hlast]

theorem mem_of_mem_strip (h : c ∈ strip p cs) : c ∈ cs := by
  obtain ⟨tail, htext, -⟩ := exists_dropRight p (cs.dropWhile p)
  have hdrop : c ∈ cs.dropWhile p := htext ▸ List.mem_append_left tail h
  exact (List.dropWhile_suffix p).subset hdrop

/-- A trimmed text begins with the first character that is no blank. -/
theorem head?_trim (cs : List Char) : (trim cs).head? = (cs.dropWhile isBlank).head? := by
  obtain ⟨tail, htext, htail⟩ := exists_dropRight isBlank (cs.dropWhile isBlank)
  rw [trim, strip]
  cases hcore : dropRight isBlank (cs.dropWhile isBlank) with
  | cons c core =>
    rw [hcore] at htext
    rw [htext]
    rfl
  | nil =>
    rw [hcore, List.nil_append] at htext
    -- What is left begins with no blank, so that none is left.
    cases hrest : cs.dropWhile isBlank with
    | nil => rfl
    | cons c rest =>
      have hhead := List.head?_dropWhile_not isBlank cs
      rw [hrest] at hhead htext
      have hblank := htail c (htext ▸ List.mem_cons_self)
      simp [hblank] at hhead

/-! ## Stretches between separators -/

theorem splitAtEvery_ne_nil (p : Char → Bool) (cs : List Char) : splitAtEvery p cs ≠ [] := by
  cases cs with
  | nil => exact List.cons_ne_nil _ _
  | cons c cs =>
    rw [splitAtEvery]
    split_ifs
    · exact List.cons_ne_nil _ _
    · split <;> exact List.cons_ne_nil _ _

theorem splitAtEvery_cons (hc : p c = false) {w : List Char} {ws : List (List Char)}
    (h : splitAtEvery p cs = w :: ws) : splitAtEvery p (c :: cs) = (c :: w) :: ws := by
  rw [splitAtEvery, if_neg (by simp [hc]), h]

theorem splitAtEvery_append (hc : p c = true) (cs ds : List Char) :
    splitAtEvery p (cs ++ c :: ds) = splitAtEvery p cs ++ splitAtEvery p ds := by
  induction cs with
  | nil => simp [splitAtEvery, hc]
  | cons a cs ih =>
    obtain ⟨w, ws, hw⟩ := List.exists_cons_of_ne_nil (splitAtEvery_ne_nil p cs)
    rw [hw, List.cons_append] at ih
    cases ha : p a with
    | true => simp [splitAtEvery, ha, ih, hw]
    | false =>
      rw [List.cons_append, splitAtEvery_cons ha ih, splitAtEvery_cons ha hw]
      rfl

theorem splitAtEvery_solid (h : ∀ c ∈ cs, p c = false) : splitAtEvery p cs = [cs] := by
  induction cs with
  | nil => rfl
  | cons c cs ih =>
    exact splitAtEvery_cons (h c List.mem_cons_self) (ih fun a ha => h a (List.mem_cons_of_mem c ha))

theorem not_of_mem_splitAtEvery {w : List Char} (hw : w ∈ splitAtEvery p cs) : ∀ c ∈ w, p c = false := by
  induction cs generalizing w with
  | nil =>
    obtain rfl := List.mem_singleton.1 hw
    exact nofun
  | cons a cs ih =>
    obtain ⟨v, vs, hv⟩ := List.exists_cons_of_ne_nil (splitAtEvery_ne_nil p cs)
    rw [hv] at ih
    cases ha : p a with
    | true =>
      rw [splitAtEvery, if_pos ha, hv] at hw
      obtain rfl | hw := List.mem_cons.1 hw
      · exact nofun
      · exact ih hw
    | false =>
      rw [splitAtEvery_cons ha hv] at hw
      obtain rfl | hw := List.mem_cons.1 hw
      · exact List.forall_mem_cons.2 ⟨ha, ih List.mem_cons_self⟩
      · exact ih (List.mem_cons_of_mem v hw)

/-! ## Words -/

theorem words_append (hc : isBlank c = true) (cs ds : List Char) : words (cs ++ c :: ds) = words cs ++ words ds := by
  rw [words, splitAtEvery_append hc, List.filter_append, words, words]

theorem words_cons (hc : isBlank c = true) (cs : List Char) : words (c :: cs) = words cs := words_append hc [] cs

theorem words_blank (h : ∀ c ∈ cs, isBlank c = true) : words cs = [] := by
  induction cs with
  | nil => rfl
  | cons c cs ih =>
    rw [words_cons (h c List.mem_cons_self)]
    exact ih fun a ha => h a (List.mem_cons_of_mem c ha)

theorem words_dropWhile (cs : List Char) : words (cs.dropWhile isBlank) = words cs := by
  induction cs with
  | nil => rfl
  | cons c cs ih =>
    cases hc : isBlank c with
    | true => rw [List.dropWhile_cons_of_pos hc, words_cons hc, ih]
    | false => rw [List.dropWhile_cons_of_neg (by simp [hc])]

theorem words_dropRight (cs : List Char) : words (dropRight isBlank cs) = words cs := by
  obtain ⟨tail, htext, htail⟩ := exists_dropRight isBlank cs
  generalize dropRight isBlank cs = core at htext
  subst htext
  cases tail with
  | nil => rw [List.append_nil]
  | cons c tail =>
    obtain ⟨hc, htail⟩ := List.forall_mem_cons.1 htail
    rw [words_append hc, words_blank htail, List.append_nil]

theorem words_trim (cs : List Char) : words (trim cs) = words cs := by
  rw [trim, strip, words_dropRight, words_dropWhile]

theorem not_blank_of_mem_words {w : List Char} (hw : w ∈ words cs) : ∀ c ∈ w, isBlank c = false :=
  not_of_mem_splitAtEvery (List.mem_filter.1 hw).1

theorem trim_solid (h : ∀ c ∈ cs, isBlank c = false) : trim cs = cs :=
  strip_eq_self (fun c hc => h c (List.mem_of_mem_head? hc)) fun c hc => h c (List.mem_of_getLast? hc)

end FleetEnergy.Text
