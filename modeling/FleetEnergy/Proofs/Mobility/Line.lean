import FleetEnergy.Proofs.Mobility.Phrase

/-! The lines of a trace. A line that is not vacant is read by its words, and blanks and quotation marks around the
words make no difference. -/
namespace FleetEnergy
open Decimal (IsNumeralChar IsWholeChar)
set_option autoImplicit false

namespace Statement

variable {w n : Word} {ws : List Word} {v : Float} {id : VehicleId} {order : Order} {s : Statement}

/-! ## Words of a line -/

theorem wordsOf_eq (line : List Char) :
    wordsOf line = ((Text.splitAtEvery Text.isBlank line).map (Text.strip (· == '"'))).filter (! ·.isEmpty) := by
  rw [wordsOf, Text.words]
  induction Text.splitAtEvery Text.isBlank line with
  | nil => rfl
  | cons w ws ih =>
    cases w with
    | nil => exact ih
    | cons c w =>
      rw [List.filter_cons_of_pos rfl, List.map_cons, List.map_cons, List.filter_cons, List.filter_cons, ih]

theorem wordsOf_trim (line : List Char) : wordsOf (Text.trim line) = wordsOf line := by
  rw [wordsOf, Text.words_trim, wordsOf]

theorem wordsOf_append {b : Char} (hb : Text.isBlank b = true) (front rest : List Char) :
    wordsOf (front ++ b :: rest) = wordsOf front ++ wordsOf rest := by
  rw [wordsOf, Text.words_append hb, List.map_append, List.filter_append, wordsOf, wordsOf]

def isFiller (c : Char) : Bool := Text.isBlank c || c == '"'

/-- A blank or a quotation mark before the rest of a line adds nothing to its words. -/
theorem wordsOf_cons {c : Char} (hc : isFiller c = true) (line : List Char) : wordsOf (c :: line) = wordsOf line := by
  cases hb : Text.isBlank c with
  | true => exact wordsOf_append hb [] line
  | false =>
    rw [isFiller, hb, Bool.false_or] at hc
    obtain ⟨w, ws, hw⟩ := List.exists_cons_of_ne_nil (Text.splitAtEvery_ne_nil Text.isBlank line)
    rw [wordsOf_eq, wordsOf_eq, Text.splitAtEvery_cons hb hw, hw, List.map_cons, List.map_cons,
      Text.strip_cons (p := (· == '"')) hc]

theorem wordsOf_fillers {gap : List Char} (hgap : ∀ c ∈ gap, isFiller c = true) (line : List Char) :
    wordsOf (gap ++ line) = wordsOf line := by
  induction gap with
  | nil => rfl
  | cons c gap ih =>
    obtain ⟨hc, hgap⟩ := List.forall_mem_cons.1 hgap
    rw [List.cons_append, wordsOf_cons hc, ih hgap]

/-- A word that stays as it is: without blanks, and without quotation marks at its ends. -/
structure Solid (w : Word) : Prop where
  nonempty : w ≠ []
  unbroken : ∀ c ∈ w, Text.isBlank c = false
  front : ∀ c ∈ w.head?, c ≠ '"'
  back : ∀ c ∈ w.getLast?, c ≠ '"'

theorem Solid.wordsOf (h : Solid w) {marks : List Char} (hm : ∀ c ∈ marks, c = '"') : wordsOf (w ++ marks) = [w] := by
  have hsolid : ∀ c ∈ w ++ marks, Text.isBlank c = false := by
    refine List.forall_mem_append.2 ⟨h.unbroken, fun c hc => ?_⟩
    rw [hm c hc]
    decide
  have hstrip : Text.strip (· == '"') (w ++ marks) = w := by
    have hfirst : ∀ c ∈ (w ++ marks).head?, (c == '"') = false := by
      rw [List.head?_append_of_ne_nil _ h.nonempty]
      exact fun c hc => beq_false_of_ne (h.front c hc)
    rw [Text.strip, Text.dropWhile_eq_self hfirst, Text.dropRight_append fun c hc => beq_iff_eq.2 (hm c hc),
      Text.dropRight_eq_self fun c hc => beq_false_of_ne (h.back c hc)]
  rw [wordsOf_eq, Text.splitAtEvery_solid hsolid, List.map_singleton, hstrip, List.filter_cons_of_pos]
  · rfl
  · simpa using h.nonempty

/-! ## Words spread over a line -/

/-- Words on a line, with blanks and quotation marks around them, and a blank at least between any two. -/
inductive Layout : List Word → List Char → Prop
  | rest {gap : List Char} : (∀ c ∈ gap, isFiller c = true) → Layout [] gap
  | last {gap marks : List Char} (w : Word) :
      (∀ c ∈ gap, isFiller c = true) → (∀ c ∈ marks, c = '"') → Layout [w] (gap ++ (w ++ marks))
  | next {gap marks line : List Char} {b : Char} (w : Word) {ws : List Word} :
      (∀ c ∈ gap, isFiller c = true) → (∀ c ∈ marks, c = '"') → Text.isBlank b = true → Layout ws line →
      Layout (w :: ws) (gap ++ (w ++ marks ++ b :: line))

theorem Layout.wordsOf {line : List Char} (h : Layout ws line) (hws : ∀ w ∈ ws, Solid w) : wordsOf line = ws := by
  induction h with
  | rest hgap =>
    have hnil := wordsOf_fillers hgap []
    rwa [List.append_nil] at hnil
  | last w hgap hm => rw [wordsOf_fillers hgap, (hws w List.mem_cons_self).wordsOf hm]
  | next w hgap hm hb _ ih =>
    obtain ⟨hw, hws⟩ := List.forall_mem_cons.1 hws
    rw [wordsOf_fillers hgap, wordsOf_append hb, hw.wordsOf hm, ih hws, List.singleton_append]

/-! ## Phrases on a line -/

/-- A line on which nothing stands but blanks, quotation marks or a comment. -/
def Vacant (line : List Char) : Prop :=
  Text.trim line = [] ∨ (Text.trim line).head? = some '#' ∨ wordsOf line = []

def isPlain (c : Char) : Bool := !isFiller c

theorem isPlain_digit {c : Char} (h : c.isDigit = true) : isPlain c = true := by
  have hmark : c ≠ '"' := by
    rintro rfl
    cases h
  simp [isPlain, isFiller, Text.not_blank_of_digit h, hmark]

theorem isPlain_numeralChar {c : Char} (h : IsNumeralChar c) : isPlain c = true := by
  obtain h | h := h
  · exact isPlain_digit h
  · have hall : ['+', '-', '.', 'e', 'E'].all isPlain = true := by decide
    exact List.all_eq_true.1 hall c h

theorem isPlain_wholeChar {c : Char} (h : IsWholeChar c) : isPlain c = true := by
  obtain h | rfl := h
  · exact isPlain_digit h
  · decide

theorem solid_of_plain (hne : w ≠ []) (h : w.all isPlain = true) : Solid w := by
  have hplain : ∀ c ∈ w, Text.isBlank c = false ∧ c ≠ '"' := fun c hc => by
    have hc := List.all_eq_true.1 h c hc
    simpa [isPlain, isFiller] using hc
  exact ⟨hne, fun c hc => (hplain c hc).1, fun c hc => (hplain c (List.mem_of_mem_head? hc)).2,
    fun c hc => (hplain c (List.mem_of_getLast? hc)).2⟩

theorem Numeral.solid (h : Numeral w v) : Solid w := by
  obtain ⟨hne, hchars⟩ := Decimal.readNumber_chars h.reads h.finite
  exact solid_of_plain hne (List.all_eq_true.2 fun c hc => isPlain_numeralChar (hchars c hc))

theorem NodeNumber.solid (h : NodeNumber n id) : Solid (nodeWord n) := by
  obtain ⟨hchars, -⟩ := Decimal.readWhole_ok (by decide) h
  have hopening : "$node_(".toList.all isPlain = true := by decide
  have hclosing : [')'].all isPlain = true := by decide
  have hne : nodeWord n ≠ [] := List.append_ne_nil_of_right_ne_nil ("$node_(".toList ++ n) (List.cons_ne_nil ')' [])
  refine solid_of_plain hne (List.all_eq_true.2 (List.forall_mem_append.2 ⟨List.forall_mem_append.2 ⟨?_, ?_⟩, ?_⟩))
  · exact List.all_eq_true.1 hopening
  · exact fun c hc => isPlain_wholeChar (hchars c hc)
  · exact List.all_eq_true.1 hclosing

theorem Orders.solid (h : Orders ws order) : ∀ w ∈ ws, Solid w := by
  cases h with
  | set axis hv =>
    have hverb : Solid "set".toList := solid_of_plain (by decide) (by decide)
    have haxis : Solid (axisWord axis) := by cases axis <;> exact solid_of_plain (by decide) (by decide)
    exact List.forall_mem_cons.2 ⟨hverb, List.forall_mem_cons.2 ⟨haxis, List.forall_mem_singleton.2 hv.solid⟩⟩
  | setDestination hx hy hspeed =>
    have hverb : Solid "setdest".toList := solid_of_plain (by decide) (by decide)
    exact List.forall_mem_cons.2 ⟨hverb, List.forall_mem_cons.2
      ⟨hx.solid, List.forall_mem_cons.2 ⟨hy.solid, List.forall_mem_singleton.2 hspeed.solid⟩⟩⟩

theorem Phrase.solid (h : Phrase ws s) : ∀ w ∈ ws, Solid w := by
  cases h with
  | untimed hn ho => exact List.forall_mem_cons.2 ⟨hn.solid, ho.solid⟩
  | timed ht hn ho =>
    have hns : Solid "$ns_".toList := solid_of_plain (by decide) (by decide)
    have hat : Solid "at".toList := solid_of_plain (by decide) (by decide)
    exact List.forall_mem_cons.2 ⟨hns, List.forall_mem_cons.2
      ⟨hat, List.forall_mem_cons.2 ⟨ht.solid, List.forall_mem_cons.2 ⟨hn.solid, ho.solid⟩⟩⟩⟩

theorem Phrase.first (h : Phrase ws s) : ∃ w r, ws = w :: r ∧ w.head? = some '$' := by
  cases h with
  | untimed => exact ⟨_, _, rfl, rfl⟩
  | timed => exact ⟨_, _, rfl, rfl⟩

/-- What is seen first of a line is a quotation mark or the beginning of its first word. -/
theorem first_visible {gap line : List Char} (hgap : ∀ c ∈ gap, isFiller c = true) (hw : Solid w) :
    ∃ c, ((gap ++ (w ++ line)).dropWhile Text.isBlank).head? = some c ∧ (c = '"' ∨ w.head? = some c) := by
  induction gap with
  | nil =>
    obtain ⟨c, r, rfl⟩ := List.exists_cons_of_ne_nil hw.nonempty
    have hc : Text.isBlank c = false := hw.unbroken c List.mem_cons_self
    refine ⟨c, ?_, .inr rfl⟩
    rw [List.nil_append, List.cons_append, List.dropWhile_cons_of_neg (by simp [hc]), List.head?_cons]
  | cons c gap ih =>
    obtain ⟨hc, hgap⟩ := List.forall_mem_cons.1 hgap
    cases hb : Text.isBlank c with
    | true =>
      rw [List.cons_append, List.dropWhile_cons_of_pos hb]
      exact ih hgap
    | false =>
      rw [isFiller, hb, Bool.false_or, beq_iff_eq] at hc
      refine ⟨c, ?_, .inl hc⟩
      rw [List.cons_append, List.dropWhile_cons_of_neg (by simp [hb]), List.head?_cons]

theorem Layout.first {line : List Char} (h : Layout (w :: ws) line) (hw : Solid w) :
    ∃ c, (line.dropWhile Text.isBlank).head? = some c ∧ (c = '"' ∨ w.head? = some c) := by
  cases h with
  | last _ hgap => exact first_visible hgap hw
  | next _ hgap =>
    rw [List.append_assoc w]
    exact first_visible hgap hw

theorem Phrase.not_vacant (h : Phrase ws s) {line : List Char} (hl : Layout ws line) : ¬Vacant line := by
  have hwords := hl.wordsOf h.solid
  obtain ⟨w, r, rfl, hdollar⟩ := h.first
  obtain ⟨c, hc, hfirst⟩ := hl.first (h.solid w List.mem_cons_self)
  rw [← Text.head?_trim] at hc
  rintro (htrim | hcomment | hnone)
  · rw [htrim] at hc
    cases hc
  · rw [hc] at hcomment
    obtain rfl := Option.some.inj hcomment
    obtain hmark | hword := hfirst
    · exact absurd hmark (by decide)
    · rw [hdollar] at hword
      exact absurd (Option.some.inj hword) (by decide)
  · rw [hwords] at hnone
    cases hnone

/-! ## Reading a line -/

theorem unbroken_wordsOf {line : List Char} (hw : w ∈ wordsOf line) : ∀ c ∈ w, Text.isBlank c = false := fun c hc => by
  obtain ⟨v, hv, rfl⟩ := List.mem_map.1 (List.mem_filter.1 hw).1
  exact Text.not_blank_of_mem_words hv c (Text.mem_of_mem_strip hc)

theorem read_of_vacant {line : List Char} (h : Vacant line) : read line = .ok none := by
  rw [Vacant, ← wordsOf_trim] at h
  unfold read
  split
  · rfl
  · rfl
  · rename_i hne hcomment
    split
    · rfl
    · rename_i hwords
      obtain h | h | h := h
      · exact absurd h hne
      · obtain ⟨r, hr⟩ := List.head?_eq_some_iff.1 h
        exact absurd hr (hcomment r)
      · exact absurd h hwords

theorem read_of_not_vacant {line : List Char} (h : ¬Vacant line) :
    read line = (ofWords (String.ofList (Text.trim line)) (wordsOf line)).map some := by
  rw [Vacant, ← wordsOf_trim] at h
  rw [← wordsOf_trim]
  unfold read
  split
  · rename_i htrim
    exact absurd (.inl htrim) h
  · rename_i r hcomment
    exact absurd (.inr (.inl (congrArg List.head? hcomment))) h
  · split
    · rename_i hwords
      exact absurd (.inr (.inr hwords)) h
    · rfl

theorem read_eq_some_iff {line : List Char} :
    read line = .ok (some s) ↔ ¬Vacant line ∧ Phrase (wordsOf line) s := by
  rw [← ofWords_eq_ok_iff (String.ofList (Text.trim line)) fun w hw => unbroken_wordsOf hw]
  by_cases hv : Vacant line
  · rw [read_of_vacant hv]
    exact ⟨nofun, fun h => absurd hv h.1⟩
  · rw [read_of_not_vacant hv]
    cases ofWords (String.ofList (Text.trim line)) (wordsOf line) <;> simp [Except.map, hv]

theorem read_eq_none_iff {line : List Char} : read line = .ok none ↔ Vacant line := by
  refine ⟨fun h => ?_, read_of_vacant⟩
  by_contra hv
  rw [read_of_not_vacant hv] at h
  cases hwords : ofWords (String.ofList (Text.trim line)) (wordsOf line) <;> simp [hwords, Except.map] at h

theorem read_eq_error_iff {line : List Char} :
    (∃ e, read line = .error e) ↔ ¬Vacant line ∧ ¬∃ s, Phrase (wordsOf line) s := by
  cases h : read line with
  | error e =>
    refine ⟨fun _ => ⟨fun hv => ?_, fun ⟨s, hs⟩ => ?_⟩, fun _ => ⟨e, rfl⟩⟩
    · rw [read_of_vacant hv] at h
      cases h
    · by_cases hv : Vacant line
      · rw [read_of_vacant hv] at h
        cases h
      · rw [read_eq_some_iff.2 ⟨hv, hs⟩] at h
        cases h
  | ok o =>
    refine ⟨nofun, fun ⟨hv, hno⟩ => ?_⟩
    cases o with
    | none => exact absurd (read_eq_none_iff.1 h) hv
    | some s => exact absurd ⟨s, (read_eq_some_iff.1 h).2⟩ hno

theorem Phrase.read (h : Phrase ws s) {line : List Char} (hl : Layout ws line) : read line = .ok (some s) := by
  refine read_eq_some_iff.2 ⟨h.not_vacant hl, ?_⟩
  rwa [hl.wordsOf h.solid]

/-! ## Canonical lines -/

/-- The text of a command: the node and its order, with single blanks between the words. -/
noncomputable def commandText (id : VehicleId) (ws : List Word) : List Char :=
  [' '].intercalate (nodeWord id.text.toList :: ws)

theorem nodeNumber_text (id : VehicleId) : NodeNumber id.text.toList id := id.readWhole_text

theorem Layout.fillers {line gap : List Char} (h : Layout ws line) (hgap : ∀ c ∈ gap, isFiller c = true) :
    Layout ws (gap ++ line) := by
  cases h with
  | rest hr => exact .rest (List.forall_mem_append.2 ⟨hgap, hr⟩)
  | last w hg hm =>
    rw [← List.append_assoc]
    exact .last w (List.forall_mem_append.2 ⟨hgap, hg⟩) hm
  | next w hg hm hb hl =>
    rw [← List.append_assoc]
    exact .next w (List.forall_mem_append.2 ⟨hgap, hg⟩) hm hb hl

/-- Words with single blanks between them, and quotation marks at the end. -/
theorem layout_intercalate (w : Word) (ws : List Word) (marks : List Char) (hm : ∀ c ∈ marks, c = '"') :
    Layout (w :: ws) ([' '].intercalate (w :: ws) ++ marks) := by
  have hnone {P : Char → Prop} : ∀ c ∈ ([] : List Char), P c := fun c hc => absurd hc List.not_mem_nil
  induction ws generalizing w with
  | nil =>
    have htext : [' '].intercalate [w] ++ marks = [] ++ (w ++ marks) := by simp [List.intercalate]
    rw [htext]
    exact .last w hnone hm
  | cons w' ws ih =>
    have htext : [' '].intercalate (w :: w' :: ws) ++ marks =
        [] ++ (w ++ [] ++ ' ' :: ([' '].intercalate (w' :: ws) ++ marks)) := by simp [List.intercalate]
    rw [htext]
    exact .next w hnone hnone rfl (ih w')

theorem read_commandText (id : VehicleId) (h : Orders ws order) :
    read (commandText id ws) = .ok (some ⟨none, id, order⟩) := by
  have hl := layout_intercalate (nodeWord id.text.toList) ws [] fun c hc => absurd hc List.not_mem_nil
  rw [List.append_nil] at hl
  exact (Phrase.untimed (nodeNumber_text id) h).read hl

theorem read_timedText {t : Word} {time : Float} (ht : Numeral t time) (id : VehicleId) (h : Orders ws order) :
    read ("$ns_ at ".toList ++ t ++ " \"".toList ++ commandText id ws ++ ['"']) =
      .ok (some ⟨some time, id, order⟩) := by
  have hquote {c : Char} (hc : c ∈ ['"']) : c = '"' := List.mem_singleton.1 hc
  have hnone {P : Char → Prop} : ∀ c ∈ ([] : List Char), P c := fun c hc => absurd hc List.not_mem_nil
  have hcommand := layout_intercalate (nodeWord id.text.toList) ws ['"'] fun c => hquote
  have htext : "$ns_ at ".toList ++ t ++ " \"".toList ++ commandText id ws ++ ['"'] =
      [] ++ ("$ns_".toList ++ [] ++ ' ' :: ([] ++ ("at".toList ++ [] ++ ' ' :: ([] ++ (t ++ [] ++ ' ' ::
        (['"'] ++ (commandText id ws ++ ['"']))))))) := by simp
  rw [htext]
  refine (Phrase.timed ht (nodeNumber_text id) h).read ?_
  refine .next _ hnone hnone rfl (.next _ hnone hnone rfl (.next _ hnone hnone rfl (hcommand.fillers fun c hc => ?_)))
  rw [hquote hc]
  decide

/-- A line holds nothing if nothing but blanks, quotation marks or a comment stands on it, a statement if its words are
a phrase of the grammar, and else there is a fault; blanks and quotation marks around the words of a phrase, blanks
between them at least, make no difference, and so every canonical line of a command is read back. -/
theorem lines_follow_grammar :
    (∀ line, (read line = .ok none ↔ Vacant line) ∧
      (∀ s, read line = .ok (some s) ↔ ¬Vacant line ∧ Phrase (wordsOf line) s) ∧
      ((∃ e, read line = .error e) ↔ ¬Vacant line ∧ ¬∃ s, Phrase (wordsOf line) s)) ∧
    (∀ ws s line, Phrase ws s → Layout ws line → read line = .ok (some s)) ∧
    ∀ id ws order, Orders ws order →
      read (commandText id ws) = .ok (some ⟨none, id, order⟩) ∧
      ∀ t time, Numeral t time →
        read ("$ns_ at ".toList ++ t ++ " \"".toList ++ commandText id ws ++ ['"']) =
          .ok (some ⟨some time, id, order⟩) :=
  ⟨fun _ => ⟨read_eq_none_iff, fun _ => read_eq_some_iff, read_eq_error_iff⟩, fun _ _ _ h hl => h.read hl,
    fun id _ _ h => ⟨read_commandText id h, fun _ _ ht => read_timedText ht id h⟩⟩

/-- A command with more blanks and quotation marks than it needs. -/
theorem scattered_line_is_read :
    Phrase [nodeWord ['7'], "set".toList, axisWord .x, "-1.5".toList] ⟨none, ⟨7⟩, .set .x (-1.5)⟩ ∧
      read " $node_(7)\" \" \"set\"\tX_ \"-1.5 ".toList = .ok (some ⟨none, ⟨7⟩, .set .x (-1.5)⟩) := by
  have hphrase : Phrase [nodeWord ['7'], "set".toList, axisWord .x, "-1.5".toList] ⟨none, ⟨7⟩, .set .x (-1.5)⟩ :=
    .untimed rfl (.set .x ⟨by decide +kernel, by decide +kernel⟩)
  have htext : " $node_(7)\" \" \"set\"\tX_ \"-1.5 ".toList =
      [' '] ++ (nodeWord ['7'] ++ ['"'] ++ ' ' :: (['"', ' ', '"'] ++ ("set".toList ++ ['"'] ++ '\t' ::
        ([] ++ (axisWord .x ++ [] ++ ' ' :: (['"'] ++ ("-1.5".toList ++ [] ++ ' ' :: []))))))) := by decide
  obtain ⟨-, hread, -⟩ := lines_follow_grammar
  refine ⟨hphrase, hread _ _ _ hphrase ?_⟩
  rw [htext]
  refine .next _ ?_ ?_ rfl (.next _ ?_ ?_ rfl (.next _ ?_ ?_ rfl (.next _ ?_ ?_ rfl (.rest ?_))))
  all_goals simp [isFiller, Text.isBlank]

end Statement

end FleetEnergy
