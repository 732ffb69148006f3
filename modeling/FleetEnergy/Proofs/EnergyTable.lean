import FleetEnergy.Proofs.Audience
import FleetEnergy.Proofs.Decimal.Layout

/-! The table of a run. Whatever is handed on from the buffer in the meantime, the finished table has one line for each
tick that was heard of, and from its lines, cut at the tabs, the ticks are read again. -/
namespace FleetEnergy
open Decimal (Layout IsNumeralChar)
set_option autoImplicit false

namespace EnergyTable

variable {t : EnergyTable} {ticks : List (Float × Tick)}

/-! ## Rows of fields -/

/-- The headings and the fields of every tick, or nothing at all. -/
def rows (ticks : List (Float × Tick)) : List (List String) :=
  if ticks.isEmpty then [] else headings :: ticks.map fun p => fields p.1 p.2

/-- A line for each row. -/
def text (rows : List (List String)) : String := String.join (rows.map line)

/-- What stands before each line end, cut at the tabs. -/
def cells (text : String) : List (List String) :=
  (text.toList.splitOn '\n').dropLast.map fun line => (line.splitOn '\t').map String.ofList

/-- A character for which no field has to be quoted. -/
def isClean (c : Char) : Bool := c ∉ ['\t', '\n', '\r', '"']

def IsClean (field : String) : Prop := ∀ c ∈ field.toList, isClean c = true

theorem flatMap_lines (ls : List (List Char)) : ls.flatMap (· ++ ['\n']) = ['\n'].intercalate (ls ++ [[]]) := by
  induction ls with
  | nil => rfl
  | cons l ls ih => rw [List.flatMap_cons, ih, List.cons_append, List.intercalate_cons_of_ne_nil (by simp)]

theorem not_mem_intercalate {c : Char} {sep : List Char} (hsep : c ∉ sep) {ls : List (List Char)}
    (h : ∀ l ∈ ls, c ∉ l) : c ∉ sep.intercalate ls := by
  induction ls with
  | nil => exact List.not_mem_nil
  | cons l ls ih =>
    obtain ⟨hl, hls⟩ := List.forall_mem_cons.1 h
    cases ls with
    | nil => simpa [List.intercalate] using hl
    | cons l' ls =>
      rw [List.intercalate_cons_cons]
      simpa [hl, hsep] using ih hls

/-- Rows of clean fields are found again in their text. -/
theorem cells_text {rows : List (List String)} (hne : ∀ row ∈ rows, row ≠ [])
    (hclean : ∀ row ∈ rows, ∀ field ∈ row, IsClean field) : cells (text rows) = rows := by
  have hcell {row : List String} (hrow : row ∈ rows) {c : Char} (hc : isClean c = false) :
      ∀ cell ∈ row.map String.toList, c ∉ cell := by
    refine List.forall_mem_map.2 fun field hfield hmem => Bool.false_ne_true (hc.symm.trans ?_)
    exact hclean row hrow field hfield c hmem
  obtain ⟨lines, hlines⟩ : ∃ lines : List (List Char),
      lines = rows.map fun row => ['\t'].intercalate (row.map String.toList) := ⟨_, rfl⟩
  have htext : (text rows).toList = ['\n'].intercalate (lines ++ [[]]) := by
    rw [← flatMap_lines, hlines, text, String.toList_join, List.flatMap_map, List.flatMap_map]
    refine List.flatMap_congr fun row _ => ?_
    rw [line, String.toList_append, String.toList_intercalate]
    rfl
  have hsplit : (text rows).toList.splitOn '\n' = lines ++ [[]] := by
    rw [htext]
    refine List.splitOn_intercalate '\n' (List.forall_mem_append.2 ⟨?_, by simp⟩) (by simp)
    rw [hlines]
    exact List.forall_mem_map.2 fun row hrow => not_mem_intercalate (by decide) (hcell hrow (by decide))
  rw [cells, hsplit, List.dropLast_concat, hlines, List.map_map]
  refine (List.map_congr_left fun row hrow => ?_).trans (List.map_id rows)
  rw [Function.comp_apply, List.splitOn_intercalate '\t' (hcell hrow (by decide)) (by simpa using hne row hrow),
    List.map_map]
  exact (List.map_congr_left fun field _ => String.ofList_toList).trans (List.map_id row)

/-! ## Fields -/

theorem pointed : Layout.table.Pointed := ⟨rfl, rfl⟩

theorem readNumber_write (x : Float) : Decimal.readNumber (Layout.table.write x).toList = .ok x := by
  obtain rfl | rfl | rfl | ⟨negative, m, e, h⟩ := Decimal.write_cases x
  · rfl
  · rfl
  · rfl
  · exact (Decimal.readNumber_write_finite pointed h).1

theorem isClean_numeralChar {c : Char} (h : IsNumeralChar c) : isClean c = true := by
  obtain h | h := h
  · have hne (d : Char) (hd : d.isDigit = false) : c ≠ d := by
      rintro rfl
      exact Bool.false_ne_true (hd.symm.trans h)
    have htab := hne '\t' rfl
    have hline := hne '\n' rfl
    have hreturn := hne '\r' rfl
    have hquote := hne '"' rfl
    simp [isClean, htab, hline, hreturn, hquote]
  · have hall : ['+', '-', '.', 'e', 'E'].all isClean = true := by decide
    exact List.all_eq_true.1 hall c h

theorem isClean_write (x : Float) : IsClean (Layout.table.write x) := by
  obtain rfl | rfl | rfl | ⟨negative, m, e, h⟩ := Decimal.write_cases x
  · exact List.all_eq_true.1 rfl
  · exact List.all_eq_true.1 rfl
  · exact List.all_eq_true.1 rfl
  · obtain ⟨-, hchars⟩ := Decimal.readNumber_chars (readNumber_write x) (Decimal.isFinite_of_parts h)
    exact fun c hc => isClean_numeralChar (hchars c hc)

theorem isClean_id (id : VehicleId) : IsClean id.text := by
  rw [IsClean, VehicleId.text_toList]
  exact fun c hc => isClean_numeralChar (.inl ((Decimal.areDigits_natDigits _).digits c hc))

theorem isClean_headings : ∀ field ∈ headings, IsClean field := by
  have hall : headings.all (fun field => field.toList.all isClean) = true := by decide
  exact fun field hfield => List.all_eq_true.1 (List.all_eq_true.1 hall field hfield)

theorem isClean_fields (time : Float) (t : Tick) : ∀ field ∈ fields time t, IsClean field := by
  simp only [fields, List.forall_mem_cons, isClean_write, isClean_id, true_and]
  exact nofun

/-- Every row has ten fields, none of which has to be quoted. -/
theorem rows_clean (ticks : List (Float × Tick)) :
    ∀ row ∈ rows ticks, row.length = 10 ∧ ∀ field ∈ row, IsClean field := by
  rw [rows]
  split_ifs
  · exact nofun
  · refine List.forall_mem_cons.2 ⟨⟨rfl, isClean_headings⟩, ?_⟩
    exact List.forall_mem_map.2 fun p _ => ⟨rfl, isClean_fields p.1 p.2⟩

theorem cells_rows (ticks : List (Float × Tick)) : cells (text (rows ticks)) = rows ticks := by
  refine cells_text (fun row hrow hnil => ?_) fun row hrow => (rows_clean ticks row hrow).2
  have hlength := (rows_clean ticks row hrow).1
  rw [hnil] at hlength
  cases hlength

/-! ## Reading -/

/-- What a line says of a tick. -/
structure Reading where
  time : Float
  vehicle : VehicleId
  x : Float
  y : Float
  z : Float
  speed : Float
  energyFraction : Float
  remaining : Float
  consumed : Float
  totalConsumed : Float

def Reading.of (time : Float) (t : Tick) : Reading :=
  ⟨time, t.vehicle, t.position.x, t.position.y, t.position.z, t.speed, t.energyFraction, t.remaining, t.consumed,
    t.totalConsumed⟩

/-- Reads a row, of which each field stands under the heading of its column. -/
def Reading.read (headings row : List String) : Option Reading := do
  let field (name : String) := (headings.zip row).lookup name
  let number (name : String) := do (Decimal.readNumber (← field name).toList).toOption
  return {
    time := ← number "time"
    vehicle := ← (VehicleId.read (← field "vehicle").toList).toOption
    x := ← number "x"
    y := ← number "y"
    z := ← number "z"
    speed := ← number "speed"
    energyFraction := ← number "energy_fraction"
    remaining := ← number "remaining_wh"
    consumed := ← number "consumed_wh"
    totalConsumed := ← number "total_consumed_wh" }

/-- Reads a table, whose first row has the headings of the columns. -/
def readings : List (List String) → Option (List Reading)
  | [] => some []
  | headings :: rest => rest.mapM (Reading.read headings)

theorem read_fields (time : Float) (t : Tick) : Reading.read headings (fields time t) = some (.of time t) := by
  simp [Reading.read, Reading.of, headings, fields, List.lookup, readNumber_write, VehicleId.read_text, Except.toOption]

theorem readings_rows (ticks : List (Float × Tick)) :
    readings (rows ticks) = some (ticks.map fun p => .of p.1 p.2) := by
  cases ticks with
  | nil => rfl
  | cons p ticks =>
    change (List.map (fun p => fields p.1 p.2) (p :: ticks)).mapM (Reading.read headings) = _
    generalize p :: ticks = l
    induction l with
    | nil => rfl
    | cons p l ih => rw [List.map_cons, List.mapM_cons, read_fields, ih]; rfl

/-! ## The buffer -/

theorem split_append (s : String) : (split s).1 ++ (split s).2 = s := by
  rw [split, ← String.ofList_append, List.take_append_drop, String.ofList_toList]

/-- While the sink takes everything, nothing that is written gets lost. -/
theorem write_working (h : t.closed = false) (s : String) : ∃ t', t.write s = (t', true) ∧ t'.closed = false ∧
    t'.headed = t.headed ∧ t'.flushed ++ t'.buffer = t.flushed ++ t.buffer ++ s := by
  unfold write
  dsimp only
  rw [h, if_neg Bool.false_ne_true]
  split_ifs with hfits
  · exact ⟨_, rfl, rfl, rfl, (String.append_assoc ..).symm⟩
  · refine ⟨_, rfl, rfl, rfl, ?_⟩
    rw [String.append_assoc, split_append, String.append_assoc]

/-- The table has been given the rows of these ticks. -/
structure Holds (t : EnergyTable) (ticks : List (Float × Tick)) : Prop where
  working : t.closed = false
  headed : t.headed = !ticks.isEmpty
  given : t.flushed ++ t.buffer = text (rows ticks)

theorem holds_new : (new false).Holds [] := ⟨rfl, rfl, rfl⟩

theorem text_append (rows more : List (List String)) : text (rows ++ more) = text rows ++ text more := by
  rw [← String.toList_inj, String.toList_append]
  simp only [text, String.toList_join, List.map_append, List.flatMap_append]

theorem text_singleton (row : List String) : text [row] = line row := by
  rw [← String.toList_inj, text, String.toList_join, List.map_singleton, List.flatMap_singleton]

theorem rows_concat (ticks : List (Float × Tick)) (p : Float × Tick) :
    rows (ticks ++ [p]) = rows ticks ++ ((if ticks.isEmpty then [headings] else []) ++ [fields p.1 p.2]) := by
  cases ticks <;> simp [rows]

theorem Holds.add (h : t.Holds ticks) (time : Float) (tick : Tick) :
    ∃ t', t.add time tick = (t', []) ∧ t'.Holds (ticks ++ [(time, tick)]) := by
  obtain ⟨s, hs⟩ : ∃ s, s = (if t.headed then "" else line headings) ++ line (fields time tick) := ⟨_, rfl⟩
  obtain ⟨t', hwrite, hworking, hheaded, hgiven⟩ := write_working (t := { t with headed := true }) h.working s
  have hlines : s = text ((if ticks.isEmpty then [headings] else []) ++ [fields time tick]) := by
    rw [hs, h.headed, text_append, text_singleton]
    cases ticks with
    | nil => rw [← text_singleton]; rfl
    | cons p ticks => rfl
  refine ⟨t', ?_, hworking, hheaded.trans (by simp), ?_⟩
  · rw [EnergyTable.add, ← hs, hwrite]
  · rw [hgiven, rows_concat, text_append, ← hlines]
    exact congrArg (· ++ s) h.given

theorem Holds.finish (h : t.Holds ticks) :
    t.finish = (⟨false, text (rows ticks), "", !ticks.isEmpty⟩, []) := by
  rw [EnergyTable.finish, h.working, Bool.false_and, if_neg Bool.false_ne_true, h.given, h.headed]

theorem holds_finished (ticks : List (Float × Tick)) :
    Holds ⟨false, text (rows ticks), "", !ticks.isEmpty⟩ ticks :=
  ⟨rfl, rfl, String.append_empty⟩

/-! ## A table that is told of a run -/

/-- The ticks among events, with their times. -/
def ticksAmong (es : List (Float × Event)) : List (Float × Tick) :=
  es.filterMap fun
    | (time, .tick t) => some (time, t)
    | _ => none

/-- An audience of a table alone. -/
abbrev alone (t : EnergyTable) : Audience := Audience.empty.subscribe (.table t)

theorem hear_tick (t : EnergyTable) (time : Float) (tick : Tick) :
    (alone t).hear (.event time (.tick tick)) = (alone (t.add time tick).1, (t.add time tick).2) :=
  congrArg (Prod.mk _) (List.append_nil _)

theorem hear_finished (t : EnergyTable) : (alone t).hear .finished = (alone t.finish.1, t.finish.2) :=
  congrArg (Prod.mk _) (List.append_nil _)

/-- Only a tick adds to the table, and the table itself has nothing to report. -/
theorem Holds.hear (h : t.Holds ticks) (happening : Happening) :
    ∃ t', ((alone t).hear happening).1 = alone t' ∧ t'.Holds (ticks ++ ticksAmong (published [happening])) ∧
      ∀ n ∈ ((alone t).hear happening).2, happening = .notice n := by
  have hsame : t.Holds (ticks ++ []) := (List.append_nil ticks).symm ▸ h
  cases happening with
  | notice n => exact ⟨t, rfl, hsame, fun _ hn => congrArg _ (List.mem_singleton.1 hn).symm⟩
  | finished =>
    rw [hear_finished, h.finish]
    exact ⟨_, rfl, (List.append_nil ticks).symm ▸ holds_finished ticks, nofun⟩
  | event time e =>
    cases e with
    | admitted => exact ⟨t, rfl, hsame, nofun⟩
    | rejected => exact ⟨t, rfl, hsame, nofun⟩
    | stopped => exact ⟨t, rfl, hsame, nofun⟩
    | tick tick =>
      obtain ⟨t', hadd, hholds⟩ := h.add time tick
      rw [hear_tick, hadd]
      exact ⟨t', rfl, hholds, nofun⟩

theorem holds_hearAll (hs : List Happening) : ∃ t, ((alone (new false)).hearAll hs).1 = alone t ∧
    t.Holds (ticksAmong (published hs)) ∧ ∀ n ∈ ((alone (new false)).hearAll hs).2, .notice n ∈ hs := by
  induction hs using List.reverseRecOn with
  | nil => exact ⟨new false, rfl, holds_new, nofun⟩
  | append_singleton hs h ih =>
    obtain ⟨t, htold, hholds, hlog⟩ := ih
    obtain ⟨t', hhear, hholds', hmore⟩ := hholds.hear h
    rw [Audience.hearAll_concat, htold]
    refine ⟨t', hhear, ?_, List.forall_mem_append.2 ⟨fun n hn => ?_, fun n hn => ?_⟩⟩
    · rwa [published_append, ticksAmong, List.filterMap_append]
    · exact List.mem_append_left [h] (hlog n hn)
    · exact List.mem_append_right hs (List.mem_singleton.2 (hmore n hn).symm)

/-- The table of a run has taken a line of headings and a line of ten fields for each tick, in the order in which they
were heard of, or nothing if there was no tick; its lines, cut at the tabs, are read as the ticks, whatever values these
have. Nothing else that happened leaves a mark, and the table has nothing to report of its own. -/
theorem ticks_read_back (hs : List Happening) :
    let told := (alone (new false)).hearAll (hs ++ [.finished])
    let ticks := ticksAmong (published hs)
    ∃ s, told.1 = alone ⟨false, s, "", !ticks.isEmpty⟩ ∧ (∀ n ∈ told.2, .notice n ∈ hs) ∧
      s = text (rows ticks) ∧ cells s = rows ticks ∧
      (∀ row ∈ rows ticks, row.length = 10 ∧ ∀ field ∈ row, IsClean field) ∧
      readings (cells s) = some (ticks.map fun p => .of p.1 p.2) := by
  intro told ticks
  obtain ⟨t, htold, hholds, hlog⟩ := holds_hearAll hs
  have hend : told = (alone ⟨false, text (rows ticks), "", !ticks.isEmpty⟩, ((alone (new false)).hearAll hs).2) := by
    refine (Audience.hearAll_concat ..).trans ?_
    rw [htold, hear_finished, hholds.finish, List.append_nil]
  rw [hend]
  exact ⟨_, rfl, hlog, rfl, cells_rows ticks, rows_clean ticks, by rw [cells_rows, readings_rows]⟩

end EnergyTable

end FleetEnergy
