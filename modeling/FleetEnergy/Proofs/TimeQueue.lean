import Mathlib.Data.List.Basic
import Mathlib.Data.List.TakeWhile
import FleetEnergy.TimeQueue

/-! What is added to a queue is in it once more, and at its end if nothing in it is due later. With a number for each
entry in the order of arrival, the queue is the list of its entries in the order of due time and number. -/
namespace FleetEnergy
set_option autoImplicit false

namespace TimeQueue

variable {α : Type}

theorem insertSorted_perm (e : Instant × α) (l : List (Instant × α)) : (insertSorted e l).Perm (e :: l) := by
  induction l with
  | nil => exact List.Perm.refl _
  | cons f r ih =>
    rw [insertSorted]
    split_ifs
    · exact List.Perm.refl _
    · exact (ih.cons f).trans (List.Perm.swap e f r)

/-- A new entry comes behind all those in front that are not due later. -/
theorem insertSorted_eq (e : Instant × α) (l : List (Instant × α)) :
    insertSorted e l = l.takeWhile (fun f => f.1.rank ≤ e.1.rank) ++ e :: l.dropWhile (fun f => f.1.rank ≤ e.1.rank) := by
  induction l with
  | nil => rfl
  | cons f r ih =>
    rw [insertSorted]
    split_ifs with h
    · have hf : ¬f.1.rank ≤ e.1.rank := by omega
      simp [hf]
    · have hf : f.1.rank ≤ e.1.rank := by omega
      simp [hf, ih]

theorem insertSorted_append (e : Instant × α) (l : List (Instant × α)) (h : ∀ f ∈ l, f.1.rank ≤ e.1.rank) :
    insertSorted e l = l ++ [e] := by
  induction l with
  | nil => rfl
  | cons f r ih =>
    have hf := h f List.mem_cons_self
    rw [insertSorted, if_neg (by omega), ih fun g hg => h g (List.mem_cons_of_mem f hg)]
    rfl

theorem add_append (q : TimeQueue α) (due : Instant) (a : α) (h : ∀ f ∈ q.toList, f.1.rank ≤ due.rank) :
    q.add due a = ⟨q.toList ++ [(due, a)]⟩ := by
  rw [add, insertSorted_append _ _ h]

end TimeQueue

/-! ## Entries with their order of arrival -/

/-- An entry with the number of entries that were added before it. -/
structure Stamped (α : Type) where
  due : Instant
  number : Nat
  value : α

namespace Stamped

variable {α : Type}

/-- Due earlier or, at the same time, added earlier. -/
def Earlier (e f : Stamped α) : Prop := e.due.rank < f.due.rank ∨ e.due.rank = f.due.rank ∧ e.number < f.number

theorem Earlier.rank_le {e f : Stamped α} (h : e.Earlier f) : e.due.rank ≤ f.due.rank := by
  unfold Earlier at h
  omega

def entry (e : Stamped α) : Instant × α := (e.due, e.value)

end Stamped

namespace TimeQueue

variable {α : Type} {q : TimeQueue α} {l : List (Stamped α)}

/-- The queue consists of these entries, the earliest first. -/
structure Holds (q : TimeQueue α) (l : List (Stamped α)) : Prop where
  entries : q.toList = l.map Stamped.entry
  sorted : l.Pairwise Stamped.Earlier

theorem holds_empty : (empty : TimeQueue α).Holds [] := ⟨rfl, .nil⟩

theorem Holds.size (h : q.Holds l) : q.size = l.length := by
  rw [TimeQueue.size, h.entries, List.length_map]

theorem Holds.tail {e : Stamped α} (h : q.Holds (e :: l)) : (⟨l.map Stamped.entry⟩ : TimeQueue α).Holds l :=
  ⟨rfl, h.sorted.of_cons⟩

theorem insertSorted_entry (e : Stamped α) (l : List (Stamped α)) :
    insertSorted e.entry (l.map Stamped.entry) =
      (l.takeWhile (fun f => f.due.rank ≤ e.due.rank) ++ e :: l.dropWhile (fun f => f.due.rank ≤ e.due.rank)).map
        Stamped.entry := by
  rw [insertSorted_eq, List.takeWhile_map, List.dropWhile_map, List.map_append]
  rfl

/-- Behind the entries in front that are not due later, all are. -/
theorem lt_of_mem_dropWhile (r : Int) (hl : l.Pairwise Stamped.Earlier) :
    ∀ f ∈ l.dropWhile (fun f => f.due.rank ≤ r), r < f.due.rank := by
  induction l with
  | nil => simp
  | cons e l ih =>
    obtain ⟨he, hl⟩ := List.pairwise_cons.1 hl
    by_cases h : e.due.rank ≤ r
    · rw [List.dropWhile_cons_of_pos (by simpa using h)]
      exact ih hl
    · rw [List.dropWhile_cons_of_neg (by simpa using h)]
      intro f hf
      rcases List.mem_cons.1 hf with rfl | hf
      · omega
      · have := (he f hf).rank_le
        omega

/-- An entry that arrives last comes behind those that are not due later. -/
theorem Holds.add (h : q.Holds l) (e : Stamped α) (hlast : ∀ f ∈ l, f.number < e.number) :
    ∃ l', l'.Perm (e :: l) ∧ (q.add e.due e.value).Holds l' := by
  have hback := lt_of_mem_dropWhile e.due.rank h.sorted
  have hfront : ∀ f ∈ l.takeWhile (fun f => f.due.rank ≤ e.due.rank), f.Earlier e := by
    intro f hf
    have hle : f.due.rank ≤ e.due.rank := by simpa using List.mem_takeWhile_imp hf
    have hlt := hlast f ((List.takeWhile_sublist _).mem hf)
    unfold Stamped.Earlier
    omega
  have hsplit : l.takeWhile (fun f => f.due.rank ≤ e.due.rank) ++ l.dropWhile (fun f => f.due.rank ≤ e.due.rank) = l :=
    List.takeWhile_append_dropWhile
  refine ⟨l.takeWhile (fun f => f.due.rank ≤ e.due.rank) ++ e :: l.dropWhile (fun f => f.due.rank ≤ e.due.rank),
    ?_, ?_, ?_⟩
  · exact List.perm_middle.trans (by rw [hsplit])
  · change insertSorted e.entry q.toList = _
    rw [h.entries, insertSorted_entry]
  · have hsorted := h.sorted
    rw [← hsplit, List.pairwise_append] at hsorted
    obtain ⟨htake, hdrop, hacross⟩ := hsorted
    rw [List.pairwise_append, List.pairwise_cons]
    refine ⟨htake, ⟨fun f hf => .inl (hback f hf), hdrop⟩, ?_⟩
    intro f hf g hg
    rcases List.mem_cons.1 hg with rfl | hg
    · exact hfront f hf
    · exact hacross f hf g hg

end TimeQueue

end FleetEnergy
