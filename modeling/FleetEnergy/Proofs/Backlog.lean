import FleetEnergy.Proofs.Instant
import FleetEnergy.Proofs.Sorting
import FleetEnergy.Proofs.TimeQueue

/-! What a queue of due times is for, without its order: entries, numbered as they are added, of which the earliest is
taken when one is asked for. There is one answer to every request, and the queue of the program gives it. -/
namespace FleetEnergy
set_option autoImplicit false

variable {α : Type}

/-! ## The backlog -/

inductive QueueRequest (α : Type)
  | add (due : Instant) (value : α)
  | pop

def QueueRequest.isAdd : QueueRequest α → Bool
  | .add .. => true
  | .pop => false

structure Backlog (α : Type) where
  /-- How many entries were added. -/
  added : Nat
  /-- Those that were not taken, as they were added. -/
  waiting : List (Stamped α)
  /-- Those that were taken, in the order in which they came out. -/
  taken : List (Stamped α)

namespace Backlog

def empty : Backlog α := ⟨0, [], []⟩

def add (b : Backlog α) (due : Instant) (value : α) : Backlog α :=
  { b with added := b.added + 1, waiting := b.waiting ++ [⟨due, b.added, value⟩] }

def take (b : Backlog α) (e : Stamped α) : Backlog α :=
  { b with waiting := b.waiting.filter fun f => f.number ≠ e.number, taken := b.taken ++ [e] }

/-- One request and the answers to it. -/
inductive Step : Backlog α → QueueRequest α → List (Option (Instant × α)) → Backlog α → Prop
  | add (b : Backlog α) (due : Instant) (value : α) : Step b (.add due value) [] (b.add due value)
  | idle (b : Backlog α) : b.waiting = [] → Step b .pop [none] b
  | take (b : Backlog α) (e : Stamped α) : e ∈ b.waiting → (∀ f ∈ b.waiting, f.number ≠ e.number → e.Earlier f) →
      Step b .pop [some e.entry] (b.take e)

/-- Requests one after the other, with all answers to them. -/
inductive Run : Backlog α → List (QueueRequest α) → List (Option (Instant × α)) → Backlog α → Prop
  | nil (b : Backlog α) : Run b [] [] b
  | cons {a b c : Backlog α} {x : QueueRequest α} {xs : List (QueueRequest α)}
      {answers more : List (Option (Instant × α))} :
      Step a x answers b → Run b xs more c → Run a (x :: xs) (answers ++ more) c

def numbers (es : List (Stamped α)) : List Nat := es.map Stamped.number

/-- The entries that wait have rising numbers, and every number was given to one entry. -/
structure Sound (b : Backlog α) : Prop where
  rising : b.waiting.Pairwise fun e f => e.number < f.number
  accounted : (numbers (b.taken ++ b.waiting)).Perm (List.range b.added)

theorem sound_empty : (empty : Backlog α).Sound := ⟨.nil, .refl _⟩

variable {b c : Backlog α}

theorem Sound.number_lt (h : b.Sound) {e : Stamped α} (he : e ∈ b.waiting) : e.number < b.added := by
  have hmem : e.number ∈ numbers (b.taken ++ b.waiting) := List.mem_map_of_mem (List.mem_append_right _ he)
  exact List.mem_range.1 (h.accounted.mem_iff.1 hmem)

theorem Sound.eq_of_number (h : b.Sound) {e f : Stamped α} (he : e ∈ b.waiting) (hf : f ∈ b.waiting)
    (hn : e.number = f.number) : e = f := by
  have hnodup : (b.waiting.map Stamped.number).Nodup :=
    List.pairwise_map.2 (h.rising.imp fun hlt => hlt.ne)
  exact List.inj_on_of_nodup_map hnodup he hf hn

/-- The others are left when one entry is taken out. -/
theorem waiting_perm {l : List (Stamped α)} (hl : l.Pairwise fun e f => e.number < f.number) {e : Stamped α}
    (he : e ∈ l) : l.Perm (e :: l.filter fun f => f.number ≠ e.number) := by
  obtain ⟨front, back, rfl⟩ := List.append_of_mem he
  obtain ⟨-, hback, hacross⟩ := List.pairwise_append.1 hl
  have hfront : front.filter (fun f => f.number ≠ e.number) = front := by
    refine List.filter_eq_self.2 fun f hf => ?_
    have := hacross f hf e List.mem_cons_self
    simp
    omega
  have hrest : back.filter (fun f => f.number ≠ e.number) = back := by
    refine List.filter_eq_self.2 fun f hf => ?_
    have := (List.pairwise_cons.1 hback).1 f hf
    simp
    omega
  rw [List.filter_append, List.filter_cons_of_neg (by simp), hfront, hrest]
  exact List.perm_middle

theorem Sound.add (h : b.Sound) (due : Instant) (value : α) : (b.add due value).Sound := by
  constructor
  · refine List.pairwise_append.2 ⟨h.rising, List.pairwise_singleton _ _, fun e he f hf => ?_⟩
    obtain rfl := List.mem_singleton.1 hf
    exact h.number_lt he
  · have hnumbers : numbers ((b.add due value).taken ++ (b.add due value).waiting) =
        numbers (b.taken ++ b.waiting) ++ [b.added] := by
      simp [Backlog.add, numbers]
    rw [hnumbers]
    change (_ : List Nat).Perm (List.range (b.added + 1))
    rw [List.range_succ]
    exact h.accounted.append_right _

theorem Sound.take (h : b.Sound) {e : Stamped α} (he : e ∈ b.waiting) : (b.take e).Sound := by
  refine ⟨h.rising.sublist List.filter_sublist, ?_⟩
  have hperm := ((waiting_perm h.rising he).append_left b.taken).map Stamped.number
  refine List.Perm.trans (.of_eq ?_) (hperm.symm.trans h.accounted)
  simp [Backlog.take, numbers]

theorem Sound.step (h : b.Sound) {x : QueueRequest α} {answers : List (Option (Instant × α))}
    (hs : Step b x answers c) : c.Sound := by
  cases hs with
  | add due value => exact h.add due value
  | idle => exact h
  | take e he => exact h.take he

/-- There is one answer to a request. -/
theorem Sound.step_unique (h : b.Sound) {x : QueueRequest α} {answers answers' : List (Option (Instant × α))}
    {c' : Backlog α} (hs : Step b x answers c) (hs' : Step b x answers' c') : answers' = answers ∧ c' = c := by
  cases hs with
  | add due value =>
    cases hs'
    exact ⟨rfl, rfl⟩
  | idle hnone =>
    cases hs' with
    | idle => exact ⟨rfl, rfl⟩
    | take e he =>
      rw [hnone] at he
      cases he
  | take e he hfirst =>
    cases hs' with
    | idle hnone =>
      rw [hnone] at he
      cases he
    | take f hf hfirst' =>
      -- Of two entries with different numbers, not both are the earlier one.
      have hn : f.number = e.number := by
        by_contra hne
        have hef := hfirst f hf hne
        have hfe := hfirst' e he (Ne.symm hne)
        unfold Stamped.Earlier at hef hfe
        omega
      rw [h.eq_of_number hf he hn]
      exact ⟨rfl, rfl⟩

theorem Sound.run_unique {xs : List (QueueRequest α)} {answers answers' : List (Option (Instant × α))}
    {c' : Backlog α} (h : b.Sound) (hr : Run b xs answers c) (hr' : Run b xs answers' c') :
    answers' = answers ∧ c' = c := by
  induction hr generalizing answers' with
  | nil =>
    cases hr'
    exact ⟨rfl, rfl⟩
  | cons hs _ ih =>
    cases hr' with
    | cons hs' hr' =>
      obtain ⟨rfl, rfl⟩ := h.step_unique hs hs'
      obtain ⟨rfl, rfl⟩ := ih (h.step hs) hr'
      exact ⟨rfl, rfl⟩

theorem Step.counts {x : QueueRequest α} {answers : List (Option (Instant × α))} (h : Step b x answers c) :
    c.added = b.added + [x].countP QueueRequest.isAdd ∧
      c.taken.map Stamped.entry = b.taken.map Stamped.entry ++ answers.filterMap id := by
  cases h with
  | add due value => exact ⟨rfl, (List.append_nil _).symm⟩
  | idle => exact ⟨rfl, (List.append_nil _).symm⟩
  | take e => exact ⟨rfl, List.map_append⟩

theorem Run.counts {xs : List (QueueRequest α)} {answers : List (Option (Instant × α))} (h : Run b xs answers c) :
    c.added = b.added + xs.countP QueueRequest.isAdd ∧
      c.taken.map Stamped.entry = b.taken.map Stamped.entry ++ answers.filterMap id := by
  induction h with
  | nil => exact ⟨rfl, (List.append_nil _).symm⟩
  | cons hs _ ih =>
    obtain ⟨hadded, htaken⟩ := hs.counts
    obtain ⟨hadded', htaken'⟩ := ih
    constructor
    · rw [hadded', hadded, Nat.add_assoc, ← List.countP_append]
      rfl
    · rw [htaken', htaken, List.filterMap_append, List.append_assoc]

theorem Sound.length_added (h : b.Sound) : b.waiting.length + b.taken.length = b.added := by
  have := h.accounted.length_eq
  simp [numbers] at this
  omega

end Backlog

/-! ## Queues -/

/-- Anything that can be asked to add an entry and to take one out. -/
structure Queue (α : Type) where
  State : Type
  add : State → Instant → α → State
  pop : State → Option ((Instant × α) × State)

namespace Queue

/-- Carries out requests one after the other; every taking is answered. -/
def perform (Q : Queue α) (s : Q.State) : List (QueueRequest α) → Q.State × List (Option (Instant × α))
  | [] => (s, [])
  | .add due value :: r => Q.perform (Q.add s due value) r
  | .pop :: r =>
    match Q.pop s with
    | none => ((Q.perform s r).1, none :: (Q.perform s r).2)
    | some (e, s) => ((Q.perform s r).1, some e :: (Q.perform s r).2)

/-- The queue serves the backlogs that its states stand for, as long as no more than so many entries are added. -/
structure Serves (Q : Queue α) (bound : Nat) (R : Q.State → Backlog α → Prop) : Prop where
  add : ∀ s b, R s b → b.added < bound → ∀ due value, R (Q.add s due value) (b.add due value)
  idle : ∀ s b, R s b → Q.pop s = none → b.waiting = []
  pop : ∀ s b e s', R s b → Q.pop s = some (e, s') → ∃ f ∈ b.waiting,
    (∀ g ∈ b.waiting, g.number ≠ f.number → f.Earlier g) ∧ e = f.entry ∧ R s' (b.take f)

/-- Every run of a queue is a run of the backlog. -/
theorem Serves.perform {Q : Queue α} {bound : Nat} {R : Q.State → Backlog α → Prop} (h : Q.Serves bound R)
    {s : Q.State} {b : Backlog α} (hR : R s b) (xs : List (QueueRequest α))
    (hxs : b.added + xs.countP QueueRequest.isAdd ≤ bound) :
    ∃ c, Backlog.Run b xs (Q.perform s xs).2 c ∧ R (Q.perform s xs).1 c := by
  induction xs generalizing s b with
  | nil => exact ⟨b, .nil b, hR⟩
  | cons x xs ih =>
    cases x with
    | add due value =>
      rw [List.countP_cons_of_pos rfl] at hxs
      have hadded : (b.add due value).added = b.added + 1 := rfl
      obtain ⟨c, hrun, hc⟩ := ih (h.add s b hR (by omega) due value) (by omega)
      exact ⟨c, .cons (.add b due value) hrun, hc⟩
    | pop =>
      rw [List.countP_cons_of_neg (by simp [QueueRequest.isAdd])] at hxs
      rw [Queue.perform]
      cases hp : Q.pop s with
      | none =>
        obtain ⟨c, hrun, hc⟩ := ih hR hxs
        exact ⟨c, .cons (.idle b (h.idle s b hR hp)) hrun, hc⟩
      | some q =>
        obtain ⟨e, s'⟩ := q
        obtain ⟨f, hf, hfirst, rfl, hR'⟩ := h.pop s b e s' hR hp
        obtain ⟨c, hrun, hc⟩ := ih hR' hxs
        exact ⟨c, .cons (.take b f hf hfirst) hrun, hc⟩

end Queue

/-! ## The queue of the program -/

namespace TimeQueue

def asQueue (α : Type) : Queue α := ⟨TimeQueue α, TimeQueue.add, TimeQueue.pop⟩

/-- The queue holds what waits in the backlog. -/
def Keeps (q : TimeQueue α) (b : Backlog α) : Prop := b.Sound ∧ ∃ l, l.Perm b.waiting ∧ q.Holds l

theorem keeps_empty : (empty : TimeQueue α).Keeps .empty := ⟨Backlog.sound_empty, [], .refl _, holds_empty⟩

variable {q q' : TimeQueue α} {b : Backlog α}

theorem Keeps.add (h : q.Keeps b) (due : Instant) (value : α) : (q.add due value).Keeps (b.add due value) := by
  obtain ⟨hb, l, hperm, hq⟩ := h
  have hlast : ∀ f ∈ l, f.number < b.added := fun f hf => hb.number_lt (hperm.mem_iff.1 hf)
  obtain ⟨l', hperm', hq'⟩ := hq.add ⟨due, b.added, value⟩ hlast
  refine ⟨hb.add due value, l', ?_, hq'⟩
  exact hperm'.trans ((hperm.cons _).trans (List.perm_append_singleton _ _).symm)

theorem Keeps.idle (h : q.Keeps b) (hp : q.pop = none) : b.waiting = [] := by
  obtain ⟨-, l, hperm, hq⟩ := h
  rw [pop, hq.entries] at hp
  cases l with
  | nil => exact hperm.symm.eq_nil
  | cons e l => cases hp

/-- The first entry of the queue is the earliest that waits. -/
theorem Keeps.pop (h : q.Keeps b) {e : Instant × α} (hp : q.pop = some (e, q')) :
    ∃ f ∈ b.waiting, (∀ g ∈ b.waiting, g.number ≠ f.number → f.Earlier g) ∧ e = f.entry ∧ q'.Keeps (b.take f) := by
  obtain ⟨hb, l, hperm, hq⟩ := h
  rw [TimeQueue.pop, hq.entries] at hp
  cases l with
  | nil => cases hp
  | cons f l =>
    cases hp
    have hf : f ∈ b.waiting := hperm.mem_iff.1 List.mem_cons_self
    refine ⟨f, hf, fun g hg hne => ?_, rfl, hb.take hf, l, ?_, hq.tail⟩
    · rcases List.mem_cons.1 (hperm.mem_iff.2 hg) with rfl | hg
      · exact absurd rfl hne
      · exact (List.pairwise_cons.1 hq.sorted).1 g hg
    · exact (hperm.trans (Backlog.waiting_perm hb.rising hf)).cons_inv

theorem serves (bound : Nat) : (asQueue α).Serves bound Keeps :=
  ⟨fun _ _ h _ => h.add, fun _ _ h => h.idle, fun _ _ _ _ h => h.pop⟩

def dueRank (e : Stamped α) : Int := e.due.rank

/-- Sorting by due time keeps the entries of one time in the order of their numbers. -/
theorem byRank_earlier {l : List (Stamped α)} (hl : l.Pairwise fun e f => e.number < f.number) :
    (byRank dueRank l).Pairwise Stamped.Earlier := by
  obtain ⟨ordered, hperm, hsorted, hmap⟩ := exists_numbered dueRank l
  rw [← hmap, List.pairwise_map]
  refine hsorted.imp_of_mem fun {a b} ha hb hab => ?_
  rcases hab with hlt | ⟨heq, hlt⟩
  · exact .inl hlt
  · refine .inr ⟨heq, ?_⟩
    obtain ⟨i, hi, rfl⟩ := List.mem_iff_getElem.1 (hperm.mem_iff.1 ha)
    obtain ⟨j, hj, rfl⟩ := List.mem_iff_getElem.1 (hperm.mem_iff.1 hb)
    simp only [List.getElem_zipIdx, Nat.zero_add] at hlt ⊢
    exact List.pairwise_iff_getElem.1 hl i j _ _ hlt

/-- What is in the queue is what waits, sorted by due time. -/
theorem Keeps.toList_eq (h : q.Keeps b) :
    q.toList = (byRank dueRank b.waiting).map Stamped.entry := by
  obtain ⟨hb, l, hperm, hq⟩ := h
  have hsame : l = byRank dueRank b.waiting := by
    refine List.Perm.eq_of_pairwise (fun e f _ _ hef hfe => ?_) hq.sorted (byRank_earlier hb.rising)
      (hperm.trans (byRank_perm dueRank b.waiting).symm)
    unfold Stamped.Earlier at hef hfe
    omega
  rw [hq.entries, hsame]

end TimeQueue

end FleetEnergy
