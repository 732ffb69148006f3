import FleetEnergy.Proofs.Backlog

/-! A queue over a heap. A heap only gives out a greatest entry, of equal ones any; the entries are therefore compared by
their due times and numbers, both turned round, so that the heap gives out what comes first. -/
namespace FleetEnergy
set_option autoImplicit false

/-! ## The total order of the times -/

namespace Instant

/-- The bits as a signed word; below zero all of them but the sign are turned over. -/
def key (t : Instant) : Int64 :=
  let n := t.bits.toInt64
  n ^^^ ((n >>> 63).toUInt64 >>> 1).toInt64

def totalCompare (s t : Instant) : Ordering := compare s.key t.key

theorem turned_of_msb {b : BitVec 64} (h : b.msb = true) :
    b ^^^ (b.sshiftRight 63 >>> 1) = ~~~b + BitVec.intMin 64 := by
  have hb : 2 ^ 63 ≤ b.toNat := by simpa [BitVec.msb_eq_decide] using h
  have hlast : b.getLsbD 63 = true := h
  have hmask : b.sshiftRight 63 >>> 1 = ~~~BitVec.intMin 64 := by
    have hzero : ~~~b >>> 63 = 0#64 := by
      apply BitVec.eq_of_toNat_eq
      simp
      omega
    rw [BitVec.sshiftRight_eq_of_msb_true h, hzero]
    decide
  have hdisjoint : ~~~b &&& BitVec.intMin 64 = 0#64 := by
    apply BitVec.eq_of_getLsbD_eq
    intro i hi
    by_cases h63 : i = 63 <;> simp [BitVec.getLsbD_intMin, h63, hlast]
  rw [hmask, BitVec.add_eq_or_of_and_eq_zero _ _ hdisjoint]
  apply BitVec.eq_of_getLsbD_eq
  intro i hi
  simp only [BitVec.getLsbD_xor, BitVec.getLsbD_or, BitVec.getLsbD_not, BitVec.getLsbD_intMin]
  by_cases h63 : i = 63
  · simp [h63, hlast]
  · simp [h63, hi]

theorem toInt_turned (b : BitVec 64) :
    (b ^^^ (b.sshiftRight 63 >>> 1)).toInt = if 2 ^ 63 ≤ b.toNat then (2 ^ 63 - 1 - b.toNat : Int) else b.toNat := by
  have hb := b.isLt
  cases h : b.msb with
  | false =>
    have hlt : b.toNat < 2 ^ 63 := by simpa [BitVec.msb_eq_decide] using h
    have hmask : b.sshiftRight 63 >>> 1 = 0#64 := by
      apply BitVec.eq_of_toNat_eq
      rw [BitVec.sshiftRight_eq_of_msb_false h]
      simp
      omega
    rw [hmask, BitVec.xor_zero, BitVec.toInt_eq_toNat_cond]
    split_ifs <;> omega
  | true =>
    have hle : 2 ^ 63 ≤ b.toNat := by simpa [BitVec.msb_eq_decide] using h
    have hsum : (~~~b + BitVec.intMin 64).toNat = 2 ^ 64 - 1 - b.toNat + 2 ^ 63 := by
      rw [BitVec.toNat_add, BitVec.toNat_not, BitVec.toNat_intMin]
      omega
    rw [turned_of_msb h, BitVec.toInt_eq_toNat_cond, hsum]
    split_ifs <;> omega

theorem toInt_key (t : Instant) : t.key.toInt = t.rank := by
  have hcount : ((63 : Int64).toBitVec.smod 64).toNat = 63 := by decide
  have hshift : (t.bits.toInt64 >>> 63).toBitVec = t.bits.toBitVec.sshiftRight 63 := by
    rw [Int64.toBitVec_shiftRight, BitVec.sshiftRight', hcount]
    rfl
  have hkey : t.key.toBitVec = t.bits.toBitVec ^^^ (t.bits.toBitVec.sshiftRight 63 >>> 1) := by
    rw [key, Int64.toBitVec_xor, UInt64.toBitVec_toInt64, UInt64.toBitVec_toInt64, UInt64.toBitVec_shiftRight,
      Int64.toBitVec_toUInt64, hshift]
    rfl
  rw [Int64.toInt, hkey, toInt_turned, rank_eq, UInt64.toNat_toBitVec]

theorem totalCompare_lt {s t : Instant} : s.totalCompare t = .lt ↔ s.rank < t.rank := by
  rw [totalCompare, Std.compare_eq_lt, Int64.lt_iff_toInt_lt, toInt_key, toInt_key]

theorem totalCompare_eq {s t : Instant} : s.totalCompare t = .eq ↔ s.rank = t.rank := by
  rw [totalCompare, Std.compare_eq_iff_eq, ← Int64.toInt_inj, toInt_key, toInt_key]

end Instant

/-! ## Entries of a heap -/

structure HeapEntry (α : Type) where
  due : Instant
  order : UInt64
  value : α

variable {α : Type}

namespace HeapEntry

/-- Greater is what is due earlier or, at the same time, was added earlier. -/
def compare (e f : HeapEntry α) : Ordering := (f.due.totalCompare e.due).then (Ord.compare f.order e.order)

theorem isLE_compare_iff {e f : HeapEntry α} :
    (compare f e).isLE = true ↔
      e.due.rank < f.due.rank ∨ e.due.rank = f.due.rank ∧ e.order.toNat ≤ f.order.toNat := by
  rw [compare, Ordering.isLE_then_iff_or, Instant.totalCompare_lt, Instant.totalCompare_eq, Std.isLE_compare,
    UInt64.le_iff_toNat_le]

instance : Std.TransCmp (compare : HeapEntry α → HeapEntry α → Ordering) where
  eq_swap := by
    intro e f
    rw [compare, compare, Ordering.swap_then, Instant.totalCompare, Instant.totalCompare,
      ← Std.OrientedOrd.eq_swap, ← Std.OrientedOrd.eq_swap]
  isLE_trans := by
    intro e f g hef hfg
    rw [isLE_compare_iff] at hef hfg ⊢
    omega

end HeapEntry

/-! ## Heaps -/

/-- Something that entries are pushed into and popped from. -/
structure Heap (ε : Type) where
  State : Type
  empty : State
  push : State → ε → State
  pop : State → Option (ε × State)
  size : State → Nat
  isEmpty : State → Bool

/-- A heap gives back what was pushed into it, each time an entry that no other one is greater than. -/
structure Heap.Lawful {ε : Type} (H : Heap ε) (cmp : ε → ε → Ordering) (contents : H.State → List ε) : Prop where
  empty : contents H.empty = []
  push : ∀ s e, (contents (H.push s e)).Perm (e :: contents s)
  popNone : ∀ s, H.pop s = none → contents s = []
  popSome : ∀ s e s', H.pop s = some (e, s') → (contents s).Perm (e :: contents s')
  greatest : ∀ s e s', H.pop s = some (e, s') → ∀ f ∈ contents s, (cmp f e).isLE = true
  size : ∀ s, H.size s = (contents s).length
  isEmpty : ∀ s, H.isEmpty s = true ↔ contents s = []

/-- The heap that sorts its contents for every popping. -/
def Heap.sorting {ε : Type} (cmp : ε → ε → Ordering) : Heap ε where
  State := List ε
  empty := []
  push s e := e :: s
  pop s :=
    match s.mergeSort fun a b => (cmp b a).isLE with
    | [] => none
    | e :: r => some (e, r)
  size := List.length
  isEmpty := List.isEmpty

theorem Heap.sorting_lawful {ε : Type} (cmp : ε → ε → Ordering) [Std.TransCmp cmp] :
    (sorting cmp).Lawful cmp id := by
  have hperm (s : List ε) : s.Perm (s.mergeSort fun a b => (cmp b a).isLE) := (List.mergeSort_perm s _).symm
  have hpop {s : List ε} {e : ε} {r : List ε} (h : (sorting cmp).pop s = some (e, r)) :
      s.mergeSort (fun a b => (cmp b a).isLE) = e :: r := by
    simp only [sorting] at h
    split at h
    · cases h
    · rename_i hsorted
      cases h
      exact hsorted
  refine ⟨rfl, fun s e => .refl _, fun s h => ?_, fun s e r h => ?_, fun s e r h f hf => ?_, fun s => rfl,
    fun s => List.isEmpty_iff⟩
  · simp only [sorting] at h
    split at h
    · rename_i hsorted
      have := hperm s
      rw [hsorted] at this
      exact this.eq_nil
    · cases h
  · have := hperm s
    rwa [hpop h] at this
  · have htotal (a b : ε) : ((cmp b a).isLE || (cmp a b).isLE) = true := by
      have hswap : cmp b a = (cmp a b).swap := Std.OrientedCmp.eq_swap
      rw [hswap]
      cases cmp a b <;> rfl
    have htrans (a b c : ε) (hab : (cmp b a).isLE = true) (hbc : (cmp c b).isLE = true) : (cmp c a).isLE = true :=
      Std.TransCmp.isLE_trans hbc hab
    have hsorted : (s.mergeSort fun a b => (cmp b a).isLE).Pairwise fun a b => (cmp b a).isLE = true :=
      List.pairwise_mergeSort htrans htotal s
    rw [hpop h] at hsorted
    have hmem := (hperm s).mem_iff.1 hf
    rw [hpop h] at hmem
    rcases List.mem_cons.1 hmem with rfl | hmem
    · exact Std.ReflCmp.isLE_rfl
    · exact (List.pairwise_cons.1 hsorted).1 f hmem

/-! ## The queue -/

/-- A heap of entries and the number of the next one. -/
structure HeapQueue (H : Heap (HeapEntry α)) where
  heap : H.State
  counter : UInt64

namespace HeapQueue

variable {H : Heap (HeapEntry α)}

def new (H : Heap (HeapEntry α)) : HeapQueue H := ⟨H.empty, 0⟩

def add (q : HeapQueue H) (due : Instant) (value : α) : HeapQueue H :=
  ⟨H.push q.heap ⟨due, q.counter, value⟩, q.counter + 1⟩

def pop (q : HeapQueue H) : Option ((Instant × α) × HeapQueue H) :=
  (H.pop q.heap).map fun (e, heap) => ((e.due, e.value), { q with heap := heap })

def size (q : HeapQueue H) : Nat := H.size q.heap

def isEmpty (q : HeapQueue H) : Bool := H.isEmpty q.heap

def asQueue (H : Heap (HeapEntry α)) : Queue α := ⟨HeapQueue H, add, pop⟩

/-- An entry as it lies in the heap. -/
def stored (e : Stamped α) : HeapEntry α := ⟨e.due, .ofNat e.number, e.value⟩

/-- The heap holds what waits in the backlog. -/
structure Keeps (contents : H.State → List (HeapEntry α)) (q : HeapQueue H) (b : Backlog α) : Prop where
  sound : b.Sound
  contents : (contents q.heap).Perm (b.waiting.map stored)
  counter : q.counter = .ofNat b.added

section Lawful

variable {contents : H.State → List (HeapEntry α)} (hH : H.Lawful HeapEntry.compare contents) {q q' : HeapQueue H}
  {b : Backlog α}
include hH

theorem keeps_new : (new H).Keeps contents .empty := by
  refine ⟨Backlog.sound_empty, ?_, rfl⟩
  rw [new, hH.empty]
  exact .refl _

theorem Keeps.add (h : q.Keeps contents b) (due : Instant) (value : α) :
    (q.add due value).Keeps contents (b.add due value) := by
  refine ⟨h.sound.add due value, ?_, ?_⟩
  · have hmap : (b.add due value).waiting.map stored = b.waiting.map stored ++ [⟨due, q.counter, value⟩] := by
      simp [Backlog.add, stored, h.counter]
    rw [hmap]
    exact (hH.push _ _).trans ((h.contents.cons _).trans (List.perm_append_singleton _ _).symm)
  · change q.counter + 1 = .ofNat (b.added + 1)
    rw [h.counter, UInt64.ofNat_add]
    rfl

theorem Keeps.idle (h : q.Keeps contents b) (hp : q.pop = none) : b.waiting = [] := by
  have hnone := hH.popNone q.heap (Option.map_eq_none_iff.1 hp)
  have hperm := h.contents
  rw [hnone] at hperm
  exact List.map_eq_nil_iff.1 hperm.symm.eq_nil

/-- As long as the counter does not start over, a greatest entry of the heap is the earliest that waits. -/
theorem Keeps.pop (h : q.Keeps contents b) (hb : b.added ≤ 2 ^ 64) {e : Instant × α} (hp : q.pop = some (e, q')) :
    ∃ f ∈ b.waiting, (∀ g ∈ b.waiting, g.number ≠ f.number → f.Earlier g) ∧ e = f.entry ∧
      q'.Keeps contents (b.take f) := by
  obtain ⟨⟨top, heap⟩, htop, hq⟩ := Option.map_eq_some_iff.1 hp
  cases hq
  have hrest := hH.popSome _ _ _ htop
  have hmem : top ∈ b.waiting.map stored := h.contents.mem_iff.1 (hrest.mem_iff.2 List.mem_cons_self)
  obtain ⟨f, hf, rfl⟩ := List.mem_map.1 hmem
  have horder {g : Stamped α} (hg : g ∈ b.waiting) : (stored g).order.toNat = g.number := by
    have hlt := h.sound.number_lt hg
    have hsize : UInt64.size = 2 ^ 64 := rfl
    exact UInt64.toNat_ofNat_of_lt (by omega)
  refine ⟨f, hf, fun g hg hne => ?_, rfl, h.sound.take hf, ?_, h.counter⟩
  · have hge := hH.greatest _ _ _ htop (stored g) (h.contents.mem_iff.2 (List.mem_map_of_mem hg))
    rw [HeapEntry.isLE_compare_iff, horder hf, horder hg] at hge
    change f.due.rank < g.due.rank ∨ f.due.rank = g.due.rank ∧ f.number ≤ g.number at hge
    unfold Stamped.Earlier
    omega
  · have hleft := (Backlog.waiting_perm h.sound.rising hf).map stored
    exact (hrest.symm.trans (h.contents.trans hleft)).cons_inv

theorem serves : (asQueue H).Serves (2 ^ 64) (fun q b => Keeps contents q b ∧ b.added ≤ 2 ^ 64) := by
  refine ⟨fun q b h hlt due value => ⟨h.1.add hH due value, hlt⟩, fun q b h => h.1.idle hH, ?_⟩
  intro q b e q' h hp
  obtain ⟨f, hf, hfirst, he, hk⟩ := h.1.pop hH h.2 hp
  exact ⟨f, hf, hfirst, he, hk, h.2⟩

end Lawful

/-- Whatever is added to a queue over any heap, as long as its counter does not start over, each popping answers with
the earliest entry that waits, at equal times with the one that was added first; nothing is lost or comes twice; and
the answers are those of a list that is kept sorted by due time, where entries of one time stay in their order. -/
theorem heap_queue_pops_earliest (H : Heap (HeapEntry α)) (contents : H.State → List (HeapEntry α))
    (hH : H.Lawful HeapEntry.compare contents) (xs : List (QueueRequest α))
    (hxs : xs.countP QueueRequest.isAdd < 2 ^ 64) :
    let q : HeapQueue H := ((asQueue H).perform (new H) xs).1
    let answers := ((asQueue H).perform (new H) xs).2
    let sorted : TimeQueue α := ((TimeQueue.asQueue α).perform .empty xs).1
    ∃ b : Backlog α, Backlog.Run .empty xs answers b ∧
      b.added = xs.countP QueueRequest.isAdd ∧
      (Backlog.numbers (b.taken ++ b.waiting)).Perm (List.range b.added) ∧
      answers.filterMap id = b.taken.map Stamped.entry ∧
      q.size = b.waiting.length ∧ q.size + (answers.filterMap id).length = b.added ∧
      (q.isEmpty = true ↔ q.size = 0) ∧
      ((TimeQueue.asQueue α).perform .empty xs).2 = answers ∧
      sorted.toList = (byRank TimeQueue.dueRank b.waiting).map Stamped.entry ∧
      sorted.size = q.size ∧ sorted.isEmpty = q.isEmpty := by
  intro q answers sorted
  obtain ⟨b, hrun, hk, -⟩ := (serves hH).perform (s := new H) (b := .empty) ⟨keeps_new hH, Nat.zero_le _⟩ xs
    (by change 0 + _ ≤ _; omega)
  obtain ⟨c, hrun', hk'⟩ := (TimeQueue.serves (2 ^ 64)).perform (s := TimeQueue.empty) TimeQueue.keeps_empty xs
    (by change 0 + _ ≤ _; omega)
  obtain ⟨hsame, rfl⟩ := Backlog.sound_empty.run_unique hrun hrun'
  obtain ⟨hadded, htaken⟩ := hrun.counts
  have htaken : answers.filterMap id = c.taken.map Stamped.entry := htaken.symm
  have hheap : (contents q.heap).length = c.waiting.length := by
    rw [hk.contents.length_eq, List.length_map]
  have hsize : q.size = c.waiting.length := (hH.size _).trans hheap
  have hlist := TimeQueue.Keeps.toList_eq hk'
  have hsorted : sorted.size = c.waiting.length := by
    change sorted.toList.length = _
    rw [hlist, List.length_map, (byRank_perm _ _).length_eq]
  have hempty : q.isEmpty = true ↔ q.size = 0 := by
    rw [hsize, ← hheap, List.length_eq_zero_iff]
    exact hH.isEmpty _
  refine ⟨c, hrun, hadded.trans (Nat.zero_add _), hk.sound.accounted, htaken, hsize, ?_, hempty, hsame, hlist,
    hsorted.trans hsize.symm, ?_⟩
  · rw [hsize, htaken, List.length_map]
    exact hk.sound.length_added
  · rw [Bool.eq_iff_iff, hempty, hsize, ← hsorted]
    exact List.isEmpty_iff.trans List.length_eq_zero_iff.symm

/-- Two undefined times of either sign, the two zeros, one of them twice, and a popping in between. -/
def mixedRequests : List (QueueRequest Nat) :=
  [.add ⟨0x7FF8000000000000⟩ 0, .add (.ofFloat 0.0) 1, .add (.ofFloat (-0.0)) 2, .pop, .add (.ofFloat 0.0) 3,
    .add ⟨0xFFF8000000000000⟩ 4, .pop, .pop, .pop, .pop, .pop]

theorem mixed_pops_earliest :
    mixedRequests.countP QueueRequest.isAdd < 2 ^ 64 ∧
      ((asQueue (.sorting HeapEntry.compare)).perform (new _) mixedRequests).2 =
        [some (.ofFloat (-0.0), 2), some (⟨0xFFF8000000000000⟩, 4), some (.ofFloat 0.0, 1), some (.ofFloat 0.0, 3),
          some (⟨0x7FF8000000000000⟩, 0), none] := by
  have hcount : mixedRequests.countP QueueRequest.isAdd < 2 ^ 64 := by decide
  obtain ⟨b, -, -, -, -, -, -, -, hsame, -⟩ := heap_queue_pops_earliest (.sorting HeapEntry.compare) id
    (Heap.sorting_lawful HeapEntry.compare) mixedRequests hcount
  refine ⟨hcount, hsame.symm.trans ?_⟩
  decide

end HeapQueue

end FleetEnergy
