import FleetEnergy.Host
import FleetEnergy.Proofs.File.Tree

/-! Computations on a host that is a value. Some only read, so that their result is a function of the tree, and some
do not read at all, so that from trees that are alike they give the same result and leave trees that are alike. -/
namespace FleetEnergy
open File (Tree)
set_option autoImplicit false

namespace HostState

variable {α β ε : Type} {x : StateM HostState α} {f : α → StateM HostState β}

/-! ## Computations that only read -/

/-- The result is a function of the tree, which stays as it is. -/
def Reads (x : StateM HostState α) (g : Tree → α) : Prop := ∀ w, (x w).1 = g w.tree ∧ (x w).2.tree = w.tree

theorem reads_pure (a : α) : Reads (pure a) fun _ => a := fun _ => ⟨rfl, rfl⟩

theorem Reads.congr {g h : Tree → α} (hx : Reads x g) (heq : ∀ t, g t = h t) : Reads x h := by
  rwa [← funext heq]

theorem Reads.bind {g : Tree → α} {h : α → Tree → β} (hx : Reads x g) (hf : ∀ a, Reads (f a) (h a)) :
    Reads (x >>= f) fun t => h (g t) t := by
  intro w
  obtain ⟨hres, htree⟩ := hx w
  obtain ⟨hres', htree'⟩ := hf (x w).1 (x w).2
  change (f (x w).1 (x w).2).1 = _ ∧ (f (x w).1 (x w).2).2.tree = _
  rw [hres', htree', htree, hres]
  exact ⟨rfl, rfl⟩

theorem reads_note (n : Notice) : Reads (Host.note n) fun _ => () := fun _ => ⟨rfl, rfl⟩

theorem reads_noteAll (ns : List Notice) : Reads (Host.noteAll ns) fun _ => () := by
  induction ns with
  | nil => exact reads_pure ()
  | cons n ns ih => exact (reads_note n).bind fun _ => ih

theorem reads_readFile (path : String) : Reads (Host.readFile path) (·.read path) := fun _ => ⟨rfl, rfl⟩

/-! ## Computations that do not read -/

def Blind (x : StateM HostState α) : Prop :=
  ∀ known w w', w.tree.Alike known w'.tree → (x w').1 = (x w).1 ∧ (x w).2.tree.Alike known (x w').2.tree

theorem Reads.blind {a : α} (h : Reads x fun _ => a) : Blind x := by
  intro known w w' halike
  obtain ⟨hres, htree⟩ := h w
  obtain ⟨hres', htree'⟩ := h w'
  rw [hres, hres', htree, htree']
  exact ⟨rfl, halike⟩

theorem Blind.bind (hx : Blind x) (hf : ∀ a, Blind (f a)) : Blind (x >>= f) := by
  intro known w w' halike
  obtain ⟨hres, hnext⟩ := hx known w w' halike
  change (f (x w').1 (x w').2).1 = (f (x w).1 (x w).2).1 ∧
    (f (x w).1 (x w).2).2.tree.Alike known (f (x w').1 (x w').2).2.tree
  rw [hres]
  exact hf _ known _ _ hnext

theorem blind_change {c : Tree → Except File.Fault Tree}
    (hc : ∀ known t t', t.Alike known t' → Tree.Agree known (c t) (c t')) : Blind (change c) := by
  intro known w w' halike
  have hagree := hc known w.tree w'.tree halike
  unfold change
  revert hagree
  generalize c w.tree = r, c w'.tree = r'
  rintro (h | e)
  · exact ⟨rfl, h⟩
  · exact ⟨rfl, halike⟩

theorem blind_writeText (path text : String) : Blind (Host.writeText path text) :=
  blind_change fun _ _ _ h => h.write path text.toUTF8

theorem blind_makeDirectories (path : String) : Blind (Host.makeDirectories path) :=
  blind_change fun _ _ _ h => h.makeDirectories path

/-! ## Computations that may fail -/

section Faults

variable {y : ExceptT ε (StateM HostState) α} {k : α → ExceptT ε (StateM HostState) β}

theorem run_bind_of_ok {w v : HostState} {a : α} (h : y.run w = (.ok a, v)) : (y >>= k).run w = (k a).run v := by
  change ExceptT.bindCont k (y.run w).1 (y.run w).2 = _
  rw [h]
  rfl

theorem run_bind_of_error {w v : HostState} {e : ε} (h : y.run w = (.error e, v)) :
    (y >>= k).run w = (.error e, v) := by
  change ExceptT.bindCont k (y.run w).1 (y.run w).2 = _
  rw [h]
  rfl

theorem run_bind_cases {w v : HostState} {b : β} (h : (y >>= k).run w = (.ok b, v)) :
    ∃ a u, y.run w = (.ok a, u) ∧ (k a).run u = (.ok b, v) := by
  cases hy : y.run w with
  | mk r u =>
    cases r with
    | error e =>
      rw [run_bind_of_error hy] at h
      cases h
    | ok a =>
      rw [run_bind_of_ok hy] at h
      exact ⟨a, u, rfl, h⟩

theorem reads_lift {x : StateM HostState α} {g : Tree → α} (h : Reads x g) :
    Reads (ExceptT.lift x : ExceptT ε (StateM HostState) α).run fun t => .ok (g t) :=
  h.bind fun a => reads_pure (Except.ok a)

theorem Reads.andThen {g : Tree → Except ε α} {h : α → Tree → Except ε β} (hy : Reads y.run g)
    (hk : ∀ a, Reads (k a).run (h a)) : Reads (y >>= k).run fun t => g t >>= fun a => h a t := by
  intro w
  obtain ⟨hres, htree⟩ := hy w
  change ((y >>= k).run w).1 = (g w.tree >>= fun a => h a w.tree) ∧ _
  cases hrun : y.run w with
  | mk r u =>
    rw [hrun] at hres htree
    rw [← hres]
    cases r with
    | error e =>
      rw [run_bind_of_error hrun]
      exact ⟨rfl, htree⟩
    | ok a =>
      obtain ⟨hres', htree'⟩ := hk a u
      rw [run_bind_of_ok hrun, hres', htree', htree]
      exact ⟨rfl, rfl⟩

theorem Blind.andThen (hy : Blind y.run) (hk : ∀ a, Blind (k a).run) : Blind (y >>= k).run := by
  have hbind : (y >>= k).run = y.run >>= ExceptT.bindCont k := rfl
  rw [hbind]
  refine hy.bind fun r => ?_
  cases r with
  | error e => exact (reads_pure _).blind
  | ok a => exact hk a

theorem blind_throw (e : ε) : Blind (throw e : ExceptT ε (StateM HostState) α).run := (reads_pure _).blind

theorem blind_forIn (l : List β) {step : β → ExceptT ε (StateM HostState) Unit} (hstep : ∀ b, Blind (step b).run) :
    Blind (forIn l PUnit.unit fun b _ => do
      step b
      pure (ForInStep.yield PUnit.unit)).run := by
  induction l with
  | nil => exact (reads_pure _).blind
  | cons b l ih =>
    rw [List.forIn_cons]
    refine Blind.andThen ((hstep b).andThen fun _ => (reads_pure _).blind) fun r => ?_
    cases r with
    | done r => exact (reads_pure _).blind
    | yield r => exact ih

/-- What succeeds on one host succeeds with the same result on one that is alike. -/
theorem Blind.follow (hy : Blind y.run) {known : List String} {w v w' : HostState} {a : α}
    (hw : w.tree.Alike known w'.tree) (h : y.run w = (.ok a, v)) :
    ∃ v', y.run w' = (.ok a, v') ∧ v.tree.Alike known v'.tree := by
  obtain ⟨hres, halike⟩ := hy known w w' hw
  rw [h] at hres halike
  exact ⟨(y.run w').2, Prod.ext hres rfl, halike⟩

end Faults

end HostState

end FleetEnergy
