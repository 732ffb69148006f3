import FleetEnergy.File.Tree
import Mathlib.Tactic.SplitIfs

/-! Trees with the same directories and with files at the same places, whatever stands in these files. What is written
or made in the one goes the same way in the other, and files that read the same still do. -/
namespace FleetEnergy.File
set_option autoImplicit false

namespace Tree

variable {t t' u : Tree} {p q : Place} {path : String} {content : ByteArray} {known : List String}

/-! ## One tree -/

theorem lookup_cons_eq (files : List (Place × ByteArray)) (p q : Place) (content : ByteArray) :
    ((p, content) :: files).lookup q = if q = p then some content else files.lookup q := by
  rw [List.lookup_cons]
  by_cases h : q = p
  · simp [h]
  · rw [beq_false_of_ne h, if_neg h]

theorem file?_putFile (t : Tree) (p q : Place) (content : ByteArray) :
    (t.putFile p content).file? q = if q = p then some content else t.file? q := by
  unfold putFile file?
  induction t.files with
  | nil => exact lookup_cons_eq [] p q content
  | cons f files ih =>
    obtain ⟨r, old⟩ := f
    by_cases hr : r = p
    · subst hr
      rw [List.filter_cons_of_neg (by simp), ih, lookup_cons_eq]
      by_cases h : q = r
      · rw [if_pos h, if_pos h]
      · rw [if_neg h, if_neg h, if_neg h]
    · rw [List.filter_cons_of_pos (by simpa using hr), List.cons_append, lookup_cons_eq, lookup_cons_eq, ih]
      by_cases h : q = r
      · rw [if_pos h, if_pos h, h, if_neg hr]
      · rw [if_neg h, if_neg h]

theorem read_eq_ok_iff : t.read path = .ok content ↔
    ∃ p, t.locate path = .ok p ∧ t.isDirectory p = false ∧ t.file? p = some content := by
  unfold read
  cases t.locate path with
  | error e => simp [bind, Except.bind]
  | ok p =>
    cases hd : t.isDirectory p with
    | true => simp [bind, Except.bind, hd]
    | false => cases hf : t.file? p <;> simp [bind, Except.bind, hd, hf]

theorem enter_mono (hd : ∀ p, t.isDirectory p = true → u.isDirectory p = true) {name : String}
    (h : t.enter p name = .ok q) : u.enter p name = .ok q := by
  unfold enter at h ⊢
  by_cases hp : t.isDirectory p = true
  · rw [if_pos hp] at h
    rwa [if_pos (hd p hp)]
  · rw [if_neg hp] at h
    split_ifs at h

/-- A way that leads somewhere leads there still when there are more directories. -/
theorem locate_mono (hd : ∀ p, t.isDirectory p = true → u.isDirectory p = true) (h : t.locate path = .ok p) :
    u.locate path = .ok p := by
  have hwalk (names : List String) (q : Place) (h : names.foldlM t.enter q = .ok p) : names.foldlM u.enter q = .ok p := by
    induction names generalizing q with
    | nil => exact h
    | cons name names ih =>
      rw [List.foldlM_cons] at h ⊢
      cases he : t.enter q name with
      | error e =>
        rw [he] at h
        cases h
      | ok r =>
        rw [he] at h
        rw [enter_mono hd he]
        exact ih r h
  unfold locate at h ⊢
  split_ifs at h ⊢
  exact hwalk _ _ h

theorem locate_putFile (h : t.locate path = .ok q) (p : Place) (content : ByteArray) :
    (t.putFile p content).locate path = .ok q := locate_mono (t := t) (fun _ hp => hp) h

theorem write_cases (h : t.write path content = .ok u) :
    ∃ p, t.locate path = .ok p ∧ t.isDirectory p = false ∧ u = t.putFile p content := by
  unfold write at h
  cases hp : t.locate path with
  | error e =>
    rw [hp] at h
    cases h
  | ok p =>
    simp only [hp, bind, Except.bind] at h
    split_ifs at h with hd
    split at h
    · cases h
    · cases h
      exact ⟨p, rfl, (Bool.or_eq_false_iff.1 (Bool.eq_false_iff.2 hd)).1, rfl⟩

/-- What has been written is read. -/
theorem read_write (h : t.write path content = .ok u) : u.read path = .ok content := by
  obtain ⟨p, hp, hd, rfl⟩ := write_cases h
  exact read_eq_ok_iff.2 ⟨p, locate_putFile hp p content, hd, by rw [file?_putFile, if_pos rfl]⟩

/-- The tree with one more directory. -/
def withDirectory (t : Tree) (p : Place) : Tree := { t with directories := t.directories ++ [p] }

theorem isDirectory_withDirectory (t : Tree) (p q : Place) :
    (t.withDirectory p).isDirectory q = (t.isDirectory q || q == p) := by
  have hlast : (t.directories ++ [p]).contains q = (t.directories.contains q || q == p) := by
    rw [List.contains_append, List.contains_cons, List.contains_nil, Bool.or_false]
  rw [withDirectory, isDirectory, isDirectory, hlast, Bool.or_assoc]

theorem read_withDirectory (h : t.read path = .ok content) (hp : (t.file? p).isSome = false) :
    (t.withDirectory p).read path = .ok content := by
  obtain ⟨q, hq, hd, hf⟩ := read_eq_ok_iff.1 h
  have hne : q ≠ p := by
    rintro rfl
    rw [hf] at hp
    cases hp
  refine read_eq_ok_iff.2 ⟨q, locate_mono (fun r hr => ?_) hq, ?_, hf⟩
  · rw [isDirectory_withDirectory, hr, Bool.true_or]
  · rw [isDirectory_withDirectory, hd, beq_false_of_ne hne, Bool.or_false]

/-! ## Two trees -/

/-- The same directories, and files at the same places. -/
structure SameShape (t t' : Tree) : Prop where
  directories : t'.directories = t.directories
  present : ∀ p, (t'.file? p).isSome = (t.file? p).isSome

namespace SameShape

theorem isDirectory_eq (h : t.SameShape t') (p : Place) : t'.isDirectory p = t.isDirectory p := by
  rw [isDirectory, isDirectory, h.directories]

theorem locate_eq (h : t.SameShape t') (path : String) : t'.locate path = t.locate path := by
  have henter : t'.enter = t.enter := by
    funext p name
    simp only [enter, h.isDirectory_eq, h.present]
  simp only [locate, henter]

theorem checkParent_eq (h : t.SameShape t') (p : Place) : t'.checkParent p = t.checkParent p := by
  simp only [checkParent, h.isDirectory_eq, h.present]

theorem putFile (h : t.SameShape t') (p : Place) (content content' : ByteArray) :
    (t.putFile p content).SameShape (t'.putFile p content') where
  directories := h.directories
  present := fun q => by
    rw [file?_putFile, file?_putFile]
    by_cases hq : q = p
    · rw [if_pos hq, if_pos hq]
      rfl
    · rw [if_neg hq, if_neg hq, h.present]

end SameShape

/-- Trees of the same shape in which the files at the known paths read the same. -/
structure Alike (known : List String) (t t' : Tree) : Prop extends SameShape t t' where
  known : ∀ path ∈ known, ∃ content, t.read path = .ok content ∧ t'.read path = .ok content

/-- Both fail with the same fault, or both lead to trees that are alike. -/
inductive Agree (known : List String) : Except Fault Tree → Except Fault Tree → Prop
  | ok {t t' : Tree} : t.Alike known t' → Agree known (.ok t) (.ok t')
  | error (e : Fault) : Agree known (.error e) (.error e)

namespace Alike

theorem of_sameShape (h : t.SameShape t') : t.Alike [] t' := ⟨h, nofun⟩

theorem putFile (h : t.Alike known t') (p : Place) (content : ByteArray) :
    (t.putFile p content).Alike known (t'.putFile p content) := by
  refine ⟨h.toSameShape.putFile p content content, fun path hp => ?_⟩
  obtain ⟨old, hread, hread'⟩ := h.known path hp
  obtain ⟨q, hq, hd, hf⟩ := read_eq_ok_iff.1 hread
  obtain ⟨q', hq', hd', hf'⟩ := read_eq_ok_iff.1 hread'
  have hsame : q' = q := by
    rw [h.locate_eq, hq] at hq'
    cases hq'
    rfl
  subst hsame
  refine ⟨if q' = p then content else old, read_eq_ok_iff.2 ⟨q', locate_putFile hq p content, hd, ?_⟩,
    read_eq_ok_iff.2 ⟨q', locate_putFile hq' p content, hd', ?_⟩⟩
  · rw [file?_putFile, hf, apply_ite some]
  · rw [file?_putFile, hf', apply_ite some]

theorem write (h : t.Alike known t') (path : String) (content : ByteArray) :
    Agree known (t.write path content) (t'.write path content) := by
  unfold Tree.write
  rw [h.locate_eq]
  cases t.locate path with
  | error e => exact .error e
  | ok p =>
    simp only [bind, Except.bind, h.isDirectory_eq, h.checkParent_eq]
    split_ifs
    · exact .error _
    · cases t.checkParent p with
      | error e => exact .error e
      | ok _ => exact .ok (h.putFile p content)

/-- A file that has been written reads the same from then on. -/
theorem write_known (h : t.Alike known t') {u u' : Tree} (hu : t.write path content = .ok u)
    (hu' : t'.write path content = .ok u') : u.Alike (path :: known) u' := by
  have hagree := h.write path content
  rw [hu, hu'] at hagree
  obtain ⟨halike⟩ := hagree
  exact ⟨halike.toSameShape, List.forall_mem_cons.2 ⟨⟨content, read_write hu, read_write hu'⟩, halike.known⟩⟩

theorem withDirectory (h : t.Alike known t') (hp : (t.file? p).isSome = false) :
    (t.withDirectory p).Alike known (t'.withDirectory p) := by
  refine ⟨⟨congrArg (· ++ [p]) h.directories, h.present⟩, fun path hpath => ?_⟩
  obtain ⟨content, hread, hread'⟩ := h.known path hpath
  exact ⟨content, read_withDirectory hread hp, read_withDirectory hread' (by rw [h.present, hp])⟩

theorem makeDirectory (h : t.Alike known t') (path : String) :
    Agree known (t.makeDirectory path) (t'.makeDirectory path) := by
  unfold Tree.makeDirectory
  rw [h.locate_eq]
  cases t.locate (Path.dropSlashes path) with
  | error e => exact .error e
  | ok p =>
    simp only [bind, Except.bind, h.isDirectory_eq, h.present, h.checkParent_eq]
    split_ifs with hthere
    · exact .error _
    · cases t.checkParent p with
      | error e => exact .error e
      | ok _ => exact .ok (h.withDirectory (Bool.or_eq_false_iff.1 (Bool.eq_false_iff.2 hthere)).2)

theorem ensureDirectory (h : t.Alike known t') (path : String) :
    Agree known (t.ensureDirectory path) (t'.ensureDirectory path) := by
  have hthere : t'.pathIsDirectory path = t.pathIsDirectory path := by
    simp only [pathIsDirectory, h.locate_eq, h.isDirectory_eq]
  have hmake := h.makeDirectory path
  unfold Tree.ensureDirectory
  rw [hthere]
  revert hmake
  generalize t.makeDirectory path = r, t'.makeDirectory path = r'
  rintro (h' | e)
  · exact .ok h'
  · cases t.pathIsDirectory path with
    | true => exact .ok h
    | false => exact .error e

theorem makeAll (h : t.Alike known t') (path : String) (fuel : Nat) :
    Agree known (t.makeAll path fuel) (t'.makeAll path fuel) := by
  induction fuel generalizing path with
  | zero => exact h.ensureDirectory path
  | succ fuel ih =>
    have hensure := h.ensureDirectory path
    unfold Tree.makeAll
    split_ifs
    · exact .ok h
    · revert hensure
      generalize t.ensureDirectory path = r, t'.ensureDirectory path = r'
      rintro (h' | e)
      · exact .ok h'
      · by_cases he : e = .notFound
        · subst he
          cases Path.parent? path with
          | none => exact .error _
          | some above =>
            have habove := ih above
            revert habove
            simp only [bind, Except.bind]
            generalize t.makeAll above fuel = r, t'.makeAll above fuel = r'
            rintro (h' | e)
            · exact h'.ensureDirectory path
            · exact .error e
        · split
          · rename_i hfault
            cases hfault
            exact absurd rfl he
          · exact .error e

theorem makeDirectories (h : t.Alike known t') (path : String) :
    Agree known (t.makeDirectories path) (t'.makeDirectories path) := h.makeAll path _

end Alike

end Tree

end FleetEnergy.File
