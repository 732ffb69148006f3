import FleetEnergy.Document.Outline
import FleetEnergy.Document.Reader
import FleetEnergy.Proofs.Document.Atom

/-! Values of outlines, read where a type is wanted: each is the value that the outline was made for, and the entries of
a branch are its fields. -/
namespace FleetEnergy.Document
set_option autoImplicit false

/-! ## Outlines as values -/

namespace Outline

theorem document_leaf (s : Atom) : (leaf s).document = .atom s := by rw [document]

theorem document_branch (tag : Option String) (es : List (Atom × Outline)) :
    (branch tag es).document = withTag (tag.map .name) (.mapping (documents es)) := by rw [document]

theorem documents_eq_map (es : List (Atom × Outline)) :
    documents es = es.map fun e => (Document.atom e.1, e.2.document) := by
  induction es with
  | nil => rw [documents, List.map_nil]
  | cons e es ih => rw [documents, ih, List.map_cons]

/-- The value of an outline where a type is wanted. -/
def value (o : Outline) : Value := ⟨.asWanted, o.document⟩

theorem value_leaf (s : Atom) : (leaf s).value = ⟨.asWanted, .atom s⟩ := congrArg (Value.mk .asWanted) (document_leaf s)

/-- The entries as fields of a record. -/
def fields (es : List (Atom × Outline)) : Fields := es.map fun e => (e.1.text, e.2.value)

/-! ## Telling the tree of an outline -/

mutual

/-- Whether a tree is the one that an outline is read back as. -/
def isTree : Outline → Document → Bool
  | .leaf s, .atom t => s = t
  | .branch none es, .mapping ds => areTrees es ds
  | .branch (some name) es, .tagged (.name tag) (.mapping ds) => name = tag && areTrees es ds
  | _, _ => false

def areTrees : List (Atom × Outline) → List (Document × Document) → Bool
  | [], [] => true
  | (k, o) :: es, (.atom s, d) :: ds => k = s && isTree o d && areTrees es ds
  | _, _ => false

end



mutual

theorem document_of_isTree (o : Outline) (d : Document) (h : isTree o d = true) : o.document = d := by
  unfold isTree at h
  split at h
  · rw [decide_eq_true_eq] at h
    rw [document, h]
  · rename_i es ds
    rw [document, documents_of_areTrees es ds h]
    rfl
  · rename_i name es tag ds
    rw [Bool.and_eq_true, decide_eq_true_eq] at h
    rw [document, documents_of_areTrees es ds h.2, h.1]
    rfl
  · cases h

theorem documents_of_areTrees (es : List (Atom × Outline)) (ds : List (Document × Document))
    (h : areTrees es ds = true) : documents es = ds := by
  unfold areTrees at h
  split at h
  · rw [documents]
  · rename_i k o es s d ds
    rw [Bool.and_eq_true, Bool.and_eq_true, decide_eq_true_eq] at h
    rw [documents, document_of_isTree o d h.1.2, documents_of_areTrees es ds h.2, h.1.1]
  · cases h

end

/-- A text that is read as the tree of some entries. -/
theorem read_of_isTree {text : String} {es : List (Atom × Outline)}
    (h : (read text).any (isTree (.branch none es)) = true) : read text = some (.mapping (documents es)) := by
  obtain ⟨d, hread, htree⟩ := (Option.any_eq_true _ _).1 h
  rw [hread, ← document_of_isTree _ d htree, document_branch]
  rfl

end Outline

/-! ## Atoms -/

namespace Value

theorem text?_leaf (s : Atom) : text? (Outline.leaf s).value = some s.text := by
  rw [Outline.value_leaf]
  rfl

theorem text?_ofText (s : String) : text? (Outline.leaf (.ofText s)).value = some s := text?_leaf (.ofText s)

theorem float?_ofFloat (x : Float) : float? (Outline.leaf (.ofFloat x)).value = some x := by
  rw [Outline.value_leaf]
  exact float?_write x

theorem whole?_ofNat {limit n : ℕ} (h : n < limit) : whole? limit (Outline.leaf (.ofNat n)).value = some n := by
  have hread : (characters? .whole (.atom (.ofNat n))).bind unsigned? = some n := by
    change unsigned? (toString n).toList = some n
    rw [Nat.toString_eq_repr, Nat.toList_repr]
    exact unsigned?_natDigits n
  rw [Outline.value_leaf]
  change ((characters? .whole (.atom (.ofNat n))).bind unsigned?).filter (fun n => decide (n < limit)) = some n
  rw [hread, Option.filter_some, if_pos (decide_eq_true h)]

theorem flag?_ofFlag (b : Bool) : flag? (Outline.leaf (.ofFlag b)).value = some b := by
  rw [Outline.value_leaf]
  cases b <;> rfl

theorem name?_ofText {α : Type} (names : List (String × α)) (s : String) :
    name? names (Outline.leaf (.ofText s)).value = names.lookup s := by
  rw [Outline.value_leaf]
  rfl

/-! ## Branches -/

theorem alternative?_branch (name : String) (es : List (Atom × Outline)) :
    alternative? (Outline.branch (some name) es).value = some (name, some (Outline.branch none es).value) := by
  unfold Outline.value
  rw [Outline.document_branch, Outline.document_branch]
  rfl

theorem textEntries?_branch (es : List (Atom × Outline)) :
    textEntries? (Outline.branch none es).value = some (es.map fun e => (e.1.text, e.2.document)) := by
  have hentries : entries? (Outline.branch none es).value =
      some (es.map fun e => (Document.atom e.1, e.2.document)) := by
    unfold Outline.value
    rw [Outline.document_branch, Outline.documents_eq_map]
    rfl
  rw [textEntries?, hentries, Option.bind_some, List.mapM_map]
  exact List.mapM_pure

theorem fields?_branch (names : List String) (es : List (Atom × Outline)) :
    fields? names (Outline.branch none es).value = Fields.known? names (Outline.fields es) := by
  have htext := textEntries?_branch es
  unfold Outline.value at htext ⊢
  rw [Outline.document_branch] at htext ⊢
  change (textEntries? _).bind _ = _
  rw [htext, Option.bind_some, List.map_map]
  rfl

/-- Where the kind stands first, the other fields are read as is wanted. -/
theorem kind?_branch (name kind : Atom) (depth : ℕ) (es : List (Atom × Outline)) :
    kind? name.text depth (Outline.branch none ((name, .leaf kind) :: es)).value =
      some (kind.text, Outline.fields es) := by
  have hkind : text? ⟨.asWanted, (Outline.leaf kind).document⟩ = some kind.text := text?_leaf kind
  have hbefore (es : List (String × Document)) (d : Document) :
      ((name.text, d) :: es).takeWhile (·.1 != name.text) = [] := by
    rw [List.takeWhile_cons, bne_self_eq_false]
    rfl
  rw [kind?, textEntries?_branch, List.map_cons, Option.bind_eq_bind, Option.bind_some, hbefore]
  simp only [List.length_nil, List.drop_zero, hkind, Option.bind_eq_bind, Option.bind_some, List.isEmpty_nil, if_true,
    List.map_map]
  rfl

end Value

/-! ## Fields -/

namespace Fields

/-- Of fields with the names that are known, each of them once, all are kept. -/
theorem known?_self {names : List String} {fs : Fields} (h : fs.map (·.1) = names) (hn : names.Nodup) :
    fs.known? names = some fs := by
  have hall : fs.filter (fun f => names.contains f.1) = fs := by
    refine List.filter_eq_self.2 fun f hf => ?_
    rw [List.contains_iff_mem, ← h]
    exact List.mem_map_of_mem hf
  rw [known?, hall, h, if_pos hn]

section Lookup

variable {α : Type} (name other : String) (v : Value) (fs : Fields) (default : α) (read : Value → Option α)

theorem lookup_cons : List.lookup name ((other, v) :: fs) = if name = other then some v else List.lookup name fs := by
  rw [List.lookup_cons, beq_eq_decide]
  split_ifs with h <;> simp [h]

theorem need_cons : Fields.need ((other, v) :: fs) name read = if name = other then read v else fs.need name read := by
  rw [need, lookup_cons, need]
  split_ifs <;> rfl

theorem given_cons :
    Fields.given ((other, v) :: fs) name default read =
      if name = other then read v else fs.given name default read := by
  rw [given, lookup_cons, given]
  split_ifs <;> rfl

end Lookup

end Fields

end FleetEnergy.Document
