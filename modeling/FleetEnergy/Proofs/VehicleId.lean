import Mathlib.Data.List.Sort
import Std.Data.TreeMap.Lemmas
import FleetEnergy.Proofs.Decimal.Characters
import FleetEnergy.Proofs.Text.Blank
import FleetEnergy.VehicleId

/-! Ids are ordered by their numbers, written as them and read from them, and a value kept under one id is not found
under another. -/
namespace FleetEnergy
set_option autoImplicit false

namespace VehicleId

theorem compare_eq (a b : VehicleId) : compare a b = compare a.node b.node := rfl

instance : Std.TransOrd VehicleId where
  eq_swap := by
    intro a b
    rw [compare_eq, compare_eq]
    exact Std.OrientedCmp.eq_swap
  isLE_trans := by
    intro a b c hab hbc
    rw [compare_eq] at hab hbc ⊢
    exact Std.TransCmp.isLE_trans hab hbc

instance : Std.LawfulEqOrd VehicleId where
  eq_of_compare := by
    intro a b h
    rw [compare_eq] at h
    cases a
    cases b
    exact congrArg VehicleId.mk (Std.LawfulEqCmp.eq_of_compare h)

theorem compare_lt_iff (a b : VehicleId) : compare a b = .lt ↔ a.node < b.node := by
  rw [compare_eq]
  exact Std.compare_eq_lt

/-! ## Reading -/

theorem read_eq_ok_iff {cs : List Char} {id : VehicleId} :
    read cs = .ok id ↔ Decimal.readWhole UInt32.size (Text.trim cs) = .ok id.node.toNat := by
  rw [read]
  cases hk : Decimal.readWhole UInt32.size (Text.trim cs) with
  | error e => exact ⟨nofun, nofun⟩
  | ok k =>
    obtain ⟨-, hlt⟩ := Decimal.readWhole_ok (by decide) hk
    have hnode : k.toUInt32.toNat = k := UInt32.toNat_ofNat_of_lt' hlt
    constructor
    · intro h
      cases h
      exact congrArg Except.ok hnode.symm
    · intro h
      obtain rfl := Except.ok.inj h
      exact congrArg (fun node => Except.ok (VehicleId.mk node)) (UInt32.toNat_inj.1 hnode)

theorem read_eq_error_iff {cs : List Char} {e : Decimal.WholeError} :
    read cs = .error e ↔ Decimal.readWhole UInt32.size (Text.trim cs) = .error e := by
  rw [read]
  cases Decimal.readWhole UInt32.size (Text.trim cs) <;> simp [Except.map]

theorem text_toList (id : VehicleId) : id.text.toList = Decimal.natDigits id.node.toNat := by
  rw [text, Nat.toString_eq_ofList_toDigits, String.toList_ofList, Decimal.natDigits]

theorem readWhole_text (id : VehicleId) : Decimal.readWhole UInt32.size id.text.toList = .ok id.node.toNat := by
  rw [text_toList]
  exact Decimal.readWhole_natDigits id.node.toNat_lt

/-- Every id is read back from its text. -/
theorem read_text (id : VehicleId) : read id.text.toList = .ok id := by
  have hsolid : ∀ c ∈ id.text.toList, Text.isBlank c = false := by
    rw [text_toList]
    exact fun c hc => Text.not_blank_of_digit ((Decimal.areDigits_natDigits _).digits c hc)
  rw [read_eq_ok_iff, Text.trim_solid hsolid, readWhole_text]

end VehicleId

theorem getElem?_insert {α : Type} (m : VehicleMap α) (key id : VehicleId) (a : α) :
    (m.insert key a)[id]? = if key = id then some a else m[id]? := by
  rw [Std.TreeMap.getElem?_insert]
  by_cases h : key = id
  · rw [if_pos h, if_pos (by rw [h]; exact Std.ReflCmp.compare_self)]
  · rw [if_neg h, if_neg (fun hc => h (Std.LawfulEqCmp.eq_of_compare hc))]

end FleetEnergy
