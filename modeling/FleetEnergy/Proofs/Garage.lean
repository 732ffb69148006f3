import FleetEnergy.Garage
import FleetEnergy.Proofs.VehicleId

/-! The garage as a finite map: what is put in under an id comes out under that id, and the list of the
vehicles goes through the ids in ascending order. -/
namespace FleetEnergy
set_option autoImplicit false

/-! ## Looking up and putting back -/

namespace Garage

theorem get?_empty (id : VehicleId) : empty.get? id = none := Std.TreeMap.getElem?_emptyc

theorem get?_put (g : Garage) (v : Vehicle) (id : VehicleId) :
    (g.put v).get? id = if v.id = id then some v else g.get? id :=
  getElem?_insert g.vehicles v.id id v

theorem contains_eq (g : Garage) (id : VehicleId) : g.contains id = (g.get? id).isSome :=
  Std.TreeMap.contains_eq_isSome_getElem?

theorem add_of_new (g : Garage) (v : Vehicle) (h : g.get? v.id = none) : g.add v = .ok (g.put v) := by
  have hc : g.contains v.id = false := by
    rw [contains_eq, h]
    rfl
  rw [add, hc]
  rfl

/-! ## Vehicles under their own ids -/

/-- Every vehicle stands under its own id. -/
def Keyed (g : Garage) : Prop := ∀ id v, g.get? id = some v → v.id = id

theorem keyed_empty : empty.Keyed := by
  intro id v h
  rw [get?_empty] at h
  cases h

theorem Keyed.put {g : Garage} (hg : g.Keyed) (v : Vehicle) : (g.put v).Keyed := by
  intro id w h
  rw [get?_put] at h
  split_ifs at h with hid
  · exact (Option.some.inj h) ▸ hid
  · exact hg id w h

theorem Keyed.mem_toList {g : Garage} (hg : g.Keyed) (v : Vehicle) : v ∈ g.toList ↔ g.get? v.id = some v := by
  unfold toList get?
  constructor
  · intro h
    obtain ⟨⟨id, w⟩, hm, rfl⟩ := List.mem_map.1 h
    have hget := Std.TreeMap.mem_toList_iff_getElem?_eq_some.1 hm
    have hid : w.id = id := hg id w hget
    rw [hid]
    exact hget
  · intro h
    exact List.mem_map.2 ⟨(v.id, v), Std.TreeMap.mem_toList_iff_getElem?_eq_some.2 h, rfl⟩

/-- The vehicles come in ascending order of their ids, each once. -/
theorem Keyed.toList_ascending {g : Garage} (hg : g.Keyed) :
    (g.toList.map (·.id.node)).Pairwise (· < ·) := by
  have hkeys : g.toList.map (·.id.node) = g.vehicles.keys.map (·.node) := by
    rw [← Std.TreeMap.map_fst_toList_eq_keys, toList, List.map_map, List.map_map]
    refine List.map_congr_left fun e he => ?_
    exact congrArg VehicleId.node (hg e.1 e.2 (Std.TreeMap.mem_toList_iff_getElem?_eq_some.1 he))
  rw [hkeys, List.pairwise_map]
  exact Std.TreeMap.ordered_keys.imp fun h => (VehicleId.compare_lt_iff _ _).1 h

end Garage

end FleetEnergy
