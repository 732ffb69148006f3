import Mathlib.Tactic.SplitIfs
import FleetEnergy.Ledger

/-! What a booking does to an account. Every step is booked; the moment and the snapshot are remembered if it ends no
earlier than the last one. -/
namespace FleetEnergy
set_option autoImplicit false

namespace Ledger

variable {α : Type} [Scalar α]

section Booked

variable (l : Ledger α) (delta now : α) (s : Snapshot α)

theorem applyTick_remaining : (l.applyTick delta now s).remaining = l.remaining - delta := by
  unfold applyTick
  split_ifs <;> rfl

theorem applyTick_total : (l.applyTick delta now s).total = l.total + delta := by
  unfold applyTick
  split_ifs <;> rfl

theorem applyTick_last : (l.applyTick delta now s).last = delta := by
  unfold applyTick
  split_ifs <;> rfl

end Booked

section Late

variable {l : Ledger α} {now : α} (h : now < l.updateTime) (delta : α) (s : Snapshot α)
include h

theorem applyTick_updateTime_of_late : (l.applyTick delta now s).updateTime = l.updateTime := by
  unfold applyTick
  rw [if_pos h]
  rfl

theorem applyTick_previous_of_late : (l.applyTick delta now s).previous = l.previous := by
  unfold applyTick
  rw [if_pos h]
  rfl

end Late

variable {l : Ledger α} {now : α} (h : ¬now < l.updateTime) (delta : α) (s : Snapshot α)
include h

theorem applyTick_updateTime : (l.applyTick delta now s).updateTime = now := by
  unfold applyTick
  rw [if_neg h]

theorem applyTick_previous : (l.applyTick delta now s).previous = .ofSnapshot s := by
  unfold applyTick
  rw [if_neg h]

end Ledger

end FleetEnergy
