import Mathlib.Algebra.Ring.Nat
import WorkStealing.Command.Seeding

/-!
# The handles of seeded tasks

A handle is one word: the task's number in the lower 40 bits, and above them what the 24 remaining
bits can hold of the node's number (`toNat_taskHandle`). So two nodes have different handles exactly
if their numbers differ there (`taskHandle_eq_iff`).
-/

namespace WorkStealing.Command

theorem toNat_taskHandle (node : UInt32) {n : UInt64} (h : n.toNat < 2 ^ 40) :
    (taskHandle node n).raw.toNat = 2 ^ 40 * (node.toNat % 2 ^ 24) + n.toNat := by
  have hword : 2 ^ 64 = 2 ^ 40 * 2 ^ 24 := by decide
  have hshift : node.toNat <<< 40 % 2 ^ 64 = 2 ^ 40 * (node.toNat % 2 ^ 24) := by
    rw [hword, Nat.shiftLeft_eq, Nat.mul_comm, Nat.mul_mod_mul_left]
  rw [Nat.two_pow_add_eq_or_of_lt h, ← hshift]
  simp only [taskHandle, UInt64.toNat_or, UInt64.toNat_shiftLeft, UInt32.toNat_toUInt64]
  rfl

/-- Two seeded tasks have one handle exactly if they have one number and the numbers of their nodes
agree in the lower 24 bits; and a seeded task never has the reserved handle. -/
theorem taskHandle_eq_iff (a b : UInt32) {n m : UInt64} (hpos : 1 ≤ n.toNat)
    (hn : n.toNat < 2 ^ 40) (hm : m.toNat < 2 ^ 40) :
    (taskHandle a n = taskHandle b m ↔ a.toNat % 2 ^ 24 = b.toNat % 2 ^ 24 ∧ n = m) ∧
      taskHandle a n ≠ .none := by
  have ha := toNat_taskHandle a hn
  have hb := toNat_taskHandle b hm
  refine ⟨⟨?_, ?_⟩, ?_⟩
  · intro h
    rw [h] at ha
    exact ⟨by omega, UInt64.toNat_inj.1 (by omega)⟩
  · rintro ⟨hnode, rfl⟩
    rw [hnode, ← hb] at ha
    exact congrArg TaskHandle.mk (UInt64.toNat_inj.1 ha)
  · intro h
    rw [h] at ha
    have hzero : TaskHandle.none.raw.toNat = 0 := rfl
    omega

/-- Node 0 and node 16777216 both call their first task by the handle 1. -/
theorem taskHandle_eq_iff_first :
    (1 ≤ (1 : UInt64).toNat ∧ (1 : UInt64).toNat < 2 ^ 40) ∧
      (0 : UInt32).toNat % 2 ^ 24 = (16777216 : UInt32).toNat % 2 ^ 24 ∧
      taskHandle 0 1 = taskHandle 16777216 1 ∧ taskHandle 0 1 ≠ .none := by
  have hone : 1 ≤ (1 : UInt64).toNat ∧ (1 : UInt64).toNat < 2 ^ 40 := by decide
  have hnodes : (0 : UInt32).toNat % 2 ^ 24 = (16777216 : UInt32).toNat % 2 ^ 24 := by decide
  obtain ⟨hiff, hsome⟩ := taskHandle_eq_iff 0 16777216 hone.1 hone.2 hone.2
  exact ⟨hone, hnodes, hiff.2 ⟨hnodes, rfl⟩, hsome⟩

end WorkStealing.Command
