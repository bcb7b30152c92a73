import WorkStealing.SchedError
import WorkStealing.Store.Arena
import WorkStealing.Store.Deque

/-!
# Staging

Where affinity groups wait for a worker. There is a fixed number of slots, each a bounded queue; a
group goes to the slot that its key maps to. A worker looks into its own slot first and then goes
round the others.
-/

namespace WorkStealing

/-- The numbers below `n` in cyclic order from `start` on. -/
def cyclicFrom (start n : Nat) : List Nat := (List.range n).map fun i => (start + i) % n

theorem mem_cyclicFrom {start n i : Nat} : i ∈ cyclicFrom start n ↔ i < n := by
  simp only [cyclicFrom, List.mem_map, List.mem_range]
  constructor
  · rintro ⟨j, hj, rfl⟩
    exact Nat.mod_lt _ (by omega)
  · intro hi
    refine ⟨(i + (n - start % n)) % n, Nat.mod_lt _ (by omega), ?_⟩
    have hs : start % n < n := Nat.mod_lt _ (by omega)
    have hd := Nat.div_add_mod start n
    have : start + (i + (n - start % n)) = i + n * (start / n + 1) := by
      rw [Nat.mul_add]; omega
    rw [Nat.add_mod_mod, this, Nat.add_mul_mod_self_left, Nat.mod_eq_of_lt hi]

/-- Slots in which indices of groups wait. -/
structure Staging where
  slots : List (Deque ArenaIndex)
  slotCapacity : Nat
  /-- Indices in all slots. -/
  size : Nat := 0
  slots_ne_nil : slots ≠ []
  slotCapacity_pos : 0 < slotCapacity

namespace Staging

/-- Empty slots; there is at least one, and each holds at least one index. -/
def new (slots slotCapacity : Nat) : Staging :=
  { slots := List.replicate (max slots 1) .empty
    slotCapacity := max slotCapacity 1
    slots_ne_nil := replicate_max_one_ne_nil slots Deque.empty
    slotCapacity_pos := zero_lt_max_one slotCapacity }

instance : Inhabited Staging := ⟨new 1 1⟩

def slotCount (s : Staging) : Nat := s.slots.length

theorem slotCount_pos (s : Staging) : 0 < s.slotCount := List.length_pos_iff.2 s.slots_ne_nil

/-- The slot that a key maps to. -/
def slotFor (s : Staging) (key : AffinityKey) : Nat := key.id.toNat % s.slotCount

theorem slotFor_lt (s : Staging) (key : AffinityKey) : s.slotFor key < s.slotCount :=
  Nat.mod_lt _ s.slotCount_pos

/-- Replace the content of a slot. -/
def setSlot (s : Staging) (slot : Nat) (q : Deque ArenaIndex) (size : Nat) : Staging :=
  { s with
    slots := s.slots.set slot q
    size := size
    slots_ne_nil := by simpa using s.slots_ne_nil }

/-- Queue a group's index in the slot of its key. -/
def push (s : Staging) (key : AffinityKey) (i : ArenaIndex) : Except SchedError Staging :=
  let q := s.slots.get ⟨s.slotFor key, s.slotFor_lt key⟩
  if q.size < s.slotCapacity then .ok (s.setSlot (s.slotFor key) (q.push i) (s.size + 1))
  else .error (.capacityExhausted "staging slot" s.slotCapacity)

/-- Remove the oldest index of the first slot that has one, from a worker's own slot on. -/
def pop? (s : Staging) (worker : Nat) : Option (ArenaIndex × Staging) :=
  if s.size = 0 then none
  else
    (cyclicFrom (worker % s.slotCount) s.slotCount).findSome? fun slot =>
      ((s.slots[slot]?).bind Deque.popOld?).map fun found =>
        (found.1, s.setSlot slot found.2 (s.size - 1))

def isEmpty (s : Staging) : Bool := s.size = 0

@[simp] theorem size_setSlot (s : Staging) (slot : Nat) (q : Deque ArenaIndex) (n : Nat) :
    (s.setSlot slot q n).size = n := rfl

/-- A push needs room in the slot of the key and nowhere else. -/
theorem push_facts {s s' : Staging} {key : AffinityKey} {i : ArenaIndex} (h : s.push key i = .ok s') :
    s'.slotCapacity = s.slotCapacity ∧ s'.size = s.size + 1 ∧
      ∃ q, s.slots[s.slotFor key]? = some q ∧ q.size < s.slotCapacity ∧
        s'.slots = s.slots.set (s.slotFor key) (q.push i) := by
  unfold push at h
  dsimp only at h
  split at h
  next hlt =>
    cases h
    exact ⟨rfl, rfl, _, List.getElem?_eq_getElem (s.slotFor_lt key), hlt, rfl⟩
  next => cases h

/-- A pop takes one index away. -/
theorem size_pop? {s s' : Staging} {w : Nat} {i : ArenaIndex} (h : s.pop? w = some (i, s')) :
    s.size = s'.size + 1 := by
  rw [pop?] at h
  split at h
  next => cases h
  next hne =>
    obtain ⟨_, _, _, _, hslot, _⟩ := List.findSome?_eq_some_iff.1 h
    obtain ⟨_, _, heq⟩ := Option.map_eq_some_iff.1 hslot
    cases heq
    simp; omega

end Staging

end WorkStealing
