import Mathlib.Algebra.Order.BigOperators.Group.List
import Mathlib.Algebra.Order.Ring.Nat
import WorkStealing.Proofs.Pool.Affinity

/-!
# Room in staging

Every index that waits stands in the slot of a key that leads to it, and it stands there once, after
every run (`filed_run`). So the indices of one slot have keys that leave the same remainder and
differ in their quotients. If all keys are below the number of slots times what a slot holds, then
there are no more quotients than places in the slot, and the next index that is to be staged finds
one free (`Filed.room`, `room_run`). This needs no bound on the number of groups: a key whose group
lies past the slots that can be named may share its index with another key, but different indices
still have different keys.
-/

namespace WorkStealing

theorem Staging.slotCapacity_pop? {s s' : Staging} {w : Nat} {i : ArenaIndex}
    (h : s.pop? w = some (i, s')) : s'.slotCapacity = s.slotCapacity := by
  obtain ⟨-, k, q, r, -, -, rfl⟩ := pop?_facts h
  rfl

/-- An index stands in one slot at most as often as in all of them. -/
theorem Staging.count_le_copies {s : Staging} {slot : Deque ArenaIndex} (h : slot ∈ s.slots)
    (i : ArenaIndex) : slot.toList.count i ≤ s.copies i :=
  List.single_le_sum (fun _ _ => Nat.zero_le _) _ (List.mem_map_of_mem h)

namespace Pool

/-- Staging as it is configured, with no more in a slot than it may hold, and every index in the
slot of a key that leads to it. -/
structure Filed (c : SchedulerConfig) (auto : Nat) (p : Pool) : Prop where
  slotCount : p.staging.slotCount = max (c.resolvedStagingSlots auto) 1
  slotCapacity : p.staging.slotCapacity = max c.stagingSlotCapacity 1
  bounded : ∀ slot ∈ p.staging.slots, slot.size ≤ p.staging.slotCapacity
  keyed : ∀ k slot i, p.staging.slots[k]? = some slot → i ∈ slot.toList →
    ∃ key, p.indexOf? key = some i ∧ p.staging.slotFor key = k

variable {c : SchedulerConfig} {auto : Nat} {p q : Pool} {e : Event} {i : ArenaIndex}
  {key : AffinityKey} {staging : Staging} {t : TaskHandle}

/-! ### What keys lead to -/

/-- A task that comes in changes neither what keys lead to nor whether hints count. -/
theorem Move.directory_of_entered (m : Move p (.entered t) q) :
    q.directory = p.directory ∧ q.affinity = p.affinity := by
  cases m with
  | queued seat put => exact ⟨rfl, rfl⟩
  | published found group new shelf put => exact ⟨rfl, rfl⟩
  | joined found group old put => exact ⟨rfl, rfl⟩

/-- The call that makes a group adds its key to those that lead somewhere. -/
theorem indexOf?_createGroup {key' : AffinityKey}
    (h : (p.createGroup key).1.indexOf? key' = some i) :
    key' = key ∨ p.indexOf? key' = some i := by
  rw [createGroup] at h
  cases hfound : p.indexOf? key with
  | some j =>
      rw [hfound] at h
      exact .inr h
  | none =>
      rw [hfound] at h
      dsimp only at h
      rw [indexOf?, lookup_cons_eq_ite] at h
      split at h
      next heq => exact .inl heq
      next => exact .inr h

theorem affinity_createGroup (p : Pool) (key : AffinityKey) :
    (p.createGroup key).1.affinity = p.affinity := by
  rw [createGroup]
  cases p.indexOf? key with
  | some j => rfl
  | none => rfl

/-! ### Slots -/

namespace Filed

/-- The directory may change where it leads to no index that waits. -/
theorem reframe (h : p.Filed c auto) (hstaging : q.staging = p.staging)
    (hkeep : ∀ key i, 0 < p.staging.copies i → p.indexOf? key = some i → q.indexOf? key = some i) :
    q.Filed c auto := by
  refine ⟨by rw [hstaging, h.slotCount], by rw [hstaging, h.slotCapacity], ?_, ?_⟩
  · rw [hstaging]
    exact h.bounded
  · intro k slot i hslot hi
    rw [hstaging] at hslot ⊢
    obtain ⟨key, hkey, hk⟩ := h.keyed k slot i hslot hi
    have hpos := (Staging.copies_pos_iff _ _).2 ⟨slot, List.mem_of_getElem? hslot, hi⟩
    exact ⟨key, hkeep key i hpos hkey, hk⟩

theorem congr (h : p.Filed c auto) (hstaging : q.staging = p.staging)
    (hdirectory : q.directory = p.directory) : q.Filed c auto := by
  refine h.reframe hstaging fun key i _ hkey => ?_
  rw [indexOf?, hdirectory]
  exact hkey

theorem publish (h : p.Filed c auto) (hfound : p.indexOf? key = some i)
    (hshelf : p.staging.push key i = .ok staging) :
    ({ p with staging := staging } : Pool).Filed c auto := by
  have hcount := Staging.slotCount_push hshelf
  obtain ⟨hcapacity, -, d, hd, hroom, hslots⟩ := Staging.push_facts hshelf
  have hlt := (List.getElem?_eq_some_iff.1 hd).1
  refine ⟨hcount.trans h.slotCount, hcapacity.trans h.slotCapacity, ?_, ?_⟩
  · intro slot hslot
    change slot ∈ staging.slots at hslot
    show slot.size ≤ staging.slotCapacity
    rw [hslots] at hslot
    rw [hcapacity]
    rcases List.mem_or_eq_of_mem_set hslot with hold | rfl
    · exact h.bounded slot hold
    · exact hroom
  · intro k slot j hslot hj
    change staging.slots[k]? = some slot at hslot
    show ∃ key, p.indexOf? key = some j ∧ key.id.toNat % staging.slotCount = k
    rw [hslots] at hslot
    rw [hcount]
    -- only the slot of the key has changed, and there only the new index came in
    by_cases hk : p.staging.slotFor key = k
    · rw [← hk, List.getElem?_set_self hlt, Option.some.injEq] at hslot
      rw [← hslot, Deque.toList_push, List.mem_append, List.mem_singleton] at hj
      rcases hj with hold | rfl
      · exact h.keyed k d j (hk ▸ hd) hold
      · exact ⟨key, hfound, hk⟩
    · rw [List.getElem?_set_ne hk] at hslot
      exact h.keyed k slot j hslot hj

theorem adopt {w : Nat} (h : p.Filed c auto) (hshelf : p.staging.pop? w = some (i, staging)) :
    ({ p with staging := staging } : Pool).Filed c auto := by
  have hcount := Staging.slotCount_pop? hshelf
  have hcapacity := Staging.slotCapacity_pop? hshelf
  obtain ⟨-, u, d, r, hd, hlist, rfl⟩ := Staging.pop?_facts hshelf
  have hlt := (List.getElem?_eq_some_iff.1 hd).1
  refine ⟨hcount.trans h.slotCount, hcapacity.trans h.slotCapacity, ?_, ?_⟩
  · intro slot hslot
    rcases List.mem_or_eq_of_mem_set hslot with hold | rfl
    · exact h.bounded slot hold
    · have hsize := h.bounded d (List.mem_of_getElem? hd)
      rw [← Deque.length_toList, hlist, List.length_cons, Deque.length_toList] at hsize
      exact Nat.le_of_succ_le hsize
  · intro k slot j hslot hj
    change (p.staging.slots.set u r)[k]? = some slot at hslot
    show ∃ key, p.indexOf? key = some j ∧
      key.id.toNat % (p.staging.setSlot u r (p.staging.size - 1)).slotCount = k
    rw [hcount]
    -- what is left in the slot of the adopted group stood there before
    by_cases hk : u = k
    · rw [← hk, List.getElem?_set_self hlt, Option.some.injEq] at hslot
      apply h.keyed k d j (hk ▸ hd)
      rw [hlist, hslot]
      exact List.mem_cons_of_mem i hj
    · rw [List.getElem?_set_ne hk] at hslot
      exact h.keyed k slot j hslot hj

/-- A key may go if no index that waits is found by it. -/
theorem forget (h : p.Filed c auto) (hfree : ∀ i, p.indexOf? key = some i → p.staging.copies i = 0)
    (groups : Arena AffinityGroup) :
    ({ p with groups := groups, directory := p.directory.filter fun x => x.1 ≠ key } :
      Pool).Filed c auto := by
  refine h.reframe rfl fun key' j hpos hkey' => ?_
  show (p.directory.filter fun x => x.1 ≠ key).lookup key' = some j
  have hne : key' ≠ key := by
    rintro rfl
    exact absurd (hfree j hkey') (Nat.ne_of_gt hpos)
  rw [lookup_filter_ne, if_neg hne]
  exact hkey'

end Filed

/-- No move takes an index out of the slot of its key, or the key from an index that waits. -/
theorem Move.filed (hl : p.Linked) (m : Move p e q) (h : p.Filed c auto) : q.Filed c auto := by
  cases m with
  | published found group new shelf put => exact (h.publish found shelf).congr rfl rfl
  | adopted seat free shelf group waits found => exact (h.adopt shelf).congr rfl rfl
  | @created key fresh =>
      refine h.reframe rfl fun key' j _ hkey' => ?_
      -- the key that is added was unknown, so no other look-up changes
      have hne : key' ≠ key := by
        rintro rfl
        rw [fresh] at hkey'
        cases hkey'
      rw [indexOf?, lookup_cons_eq_ite, if_neg hne]
      exact hkey'
  | @retired key i g groups found gone idle =>
      refine h.forget (fun j hj => ?_) groups
      rw [found, Option.some.injEq] at hj
      -- an idle group is new, and a new group does not wait
      have hnew := ((g.isIdle_iff).1 idle).1
      rw [hl.staged, ← hj, stageAt_of_get? (Arena.remove_eq_some gone).1, hnew]
      rfl
  | @forgotten key i found gone =>
      refine h.forget (fun j hj => ?_) p.groups
      rw [found, Option.some.injEq] at hj
      rw [hl.staged, stageAt, ← hj, gone]
      rfl
  | _ => exact h.congr rfl rfl

theorem filed_new (c : SchedulerConfig) (auto : Nat) : (new c auto).Filed c auto where
  slotCount := List.length_replicate
  slotCapacity := rfl
  bounded slot hslot := by
    rw [List.eq_of_mem_replicate hslot]
    exact Nat.zero_le _
  keyed k slot i hslot hi := by
    rw [List.eq_of_mem_replicate (List.mem_of_getElem? hslot)] at hi
    exact absurd hi List.not_mem_nil

theorem filed_run (c : SchedulerConfig) (auto : Nat) (calls : List Call) :
    ((new c auto).run calls).Filed c auto :=
  (run_induction (P := Filed c auto) (linked_new c auto) (filed_new c auto)
    (fun _ _ _ hl hm h => hm.filed hl h) calls).2

/-! ### Room for one more -/

/-- Indices that different keys of one slot lead to are not more than the quotients of such keys. -/
theorem length_le_of_quotients (p : Pool) (slots bound k : Nat) {is : List ArenaIndex}
    (hnodup : is.Nodup) (hkeyed : ∀ i ∈ is, ∃ key, p.indexOf? key = some i ∧
      key.id.toNat % slots = k ∧ key.id.toNat < slots * bound) : is.length ≤ bound := by
  choose! key hkey using hkeyed
  have hquotients : (is.map fun i => (key i).id.toNat / slots).Nodup := by
    refine hnodup.map_on fun i hi j hj hij => ?_
    obtain ⟨hi, hik, -⟩ := hkey i hi
    obtain ⟨hj, hjk, -⟩ := hkey j hj
    -- remainder and quotient make the key, and the key leads to one index
    have hid : (key i).id = (key j).id := by
      rw [← UInt64.toNat_inj, ← Nat.div_add_mod (key i).id.toNat slots, hij, hik, ← hjk,
        Nat.div_add_mod]
    have hkeys : key i = key j := congrArg AffinityKey.mk hid
    rw [hkeys, hj] at hi
    exact (Option.some.inj hi).symm
  have hbelow : (is.map fun i => (key i).id.toNat / slots) ⊆ List.range bound := by
    intro x hx
    obtain ⟨i, hi, rfl⟩ := List.mem_map.1 hx
    exact List.mem_range.2 (Nat.div_lt_of_lt_mul (hkey i hi).2.2)
  have hlength := (hquotients.subperm hbelow).length_le
  rwa [List.length_map, List.length_range] at hlength

/-- If all keys are below what the slots hold together, then an index that is not staged yet finds
room in the slot of its key. -/
theorem Filed.room (h : p.Filed c auto) (hl : p.Linked)
    (hkeys : ∀ key i, p.indexOf? key = some i →
      key.id.toNat < max (c.resolvedStagingSlots auto) 1 * max c.stagingSlotCapacity 1)
    (hfound : p.indexOf? key = some i) (hout : p.stageAt i ≠ some .staged) :
    ∃ staging, p.staging.push key i = .ok staging := by
  rw [Staging.push]
  have hslot : p.staging.slots[p.staging.slotFor key]? =
      some (p.staging.slots.get ⟨p.staging.slotFor key, p.staging.slotFor_lt key⟩) :=
    List.getElem?_eq_getElem (p.staging.slotFor_lt key)
  generalize p.staging.slots.get ⟨p.staging.slotFor key, p.staging.slotFor_lt key⟩ = slot at hslot ⊢
  have hmem := List.mem_of_getElem? hslot
  -- no index stands in the slot twice, and the one that comes does not stand there yet
  have hcopies := hl.staged
  have hnodup : (i :: slot.toList).Nodup := by
    rw [List.nodup_cons, List.nodup_iff_count_le_one]
    refine ⟨fun hi => ?_, fun j => ?_⟩
    · have hpos := (Staging.copies_pos_iff _ _).2 ⟨slot, hmem, hi⟩
      rw [hcopies, if_neg hout] at hpos
      exact Nat.lt_irrefl 0 hpos
    · refine (Staging.count_le_copies hmem j).trans ?_
      rw [hcopies]
      split
      · exact Nat.le_refl 1
      · exact Nat.zero_le 1
  rw [← h.slotCount, ← h.slotCapacity] at hkeys
  have hlength : (i :: slot.toList).length ≤ p.staging.slotCapacity := by
    refine length_le_of_quotients p p.staging.slotCount _ (p.staging.slotFor key) hnodup
      fun j hj => ?_
    rcases List.mem_cons.1 hj with rfl | hj
    · exact ⟨key, hfound, rfl, hkeys key j hfound⟩
    · obtain ⟨key', hkey', hk⟩ := h.keyed _ slot j hslot hj
      exact ⟨key', hkey', hk, hkeys key' j hkey'⟩
  rw [List.length_cons, Deque.length_toList] at hlength
  exact ⟨_, if_pos hlength⟩

/-- Staging never refuses a group while all keys are below what its slots hold together, whatever
was given, taken, reported, made and retired before. -/
theorem room_run (c : SchedulerConfig) (auto : Nat) (calls : List Call)
    (hkeys : ∀ key i, ((new c auto).run calls).indexOf? key = some i →
      key.id.toNat < max (c.resolvedStagingSlots auto) 1 * max c.stagingSlotCapacity 1)
    (hfound : ((new c auto).run calls).indexOf? key = some i)
    (hout : ((new c auto).run calls).stageAt i ≠ some .staged) :
    ∃ staging, ((new c auto).run calls).staging.push key i = .ok staging :=
  (filed_run c auto calls).room (linked_run (linked_new c auto) calls) hkeys hfound hout

end Pool

end WorkStealing
