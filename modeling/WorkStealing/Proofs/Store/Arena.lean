import Mathlib.Algebra.BigOperators.Group.List.Basic
import Mathlib.Algebra.Order.Group.Multiset
import WorkStealing.Sizes
import WorkStealing.Store.Arena

/-!
# Arenas as partial maps

What an arena holds, seen through `Arena.get?`, after each of its operations, and what a sum over
the stored values becomes. Both views need the free list to name exactly the vacant slots
(`Arena.WellFormed`).

An index has 32 bits for its slot. A value that is stored at a slot past `2 ^ 32` cannot be named,
so storing it changes no look-up (`get?_insert_of_le`).
-/

namespace WorkStealing

/-- A sum over a row of places, one of which is replaced. -/
theorem sum_map_set {α M : Type} [AddCommMonoid M] (f : α → M) {xs : List α} {i : Nat} {a : α}
    (h : xs[i]? = some a) (b : α) :
    ((xs.set i b).map f).sum + f a = (xs.map f).sum + f b := by
  -- induction on the row, with the position: either its first place is replaced or a later one
  induction xs generalizing i with
  | nil => simp at h
  | cons x rest ih =>
      cases i with
      | zero =>
          simp only [List.getElem?_cons_zero, Option.some.injEq] at h
          subst h
          simp only [List.set_cons_zero, List.map_cons, List.sum_cons]
          rw [add_comm (f b), add_comm (f x), add_assoc, add_assoc, add_comm (f b)]
      | succ i =>
          rw [List.getElem?_cons_succ] at h
          simp only [List.set_cons_succ, List.map_cons, List.sum_cons]
          rw [add_assoc, ih h, add_assoc]

/-- The elements of a row of lists, as a multiset. -/
theorem coe_flatMap {α β : Type} (f : α → List β) (xs : List α) :
    ((xs.flatMap f : List β) : Multiset β) = (xs.map fun x => (f x : Multiset β)).sum := by
  induction xs with
  | nil => rfl
  | cons x rest ih => rw [List.flatMap_cons, ← Multiset.coe_add, ih, List.map_cons, List.sum_cons]

namespace Arena

variable {α : Type} {a b : Arena α} {i j : ArenaIndex} {v old : α}

/-- The free list names every vacant slot once, and the size is the number of values. -/
structure WellFormed (a : Arena α) : Prop where
  free_nodup : a.free.Nodup
  mem_free_iff : ∀ k, k ∈ a.free ↔ ∃ s, a.slots[k]? = some s ∧ s.value = none
  size_eq : a.size = a.values.length

/-- Every slot has a number that an index can hold. -/
def Addressable (a : Arena α) : Prop := a.slots.length ≤ 2 ^ 32

/-- The position at which the next value is stored. -/
def nextPosition (a : Arena α) : Nat := a.free.headD a.slots.length

/-- A sum over the stored values. -/
def total {M : Type} [AddCommMonoid M] (f : α → M) (a : Arena α) : M := (a.values.map f).sum

/-! ### Sums over slots -/

/-- What a slot adds to a sum; a vacant one adds nothing. -/
def slotValue {M : Type} [AddCommMonoid M] (f : α → M) (s : ArenaSlot α) : M :=
  (s.value.map f).getD 0

theorem total_eq_sum_slots {M : Type} [AddCommMonoid M] (f : α → M) (a : Arena α) :
    a.total f = (a.slots.map (slotValue f)).sum := by
  rw [total, values]
  -- slot by slot; a vacant one is skipped on one side and counts nothing on the other
  induction a.slots with
  | nil => rfl
  | cons s rest ih =>
      cases hs : s.value with
      | none => simp [hs, ih, slotValue]
      | some v => simp [hs, ih, slotValue]

theorem getElem?_of_get? (h : a.get? i = some v) :
    a.slots[i.slot.toNat]? = some { generation := i.generation, value := some v } := by
  rw [get?] at h
  cases hs : a.slots[i.slot.toNat]? with
  | none => simp [hs] at h
  | some s =>
      rw [hs] at h
      -- an index finds its value only under the generation that it bears
      by_cases hg : s.generation = i.generation
      · simp only [hg, ite_true] at h
        rw [← hg, ← h]
      · simp [hg] at h

theorem mem_values_of_get? (h : a.get? i = some v) : v ∈ a.values :=
  List.mem_filterMap.2 ⟨_, List.mem_of_getElem? (getElem?_of_get? h), rfl⟩

theorem set_eq (h : a.get? i = some old) (v : α) :
    a.set i v =
      { a with slots := a.slots.set i.slot.toNat { generation := i.generation, value := some v } } :=
  if_pos ((a.contains_iff i).2 ⟨old, h⟩)

/-- A value put back where it stands changes nothing. -/
theorem set_self (h : a.get? i = some v) : a.set i v = a := by
  obtain ⟨hlt, hslot⟩ := List.getElem?_eq_some_iff.1 (getElem?_of_get? h)
  rw [set_eq h, ← hslot, List.set_getElem_self]

theorem total_set {M : Type} [AddCommMonoid M] (f : α → M) (h : a.get? i = some old) (v : α) :
    (a.set i v).total f + f old = a.total f + f v := by
  rw [total_eq_sum_slots, total_eq_sum_slots, set_eq h]
  exact sum_map_set (slotValue f) (getElem?_of_get? h) _

theorem remove_eq_some (h : a.remove i = some (v, b)) :
    a.get? i = some v ∧
      b = { slots := a.slots.set i.slot.toNat { generation := i.generation + 1, value := none }
            free := i.slot.toNat :: a.free
            size := a.size - 1 } := by
  rw [remove] at h
  cases hg : a.get? i with
  | none => simp [hg] at h
  | some w =>
      rw [hg] at h
      simp only [Option.some.injEq, Prod.mk.injEq] at h
      exact ⟨by rw [h.1], h.2.symm⟩

theorem total_remove {M : Type} [AddCommMonoid M] (f : α → M) (h : a.remove i = some (v, b)) :
    a.total f = b.total f + f v := by
  obtain ⟨hg, rfl⟩ := remove_eq_some h
  rw [total_eq_sum_slots, total_eq_sum_slots]
  have hsum := sum_map_set (slotValue f) (getElem?_of_get? hg)
    { generation := i.generation + 1, value := none }
  -- the slot that is left behind is vacant
  have hnone : slotValue f { generation := i.generation + 1, value := none } = 0 := rfl
  rw [hnone, add_zero] at hsum
  exact hsum.symm

/-- The next value goes to a vacant slot or, if there is none, past the last slot. -/
theorem nextPosition_cases (h : a.WellFormed) :
    (∃ rest s, a.free = a.nextPosition :: rest ∧ a.slots[a.nextPosition]? = some s ∧
        s.value = none) ∨
      (a.free = [] ∧ a.nextPosition = a.slots.length) := by
  rw [nextPosition]
  cases hf : a.free with
  | nil => exact .inr ⟨rfl, rfl⟩
  | cons k rest =>
      obtain ⟨s, hs, hv⟩ := (h.mem_free_iff k).1 (by rw [hf]; exact List.mem_cons_self)
      exact .inl ⟨rest, s, rfl, hs, hv⟩

theorem insert_of_free {k : Nat} {rest : List Nat} {s : ArenaSlot α} (hf : a.free = k :: rest)
    (hs : a.slots[k]? = some s) (v : α) :
    a.insert v =
      (indexAt k s,
        { slots := a.slots.set k { generation := s.generation, value := some v }
          free := rest
          size := a.size + 1 }) := by
  rw [insert]
  simp [hf, hs, indexAt]

theorem insert_of_full (hf : a.free = []) (v : α) :
    a.insert v =
      ({ slot := UInt32.ofNat a.slots.length, generation := 0 },
        { a with slots := a.slots ++ [{ value := some v }], size := a.size + 1 }) := by
  rw [insert, hf]
  rfl

theorem total_insert {M : Type} [AddCommMonoid M] (f : α → M) (h : a.WellFormed) (v : α) :
    (a.insert v).2.total f = a.total f + f v := by
  rw [total_eq_sum_slots, total_eq_sum_slots]
  rcases nextPosition_cases h with ⟨rest, s, hf, hs, hv⟩ | ⟨hf, -⟩
  · rw [insert_of_free hf hs]
    have hsum := sum_map_set (slotValue f) hs { generation := s.generation, value := some v }
    -- the slot that is filled was vacant, so it counted nothing
    have hnone : slotValue f s = 0 := by simp [slotValue, hv]
    rwa [hnone, add_zero] at hsum
  · rw [insert_of_full hf]
    simp [slotValue]

/-! ### Look-ups -/

theorem get?_of_getElem? {s : ArenaSlot α} (h : a.slots[i.slot.toNat]? = some s) :
    a.get? i = if s.generation = i.generation then s.value else none := by
  rw [get?, h]

theorem slot_toNat_inj (h : i.slot.toNat = j.slot.toNat) (hg : i.generation = j.generation) :
    i = j := by
  cases i with
  | mk s g => cases j with
    | mk s' g' =>
      simp only [ArenaIndex.mk.injEq] at *
      exact ⟨UInt32.toNat_inj.1 h, hg⟩

theorem slot_toNat_lt (i : ArenaIndex) : i.slot.toNat < 2 ^ 32 := i.slot.toNat_lt

theorem get?_set (h : a.get? i = some old) (v : α) (j : ArenaIndex) :
    (a.set i v).get? j = if j = i then some v else a.get? j := by
  by_cases hj : j = i
  · rw [if_pos hj, hj]
    exact get?_set_self h v
  · rw [if_neg hj]
    by_cases hs : i.slot = j.slot
    · -- another generation of the same slot: it names nothing before and after
      have hg : i.generation ≠ j.generation := fun hg => hj (slot_toNat_inj (by rw [hs]) hg.symm)
      have hlt := (List.getElem?_eq_some_iff.1 (getElem?_of_get? h)).1
      have hnew : (a.set i v).slots[j.slot.toNat]? =
          some { generation := i.generation, value := some v } := by
        rw [set_eq h, ← hs]
        exact List.getElem?_set_self hlt
      have hold : a.slots[j.slot.toNat]? = some { generation := i.generation, value := some old } :=
        hs ▸ getElem?_of_get? h
      rw [get?_of_getElem? hnew, get?_of_getElem? hold, if_neg hg, if_neg hg]
    · exact get?_set_of_ne hs v

theorem get?_remove (h : a.remove i = some (v, b)) (j : ArenaIndex) :
    b.get? j = if j = i then none else a.get? j := by
  obtain ⟨hg, rfl⟩ := remove_eq_some h
  have hlt := (List.getElem?_eq_some_iff.1 (getElem?_of_get? hg)).1
  by_cases hs : i.slot.toNat = j.slot.toNat
  · -- the slot is vacant, so it answers no index
    have hnew : ({ slots := a.slots.set i.slot.toNat { generation := i.generation + 1, value := none }
                   free := i.slot.toNat :: a.free
                   size := a.size - 1 } : Arena α).get? j = none := by
      rw [get?]
      simp [← hs, hlt]
    rw [hnew]
    by_cases hj : j = i
    · rw [if_pos hj]
    · have hgen : i.generation ≠ j.generation := fun hgen => hj (slot_toNat_inj hs.symm hgen.symm)
      have hold : a.slots[j.slot.toNat]? = some { generation := i.generation, value := some v } :=
        hs ▸ getElem?_of_get? hg
      rw [if_neg hj, get?_of_getElem? hold, if_neg hgen]
  · have hj : j ≠ i := fun hj => hs (by rw [hj])
    rw [if_neg hj]
    simp [get?, List.getElem?_set_ne hs]

/-- Nothing is found at the position where the next value goes. -/
theorem get?_nextPosition (h : a.WellFormed) (hj : j.slot.toNat = a.nextPosition) :
    a.get? j = none := by
  rcases nextPosition_cases h with ⟨rest, s, -, hs, hv⟩ | ⟨-, hpos⟩
  · rw [← hj] at hs
    -- the slot is there but vacant, whatever its generation
    rw [get?_of_getElem? hs, hv, ite_self]
  · -- there is no such slot yet
    rw [get?, hj, hpos, List.getElem?_eq_none (Nat.le_refl _)]

/-- An insertion leaves the slots at other positions as they are. -/
theorem getElem?_slots_insert_of_ne {k : Nat} (h : a.WellFormed) (hk : k ≠ a.nextPosition) (v : α) :
    (a.insert v).2.slots[k]? = a.slots[k]? := by
  rcases nextPosition_cases h with ⟨rest, s, hf, hs, -⟩ | ⟨hf, hpos⟩
  · rw [insert_of_free hf hs]
    exact List.getElem?_set_ne hk.symm
  · rw [insert_of_full hf]
    rw [hpos] at hk
    by_cases hlt : k < a.slots.length
    · exact List.getElem?_append_left hlt
    · rw [List.getElem?_eq_none (by simp; omega), List.getElem?_eq_none (by omega)]

/-- An insertion changes the look-ups at its own position and no others. -/
theorem get?_insert_of_ne (h : a.WellFormed) (hj : j.slot.toNat ≠ a.nextPosition) (v : α) :
    (a.insert v).2.get? j = a.get? j := by
  rw [get?, getElem?_slots_insert_of_ne h hj, get?]

/-- The new value stands at the next position, under the generation that its index bears. -/
theorem insert_slot (h : a.WellFormed) (v : α) :
    ∃ g, (a.insert v).1 = { slot := UInt32.ofNat a.nextPosition, generation := g } ∧
      (a.insert v).2.slots[a.nextPosition]? = some { generation := g, value := some v } := by
  rcases nextPosition_cases h with ⟨rest, s, hf, hs, -⟩ | ⟨hf, hpos⟩
  · have hlt := (List.getElem?_eq_some_iff.1 hs).1
    refine ⟨s.generation, ?_, ?_⟩
    · rw [insert_of_free hf hs]
      rfl
    · rw [insert_of_free hf hs]
      exact List.getElem?_set_self hlt
  · refine ⟨0, ?_, ?_⟩
    · rw [insert_of_full hf, hpos]
    · rw [insert_of_full hf, hpos]
      simp

/-- A value that is stored at a slot that can be named is found under the new index. -/
theorem get?_insert (h : a.WellFormed) (hlt : a.nextPosition < 2 ^ 32) (v : α) (j : ArenaIndex) :
    (a.insert v).2.get? j = if j = (a.insert v).1 then some v else a.get? j := by
  obtain ⟨g, hi, hs⟩ := insert_slot h v
  -- below the limit the slot number survives in 32 bits
  have hpos : (UInt32.ofNat a.nextPosition).toNat = a.nextPosition :=
    UInt32.toNat_ofNat_of_lt' hlt
  rw [hi]
  by_cases hj : j.slot.toNat = a.nextPosition
  · rw [get?_nextPosition h hj, get?_of_getElem? (hj ▸ hs)]
    by_cases hg : g = j.generation
    · have he : j = { slot := UInt32.ofNat a.nextPosition, generation := g } :=
        slot_toNat_inj (hj.trans hpos.symm) hg.symm
      rw [if_pos hg, if_pos he]
    · have he : j ≠ { slot := UInt32.ofNat a.nextPosition, generation := g } :=
        fun he => hg (by rw [he])
      rw [if_neg hg, if_neg he]
  · have he : j ≠ { slot := UInt32.ofNat a.nextPosition, generation := g } :=
      fun he => hj (by rw [he]; exact hpos)
    rw [get?_insert_of_ne h hj, if_neg he]

/-- The index of a value that is stored at a slot that can be named is new. -/
theorem get?_index_insert (h : a.WellFormed) (hlt : a.nextPosition < 2 ^ 32) (v : α) :
    a.get? (a.insert v).1 = none := by
  obtain ⟨g, hi, -⟩ := insert_slot h v
  refine get?_nextPosition h ?_
  rw [hi]
  exact UInt32.toNat_ofNat_of_lt' hlt

/-- No index leads to a value that is stored past the slots that can be named. -/
theorem get?_insert_of_le (h : a.WellFormed) (hle : 2 ^ 32 ≤ a.nextPosition) (v : α)
    (j : ArenaIndex) : (a.insert v).2.get? j = a.get? j :=
  get?_insert_of_ne h (by have := slot_toNat_lt j; omega) v

/-! ### The free list -/

theorem wellFormed_empty : (empty : Arena α).WellFormed where
  free_nodup := List.nodup_nil
  mem_free_iff k := by simp [empty]
  size_eq := rfl

theorem length_slots_set (a : Arena α) (i : ArenaIndex) (v : α) :
    (a.set i v).slots.length = a.slots.length := by
  rw [set]
  split
  · exact List.length_set
  · rfl

theorem length_slots_remove (h : a.remove i = some (v, b)) : b.slots.length = a.slots.length := by
  obtain ⟨-, rfl⟩ := remove_eq_some h
  exact List.length_set

theorem length_slots_insert (h : a.WellFormed) (v : α) :
    a.slots.length ≤ (a.insert v).2.slots.length ∧
      a.nextPosition < (a.insert v).2.slots.length := by
  rcases nextPosition_cases h with ⟨rest, s, hf, hs, -⟩ | ⟨hf, hpos⟩
  · have hlt := (List.getElem?_eq_some_iff.1 hs).1
    rw [insert_of_free hf hs]
    simp [hlt]
  · rw [insert_of_full hf, hpos]
    simp

/-- A value takes up at most one new slot. -/
theorem length_slots_insert_le (h : a.WellFormed) (v : α) :
    (a.insert v).2.slots.length ≤ a.slots.length + 1 := by
  rcases nextPosition_cases h with ⟨rest, s, hf, hs, -⟩ | ⟨hf, -⟩
  · rw [insert_of_free hf hs, List.length_set]
    exact Nat.le_succ _
  · rw [insert_of_full hf, List.length_append, List.length_singleton]

/-- The number of values, as a sum over the slots. -/
theorem length_values (a : Arena α) : a.values.length = a.total fun _ => 1 := by
  simp [total]

theorem wellFormed_set (h : a.WellFormed) (hg : a.get? i = some old) (v : α) :
    (a.set i v).WellFormed := by
  have hlt := (List.getElem?_eq_some_iff.1 (getElem?_of_get? hg)).1
  have hfree : (a.set i v).free = a.free := by rw [set_eq hg]
  refine ⟨hfree ▸ h.free_nodup, ?_, ?_⟩
  · intro k
    rw [hfree, h.mem_free_iff k, set_eq hg]
    by_cases hk : i.slot.toNat = k
    · -- the slot of the replaced value is vacant neither before nor after
      subst hk
      rw [getElem?_of_get? hg, List.getElem?_set_self hlt]
      simp
    · simp only [List.getElem?_set_ne hk]
  · have hsize : (a.set i v).size = a.size := by rw [set_eq hg]
    have hsum := total_set (fun _ => 1) hg v
    rw [hsize, h.size_eq, length_values, length_values]
    omega

theorem wellFormed_insert (h : a.WellFormed) (v : α) : (a.insert v).2.WellFormed := by
  have hsum := total_insert (fun _ => 1) h v
  rw [← length_values, ← length_values, ← h.size_eq] at hsum
  rcases nextPosition_cases h with ⟨rest, s, hf, hs, hv⟩ | ⟨hf, -⟩
  · have hlt := (List.getElem?_eq_some_iff.1 hs).1
    -- the position that is filled leaves the free list
    have hnodup : a.nextPosition ∉ rest ∧ rest.Nodup := by
      rw [← List.nodup_cons, ← hf]
      exact h.free_nodup
    rw [insert_of_free hf hs] at hsum ⊢
    refine ⟨hnodup.2, ?_, hsum.symm⟩
    intro k
    by_cases hk : a.nextPosition = k
    · subst hk
      simp [hnodup.1, hlt]
    · have hmem : k ∈ rest ↔ k ∈ a.free := by
        rw [hf, List.mem_cons]
        exact ⟨.inr, fun hor => hor.resolve_left (Ne.symm hk)⟩
      simp only [hmem, h.mem_free_iff k, List.getElem?_set_ne hk]
  · rw [insert_of_full hf] at hsum ⊢
    refine ⟨h.free_nodup, ?_, hsum.symm⟩
    intro k
    -- the new slot is occupied, and the others are as before
    show k ∈ a.free ↔ _
    rw [h.mem_free_iff k]
    constructor
    · rintro ⟨s, hs, hv⟩
      refine ⟨s, ?_, hv⟩
      rw [List.getElem?_append_left (List.getElem?_eq_some_iff.1 hs).1]
      exact hs
    · rintro ⟨s, hs, hv⟩
      rcases Nat.lt_trichotomy k a.slots.length with hlt | rfl | hgt
      · rw [List.getElem?_append_left hlt] at hs
        exact ⟨s, hs, hv⟩
      · simp only [List.getElem?_concat_length, Option.some.injEq] at hs
        subst hs
        cases hv
      · rw [List.getElem?_eq_none (by simp; omega)] at hs
        cases hs

theorem wellFormed_remove (h : a.WellFormed) (hr : a.remove i = some (v, b)) : b.WellFormed := by
  have hsum := total_remove (fun _ => 1) hr
  obtain ⟨hg, rfl⟩ := remove_eq_some hr
  have hslot := getElem?_of_get? hg
  have hlt := (List.getElem?_eq_some_iff.1 hslot).1
  -- the slot was occupied, so it was not on the free list
  have hoccupied : i.slot.toNat ∉ a.free := by
    intro hmem
    obtain ⟨s, hs, hv⟩ := (h.mem_free_iff _).1 hmem
    rw [hslot] at hs
    cases hs
    cases hv
  refine ⟨List.nodup_cons.2 ⟨hoccupied, h.free_nodup⟩, ?_, ?_⟩
  · intro k
    rw [List.mem_cons, h.mem_free_iff k]
    by_cases hk : i.slot.toNat = k
    · subst hk
      simp [hlt]
    · simp only [List.getElem?_set_ne hk, Ne.symm hk, false_or]
  · rw [← length_values, ← length_values, ← h.size_eq] at hsum
    exact Nat.sub_eq_of_eq_add hsum

/-! ### Values that cannot be named -/

/-- Every value that stands past the slots that can be named passes a test. -/
def Beyond (test : α → Prop) (a : Arena α) : Prop :=
  ∀ k s v, 2 ^ 32 ≤ k → a.slots[k]? = some s → s.value = some v → test v

variable {test : α → Prop}

theorem beyond_empty : (empty : Arena α).Beyond test := by
  intro k s v _ hs
  simp [empty] at hs

theorem beyond_set (h : a.Beyond test) (i : ArenaIndex) (v : α) : (a.set i v).Beyond test := by
  intro k s w hk hs
  -- an index names no slot past the limit
  have hne : i.slot.toNat ≠ k := by have := slot_toNat_lt i; omega
  apply h k s w hk
  rw [set] at hs
  split at hs
  · rwa [List.getElem?_set_ne hne] at hs
  · exact hs

theorem beyond_remove (h : a.Beyond test) (hr : a.remove i = some (v, b)) : b.Beyond test := by
  obtain ⟨-, rfl⟩ := remove_eq_some hr
  intro k s w hk hs
  have hne : i.slot.toNat ≠ k := by have := slot_toNat_lt i; omega
  apply h k s w hk
  rwa [List.getElem?_set_ne hne] at hs

theorem beyond_insert (hw : a.WellFormed) (h : a.Beyond test) (hv : test v) :
    (a.insert v).2.Beyond test := by
  intro k s w hk hs hsv
  -- only the new value is new at its position
  by_cases hpos : a.nextPosition = k
  · obtain ⟨g, -, hnew⟩ := insert_slot hw v
    rw [hpos, hs] at hnew
    cases hnew
    cases hsv
    exact hv
  · rw [getElem?_slots_insert_of_ne hw (Ne.symm hpos)] at hs
    exact h k s w hk hs hsv

/-- A stored value has an index or stands past the slots that can be named. -/
theorem get?_or_of_mem_values (h : a.Beyond test) (hv : v ∈ a.values) :
    (∃ i, a.get? i = some v) ∨ test v := by
  obtain ⟨s, hmem, hs⟩ := List.mem_filterMap.1 hv
  obtain ⟨k, hk⟩ := List.mem_iff_getElem?.1 hmem
  by_cases hlt : k < 2 ^ 32
  · left
    refine ⟨indexAt k s, ?_⟩
    have hpos : (indexAt k s).slot.toNat = k := UInt32.toNat_ofNat_of_lt' hlt
    rw [← hpos] at hk
    rw [get?_of_getElem? hk]
    exact (if_pos rfl).trans hs
  · exact .inr (h k s v (by omega) hk hs)

end Arena

end WorkStealing
