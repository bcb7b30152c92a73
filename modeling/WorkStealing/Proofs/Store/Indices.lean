import WorkStealing.Proofs.Store.Arena

/-!
# The indices that an arena hands out

`Arena.History` keeps beside an arena the row of calls that led to it, each with its answer. By this
row alone, an index stands for a value if an insertion of the value returned the index and no
removal has named it since (`Stands`). After every run the arena finds exactly that, and so do a
removal and the list of entries (`indices_exact`).

What makes an index new is the generation of its slot. It is the number of times that the slot was
freed (`Sound.generation_eq`), while an index that was handed out for the slot bears a lower number
unless it still stands (`Named.passed`). An index can therefore come a second time only once this
number has gone round its 32 bits.

The number of a slot has 32 bits too, so part of what is said of indices is said of arenas whose
slots all have numbers (`Arena.Addressable`). A slot that is freed is used again, so these are the
arenas that never held more than `2 ^ 32` values at once (`Sound.length_slots_run_le_iff`). One value
more, and an index comes a second time with nothing freed at all (`indices_exact_fails`).
-/

namespace WorkStealing.Arena

variable {α : Type} {a b : Arena α} {i j : ArenaIndex} {v w : α} {k : Nat}

/-! ### Entries -/

theorem mem_entriesFrom {position : Nat} {slots : List (ArenaSlot α)} :
    (i, v) ∈ entriesFrom position slots ↔
      ∃ k s, slots[k]? = some s ∧ s.value = some v ∧ i = indexAt (position + k) s := by
  -- slot by slot; the first one is at the position itself
  induction slots generalizing position with
  | nil => simp [entriesFrom]
  | cons slot rest ih =>
      have hrest : (i, v) ∈ entriesFrom (position + 1) rest ↔
          ∃ k s, (slot :: rest)[k + 1]? = some s ∧ s.value = some v ∧
            i = indexAt (position + (k + 1)) s := by
        rw [ih]
        simp only [List.getElem?_cons_succ, Nat.add_assoc, Nat.add_comm 1]
      have hsplit : (∃ k s, (slot :: rest)[k]? = some s ∧ s.value = some v ∧
            i = indexAt (position + k) s) ↔
          (slot.value = some v ∧ i = indexAt position slot) ∨
            ∃ k s, (slot :: rest)[k + 1]? = some s ∧ s.value = some v ∧
              i = indexAt (position + (k + 1)) s := by
        constructor
        · rintro ⟨k, s, hs, hv, hi⟩
          cases k with
          | zero =>
              cases hs
              exact .inl ⟨hv, hi⟩
          | succ k => exact .inr ⟨k, s, hs, hv, hi⟩
        · rintro (⟨hv, hi⟩ | ⟨k, s, hs, hv, hi⟩)
          · exact ⟨0, slot, rfl, hv, hi⟩
          · exact ⟨k + 1, s, hs, hv, hi⟩
      rw [hsplit, ← hrest, entriesFrom]
      cases hvalue : slot.value with
      | none => simp
      | some u => simp [and_comm, eq_comm]

theorem slot_indexAt (h : k < 2 ^ 32) (s : ArenaSlot α) : (indexAt k s).slot.toNat = k :=
  UInt32.toNat_ofNat_of_lt' h

/-- The entries are the values that can be looked up, each with the index that leads to it. -/
theorem mem_entries_iff (ha : a.Addressable) : (i, v) ∈ a.entries ↔ a.get? i = some v := by
  rw [entries, mem_entriesFrom]
  constructor
  · rintro ⟨k, s, hs, hv, rfl⟩
    rw [Nat.zero_add]
    have hk : k < 2 ^ 32 := Nat.lt_of_lt_of_le (List.getElem?_eq_some_iff.1 hs).1 ha
    have hslot := slot_indexAt hk s
    rw [← hslot] at hs
    rw [get?_of_getElem? hs]
    exact (if_pos rfl).trans hv
  · intro h
    refine ⟨i.slot.toNat, _, getElem?_of_get? h, rfl, ?_⟩
    rw [indexAt, Nat.zero_add, UInt32.ofNat_toNat]

theorem pairwise_entriesFrom {position : Nat} {slots : List (ArenaSlot α)}
    (h : position + slots.length ≤ 2 ^ 32) :
    (entriesFrom position slots).Pairwise fun x y => x.1.slot < y.1.slot := by
  induction slots generalizing position with
  | nil => exact List.Pairwise.nil
  | cons slot rest ih =>
      rw [List.length_cons] at h
      have hrest := ih (show position + 1 + rest.length ≤ 2 ^ 32 by omega)
      rw [entriesFrom]
      cases hvalue : slot.value with
      | none => exact hrest
      | some u =>
          refine List.pairwise_cons.2 ⟨?_, hrest⟩
          rintro ⟨i, v⟩ hmem
          obtain ⟨k, s, hs, -, rfl⟩ := mem_entriesFrom.1 hmem
          have hk := (List.getElem?_eq_some_iff.1 hs).1
          rw [UInt32.lt_iff_toNat_lt, slot_indexAt (by omega), slot_indexAt (by omega)]
          omega

theorem map_snd_entriesFrom (position : Nat) (slots : List (ArenaSlot α)) :
    (entriesFrom position slots).map Prod.snd = slots.filterMap ArenaSlot.value := by
  induction slots generalizing position with
  | nil => rfl
  | cons slot rest ih =>
      rw [entriesFrom]
      cases hvalue : slot.value with
      | none => rw [List.filterMap_cons_none hvalue, ih]
      | some u => rw [List.filterMap_cons_some hvalue, List.map_cons, ih]

theorem map_snd_entries (a : Arena α) : a.entries.map Prod.snd = a.values :=
  map_snd_entriesFrom 0 a.slots

/-! ### Calls and their history -/

/-- A call that changes an arena. -/
inductive Call (α : Type) where
  | insert (v : α)
  | remove (i : ArenaIndex)

/-- What a call answers. -/
inductive Answer (α : Type) where
  | inserted (i : ArenaIndex)
  | removed (v? : Option α)

/-- A removal that finds nothing changes nothing. -/
def call (a : Arena α) : Call α → Arena α × Answer α
  | .insert v => ((a.insert v).2, .inserted (a.insert v).1)
  | .remove i =>
    match a.remove i with
    | some (v, b) => (b, .removed (some v))
    | none => (a, .removed none)

/-- The index that an insertion returned. -/
def issue? : Call α × Answer α → Option ArenaIndex
  | (.insert _, .inserted i) => some i
  | _ => none

/-- A removal that found a value, and so freed a slot. -/
def freesSlot (slot : Nat) : Call α × Answer α → Bool
  | (.remove i, .removed (some _)) => i.slot.toNat = slot
  | _ => false

/-- An insertion of the value returned the index, and no removal has named the index since. -/
def Stands (log : List (Call α × Answer α)) (i : ArenaIndex) (v : α) : Prop :=
  ∃ before after, log = before ++ (.insert v, .inserted i) :: after ∧
    ∀ answer, (.remove i, answer) ∉ after

/-- An arena with the calls that led to it and their answers, the oldest first. -/
structure History (α : Type) where
  arena : Arena α := empty
  log : List (Call α × Answer α) := []

namespace History

def step (h : History α) (c : Call α) : History α where
  arena := (h.arena.call c).1
  log := h.log ++ [(c, (h.arena.call c).2)]

def run (h : History α) (calls : List (Call α)) : History α := calls.foldl step h

/-- The indices that were returned. -/
def issued (h : History α) : List ArenaIndex := h.log.filterMap issue?

/-- How often a slot was freed. -/
def frees (h : History α) (slot : Nat) : Nat := h.log.countP (freesSlot slot)

end History

/-- Of two calls the later one decides: it returned the index, or it left the index alone. -/
theorem stands_concat {log : List (Call α × Answer α)} {x : Call α × Answer α} :
    Stands (log ++ [x]) i v ↔
      x = (.insert v, .inserted i) ∨ (Stands log i v ∧ x.1 ≠ .remove i) := by
  constructor
  · rintro ⟨before, after, hlog, hkept⟩
    rcases List.eq_nil_or_concat' after with rfl | ⟨rest, y, rfl⟩
    · exact .inl (List.singleton_inj.1 (List.append_inj' hlog rfl).2)
    · rw [← List.cons_append, ← List.append_assoc] at hlog
      obtain ⟨hfirst, hlast⟩ := List.append_inj' hlog rfl
      cases hlast
      refine .inr ⟨⟨before, rest, hfirst, fun answer hmem => ?_⟩, fun hremove => ?_⟩
      · exact hkept answer (List.mem_append_left _ hmem)
      · exact hkept x.2 (List.mem_append_right _ (List.mem_singleton.2 (by rw [← hremove])))
  · rintro (rfl | ⟨⟨before, after, rfl, hkept⟩, hx⟩)
    · exact ⟨log, [], rfl, fun _ => List.not_mem_nil⟩
    · refine ⟨before, after ++ [x], by simp, fun answer hmem => ?_⟩
      rcases List.mem_append.1 hmem with hold | hlast
      · exact hkept answer hold
      · exact hx (by rw [← List.mem_singleton.1 hlast])

theorem call_remove_of_none (h : a.get? i = none) : a.call (.remove i) = (a, .removed none) := by
  rw [call, (a.remove_eq_none_iff i).2 h]

theorem call_remove_eq_some_iff :
    (∃ b, a.call (.remove i) = (b, .removed (some v))) ↔ a.get? i = some v := by
  rw [call, remove]
  cases a.get? i with
  | none => simp
  | some u => simp

/-- A removal takes a value out, or the index leads to none. -/
theorem remove_cases (a : Arena α) (i : ArenaIndex) :
    (∃ v b, a.remove i = some (v, b)) ∨ a.get? i = none := by
  cases hr : a.remove i with
  | some taken => exact .inl ⟨taken.1, taken.2, rfl⟩
  | none => exact .inr ((a.remove_eq_none_iff i).1 hr)

/-- With no vacant slot there are as many values as slots. -/
theorem size_of_full (h : a.WellFormed) (hf : a.free = []) : a.size = a.slots.length := by
  rw [h.size_eq, values, List.filterMap_length_eq_length]
  intro s hs
  obtain ⟨k, hk⟩ := List.mem_iff_getElem?.1 hs
  rw [Option.isSome_iff_ne_none]
  intro hvacant
  have hfree := (h.mem_free_iff k).2 ⟨s, hk, hvacant⟩
  rw [hf] at hfree
  cases hfree

namespace History

variable {h : History α}

/-! ### What a call adds to the record -/

theorem issued_insert (h : History α) (v : α) :
    (h.step (.insert v)).issued = h.issued ++ [(h.arena.insert v).1] := by
  simp [issued, step, call, issue?]

theorem frees_insert (h : History α) (v : α) (slot : Nat) :
    (h.step (.insert v)).frees slot = h.frees slot := by
  simp [frees, step, call, freesSlot]

theorem arena_remove (hr : h.arena.remove i = some (v, b)) : (h.step (.remove i)).arena = b := by
  rw [step, call, hr]

theorem log_remove (hr : h.arena.remove i = some (v, b)) :
    (h.step (.remove i)).log = h.log ++ [(.remove i, .removed (some v))] := by
  rw [step, call, hr]

theorem issued_remove (h : History α) (i : ArenaIndex) :
    (h.step (.remove i)).issued = h.issued := by
  simp [issued, step, issue?]

theorem frees_remove (hr : h.arena.remove i = some (v, b)) (slot : Nat) :
    (h.step (.remove i)).frees slot = h.frees slot + if i.slot.toNat = slot then 1 else 0 := by
  rw [frees, log_remove hr, List.countP_append, List.countP_singleton, frees]
  simp [freesSlot]

theorem arena_remove_of_none (hr : h.arena.get? i = none) :
    (h.step (.remove i)).arena = h.arena := by
  rw [step, call_remove_of_none hr]

theorem log_remove_of_none (hr : h.arena.get? i = none) :
    (h.step (.remove i)).log = h.log ++ [(.remove i, .removed none)] := by
  rw [step, call_remove_of_none hr]

theorem frees_remove_of_none (hr : h.arena.get? i = none) (slot : Nat) :
    (h.step (.remove i)).frees slot = h.frees slot := by
  simp [frees, step, call_remove_of_none hr, freesSlot]

/-! ### What holds of every arena -/

/-- Slots are told by how often they were freed, and what is found under an index stands there by
the record. -/
structure Sound (h : History α) : Prop where
  wellFormed : h.arena.WellFormed
  stands : ∀ i v, h.arena.get? i = some v → Stands h.log i v
  generation_eq : ∀ k s, h.arena.slots[k]? = some s → s.generation = UInt32.ofNat (h.frees k)
  unfreed : ∀ k, h.arena.slots.length ≤ k → h.frees k = 0

theorem sound_empty : Sound ({} : History α) where
  wellFormed := wellFormed_empty
  stands i v hget := by simp [get?, empty] at hget
  generation_eq k s hs := by simp [empty] at hs
  unfreed k _ := rfl

/-- The next index bears the number of times that its slot was freed. -/
theorem Sound.index_insert (hs : h.Sound) (v : α) :
    (h.arena.insert v).1 =
      { slot := UInt32.ofNat h.arena.nextPosition
        generation := UInt32.ofNat (h.frees h.arena.nextPosition) } := by
  rcases nextPosition_cases hs.wellFormed with ⟨rest, s, hf, hslot, -⟩ | ⟨hf, hpos⟩
  · rw [insert_of_free hf hslot, indexAt, hs.generation_eq _ s hslot]
  · -- a slot that is made for the value was never freed
    rw [insert_of_full hf, hpos, hs.unfreed _ (Nat.le_refl _)]
    rfl

theorem Sound.insert (hs : h.Sound) (v : α) : (h.step (.insert v)).Sound where
  wellFormed := wellFormed_insert hs.wellFormed v
  stands j w hget := by
    have hget' : (h.arena.insert v).2.get? j = some w := hget
    apply stands_concat.2
    by_cases hlt : h.arena.nextPosition < 2 ^ 32
    · rw [get?_insert hs.wellFormed hlt] at hget'
      split at hget'
      next hj =>
        cases hget'
        exact .inl (by rw [hj]; rfl)
      next => exact .inr ⟨hs.stands j w hget', nofun⟩
    · -- a value past the slots that have numbers is not found, and hides nothing
      rw [get?_insert_of_le hs.wellFormed (Nat.le_of_not_lt hlt)] at hget'
      exact .inr ⟨hs.stands j w hget', nofun⟩
  generation_eq k s hslot := by
    rw [frees_insert]
    have hslot' : (h.arena.insert v).2.slots[k]? = some s := hslot
    by_cases hk : k = h.arena.nextPosition
    · obtain ⟨g, hindex, hnew⟩ := insert_slot hs.wellFormed v
      rw [hs.index_insert v, ArenaIndex.mk.injEq] at hindex
      rw [hk, hnew] at hslot'
      cases hslot'
      rw [hk]
      exact hindex.2.symm
    · rw [getElem?_slots_insert_of_ne hs.wellFormed hk] at hslot'
      exact hs.generation_eq k s hslot'
  unfreed k hk := by
    rw [frees_insert]
    exact hs.unfreed k ((length_slots_insert hs.wellFormed v).1.trans hk)

theorem Sound.remove (hs : h.Sound) (hr : h.arena.remove i = some (v, b)) :
    (h.step (.remove i)).Sound := by
  obtain ⟨hget, hb⟩ := remove_eq_some hr
  have hslot := getElem?_of_get? hget
  have hlt := (List.getElem?_eq_some_iff.1 hslot).1
  have hlength := length_slots_remove hr
  constructor
  · rw [arena_remove hr]
    exact wellFormed_remove hs.wellFormed hr
  · intro j w hget'
    rw [arena_remove hr, get?_remove hr] at hget'
    rw [log_remove hr, stands_concat]
    split at hget'
    next => cases hget'
    next hj => exact .inr ⟨hs.stands j w hget', fun heq => hj (Call.remove.inj heq).symm⟩
  · intro k s hk
    rw [arena_remove hr, hb] at hk
    rw [frees_remove hr]
    by_cases hik : i.slot.toNat = k
    · -- the freed slot goes on to its next generation
      subst hik
      have hnew := (List.getElem?_set_self hlt).symm.trans hk
      cases hnew
      have hgen : i.generation = _ := hs.generation_eq _ _ hslot
      rw [if_pos rfl, UInt32.ofNat_add, ← hgen]
      rfl
    · rw [if_neg hik]
      exact hs.generation_eq k s ((List.getElem?_set_ne hik).symm.trans hk)
  · intro k hk
    rw [arena_remove hr, hlength] at hk
    rw [frees_remove hr, if_neg (by omega)]
    exact hs.unfreed k hk

theorem Sound.remove_of_none (hs : h.Sound) (hget : h.arena.get? i = none) :
    (h.step (.remove i)).Sound := by
  have harena := arena_remove_of_none hget
  have hfrees := frees_remove_of_none hget
  constructor
  · rw [harena]
    exact hs.wellFormed
  · intro j w hget'
    rw [harena] at hget'
    rw [log_remove_of_none hget, stands_concat]
    refine .inr ⟨hs.stands j w hget', fun heq => ?_⟩
    rw [Call.remove.inj heq, hget'] at hget
    cases hget
  · intro k s hslot
    rw [harena] at hslot
    rw [hfrees]
    exact hs.generation_eq k s hslot
  · intro k hk
    rw [harena] at hk
    rw [hfrees]
    exact hs.unfreed k hk

theorem Sound.step (hs : h.Sound) (c : Call α) : (h.step c).Sound := by
  cases c with
  | insert v => exact hs.insert v
  | remove i =>
      rcases h.arena.remove_cases i with ⟨v, b, hr⟩ | hget
      · exact hs.remove hr
      · exact hs.remove_of_none hget

theorem Sound.run (hs : h.Sound) (calls : List (Call α)) : (h.run calls).Sound := by
  induction calls generalizing h with
  | nil => exact hs
  | cons c rest ih => exact ih (hs.step c)

/-! ### How many slots there are -/

/-- Slots are never given up. -/
theorem Sound.length_slots_step (hs : h.Sound) (c : Call α) :
    h.arena.slots.length ≤ (h.step c).arena.slots.length := by
  cases c with
  | insert v => exact (length_slots_insert hs.wellFormed v).1
  | remove i =>
      rcases h.arena.remove_cases i with ⟨v, b, hr⟩ | hget
      · rw [arena_remove hr, length_slots_remove hr]
      · rw [arena_remove_of_none hget]

theorem Sound.length_slots_run (hs : h.Sound) (calls : List (Call α)) :
    h.arena.slots.length ≤ (h.run calls).arena.slots.length := by
  induction calls generalizing h with
  | nil => exact Nat.le_refl _
  | cons c rest ih => exact (hs.length_slots_step c).trans (ih (hs.step c))

/-- A slot is added only when all slots are taken. -/
theorem Sound.length_slots_step_le (hs : h.Sound) (c : Call α) :
    (h.step c).arena.slots.length ≤ max h.arena.slots.length (h.step c).arena.size := by
  cases c with
  | insert v =>
      show (h.arena.insert v).2.slots.length ≤ max h.arena.slots.length (h.arena.insert v).2.size
      rcases nextPosition_cases hs.wellFormed with ⟨rest, s, hf, hslot, -⟩ | ⟨hf, -⟩
      · rw [insert_of_free hf hslot, List.length_set]
        exact Nat.le_max_left _ _
      · rw [insert_of_full hf, size_of_full hs.wellFormed hf, List.length_append,
          List.length_singleton]
        exact Nat.le_max_right _ _
  | remove i =>
      apply Nat.le_trans _ (Nat.le_max_left _ _)
      rcases h.arena.remove_cases i with ⟨v, b, hr⟩ | hget
      · rw [arena_remove hr, length_slots_remove hr]
      · rw [arena_remove_of_none hget]

theorem run_append (h : History α) (before after : List (Call α)) :
    h.run (before ++ after) = (h.run before).run after := List.foldl_append

/-- There are as many slots as there were values at once. -/
theorem Sound.length_slots_run_le_iff (hs : h.Sound) {m : Nat} (hm : h.arena.slots.length ≤ m)
    (calls : List (Call α)) :
    (h.run calls).arena.slots.length ≤ m ↔
      ∀ before, before <+: calls → (h.run before).arena.size ≤ m := by
  constructor
  · rintro hle before ⟨after, rfl⟩
    have hbefore := hs.run before
    have hsize : (h.run before).arena.size ≤ (h.run before).arena.slots.length := by
      rw [hbefore.wellFormed.size_eq]
      exact List.length_filterMap_le _ _
    rw [run_append] at hle
    exact hsize.trans ((hbefore.length_slots_run after).trans hle)
  · intro hsizes
    induction calls generalizing h with
    | nil => exact hm
    | cons c rest ih =>
        have hfirst : (h.step c).arena.size ≤ m :=
          hsizes [c] (List.cons_prefix_cons.2 ⟨rfl, List.nil_prefix⟩)
        refine ih (hs.step c) ((hs.length_slots_step_le c).trans (Nat.max_le.2 ⟨hm, hfirst⟩)) ?_
        exact fun before hbefore => hsizes (c :: before) (List.cons_prefix_cons.2 ⟨rfl, hbefore⟩)

/-! ### What holds of arenas whose slots have numbers -/

/-- What stands by the record is found, and an index that has ceased to stand bears an earlier
generation than its slot. -/
structure Named (h : History α) : Prop where
  found : ∀ i v, Stands h.log i v → h.arena.get? i = some v
  placed : ∀ i ∈ h.issued, i.slot.toNat < h.arena.slots.length
  passed : ∀ i ∈ h.issued,
    (∃ v, h.arena.get? i = some v) ∨ i.generation.toNat < h.frees i.slot.toNat
  fresh : (∀ slot, h.frees slot < 2 ^ 32) → h.issued.Nodup

theorem named_empty : Named ({} : History α) where
  found i v := by
    rintro ⟨before, after, hlog, -⟩
    simp at hlog
  placed i hi := absurd hi List.not_mem_nil
  passed i hi := absurd hi List.not_mem_nil
  fresh _ := List.nodup_nil

/-- While a slot was freed fewer times than its generations can tell, its next index is new. -/
theorem Named.not_mem_issued (hn : h.Named) (hs : h.Sound) (hlt : h.arena.nextPosition < 2 ^ 32)
    (hfrees : h.frees h.arena.nextPosition < 2 ^ 32) (v : α) :
    (h.arena.insert v).1 ∉ h.issued := by
  intro hmem
  have hnone := get?_index_insert hs.wellFormed hlt v
  rcases hn.passed _ hmem with ⟨u, hu⟩ | hless
  · rw [hnone] at hu
    cases hu
  · rw [hs.index_insert v] at hless
    dsimp only at hless
    rw [UInt32.toNat_ofNat_of_lt' hlt, UInt32.toNat_ofNat_of_lt' hfrees] at hless
    exact Nat.lt_irrefl _ hless

theorem Named.insert (hn : h.Named) (hs : h.Sound) (hlt : h.arena.nextPosition < 2 ^ 32) (v : α) :
    (h.step (.insert v)).Named := by
  have hget := get?_insert hs.wellFormed hlt v
  have hnone := get?_index_insert hs.wellFormed hlt v
  have hlength := length_slots_insert hs.wellFormed v
  have hother : ∀ j w, h.arena.get? j = some w → j ≠ (h.arena.insert v).1 := by
    rintro j w hj rfl
    rw [hnone] at hj
    cases hj
  have hissued : ∀ j, j ∈ (h.step (.insert v)).issued → j ∈ h.issued ∨ j = (h.arena.insert v).1 := by
    intro j hj
    rw [issued_insert] at hj
    exact (List.mem_append.1 hj).imp_right List.mem_singleton.1
  constructor
  · intro j w hstands
    show (h.arena.insert v).2.get? j = some w
    rw [hget]
    rcases stands_concat.1 hstands with heq | ⟨hold, -⟩
    · cases heq
      exact if_pos rfl
    · have hj := hn.found j w hold
      rw [if_neg (hother j w hj), hj]
  · intro j hj
    rcases hissued j hj with hold | rfl
    · exact Nat.lt_of_lt_of_le (hn.placed j hold) hlength.1
    · rw [hs.index_insert v]
      exact (UInt32.toNat_ofNat_of_lt' hlt).trans_lt hlength.2
  · intro j hj
    rw [frees_insert]
    show (∃ u, (h.arena.insert v).2.get? j = some u) ∨ _
    rcases hissued j hj with hold | rfl
    · refine (hn.passed j hold).imp_left ?_
      rintro ⟨u, hu⟩
      exact ⟨u, by rw [hget, if_neg (hother j u hu), hu]⟩
    · exact .inl ⟨v, by rw [hget, if_pos rfl]⟩
  · intro hfrees
    have hbound : ∀ slot, h.frees slot < 2 ^ 32 := fun slot => by
      rw [← frees_insert h v]
      exact hfrees slot
    rw [issued_insert, List.nodup_append]
    refine ⟨hn.fresh hbound, List.nodup_singleton _, fun j hj i hi => ?_⟩
    rw [List.mem_singleton.1 hi]
    rintro rfl
    exact hn.not_mem_issued hs hlt (hbound _) v hj

theorem Named.remove (hn : h.Named) (hs : h.Sound) (hr : h.arena.remove i = some (v, b)) :
    (h.step (.remove i)).Named := by
  have hget := get?_remove hr
  have hslot := getElem?_of_get? (remove_eq_some hr).1
  constructor
  · intro j w hstands
    rw [log_remove hr, stands_concat] at hstands
    rcases hstands with heq | ⟨hold, hj⟩
    · cases heq
    · rw [arena_remove hr, hget, if_neg fun heq => hj (by rw [heq]), hn.found j w hold]
  · intro j hj
    rw [issued_remove] at hj
    rw [arena_remove hr, length_slots_remove hr]
    exact hn.placed j hj
  · intro j hj
    rw [issued_remove] at hj
    rw [arena_remove hr, frees_remove hr, hget]
    by_cases hji : j = i
    · -- the index that is taken out bears the count from before it was
      subst hji
      have hgen : j.generation = _ := hs.generation_eq _ _ hslot
      have hle : j.generation.toNat ≤ h.frees j.slot.toNat := by
        rw [hgen, UInt32.toNat_ofNat']
        exact Nat.mod_le _ _
      rw [if_pos rfl, if_pos rfl]
      exact .inr (Nat.lt_succ_of_le hle)
    · rw [if_neg hji]
      exact (hn.passed j hj).imp_right fun hless => Nat.lt_of_lt_of_le hless (Nat.le_add_right _ _)
  · intro hfrees
    rw [issued_remove]
    apply hn.fresh
    intro slot
    have hslot := hfrees slot
    rw [frees_remove hr] at hslot
    omega

theorem Named.remove_of_none (hn : h.Named) (hget : h.arena.get? i = none) :
    (h.step (.remove i)).Named := by
  have harena := arena_remove_of_none hget
  have hfrees := frees_remove_of_none hget
  constructor
  · intro j w hstands
    rw [log_remove_of_none hget, stands_concat] at hstands
    rcases hstands with heq | ⟨hold, -⟩
    · cases heq
    · rw [harena, hn.found j w hold]
  · intro j hj
    rw [issued_remove] at hj
    rw [harena]
    exact hn.placed j hj
  · intro j hj
    rw [issued_remove] at hj
    rw [harena, hfrees]
    exact hn.passed j hj
  · intro hbound
    rw [issued_remove]
    exact hn.fresh fun slot => by
      rw [← hfrees slot]
      exact hbound slot

theorem Named.step (hn : h.Named) (hs : h.Sound) {c : Call α}
    (ha : (h.step c).arena.Addressable) : (h.step c).Named := by
  cases c with
  | insert v =>
      exact hn.insert hs (Nat.lt_of_lt_of_le (length_slots_insert hs.wellFormed v).2 ha) v
  | remove i =>
      rcases h.arena.remove_cases i with ⟨v, b, hr⟩ | hget
      · exact hn.remove hs hr
      · exact hn.remove_of_none hget

theorem named_run (hs : h.Sound) (hn : h.arena.Addressable → h.Named) (calls : List (Call α))
    (ha : (h.run calls).arena.Addressable) : (h.run calls).Named := by
  induction calls generalizing h with
  | nil => exact hn ha
  | cons c rest ih =>
      refine ih (hs.step c) (fun hstep => ?_) ha
      exact (hn ((hs.length_slots_step c).trans hstep)).step hs hstep

end History

/-- An arena is the partial map that the calls so far describe. After every row of insertions and
removals the free list names each vacant slot once, the size is the number of entries, and these are
the stored values in the order of their slots. What a look-up finds was inserted under the index,
and no removal has named the index since; a removal that names anything else finds nothing and
changes nothing.

The rest goes by the numbers of slots, so it is said of arenas in which every slot has one: those
that never held more than `2 ^ 32` values at once. What was inserted under an index and not removed
since is found by a look-up, is what a removal takes out, and is an entry, and nothing else is; the
entries stand in the order of their slots, each slot once. While no slot was freed `2 ^ 32` times,
no insertion returned an index that was returned before. -/
theorem indices_exact (calls : List (Call α)) :
    let h := History.run {} calls
    h.arena.free.Nodup ∧
      (∀ k, k ∈ h.arena.free ↔ ∃ s, h.arena.slots[k]? = some s ∧ s.value = none) ∧
      h.arena.size = h.arena.entries.length ∧
      h.arena.entries.map Prod.snd = h.arena.slots.filterMap ArenaSlot.value ∧
      (∀ i v, h.arena.get? i = some v → Stands h.log i v) ∧
      (∀ i, (∀ v, ¬ Stands h.log i v) → h.arena.call (.remove i) = (h.arena, .removed none)) ∧
      (h.arena.Addressable ↔
        ∀ before, before <+: calls → (History.run {} before).arena.size ≤ 2 ^ 32) ∧
      (h.arena.Addressable →
        (∀ i v, h.arena.get? i = some v ↔ Stands h.log i v) ∧
        (∀ i v, (∃ b, h.arena.call (.remove i) = (b, .removed (some v))) ↔ Stands h.log i v) ∧
        (∀ i v, (i, v) ∈ h.arena.entries ↔ Stands h.log i v) ∧
        h.arena.entries.Pairwise (fun x y => x.1.slot < y.1.slot) ∧
        ((∀ slot, h.frees slot < 2 ^ 32) → h.issued.Nodup)) := by
  intro h
  have hs : h.Sound := History.sound_empty.run calls
  have hw := hs.wellFormed
  have hsize : h.arena.size = h.arena.entries.length := by
    rw [hw.size_eq, ← map_snd_entries, List.length_map]
  refine ⟨hw.free_nodup, hw.mem_free_iff, hsize, h.arena.map_snd_entries, hs.stands, ?_,
    History.sound_empty.length_slots_run_le_iff (Nat.zero_le _) calls, ?_⟩
  · intro i hnot
    apply call_remove_of_none
    exact Option.eq_none_iff_forall_ne_some.2 fun v hget => hnot v (hs.stands i v hget)
  · intro ha
    have hn : h.Named := History.named_run History.sound_empty (fun _ => History.named_empty) calls ha
    have hstands : ∀ i v, h.arena.get? i = some v ↔ Stands h.log i v := fun i v =>
      ⟨hs.stands i v, hn.found i v⟩
    refine ⟨hstands, ?_, ?_, ?_, hn.fresh⟩
    · intro i v
      rw [← hstands, call_remove_eq_some_iff]
    · intro i v
      rw [mem_entries_iff ha, hstands]
    · exact pairwise_entriesFrom (by rw [Nat.zero_add]; exact ha)

/-- A slot that was freed is used again under an index that is new, and the old index takes nothing
out. -/
theorem indices_exact_reused :
    let calls : List (Call Nat) :=
      [.insert 1, .insert 2, .remove ⟨0, 0⟩, .insert 3, .remove ⟨0, 0⟩]
    let h := History.run {} calls
    h.arena.Addressable ∧ (∀ slot, h.frees slot < 2 ^ 32) ∧
      h.issued = [⟨0, 0⟩, ⟨1, 0⟩, ⟨0, 1⟩] ∧ h.issued.Nodup ∧ h.arena.get? ⟨0, 1⟩ = some 3 ∧
      h.arena.entries = [(⟨0, 1⟩, 3), (⟨1, 0⟩, 2)] ∧
      ∀ v, ¬ Stands h.log ⟨0, 0⟩ v := by
  intro calls h
  have ha : h.arena.Addressable := show h.arena.slots.length ≤ 2 ^ 32 by decide
  have hfrees : ∀ slot, h.frees slot < 2 ^ 32 := fun slot =>
    Nat.lt_of_le_of_lt List.countP_le_length (show h.log.length < 2 ^ 32 by decide)
  obtain ⟨-, -, -, -, -, -, -, hnamed⟩ := indices_exact calls
  obtain ⟨hget, -, -, -, hfresh⟩ := hnamed ha
  -- the third insertion returned the index, and the removal after it named another one
  have hstands : Stands h.log ⟨0, 1⟩ 3 := ⟨h.log.take 3, h.log.drop 4, rfl, by
    intro answer hmem
    cases List.mem_singleton.1 hmem⟩
  refine ⟨ha, hfrees, rfl, hfresh hfrees, (hget _ _).2 hstands, rfl, fun v hv => ?_⟩
  have hfound := (hget _ _).2 hv
  cases hfound

/-! ### More values than slots have numbers -/

/-- Insertions alone: the values stand in slots of the first generation, in the order in which they
came, and each was given the number of its slot as far as 32 bits go. -/
theorem run_inserts (n : Nat) :
    let h := History.run {} ((List.range n).map Call.insert)
    h.arena.slots = (List.range n).map (fun k => { value := some k }) ∧ h.arena.free = [] ∧
      h.log = (List.range n).map fun k => (.insert k, .inserted ⟨UInt32.ofNat k, 0⟩) := by
  induction n with
  | zero => exact ⟨rfl, rfl, rfl⟩
  | succ n ih =>
      obtain ⟨hslots, hfree, hlog⟩ := ih
      rw [List.range_succ, List.map_append, List.map_singleton, History.run_append]
      generalize History.run {} ((List.range n).map Call.insert) = h at hslots hfree hlog
      have hlength : h.arena.slots.length = n := by
        rw [hslots, List.length_map, List.length_range]
      show (h.step (.insert n)).arena.slots = _ ∧ (h.step (.insert n)).arena.free = [] ∧
        (h.step (.insert n)).log = _
      rw [History.step, call]
      dsimp only
      rw [insert_of_full hfree, hlength, hlog, hslots, List.map_append, List.map_append]
      exact ⟨rfl, hfree, rfl⟩

/-- Once the number of a slot has gone round, the first value stands under an index that was given
to another one too. -/
theorem inserts_wrap {n : Nat} (hpos : 0 < n) (hround : UInt32.ofNat n = 0) :
    let h := History.run {} ((List.range (n + 1)).map Call.insert)
    (∀ slot, h.frees slot = 0) ∧ ¬ h.issued.Nodup ∧ Stands h.log ⟨0, 0⟩ n ∧
      h.arena.get? ⟨0, 0⟩ = some 0 := by
  intro h
  obtain ⟨hslots, -, hlog⟩ := run_inserts (n + 1)
  refine ⟨fun slot => ?_, fun hnodup => ?_, ?_, ?_⟩
  · rw [History.frees, hlog, List.countP_eq_zero]
    intro x hx
    obtain ⟨k, -, rfl⟩ := List.mem_map.1 hx
    exact Bool.false_ne_true
  · -- the first value and the last one were given one index
    rw [History.issued, hlog, List.filterMap_map] at hnodup
    have hmap : issue? ∘ (fun k : Nat => (Call.insert k, Answer.inserted ⟨UInt32.ofNat k, 0⟩)) =
        fun k : Nat => some (⟨UInt32.ofNat k, 0⟩ : ArenaIndex) := rfl
    rw [hmap, List.filterMap_eq_map'] at hnodup
    have hsame := List.inj_on_of_nodup_map hnodup (List.mem_range.2 (Nat.succ_pos n))
      (List.mem_range.2 (Nat.lt_succ_self n)) (by rw [hround]; rfl)
    omega
  · rw [hlog, List.range_succ, List.map_append, List.map_singleton, stands_concat, hround]
    exact .inl rfl
  · rw [get?, hslots]
    simp

/-- One value more than there are numbers for slots, and none removed: the last insertion returns
the index of the first, the index stands for the last value by the record, and a look-up finds the
first. -/
theorem indices_exact_fails :
    let h := History.run {} ((List.range (2 ^ 32 + 1)).map Call.insert)
    (∀ slot, h.frees slot = 0) ∧ ¬ h.issued.Nodup ∧ Stands h.log ⟨0, 0⟩ (2 ^ 32) ∧
      h.arena.get? ⟨0, 0⟩ = some 0 :=
  inserts_wrap (by decide) (by decide)

end WorkStealing.Arena
