import Mathlib.Algebra.Ring.Nat
import WorkStealing.Proofs.Store.Arena
import WorkStealing.Queue.AffinityGroup
import WorkStealing.Queue.Levels
import WorkStealing.Queue.Staging

/-!
# What queues hold

The tasks of a deque and of a worker's levels as multisets, and the places of an index in staging,
after each operation: an accepted task is added once, a removal takes one task away, and a refused
operation has no result at all.
-/

namespace WorkStealing

namespace WorkDeque

variable {d e : WorkDeque} {t : TaskHandle}

theorem coe_tasks_push (h : d.push t = .ok e) :
    (e.tasks : Multiset TaskHandle) = t ::ₘ (d.tasks : Multiset TaskHandle) := by
  obtain ⟨-, ho, hi, -⟩ := push_facts h
  rw [Multiset.cons_coe, Multiset.coe_eq_coe, tasks, tasks, ho, hi, List.append_assoc]
  exact List.perm_middle

theorem coe_tasks_inject (h : d.inject t = .ok e) :
    (e.tasks : Multiset TaskHandle) = t ::ₘ (d.tasks : Multiset TaskHandle) := by
  obtain ⟨-, ho, hi, -⟩ := inject_facts h
  rw [Multiset.cons_coe, Multiset.coe_eq_coe, tasks, tasks, ho, hi, ← List.append_assoc]
  exact List.perm_append_singleton t _

theorem coe_tasks_takeAt? {side : End} (h : d.takeAt? side = some (t, e)) :
    (d.tasks : Multiset TaskHandle) = t ::ₘ (e.tasks : Multiset TaskHandle) :=
  Multiset.coe_eq_coe.2 (perm_takeAt? h)

/-- A deque with nothing in it accepts a task. -/
theorem push_of_tasks_eq_nil (h : d.tasks = []) (t : TaskHandle) : ∃ e, d.push t = .ok e := by
  have hheld : d.held = 0 := by rw [← length_tasks, h, List.length_nil]
  have hpos := d.capacity_pos
  -- a refusal would say that nothing is held up to a capacity above zero
  cases hp : d.push t with
  | ok e => exact ⟨e, rfl⟩
  | error f =>
      obtain ⟨hfull, -⟩ := (d.push_eq_error_iff t f).1 hp
      omega

theorem tasks_ne_nil_of_push (h : d.push t = .ok e) : e.tasks ≠ [] := by
  intro hnil
  have hcons := coe_tasks_push h
  rw [hnil] at hcons
  exact Multiset.cons_ne_zero hcons.symm

end WorkDeque

namespace Levels

variable {l l' : Levels} {t : TaskHandle} {level used : Nat}

theorem coe_tasks (l : Levels) :
    (l.tasks : Multiset TaskHandle) =
      (l.levels.map fun d => (d.tasks : Multiset TaskHandle)).sum :=
  coe_flatMap WorkDeque.tasks l.levels

theorem getElem?_clamp (l : Levels) (level : Nat) :
    l.levels[l.clamp level]? = some (l.atLevel level) :=
  List.getElem?_eq_getElem (l.clamp_lt level)

/-- Storing a deque with one more task at a level adds that task. -/
theorem coe_tasks_store {d : WorkDeque}
    (h : (d.tasks : Multiset TaskHandle) = t ::ₘ ((l.atLevel level).tasks : Multiset TaskHandle)) :
    ((l.store level d).tasks : Multiset TaskHandle) = t ::ₘ (l.tasks : Multiset TaskHandle) := by
  have hsum := sum_map_set (fun d => (d.tasks : Multiset TaskHandle)) (l.getElem?_clamp level) d
  rw [h, ← Multiset.singleton_add t (((l.atLevel level).tasks : Multiset TaskHandle)),
    ← add_assoc] at hsum
  rw [coe_tasks, coe_tasks, ← Multiset.singleton_add, add_comm ({t} : Multiset TaskHandle)]
  exact add_right_cancel hsum

theorem insert_eq_ok (h : l.insert t level = .ok (used, l')) :
    ∃ d, (l.atLevel level).push t = .ok d ∧ used = l.clamp level ∧ l' = l.store level d := by
  rw [insert] at h
  cases hp : (l.atLevel level).push t with
  | error e => simp [hp, Except.map] at h
  | ok d =>
      rw [hp] at h
      cases h
      exact ⟨d, rfl, rfl, rfl⟩

theorem inject_eq_ok (h : l.inject t level = .ok (used, l')) :
    ∃ d, (l.atLevel level).inject t = .ok d ∧ used = l.clamp level ∧ l' = l.store level d := by
  rw [inject] at h
  cases hp : (l.atLevel level).inject t with
  | error e => simp [hp, Except.map] at h
  | ok d =>
      rw [hp] at h
      cases h
      exact ⟨d, rfl, rfl, rfl⟩

theorem coe_tasks_insert (h : l.insert t level = .ok (used, l')) :
    (l'.tasks : Multiset TaskHandle) = t ::ₘ (l.tasks : Multiset TaskHandle) := by
  obtain ⟨d, hd, -, rfl⟩ := insert_eq_ok h
  exact coe_tasks_store (WorkDeque.coe_tasks_push hd)

theorem coe_tasks_inject (h : l.inject t level = .ok (used, l')) :
    (l'.tasks : Multiset TaskHandle) = t ::ₘ (l.tasks : Multiset TaskHandle) := by
  obtain ⟨d, hd, -, rfl⟩ := inject_eq_ok h
  exact coe_tasks_store (WorkDeque.coe_tasks_inject hd)

/-- A removal that finds a task takes it away. -/
theorem coe_tasks_remove {side : End} (h : l.remove side = (l', some (t, level))) :
    (l.tasks : Multiset TaskHandle) = t ::ₘ (l'.tasks : Multiset TaskHandle) := by
  rw [remove] at h
  split at h
  next k u d hf =>
    obtain ⟨⟨x, hx, htake⟩, -⟩ := firstTask_facts hf
    cases h
    rw [List.getElem?_drop] at hx
    -- one level has lost the task, and the others are as they were
    have hsum := sum_map_set (fun d => (d.tasks : Multiset TaskHandle)) hx d
    rw [WorkDeque.coe_tasks_takeAt? htake] at hsum
    rw [coe_tasks, coe_tasks, ← Multiset.singleton_add]
    rw [← Multiset.singleton_add, add_left_comm] at hsum
    exact (add_right_cancel ((add_assoc _ _ _).trans hsum)).symm
  next => cases h

/-- A removal that finds nothing leaves the same deques. -/
theorem levels_remove_none {side : End} (h : l.remove side = (l', none)) :
    l'.levels = l.levels := by
  rw [remove] at h
  split at h
  next => cases h
  next => cases h; rfl

theorem tasks_remove_none {side : End} (h : l.remove side = (l', none)) : l'.tasks = l.tasks := by
  rw [tasks, tasks, levels_remove_none h]

theorem tasks_eq_nil_of_remove {side : End} (h : l.remove side = (l', none)) : l.tasks = [] :=
  (l.remove_eq_none_iff side).1 (by rw [h])

theorem tasks_new (count capacity : Nat) : (new count capacity).tasks = [] := by
  simp [tasks, new]

end Levels

namespace AffinityGroup

variable {σ : Type} {g : AffinityGroup} {t : TaskHandle} {shelf : σ}
  {publish : σ → Except SchedError σ}

/-- A new group with room takes the task if it can be published, and else stays as it is. -/
theorem insertWith_of_new {d : WorkDeque} (hnew : g.stage = .new) (hd : g.queue.push t = .ok d) :
    g.insertWith t shelf publish =
      match publish shelf with
      | .error e => (g, shelf, .error e)
      | .ok shelf' =>
        ({ g with stage := .staged, stagings := g.stagings + 1, queue := d }, shelf', .ok true) := by
  rw [insertWith, hnew]
  cases publish shelf with
  | error e => rfl
  | ok shelf' => simp only [hd]

/-- A group that is published already is not published again. -/
theorem insertWith_of_ne_new (hne : g.stage ≠ .new) :
    g.insertWith t shelf publish =
      match g.queue.push t with
      | .error e => (g, shelf, .error e)
      | .ok d => ({ g with queue := d }, shelf, .ok false) := by
  rw [insertWith]
  cases hstage : g.stage with
  | new => exact absurd hstage hne
  | staged => rfl
  | active w => rfl

end AffinityGroup

namespace Staging

variable {s s' : Staging} {key : AffinityKey} {i : ArenaIndex}

/-- How often an index stands in staging. -/
def copies (s : Staging) (i : ArenaIndex) : Nat := (s.slots.map fun q => q.toList.count i).sum

theorem copies_new (slots slotCapacity : Nat) (i : ArenaIndex) :
    (new slots slotCapacity).copies i = 0 := by
  simp [copies, new]

/-- An index that stands in staging stands in one of its slots. -/
theorem copies_pos_iff (s : Staging) (i : ArenaIndex) :
    0 < s.copies i ↔ ∃ q ∈ s.slots, i ∈ q.toList := by
  rw [copies, Nat.pos_iff_ne_zero, ne_eq, List.sum_eq_zero_iff_forall_eq_nat]
  simp [List.count_eq_zero]

theorem copies_push (h : s.push key i = .ok s') (j : ArenaIndex) :
    s'.copies j = s.copies j + if j = i then 1 else 0 := by
  obtain ⟨-, -, q, hq, -, hs⟩ := push_facts h
  have hsum := sum_map_set (fun q : Deque ArenaIndex => q.toList.count j) hq (q.push i)
  simp only [copies]
  rw [hs]
  simp only [Deque.toList_push, List.count_append, List.count_singleton, beq_iff_eq] at hsum
  -- only the slot of the key has one index more
  by_cases hj : j = i
  · rw [if_pos hj]
    rw [if_pos hj.symm] at hsum
    omega
  · rw [if_neg hj]
    rw [if_neg (Ne.symm hj)] at hsum
    omega

/-- What a pop takes: the oldest index of one slot. -/
theorem pop?_facts {w : Nat} (h : s.pop? w = some (i, s')) :
    s.size = s'.size + 1 ∧ ∃ k q r, s.slots[k]? = some q ∧ q.toList = i :: r.toList ∧
      s' = s.setSlot k r (s.size - 1) := by
  refine ⟨size_pop? h, ?_⟩
  rw [pop?] at h
  split at h
  next => cases h
  next =>
    obtain ⟨_, k, _, _, hslot, _⟩ := List.findSome?_eq_some_iff.1 h
    obtain ⟨⟨j, r⟩, hbind, heq⟩ := Option.map_eq_some_iff.1 hslot
    obtain ⟨q, hq, hpop⟩ := Option.bind_eq_some_iff.1 hbind
    cases heq
    exact ⟨k, q, r, hq, Deque.toList_popOld? hpop, rfl⟩

theorem copies_pop? {w : Nat} (h : s.pop? w = some (i, s')) (j : ArenaIndex) :
    s.copies j = s'.copies j + if j = i then 1 else 0 := by
  obtain ⟨-, k, q, r, hq, hlist, rfl⟩ := pop?_facts h
  have hsum := sum_map_set (fun q : Deque ArenaIndex => q.toList.count j) hq r
  show (s.slots.map _).sum = ((s.slots.set k r).map _).sum + _
  simp only [hlist, List.count_cons, beq_iff_eq] at hsum
  by_cases hj : j = i
  · rw [if_pos hj]
    rw [if_pos hj.symm] at hsum
    omega
  · rw [if_neg hj]
    rw [if_neg (Ne.symm hj)] at hsum
    omega

/-- A pop finds nothing only where nothing stands in any slot, or the size says so. -/
theorem pop?_eq_none {w : Nat} (h : s.pop? w = none) : s.size = 0 ∨ ∀ i, s.copies i = 0 := by
  rw [pop?] at h
  split at h
  next h0 => exact .inl h0
  next =>
    right
    -- the search looks into every slot, so an index in one of them would be found
    intro i
    apply Nat.eq_zero_of_not_pos
    intro hpos
    obtain ⟨q, hq, hmem⟩ := (copies_pos_iff s i).1 hpos
    obtain ⟨k, hk⟩ := List.mem_iff_getElem?.1 hq
    have hlt : k < s.slotCount := (List.getElem?_eq_some_iff.1 hk).1
    have hnone := List.findSome?_eq_none_iff.1 h k (mem_cyclicFrom.2 hlt)
    rw [hk, Option.map_eq_none_iff, Option.bind_some, Deque.popOld?_eq_none_iff] at hnone
    rw [hnone] at hmem
    exact List.not_mem_nil hmem

theorem slotCount_push (h : s.push key i = .ok s') : s'.slotCount = s.slotCount := by
  obtain ⟨-, -, q, -, -, hs⟩ := push_facts h
  rw [slotCount, slotCount, hs, List.length_set]

theorem slotCount_pop? {w : Nat} (h : s.pop? w = some (i, s')) : s'.slotCount = s.slotCount := by
  obtain ⟨-, k, q, r, -, -, rfl⟩ := pop?_facts h
  exact List.length_set

end Staging

end WorkStealing
