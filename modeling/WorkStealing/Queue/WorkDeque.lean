import WorkStealing.Count
import WorkStealing.SchedError
import WorkStealing.Store.Deque
import WorkStealing.Text.Shown

/-!
# Work deques

The bounded queue of one worker. The owner adds and removes at the new end; helpers take from the
old end. Tasks from other givers are injected: they stand apart and are reached, oldest first, once
the owner's own tasks have run out.

The views are the two lists `own.toList` and `injected.toList`, and `WorkDeque.tasks` for both.
-/

namespace WorkStealing

/-- A worker's own and injected tasks, under one bound. -/
structure WorkDeque where
  own : Deque TaskHandle := .empty
  injected : Deque TaskHandle := .empty
  /-- Tasks in both parts. -/
  held : Nat := 0
  capacity : Nat
  capacity_pos : 0 < capacity
  held_eq : held = own.size + injected.size
  held_le : held ≤ capacity

namespace WorkDeque

theorem held_eq_empty :
    0 = (Deque.empty : Deque TaskHandle).size + (Deque.empty : Deque TaskHandle).size := rfl

theorem held_le_new (capacity : Nat) : 0 ≤ max capacity 1 := Nat.zero_le _

/-- An empty deque; a capacity of 0 counts as 1. -/
def new (capacity : Nat) : WorkDeque :=
  { capacity := max capacity 1
    capacity_pos := zero_lt_max_one capacity
    held_eq := held_eq_empty
    held_le := held_le_new capacity }

instance : Inhabited WorkDeque := ⟨new 1⟩

/-- Everything queued: own tasks, then injected ones, each oldest first. -/
def tasks (d : WorkDeque) : List TaskHandle := d.own.toList ++ d.injected.toList

def isEmpty (d : WorkDeque) : Bool := d.held = 0

/-- The answer of a deque that holds as many tasks as it may. -/
def full (d : WorkDeque) : SchedError := .capacityExhausted "deque" d.capacity

/-- Add a task at the owner's end. -/
def push (d : WorkDeque) (t : TaskHandle) : Except SchedError WorkDeque :=
  if h : d.held < d.capacity then
    .ok
      { d with
        own := d.own.push t
        held := d.held + 1
        held_eq := by have := d.held_eq; simp; omega
        held_le := h }
  else .error d.full

/-- Add a task from outside. -/
def inject (d : WorkDeque) (t : TaskHandle) : Except SchedError WorkDeque :=
  if h : d.held < d.capacity then
    .ok
      { d with
        injected := d.injected.push t
        held := d.held + 1
        held_eq := by have := d.held_eq; simp; omega
        held_le := h }
  else .error d.full

/-- The oldest injected task. -/
def takeInjected? (d : WorkDeque) : Option (TaskHandle × WorkDeque) :=
  match h : d.injected.popOld? with
  | some (t, rest) =>
    some (t,
      { d with
        injected := rest
        held := d.held - 1
        held_eq := by have := d.held_eq; have := Deque.size_popOld? h; omega
        held_le := by have := d.held_le; omega })
  | none => none

/-- The owner's removal: its newest task, else the oldest injected one. -/
def pop? (d : WorkDeque) : Option (TaskHandle × WorkDeque) :=
  match h : d.own.popNew? with
  | some (t, rest) =>
    some (t,
      { d with
        own := rest
        held := d.held - 1
        held_eq := by have := d.held_eq; have := Deque.size_popNew? h; omega
        held_le := by have := d.held_le; omega })
  | none => d.takeInjected?

/-- A helper's removal: the oldest own task, else the oldest injected one. -/
def steal? (d : WorkDeque) : Option (TaskHandle × WorkDeque) :=
  if d.held = 0 then none
  else
    match h : d.own.popOld? with
    | some (t, rest) =>
      some (t,
        { d with
          own := rest
          held := d.held - 1
          held_eq := by have := d.held_eq; have := Deque.size_popOld? h; omega
          held_le := by have := d.held_le; omega })
    | none => d.takeInjected?

/-- The removal at one of the ends. -/
def takeAt? (d : WorkDeque) : End → Option (TaskHandle × WorkDeque)
  | .tail => d.pop?
  | .head => d.steal?

/-- Remove so many tasks at most at one of the ends, in the order of removal. -/
def takeUpTo (e : End) : Nat → WorkDeque → List TaskHandle × WorkDeque
  | 0, d => ([], d)
  | most + 1, d =>
    match d.takeAt? e with
    | some (t, d') =>
      let (ts, d'') := takeUpTo e most d'
      (t :: ts, d'')
    | none => ([], d)

/-- Remove all tasks at one of the ends. -/
def drain (d : WorkDeque) (e : End) : List TaskHandle × WorkDeque := takeUpTo e d.held d

/-- What the deque says about how much it holds; its tasks all stand at level 0. -/
def count (d : WorkDeque) : CountScope → Count
  | .any => .ofAny !d.isEmpty
  | .level (_ + 1) => .exact 0
  | .staging => .empty
  | _ => .exact d.held

/-- The deque's sizes, for a person to read. -/
def shown (d : WorkDeque) : String :=
  Text.shownRecord "WorkDeque"
    [("len", Text.shownNat d.held), ("injected", Text.shownNat d.injected.size),
      ("max_capacity", Text.shownNat d.capacity)]

theorem length_tasks (d : WorkDeque) : d.tasks.length = d.held := by
  simp [tasks, Deque.length_toList, d.held_eq]

theorem isEmpty_iff (d : WorkDeque) : d.isEmpty = true ↔ d.tasks = [] := by
  rw [isEmpty, decide_eq_true_iff, ← length_tasks, List.length_eq_zero_iff]

@[simp] theorem tasks_new (c : Nat) : (new c).tasks = [] := rfl

@[simp] theorem capacity_new (c : Nat) : (new c).capacity = max c 1 := rfl

/-- A push ends well exactly when there is room; the task is then the newest own one. -/
theorem push_facts {d e : WorkDeque} {t : TaskHandle} (h : d.push t = .ok e) :
    d.held < d.capacity ∧ e.own.toList = d.own.toList ++ [t] ∧ e.injected = d.injected ∧
      e.capacity = d.capacity := by
  rw [push] at h
  split at h
  next hlt => cases h; simp [hlt]
  next => cases h

theorem push_eq_error_iff (d : WorkDeque) (t : TaskHandle) (e : SchedError) :
    d.push t = .error e ↔ d.held = d.capacity ∧ e = d.full := by
  have := d.held_le
  rw [push]
  split
  · simp; omega
  · simp only [Except.error.injEq]
    exact ⟨fun h => ⟨by omega, h.symm⟩, fun h => h.2.symm⟩

/-- An injection ends well exactly when there is room; the task is then the newest injected one. -/
theorem inject_facts {d e : WorkDeque} {t : TaskHandle} (h : d.inject t = .ok e) :
    d.held < d.capacity ∧ e.own = d.own ∧ e.injected.toList = d.injected.toList ++ [t] ∧
      e.capacity = d.capacity := by
  rw [inject] at h
  split at h
  next hlt => cases h; simp [hlt]
  next => cases h

theorem inject_eq_error_iff (d : WorkDeque) (t : TaskHandle) (e : SchedError) :
    d.inject t = .error e ↔ d.held = d.capacity ∧ e = d.full := by
  have := d.held_le
  rw [inject]
  split
  · simp; omega
  · simp only [Except.error.injEq]
    exact ⟨fun h => ⟨by omega, h.symm⟩, fun h => h.2.symm⟩

theorem takeInjected?_facts {d e : WorkDeque} {t : TaskHandle} (h : d.takeInjected? = some (t, e)) :
    d.injected.toList = t :: e.injected.toList ∧ e.own = d.own ∧ e.capacity = d.capacity := by
  rw [takeInjected?] at h
  split at h
  next u rest hp => cases h; exact ⟨Deque.toList_popOld? hp, rfl, rfl⟩
  next => cases h

theorem takeInjected?_eq_none_iff (d : WorkDeque) :
    d.takeInjected? = none ↔ d.injected.toList = [] := by
  rw [← Deque.popOld?_eq_none_iff]
  rw [takeInjected?]
  split <;> simp_all

/-- The owner's removal is either the last own task or, with none left, the first injected one. -/
theorem pop?_facts {d e : WorkDeque} {t : TaskHandle} (h : d.pop? = some (t, e)) :
    e.capacity = d.capacity ∧
      ((d.own.toList = e.own.toList ++ [t] ∧ e.injected = d.injected) ∨
        (d.own.toList = [] ∧ e.own = d.own ∧ d.injected.toList = t :: e.injected.toList)) := by
  rw [pop?] at h
  split at h
  next u rest hp => cases h; exact ⟨rfl, .inl ⟨Deque.toList_popNew? hp, rfl⟩⟩
  next hp =>
    obtain ⟨h1, h2, h3⟩ := takeInjected?_facts h
    exact ⟨h3, .inr ⟨(Deque.popNew?_eq_none_iff _).1 hp, h2, h1⟩⟩

theorem pop?_eq_none_iff (d : WorkDeque) : d.pop? = none ↔ d.tasks = [] := by
  rw [pop?]
  split
  next u rest hp =>
    have := Deque.toList_popNew? hp
    simp [tasks, this]
  next hp =>
    have := (Deque.popNew?_eq_none_iff _).1 hp
    simp [takeInjected?_eq_none_iff, tasks, this]

/-- A helper's removal is the first task of all. -/
theorem steal?_facts {d e : WorkDeque} {t : TaskHandle} (h : d.steal? = some (t, e)) :
    e.capacity = d.capacity ∧
      ((d.own.toList = t :: e.own.toList ∧ e.injected = d.injected) ∨
        (d.own.toList = [] ∧ e.own = d.own ∧ d.injected.toList = t :: e.injected.toList)) := by
  rw [steal?] at h
  split at h
  next => cases h
  next =>
    split at h
    next u rest hp => cases h; exact ⟨rfl, .inl ⟨Deque.toList_popOld? hp, rfl⟩⟩
    next hp =>
      obtain ⟨h1, h2, h3⟩ := takeInjected?_facts h
      exact ⟨h3, .inr ⟨(Deque.popOld?_eq_none_iff _).1 hp, h2, h1⟩⟩

theorem steal?_eq_none_iff (d : WorkDeque) : d.steal? = none ↔ d.tasks = [] := by
  rw [steal?]
  split
  next h0 => rw [← length_tasks, List.length_eq_zero_iff] at h0; simp [h0]
  next h0 =>
    split
    next u rest hp =>
      have := Deque.toList_popOld? hp
      simp [tasks, this]
    next hp =>
      have := (Deque.popOld?_eq_none_iff _).1 hp
      simp [takeInjected?_eq_none_iff, tasks, this]

theorem takeAt?_eq_none_iff (d : WorkDeque) (e : End) : d.takeAt? e = none ↔ d.tasks = [] := by
  cases e with
  | tail => exact d.pop?_eq_none_iff
  | head => exact d.steal?_eq_none_iff

theorem capacity_takeAt? {d d' : WorkDeque} {e : End} {t : TaskHandle}
    (h : d.takeAt? e = some (t, d')) : d'.capacity = d.capacity := by
  cases e with
  | tail => exact (pop?_facts h).1
  | head => exact (steal?_facts h).1

/-- A removal takes exactly one task away. -/
theorem perm_takeAt? {d d' : WorkDeque} {e : End} {t : TaskHandle}
    (h : d.takeAt? e = some (t, d')) : List.Perm d.tasks (t :: d'.tasks) := by
  cases e with
  | tail =>
    rcases pop?_facts h with ⟨-, ⟨ho, hi⟩ | ⟨ho, he, hi⟩⟩
    · rw [tasks, tasks, ho, hi, List.append_assoc]
      exact List.perm_middle
    · rw [tasks, tasks, ho, hi, he, ho]
      exact List.Perm.refl _
  | head =>
    rcases steal?_facts h with ⟨-, ⟨ho, hi⟩ | ⟨ho, he, hi⟩⟩
    · rw [tasks, tasks, ho, hi]
      exact List.Perm.refl _
    · rw [tasks, tasks, ho, hi, he, ho]
      exact List.Perm.refl _

end WorkDeque

end WorkStealing
