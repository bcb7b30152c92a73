import WorkStealing.Proofs.Queue.Contents

/-!
# A deque as two lists

From outside, a work deque is a list of the owner's tasks and a list of injected tasks that hold no
more together than a bound (`TwoLists`). `WorkDeque.lists` reads a deque in this way, and whatever
is called, reading it before or after comes to the same (`lists_call`): the counter that the deque
keeps apart, and that a helper trusts when it finds 0, is the length of both lists. So every row of
calls is answered alike, and each task that was accepted comes out once (`refines_twoLists`).
-/

namespace WorkStealing

/-- The tasks of a deque, oldest first, and how many it may hold. -/
structure TwoLists where
  own : List TaskHandle := []
  injected : List TaskHandle := []
  bound : Nat

namespace TwoLists

/-- Two empty lists; a capacity of 0 counts as 1. -/
def new (capacity : Nat) : TwoLists := { bound := max 1 capacity }

def size (p : TwoLists) : Nat := p.own.length + p.injected.length

/-- Go over to lists with one task more, unless there are as many as there may be. -/
def grow (p grown : TwoLists) : Except SchedError TwoLists :=
  if p.size = p.bound then .error (.capacityExhausted "deque" p.bound) else .ok grown

def push (p : TwoLists) (t : TaskHandle) : Except SchedError TwoLists :=
  p.grow { p with own := p.own ++ [t] }

def inject (p : TwoLists) (t : TaskHandle) : Except SchedError TwoLists :=
  p.grow { p with injected := p.injected ++ [t] }

/-- The oldest injected task. -/
def takeInjected? (p : TwoLists) : Option (TaskHandle × TwoLists) :=
  p.injected.head?.map fun t => (t, { p with injected := p.injected.tail })

/-- The owner takes its newest task and a helper the oldest one of the owner; with none left, both
take the oldest injected task. -/
def takeAt? (p : TwoLists) : End → Option (TaskHandle × TwoLists)
  | .tail => (p.own.getLast?.map fun t => (t, { p with own := p.own.dropLast })).or p.takeInjected?
  | .head => (p.own.head?.map fun t => (t, { p with own := p.own.tail })).or p.takeInjected?

end TwoLists

namespace WorkDeque

/-- A call of a deque. -/
inductive Call where
  | push (t : TaskHandle)
  | inject (t : TaskHandle)
  | remove (e : End)

/-- What a call answers. -/
inductive Answer where
  | added (r : Except SchedError Unit)
  | removed (t? : Option TaskHandle)

/-- The task that a call brings in, by its answer. -/
def Call.accepted : Call → Answer → Option TaskHandle
  | .push t, .added (.ok ()) => some t
  | .inject t, .added (.ok ()) => some t
  | _, _ => none

/-- The task that the caller gets. -/
def Answer.task? : Answer → Option TaskHandle
  | .removed t? => t?
  | .added _ => none

/-- The outcome of an addition. One that is refused changes nothing. -/
def added {σ : Type} (before : σ) : Except SchedError σ → σ × Answer
  | .ok after => (after, .added (.ok ()))
  | .error e => (before, .added (.error e))

/-- The outcome of a removal. One that finds nothing changes nothing. -/
def removed {σ : Type} (before : σ) : Option (TaskHandle × σ) → σ × Answer
  | some (t, after) => (after, .removed (some t))
  | none => (before, .removed none)

def call (d : WorkDeque) : Call → WorkDeque × Answer
  | .push t => added d (d.push t)
  | .inject t => added d (d.inject t)
  | .remove e => removed d (d.takeAt? e)

end WorkDeque

/-- The same calls, served by two lists. -/
def TwoLists.call (p : TwoLists) : WorkDeque.Call → TwoLists × WorkDeque.Answer
  | .push t => WorkDeque.added p (p.push t)
  | .inject t => WorkDeque.added p (p.inject t)
  | .remove e => WorkDeque.removed p (p.takeAt? e)

namespace WorkDeque

/-- What is seen of each call: its answer, and the size afterwards. -/
def observe {σ : Type} (call : σ → Call → σ × Answer) (size : σ → Nat) :
    σ → List Call → List (Answer × Nat)
  | _, [] => []
  | s, c :: rest => ((call s c).2, size (call s c).1) :: observe call size (call s c).1 rest

/-- A deque with the tasks that it accepted and those that it gave out. -/
structure History where
  deque : WorkDeque
  accepted : List TaskHandle := []
  taken : List TaskHandle := []

namespace History

def step (h : History) (c : Call) : History where
  deque := (h.deque.call c).1
  accepted := h.accepted ++ (c.accepted (h.deque.call c).2).toList
  taken := h.taken ++ (h.deque.call c).2.task?.toList

def run (h : History) (calls : List Call) : History := calls.foldl step h

end History

/-- A deque read as two lists. -/
def lists (d : WorkDeque) : TwoLists where
  own := d.own.toList
  injected := d.injected.toList
  bound := d.capacity

variable {d : WorkDeque} {t : TaskHandle}

/-! ### Each call does to the lists what its name says -/

theorem size_lists (d : WorkDeque) : d.lists.size = d.held := by
  rw [TwoLists.size, lists, Deque.length_toList, Deque.length_toList, d.held_eq]

theorem lists_new (capacity : Nat) : (new capacity).lists = .new capacity := by
  rw [TwoLists.new, Nat.max_comm]
  rfl

/-- An addition that fails exactly when the deque is full is the growth of the lists. -/
theorem lists_grow {r : Except SchedError WorkDeque} {grown : TwoLists}
    (hok : ∀ d', r = .ok d' → d.held < d.capacity ∧ d'.lists = grown)
    (herror : ∀ e, r = .error e ↔ d.held = d.capacity ∧ e = d.full) :
    r.map lists = d.lists.grow grown := by
  rw [TwoLists.grow, size_lists]
  cases r with
  | ok d' =>
      obtain ⟨hroom, hgrown⟩ := hok d' rfl
      have hne : d.held ≠ d.lists.bound := Nat.ne_of_lt hroom
      rw [if_neg hne, ← hgrown]
      rfl
  | error e =>
      obtain ⟨hfull, rfl⟩ := (herror e).1 rfl
      rw [if_pos (show d.held = d.lists.bound from hfull)]
      rfl

theorem lists_push (d : WorkDeque) (t : TaskHandle) : (d.push t).map lists = d.lists.push t := by
  apply lists_grow _ (d.push_eq_error_iff t)
  intro d' h
  obtain ⟨hroom, hown, hinjected, hcapacity⟩ := push_facts h
  exact ⟨hroom, by simp only [lists, hown, hinjected, hcapacity]⟩

theorem lists_inject (d : WorkDeque) (t : TaskHandle) :
    (d.inject t).map lists = d.lists.inject t := by
  apply lists_grow _ (d.inject_eq_error_iff t)
  intro d' h
  obtain ⟨hroom, hown, hinjected, hcapacity⟩ := inject_facts h
  exact ⟨hroom, by simp only [lists, hown, hinjected, hcapacity]⟩

theorem lists_of_spent {d' : WorkDeque} (hcapacity : d'.capacity = d.capacity)
    (hown : d'.own = d.own) (hinjected : d.injected.toList = t :: d'.injected.toList) :
    d.lists.takeInjected? = some (t, d'.lists) := by
  simp only [TwoLists.takeInjected?, lists, hinjected, hown, hcapacity, List.head?_cons,
    List.tail_cons, Option.map_some]

theorem lists_takeAt? (d : WorkDeque) (e : End) :
    (d.takeAt? e).map (Prod.map id lists) = d.lists.takeAt? e := by
  cases htake : d.takeAt? e with
  | none =>
      have hnil := (d.takeAt?_eq_none_iff e).1 htake
      obtain ⟨hown, hinjected⟩ := List.append_eq_nil_iff.1 hnil
      cases e with
      | tail => simp [TwoLists.takeAt?, TwoLists.takeInjected?, lists, hown, hinjected]
      | head => simp [TwoLists.takeAt?, TwoLists.takeInjected?, lists, hown, hinjected]
  | some found =>
      obtain ⟨t, d'⟩ := found
      show some (t, d'.lists) = _
      cases e with
      | tail =>
          rcases pop?_facts htake with ⟨hcapacity, ⟨hown, hsame⟩ | ⟨hspent, hsame, hinjected⟩⟩
          · simp [TwoLists.takeAt?, lists, hown, hsame, hcapacity]
          · have hnone : d.lists.own = [] := hspent
            rw [TwoLists.takeAt?, hnone, lists_of_spent hcapacity hsame hinjected]
            rfl
      | head =>
          rcases steal?_facts htake with ⟨hcapacity, ⟨hown, hsame⟩ | ⟨hspent, hsame, hinjected⟩⟩
          · simp [TwoLists.takeAt?, lists, hown, hsame, hcapacity]
          · have hnone : d.lists.own = [] := hspent
            rw [TwoLists.takeAt?, hnone, lists_of_spent hcapacity hsame hinjected]
            rfl

theorem added_map (d : WorkDeque) (r : Except SchedError WorkDeque) :
    added d.lists (r.map lists) = Prod.map lists id (added d r) := by
  cases r with
  | ok d' => rfl
  | error e => rfl

theorem removed_map (d : WorkDeque) (r : Option (TaskHandle × WorkDeque)) :
    removed d.lists (r.map (Prod.map id lists)) = Prod.map lists id (removed d r) := by
  cases r with
  | none => rfl
  | some found => rfl

/-- To call a deque and read it as lists is to read it as lists and call them. -/
theorem lists_call (d : WorkDeque) (c : Call) : d.lists.call c = Prod.map lists id (d.call c) := by
  cases c with
  | push t => rw [TwoLists.call, ← lists_push, added_map, call]
  | inject t => rw [TwoLists.call, ← lists_inject, added_map, call]
  | remove e => rw [TwoLists.call, ← lists_takeAt?, removed_map, call]

/-- A removal takes a task while there is one. -/
theorem held_remove (d : WorkDeque) (e : End) : (d.call (.remove e)).1.held = d.held - 1 := by
  rw [call]
  cases htake : d.takeAt? e with
  | none =>
      have hnil := (d.takeAt?_eq_none_iff e).1 htake
      have hzero : d.held = 0 := by rw [← length_tasks, hnil, List.length_nil]
      rw [removed, hzero]
  | some found =>
      obtain ⟨t, d'⟩ := found
      have hlength := (perm_takeAt? htake).length_eq
      rw [List.length_cons, length_tasks, length_tasks] at hlength
      rw [removed, hlength, Nat.add_sub_cancel]

theorem capacity_call (d : WorkDeque) (c : Call) : (d.call c).1.capacity = d.capacity := by
  cases c with
  | push t =>
      rw [call]
      cases hpush : d.push t with
      | ok d' => exact (push_facts hpush).2.2.2
      | error e => rfl
  | inject t =>
      rw [call]
      cases hinject : d.inject t with
      | ok d' => exact (inject_facts hinject).2.2.2
      | error e => rfl
  | remove e =>
      rw [call]
      cases htake : d.takeAt? e with
      | none => rfl
      | some found => exact capacity_takeAt? htake

/-! ### Rows of calls -/

theorem observe_lists (d : WorkDeque) (calls : List Call) :
    observe call held d calls = observe TwoLists.call TwoLists.size d.lists calls := by
  -- induction on the calls still to come; the lists are those of the deque after each
  induction calls generalizing d with
  | nil => rfl
  | cons c rest ih =>
      have hcall := d.lists_call c
      rw [observe, observe, hcall, Prod.map_fst, Prod.map_snd, size_lists, ih]
      rfl

theorem lists_run (h : History) (calls : List Call) :
    (h.run calls).deque.lists = calls.foldl (fun p c => (p.call c).1) h.deque.lists := by
  induction calls generalizing h with
  | nil => rfl
  | cons c rest ih =>
      have hcall : (h.deque.lists.call c).1 = (h.step c).deque.lists := by
        rw [lists_call]
        rfl
      rw [List.foldl_cons, hcall]
      exact ih (h.step c)

theorem capacity_run (h : History) (calls : List Call) :
    (h.run calls).deque.capacity = h.deque.capacity := by
  induction calls generalizing h with
  | nil => rfl
  | cons c rest ih => exact (ih (h.step c)).trans (h.deque.capacity_call c)

/-- A call that brings a task in adds it once, and one that gives a task out takes it away once. -/
theorem balance_call (d : WorkDeque) (c : Call) :
    ((d.call c).2.task?.toList : Multiset TaskHandle) + ((d.call c).1.tasks : Multiset TaskHandle) =
      (c.accepted (d.call c).2).toList + (d.tasks : Multiset TaskHandle) := by
  cases c with
  | push t =>
      rw [call]
      cases hpush : d.push t with
      | ok d' => exact (zero_add _).trans (coe_tasks_push hpush)
      | error e => rfl
  | inject t =>
      rw [call]
      cases hinject : d.inject t with
      | ok d' => exact (zero_add _).trans (coe_tasks_inject hinject)
      | error e => rfl
  | remove e =>
      rw [call]
      cases htake : d.takeAt? e with
      | none => rfl
      | some found =>
          obtain ⟨t, d'⟩ := found
          exact (coe_tasks_takeAt? htake).symm.trans (zero_add _).symm

namespace History

/-- What came out and what is queued are the tasks that were accepted. -/
def Balanced (h : History) : Prop := (h.taken : Multiset TaskHandle) + h.deque.tasks = h.accepted

variable {h : History}

theorem Balanced.step (hb : h.Balanced) (c : Call) : (h.step c).Balanced := by
  have hcall := balance_call h.deque c
  rw [Balanced, History.step, ← Multiset.coe_add, ← Multiset.coe_add, add_assoc, hcall, ← hb,
    add_left_comm, add_comm]

theorem Balanced.run (hb : h.Balanced) (calls : List Call) : (h.run calls).Balanced := by
  induction calls generalizing h with
  | nil => exact hb
  | cons c rest ih => exact ih (hb.step c)

/-- So many tasks are held as were accepted and have not come out. -/
theorem Balanced.held_add_length (hb : h.Balanced) :
    h.deque.held + h.taken.length = h.accepted.length := by
  have hcard := congrArg Multiset.card hb
  rw [Multiset.card_add, Multiset.coe_card, Multiset.coe_card, Multiset.coe_card,
    length_tasks] at hcard
  rw [Nat.add_comm]
  exact hcard

theorem removals (h : History) (ends : List End) :
    (h.run (ends.map .remove)).accepted = h.accepted ∧
      (h.run (ends.map .remove)).deque.held = h.deque.held - ends.length := by
  induction ends generalizing h with
  | nil => exact ⟨rfl, rfl⟩
  | cons e rest ih =>
      obtain ⟨haccepted, hheld⟩ := ih (h.step (.remove e))
      have hhere : (h.step (.remove e)).accepted = h.accepted := List.append_nil _
      have hless : (h.step (.remove e)).deque.held = h.deque.held - 1 := held_remove h.deque e
      refine ⟨haccepted.trans hhere, hheld.trans ?_⟩
      rw [hless, List.length_cons, Nat.sub_sub, Nat.add_comm 1]

end History

/-- A deque behaves as two lists do. Whatever its capacity, every row of pushes, injections and
removals at either end has the answers and sizes that it has with two lists under the same bound,
and leads to the lists that are in the deque. The counter never leaves the length of the two lists:
it says how many tasks were accepted and have not come out. What came out and what is in the lists
are the tasks that were accepted, and as many removals as there are tasks, at whichever ends, bring
out the rest. -/
theorem refines_twoLists (capacity : Nat) (calls : List Call) :
    observe call held (new capacity) calls =
        observe TwoLists.call TwoLists.size (.new capacity) calls ∧
      let h := History.run { deque := new capacity } calls
      let lists := calls.foldl (fun p c => (p.call c).1) (TwoLists.new capacity)
      h.deque.own.toList = lists.own ∧ h.deque.injected.toList = lists.injected ∧
        h.deque.held = lists.size ∧ h.deque.held ≤ max 1 capacity ∧
        (h.taken : Multiset TaskHandle) + lists.own + lists.injected = h.accepted ∧
        h.deque.held + h.taken.length = h.accepted.length ∧
        ∀ ends : List End, h.deque.held ≤ ends.length →
          (h.run (ends.map .remove)).accepted = h.accepted ∧
            (h.run (ends.map .remove)).taken.Perm h.accepted ∧
            (h.run (ends.map .remove)).deque.held = 0 := by
  refine ⟨(observe_lists _ calls).trans (by rw [lists_new]), ?_⟩
  intro h lists
  have hlists : h.deque.lists = lists := by
    rw [lists_run, lists_new]
  have hb : h.Balanced := History.Balanced.run (h := { deque := new capacity }) rfl calls
  have hcapacity : h.deque.capacity = max 1 capacity :=
    (capacity_run _ calls).trans (Nat.max_comm capacity 1)
  have htasks : (h.taken : Multiset TaskHandle) + lists.own + lists.injected = h.accepted := by
    rw [← hlists, add_assoc, Multiset.coe_add]
    exact hb
  refine ⟨by rw [← hlists]; rfl, by rw [← hlists]; rfl, by rw [← hlists, size_lists],
    hcapacity ▸ h.deque.held_le, htasks, hb.held_add_length, ?_⟩
  intro ends hends
  obtain ⟨haccepted, hheld⟩ := h.removals ends
  rw [Nat.sub_eq_zero_of_le hends] at hheld
  refine ⟨haccepted, ?_, hheld⟩
  -- with nothing left in the deque, the balance is one of what came out alone
  have hout : (h.run (ends.map .remove)).Balanced := hb.run _
  have hnil : (h.run (ends.map .remove)).deque.tasks = [] := by
    rw [← List.length_eq_zero_iff, length_tasks, hheld]
  rw [History.Balanced, hnil, haccepted, Multiset.coe_nil, add_zero] at hout
  exact Multiset.coe_eq_coe.1 hout

/-- The owner's tasks come out newest first, and the injected ones after them oldest first. -/
example :
    (History.run { deque := new 16 }
      [.inject ⟨10⟩, .inject ⟨11⟩, .push ⟨1⟩, .push ⟨2⟩, .remove .tail, .remove .tail,
        .remove .tail, .remove .tail]).taken = [⟨2⟩, ⟨1⟩, ⟨10⟩, ⟨11⟩] := by
  decide +kernel

end WorkDeque

end WorkStealing
