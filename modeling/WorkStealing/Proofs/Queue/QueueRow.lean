import Mathlib.Data.List.Rotate
import WorkStealing.Proofs.Queue.Contents

/-!
# Staging as a row of queues

From outside, staging is a row of lists of indices, none of which grows past a bound (`QueueRow`): a
key names the list that an index is put at the end of, and a worker takes the head of the first list
that has one, going once round from its own. `Staging.row` reads staging in this way, and whatever
is called, reading it before or after comes to the same (`row_call`).

A pop that finds the counter at 0 looks into no slot. That this hides nothing is the invariant
`Staging.Counted`: the counter is the number of indices in all slots. So every row of calls is
answered alike, and each index that was accepted comes out once (`refines_queueRow`).
-/

namespace WorkStealing

/-- To go round from a place on is to turn the row so far that this place comes first. -/
theorem cyclicFrom_eq_rotate (start n : Nat) : cyclicFrom start n = (List.range n).rotate start := by
  apply List.ext_getElem
  · simp [cyclicFrom]
  · intro i hi hi'
    simp only [cyclicFrom, List.getElem_map, List.getElem_range, List.getElem_rotate,
      List.length_range]
    rw [Nat.add_comm]

/-- The first result along a row is the result at the first place that has one. -/
theorem findSome?_eq_bind_find? {α β : Type} {f : α → Option β} {p : α → Bool}
    (h : ∀ a, (f a).isSome = p a) (xs : List α) : xs.findSome? f = (xs.find? p).bind f := by
  induction xs with
  | nil => rfl
  | cons x rest ih =>
      have hx := h x
      cases hf : f x with
      | none =>
          rw [hf, Option.isSome_none] at hx
          rw [List.findSome?_cons, hf, List.find?_cons_of_neg (by simp [← hx]), ih]
      | some b =>
          rw [hf, Option.isSome_some] at hx
          rw [List.findSome?_cons, hf, List.find?_cons_of_pos hx.symm, Option.bind_some, hf]

/-- Lists of indices, oldest first, and how many each may hold. -/
structure QueueRow where
  queues : List (List ArenaIndex)
  bound : Nat

namespace QueueRow

/-- Empty lists; a number of 0 counts as 1. -/
def new (slots bound : Nat) : QueueRow :=
  { queues := List.replicate (max 1 slots) [], bound := max 1 bound }

/-- The indices of all lists. -/
def entries (r : QueueRow) : List ArenaIndex := r.queues.flatten

def total (r : QueueRow) : Nat := r.entries.length

/-- The list at a place; past the row there is nothing. -/
def queueAt (r : QueueRow) (k : Nat) : List ArenaIndex := (r.queues[k]?).getD []

/-- The place of a key. -/
def placeOf (r : QueueRow) (key : AffinityKey) : Nat := key.id.toNat % r.queues.length

def replace (r : QueueRow) (k : Nat) (queue : List ArenaIndex) : QueueRow :=
  { r with queues := r.queues.set k queue }

/-- Put an index at the end of the list of its key, unless that is as long as it may be. -/
def push (r : QueueRow) (key : AffinityKey) (i : ArenaIndex) : Except SchedError QueueRow :=
  if (r.queueAt (r.placeOf key)).length = r.bound then
    .error (.capacityExhausted "staging slot" r.bound)
  else .ok (r.replace (r.placeOf key) (r.queueAt (r.placeOf key) ++ [i]))

/-- The first place, in cyclic order from a worker's own, whose list is not empty. -/
def firstOccupied? (r : QueueRow) (worker : Nat) : Option Nat :=
  ((List.range r.queues.length).rotate (worker % r.queues.length)).find? fun k => r.queueAt k ≠ []

/-- Take the head of the first list that has one. -/
def pop? (r : QueueRow) (worker : Nat) : Option (ArenaIndex × QueueRow) :=
  (r.firstOccupied? worker).bind fun k =>
    (r.queueAt k).head?.map fun i => (i, r.replace k (r.queueAt k).tail)

end QueueRow

namespace Staging

/-- A call of staging. -/
inductive Call where
  | push (key : AffinityKey) (i : ArenaIndex)
  | pop (worker : Nat)

/-- What a call answers. -/
inductive Answer where
  | pushed (r : Except SchedError Unit)
  | popped (i? : Option ArenaIndex)

/-- The index that a call brings in, by its answer. -/
def Call.accepted : Call → Answer → Option ArenaIndex
  | .push _ i, .pushed (.ok ()) => some i
  | _, _ => none

/-- The index that the caller gets. -/
def Answer.index? : Answer → Option ArenaIndex
  | .popped i? => i?
  | .pushed _ => none

/-- The outcome of a push. One that is refused changes nothing. -/
def pushed {σ : Type} (before : σ) : Except SchedError σ → σ × Answer
  | .ok after => (after, .pushed (.ok ()))
  | .error e => (before, .pushed (.error e))

/-- The outcome of a pop. One that finds nothing changes nothing. -/
def popped {σ : Type} (before : σ) : Option (ArenaIndex × σ) → σ × Answer
  | some (i, after) => (after, .popped (some i))
  | none => (before, .popped none)

def call (s : Staging) : Call → Staging × Answer
  | .push key i => pushed s (s.push key i)
  | .pop worker => popped s (s.pop? worker)

end Staging

/-- The same calls, served by a row of lists. -/
def QueueRow.call (r : QueueRow) : Staging.Call → QueueRow × Staging.Answer
  | .push key i => Staging.pushed r (r.push key i)
  | .pop worker => Staging.popped r (r.pop? worker)

namespace Staging

/-- What is seen of each call: its answer, and the size afterwards. -/
def observe {σ : Type} (call : σ → Call → σ × Answer) (size : σ → Nat) :
    σ → List Call → List (Answer × Nat)
  | _, [] => []
  | s, c :: rest => ((call s c).2, size (call s c).1) :: observe call size (call s c).1 rest

/-- Staging with the indices that it accepted and those that it gave out. -/
structure History where
  staging : Staging
  accepted : List ArenaIndex := []
  taken : List ArenaIndex := []

namespace History

def step (h : History) (c : Call) : History where
  staging := (h.staging.call c).1
  accepted := h.accepted ++ (c.accepted (h.staging.call c).2).toList
  taken := h.taken ++ (h.staging.call c).2.index?.toList

def run (h : History) (calls : List Call) : History := calls.foldl step h

end History

/-- Staging read as a row of lists. -/
def row (s : Staging) : QueueRow where
  queues := s.slots.map Deque.toList
  bound := s.slotCapacity

/-- The counter is the number of indices in all slots, and no slot is past its capacity. -/
structure Counted (s : Staging) : Prop where
  size_eq : s.size = (s.slots.map Deque.size).sum
  bounded : ∀ q ∈ s.slots, q.size ≤ s.slotCapacity

end Staging

/-! ### The row by itself -/

namespace QueueRow

variable {r : QueueRow}

theorem entries_eq_nil_iff (r : QueueRow) :
    r.entries = [] ↔ ∀ k < r.queues.length, r.queueAt k = [] := by
  rw [entries, List.flatten_eq_nil_iff]
  constructor
  · intro h k hk
    rw [queueAt, List.getElem?_eq_getElem hk]
    exact h _ (List.getElem_mem hk)
  · intro h q hq
    obtain ⟨k, hk, rfl⟩ := List.getElem_of_mem hq
    have hnil := h k hk
    rwa [queueAt, List.getElem?_eq_getElem hk] at hnil

/-- Going once round from anywhere passes every place. -/
theorem firstOccupied?_eq_none_iff (r : QueueRow) (w : Nat) :
    r.firstOccupied? w = none ↔ r.entries = [] := by
  rw [entries_eq_nil_iff, firstOccupied?, List.find?_eq_none]
  simp

theorem pop?_eq_none_iff (r : QueueRow) (w : Nat) : r.pop? w = none ↔ r.entries = [] := by
  rw [← r.firstOccupied?_eq_none_iff w, pop?]
  cases hfirst : r.firstOccupied? w with
  | none => simp
  | some k =>
      have hne : r.queueAt k ≠ [] := by simpa using List.find?_some hfirst
      simp [hne]

end QueueRow

namespace Staging

variable {s s' : Staging} {key : AffinityKey} {i : ArenaIndex} {w : Nat}

/-! ### Each call does to the row what its name says -/

theorem row_new (slots slotCapacity : Nat) :
    (new slots slotCapacity).row = .new slots slotCapacity := by
  rw [QueueRow.new, Nat.max_comm 1 slots, Nat.max_comm 1 slotCapacity, row, new,
    List.map_replicate, Deque.toList_empty]

theorem queueAt_row (s : Staging) (k : Nat) :
    s.row.queueAt k = ((s.slots[k]?).map Deque.toList).getD [] := by
  rw [QueueRow.queueAt, row, List.getElem?_map]

theorem queueAt_row_of_getElem? {k : Nat} {q : Deque ArenaIndex} (h : s.slots[k]? = some q) :
    s.row.queueAt k = q.toList := by
  rw [queueAt_row, h, Option.map_some, Option.getD_some]

theorem placeOf_row (s : Staging) (key : AffinityKey) : s.row.placeOf key = s.slotFor key := by
  rw [QueueRow.placeOf, row, List.length_map]
  rfl

theorem row_setSlot (s : Staging) (k : Nat) (q : Deque ArenaIndex) (n : Nat) :
    (s.setSlot k q n).row = s.row.replace k q.toList := by
  rw [row, setSlot, QueueRow.replace, row, List.map_set]

theorem total_row (s : Staging) : s.row.total = (s.slots.map Deque.size).sum := by
  rw [QueueRow.total, QueueRow.entries, row, List.length_flatten, List.map_map]
  congr 1
  exact List.map_congr_left fun q _ => q.length_toList

theorem Counted.size_eq_total (h : s.Counted) : s.size = s.row.total :=
  h.size_eq.trans s.total_row.symm

theorem push_eq {q : Deque ArenaIndex} (hq : s.slots[s.slotFor key]? = some q) (i : ArenaIndex) :
    s.push key i =
      if q.size < s.slotCapacity then .ok (s.setSlot (s.slotFor key) (q.push i) (s.size + 1))
      else .error (.capacityExhausted "staging slot" s.slotCapacity) := by
  obtain ⟨-, rfl⟩ := List.getElem?_eq_some_iff.1 hq
  rfl

theorem row_push (h : s.Counted) (key : AffinityKey) (i : ArenaIndex) :
    (s.push key i).map row = s.row.push key i := by
  obtain ⟨q, hq⟩ : ∃ q, s.slots[s.slotFor key]? = some q :=
    ⟨_, List.getElem?_eq_getElem (s.slotFor_lt key)⟩
  have hle := h.bounded q (List.mem_of_getElem? hq)
  have hbound : s.row.bound = s.slotCapacity := rfl
  rw [push_eq hq, QueueRow.push, placeOf_row, queueAt_row_of_getElem? hq, Deque.length_toList,
    hbound]
  by_cases hroom : q.size < s.slotCapacity
  · rw [if_pos hroom, if_neg (Nat.ne_of_lt hroom), Except.map, row_setSlot, Deque.toList_push]
  · rw [if_neg hroom, if_pos (Nat.le_antisymm hle (Nat.le_of_not_lt hroom))]
    rfl

/-- A push is refused exactly if the slot of its key is full. -/
theorem push_eq_error_iff (h : s.Counted) (key : AffinityKey) (i : ArenaIndex) (e : SchedError) :
    s.push key i = .error e ↔ (s.row.queueAt (s.row.placeOf key)).length = s.slotCapacity ∧
      e = .capacityExhausted "staging slot" s.slotCapacity := by
  have hrow := row_push h key i
  rw [QueueRow.push, show s.row.bound = s.slotCapacity from rfl] at hrow
  by_cases hfull : (s.row.queueAt (s.row.placeOf key)).length = s.slotCapacity
  · rw [if_pos hfull] at hrow
    cases hpush : s.push key i with
    | ok s' =>
        rw [hpush] at hrow
        cases hrow
    | error e' =>
        rw [hpush] at hrow
        cases hrow
        simp [hfull, eq_comm]
  · rw [if_neg hfull] at hrow
    cases hpush : s.push key i with
    | ok s' => simp [hfull]
    | error e' =>
        rw [hpush] at hrow
        cases hrow

/-- A look into one slot is a look at the head of its list. -/
theorem row_popOld? (s : Staging) (k n : Nat) :
    (((s.slots[k]?).bind Deque.popOld?).map fun found =>
        (found.1, s.setSlot k found.2 n)).map (Prod.map id row) =
      (s.row.queueAt k).head?.map fun i => (i, s.row.replace k (s.row.queueAt k).tail) := by
  cases hq : s.slots[k]? with
  | none => simp [queueAt_row, hq]
  | some q =>
      rw [queueAt_row_of_getElem? hq, Option.bind_some]
      cases hpop : q.popOld? with
      | none => simp [(Deque.popOld?_eq_none_iff q).1 hpop]
      | some found =>
          obtain ⟨i, rest⟩ := found
          simp [Deque.toList_popOld? hpop, row_setSlot]

theorem row_pop? (h : s.Counted) (w : Nat) :
    (s.pop? w).map (Prod.map id row) = s.row.pop? w := by
  rw [pop?]
  split
  next hzero =>
    -- a counter at 0 stands for empty lists
    have htotal : s.row.total = 0 := h.size_eq_total ▸ hzero
    exact ((s.row.pop?_eq_none_iff w).2 (List.length_eq_zero_iff.1 htotal)).symm
  next =>
    have hlength : s.row.queues.length = s.slotCount := List.length_map _
    rw [List.map_findSome?, QueueRow.pop?, QueueRow.firstOccupied?, hlength, ← cyclicFrom_eq_rotate]
    rw [show (Option.map (Prod.map id row) ∘ fun slot => _) = _ from
      funext fun k => s.row_popOld? k (s.size - 1)]
    apply findSome?_eq_bind_find?
    intro k
    cases hqueue : s.row.queueAt k with
    | nil => rfl
    | cons i rest => rfl

theorem pushed_map (s : Staging) (r : Except SchedError Staging) :
    pushed s.row (r.map row) = Prod.map row id (pushed s r) := by
  cases r with
  | ok s' => rfl
  | error e => rfl

theorem popped_map (s : Staging) (r : Option (ArenaIndex × Staging)) :
    popped s.row (r.map (Prod.map id row)) = Prod.map row id (popped s r) := by
  cases r with
  | none => rfl
  | some found => rfl

/-- To call staging and read it as a row is to read it as a row and call that. -/
theorem row_call (h : s.Counted) (c : Call) : s.row.call c = Prod.map row id (s.call c) := by
  cases c with
  | push key i => rw [QueueRow.call, ← row_push h, pushed_map, call]
  | pop w => rw [QueueRow.call, ← row_pop? h, popped_map, call]

/-! ### What a call keeps -/

theorem counted_new (slots slotCapacity : Nat) : (new slots slotCapacity).Counted where
  size_eq := by simp [new]
  bounded q hq := by
    rw [List.eq_of_mem_replicate hq, Deque.size_empty]
    exact Nat.zero_le _

theorem Counted.push (h : s.Counted) (hpush : s.push key i = .ok s') : s'.Counted := by
  obtain ⟨hcapacity, hsize, q, hq, hroom, hslots⟩ := push_facts hpush
  have hsum := sum_map_set Deque.size hq (q.push i)
  rw [Deque.size_push, ← h.size_eq] at hsum
  constructor
  · rw [hsize, hslots]
    omega
  · rw [hslots, hcapacity]
    intro q' hq'
    rcases List.mem_or_eq_of_mem_set hq' with hold | rfl
    · exact h.bounded q' hold
    · exact hroom

theorem Counted.pop? (h : s.Counted) (hpop : s.pop? w = some (i, s')) : s'.Counted := by
  obtain ⟨hsize, k, q, rest, hq, hlist, rfl⟩ := pop?_facts hpop
  have hlength := congrArg List.length hlist
  rw [List.length_cons, Deque.length_toList, Deque.length_toList] at hlength
  have hsum := sum_map_set Deque.size hq rest
  rw [hlength, ← h.size_eq] at hsum
  constructor
  · show s.size - 1 = ((s.slots.set k rest).map Deque.size).sum
    omega
  · intro q' hq'
    rcases List.mem_or_eq_of_mem_set hq' with hold | rfl
    · exact h.bounded q' hold
    · have hle := h.bounded q (List.mem_of_getElem? hq)
      show q'.size ≤ s.slotCapacity
      omega

theorem Counted.call (h : s.Counted) (c : Call) : (s.call c).1.Counted := by
  cases c with
  | push key i =>
      rw [Staging.call]
      cases hpush : s.push key i with
      | ok s' => exact h.push hpush
      | error e => exact h
  | pop w =>
      rw [Staging.call]
      cases hpop : s.pop? w with
      | none => exact h
      | some found => exact h.pop? hpop

/-- A row keeps its length and its bound. -/
theorem shape_call (s : Staging) (c : Call) :
    (s.call c).1.slotCount = s.slotCount ∧ (s.call c).1.slotCapacity = s.slotCapacity := by
  cases c with
  | push key i =>
      rw [call]
      cases hpush : s.push key i with
      | ok s' => exact ⟨slotCount_push hpush, (push_facts hpush).1⟩
      | error e => exact ⟨rfl, rfl⟩
  | pop w =>
      rw [call]
      cases hpop : s.pop? w with
      | none => exact ⟨rfl, rfl⟩
      | some found =>
          obtain ⟨-, k, q, rest, -, -, hs⟩ := pop?_facts hpop
          exact ⟨slotCount_pop? hpop, by rw [popped, hs]; rfl⟩

/-- A pop takes an index while there is one. -/
theorem size_pop (h : s.Counted) (w : Nat) : (s.call (.pop w)).1.size = s.size - 1 := by
  rw [call]
  cases hpop : s.pop? w with
  | none =>
      have hnone : s.row.pop? w = none := by rw [← row_pop? h, hpop, Option.map_none]
      have hnil := (s.row.pop?_eq_none_iff w).1 hnone
      have hzero : s.size = 0 := by rw [h.size_eq_total, QueueRow.total, hnil, List.length_nil]
      rw [popped, hzero]
  | some found =>
      obtain ⟨i, s'⟩ := found
      have hsize := size_pop? hpop
      show s'.size = s.size - 1
      omega

theorem copies_eq_count (s : Staging) (j : ArenaIndex) : s.copies j = s.row.entries.count j := by
  rw [copies, QueueRow.entries, row, List.count_flatten, List.map_map]
  rfl

/-- A call that brings an index in adds it once, and one that gives an index out takes it away
once. -/
theorem balance_call (s : Staging) (c : Call) (j : ArenaIndex) :
    (s.call c).2.index?.toList.count j + (s.call c).1.copies j =
      (c.accepted (s.call c).2).toList.count j + s.copies j := by
  cases c with
  | push key i =>
      rw [call]
      cases hpush : s.push key i with
      | ok s' =>
          have hcopies := copies_push hpush j
          simp only [pushed, Answer.index?, Call.accepted, Option.toList_none, List.count_nil,
            Option.toList_some, List.count_singleton, beq_iff_eq, eq_comm (a := i)]
          omega
      | error e => rfl
  | pop w =>
      rw [call]
      cases hpop : s.pop? w with
      | none => rfl
      | some found =>
          obtain ⟨i, s'⟩ := found
          have hcopies := copies_pop? hpop j
          simp only [popped, Answer.index?, Call.accepted, Option.toList_none, List.count_nil,
            Option.toList_some, List.count_singleton, beq_iff_eq, eq_comm (a := i)]
          omega

/-! ### Rows of calls -/

theorem observe_row (h : s.Counted) (calls : List Call) :
    observe call size s calls = observe QueueRow.call QueueRow.total s.row calls := by
  -- induction on the calls still to come; the row is that of staging after each
  induction calls generalizing s with
  | nil => rfl
  | cons c rest ih =>
      have hnext := h.call c
      rw [observe, observe, row_call h, Prod.map_fst, Prod.map_snd, hnext.size_eq_total, ih hnext]
      rfl

namespace History

/-- The counter is right, and what came out and what waits are the indices that were accepted. -/
structure Balanced (h : History) : Prop where
  counted : h.staging.Counted
  count : ∀ j, h.taken.count j + h.staging.copies j = h.accepted.count j

variable {h : History}

theorem balanced_new (slots slotCapacity : Nat) :
    Balanced { staging := new slots slotCapacity } where
  counted := counted_new slots slotCapacity
  count j := by rw [copies_new]; rfl

theorem Balanced.step (hb : h.Balanced) (c : Call) : (h.step c).Balanced where
  counted := hb.counted.call c
  count j := by
    have hhere := hb.count j
    have hcall := balance_call h.staging c j
    simp only [History.step, List.count_append]
    omega

theorem Balanced.run (hb : h.Balanced) (calls : List Call) : (h.run calls).Balanced := by
  induction calls generalizing h with
  | nil => exact hb
  | cons c rest ih => exact ih (hb.step c)

theorem Balanced.perm (hb : h.Balanced) : (h.taken ++ h.staging.row.entries).Perm h.accepted := by
  rw [List.perm_iff_count]
  intro j
  rw [List.count_append, ← copies_eq_count]
  exact hb.count j

/-- So many indices wait as were accepted and have not come out. -/
theorem Balanced.size_add_length (hb : h.Balanced) :
    h.staging.size + h.taken.length = h.accepted.length := by
  rw [← hb.perm.length_eq, List.length_append, hb.counted.size_eq_total, Nat.add_comm]
  rfl

theorem row_run (hc : h.staging.Counted) (calls : List Call) :
    (h.run calls).staging.row = calls.foldl (fun r c => (r.call c).1) h.staging.row := by
  induction calls generalizing h with
  | nil => rfl
  | cons c rest ih =>
      have hcall : (h.staging.row.call c).1 = (h.step c).staging.row := by
        rw [row_call hc]
        rfl
      rw [List.foldl_cons, hcall]
      exact ih (hc.call c)

theorem shape_run (h : History) (calls : List Call) :
    (h.run calls).staging.slotCount = h.staging.slotCount ∧
      (h.run calls).staging.slotCapacity = h.staging.slotCapacity := by
  induction calls generalizing h with
  | nil => exact ⟨rfl, rfl⟩
  | cons c rest ih =>
      obtain ⟨hcount, hcapacity⟩ := ih (h.step c)
      obtain ⟨hcount', hcapacity'⟩ := h.staging.shape_call c
      exact ⟨hcount.trans hcount', hcapacity.trans hcapacity'⟩

/-- A row of pops accepts nothing and takes as many indices as it is long, while there are any. -/
theorem pops (hc : h.staging.Counted) (workers : List Nat) :
    (h.run (workers.map .pop)).accepted = h.accepted ∧
      (h.run (workers.map .pop)).staging.size = h.staging.size - workers.length := by
  induction workers generalizing h with
  | nil => exact ⟨rfl, rfl⟩
  | cons w rest ih =>
      obtain ⟨haccepted, hsize⟩ := ih (h := h.step (.pop w)) (hc.call (.pop w))
      have hhere : (h.step (.pop w)).accepted = h.accepted := List.append_nil _
      have hless : (h.step (.pop w)).staging.size = h.staging.size - 1 := size_pop hc w
      refine ⟨haccepted.trans hhere, hsize.trans ?_⟩
      rw [hless, List.length_cons, Nat.sub_sub, Nat.add_comm 1]

end History

/-- Staging behaves as a row of bounded lists does. Whatever its numbers of slots and of places in
each, where 0 counts as 1, every row of pushes and pops has the answers and sizes that it has with
such a row, and leads to the lists that are in the slots. At any time a push is refused exactly if
the list of its key is full, and a pop finds nothing exactly if all lists are empty. The counter is
the number of indices in all lists; it says how many were accepted and have not come out. What came
out and what waits are the indices that were accepted, and as many pops as there are indices, by
whichever workers, bring out the rest. -/
theorem refines_queueRow (slots slotCapacity : Nat) (calls : List Call) :
    observe call size (new slots slotCapacity) calls =
        observe QueueRow.call QueueRow.total (.new slots slotCapacity) calls ∧
      let h := History.run { staging := new slots slotCapacity } calls
      let row := calls.foldl (fun r c => (r.call c).1) (QueueRow.new slots slotCapacity)
      h.staging.row = row ∧ row.queues.length = max 1 slots ∧
        (∀ queue ∈ row.queues, queue.length ≤ max 1 slotCapacity) ∧
        (∀ key i e, h.staging.push key i = .error e ↔
          (row.queueAt (row.placeOf key)).length = max 1 slotCapacity ∧
            e = .capacityExhausted "staging slot" (max 1 slotCapacity)) ∧
        (∀ w, h.staging.pop? w = none ↔ ∀ queue ∈ row.queues, queue = []) ∧
        h.staging.size = row.total ∧ h.staging.size + h.taken.length = h.accepted.length ∧
        (h.taken ++ row.entries).Perm h.accepted ∧
        ∀ workers : List Nat, h.staging.size ≤ workers.length →
          (h.run (workers.map .pop)).accepted = h.accepted ∧
            (h.run (workers.map .pop)).taken.Perm h.accepted ∧
            (h.run (workers.map .pop)).staging.size = 0 := by
  have hnew := counted_new slots slotCapacity
  refine ⟨(observe_row hnew calls).trans (by rw [row_new]), ?_⟩
  intro h row
  have hb : h.Balanced := (History.balanced_new slots slotCapacity).run calls
  have hrow : h.staging.row = row :=
    (History.row_run (h := { staging := new slots slotCapacity }) hnew calls).trans
      (by rw [row_new])
  obtain ⟨hcount, hcapacity⟩ := History.shape_run { staging := new slots slotCapacity } calls
  have hlength : row.queues.length = max 1 slots := by
    rw [← hrow, Staging.row, List.length_map, Nat.max_comm]
    exact hcount.trans List.length_replicate
  have hbound : h.staging.slotCapacity = max 1 slotCapacity :=
    hcapacity.trans (Nat.max_comm slotCapacity 1)
  have hbounded : ∀ queue ∈ row.queues, queue.length ≤ max 1 slotCapacity := by
    rw [← hrow, ← hbound]
    intro queue hqueue
    obtain ⟨q, hq, rfl⟩ := List.mem_map.1 hqueue
    rw [Deque.length_toList]
    exact hb.counted.bounded q hq
  refine ⟨hrow, hlength, hbounded, ?_, ?_, ?_, hb.size_add_length, ?_, ?_⟩
  · intro key i e
    rw [push_eq_error_iff hb.counted, hrow, hbound]
  · intro w
    rw [← List.flatten_eq_nil_iff, ← QueueRow.entries, ← row.pop?_eq_none_iff w, ← hrow,
      ← row_pop? hb.counted, Option.map_eq_none_iff]
  · rw [hb.counted.size_eq_total, hrow]
  · rw [← hrow]
    exact hb.perm
  · intro workers hworkers
    obtain ⟨haccepted, hsize⟩ := History.pops hb.counted workers
    rw [Nat.sub_eq_zero_of_le hworkers] at hsize
    refine ⟨haccepted, ?_, hsize⟩
    -- with nothing left in the slots, the balance is one of what came out alone
    have hout := hb.run (workers.map .pop)
    have hnil : (h.run (workers.map .pop)).staging.row.entries = [] := by
      rw [← List.length_eq_zero_iff, ← QueueRow.total, ← hout.counted.size_eq_total, hsize]
    have hperm := hout.perm
    rwa [hnil, List.append_nil, haccepted] at hperm

/-- A worker looks into its own slot first, then into the next one. -/
example :
    (History.run { staging := new 2 4 }
      [.push ⟨0⟩ ⟨0, 0⟩, .push ⟨1⟩ ⟨1, 0⟩, .push ⟨3⟩ ⟨2, 0⟩, .pop 1, .pop 1, .pop 1]).taken =
        [⟨1, 0⟩, ⟨2, 0⟩, ⟨0, 0⟩] := by
  decide +kernel

end Staging

end WorkStealing
