import WorkStealing.Container
import WorkStealing.Proofs.Queue.Scan

/-!
# Workers with one level

A worker that has a single urgency level needs no levels: a plain deque of the same capacity answers
every row of calls as levels with one level do (`Container.answers_deque_eq_levels`). So it makes no
difference that `Container.forWorker` gives such a worker a deque while the seats of a pool always
hold levels. What the proof carries from call to call is that the one level is the deque itself
(`Container.Mirrors`); the cursor, which the deque does not have, is covered by `remove_facts`.
-/

namespace WorkStealing

namespace Container

/-- What an addition leaves: the changed store and the level used, or the store as it was. -/
def added {σ : Type} (before : Container) (wrap : σ → Container) :
    Except SchedError (Nat × σ) → Container × Except SchedError Nat
  | .ok (level, s) => (wrap s, .ok level)
  | .error e => (before, .error e)

/-- Add a task to a worker's own queues, from outside or at the owner's end; the answer names the
level used, which is 0 where there are no levels. Groups and pools belong to no single worker. -/
def put (c : Container) (remote : Bool) (t : TaskHandle) (level : Option Nat) :
    Container × Option (Except SchedError Nat) :=
  match c with
  | .deque d =>
    let (c', r) := added c .deque ((if remote then d.inject t else d.push t).map fun d' => (0, d'))
    (c', some r)
  | .levels l =>
    let level := level.getD l.defaultLevel
    let (c', r) := added c .levels (if remote then l.inject t level else l.insert t level)
    (c', some r)
  | .group _ | .pool _ => (c, none)

/-- A call of a container. -/
inductive Call where
  | insert (t : TaskHandle) (hint : Hint) (source : Location)
  | put (remote : Bool) (t : TaskHandle) (level : Option Nat)
  | remove (sel : Selector)
  | count (scope : CountScope)

/-- What a call answers; a removal answers its selector too, whose cursor names the level. -/
inductive Answer where
  | inserted (r : Except SchedError Unit)
  | placed (r : Option (Except SchedError Nat))
  | removed (sel : Selector) (t : Option TaskHandle)
  | counted (n : Count)

/-- The container after a call, and its answer. -/
def call (c : Container) : Call → Container × Answer
  | .insert t hint source => ((c.insert t hint source).1, .inserted (c.insert t hint source).2)
  | .put remote t level => ((c.put remote t level).1, .placed (c.put remote t level).2)
  | .remove sel => ((c.remove sel).1, .removed (c.remove sel).2.1 (c.remove sel).2.2)
  | .count scope => (c, .counted (c.count scope))

/-- The answers to a row of calls. -/
def answers : Container → List Call → List Answer
  | _, [] => []
  | c, m :: rest => (c.call m).2 :: answers (c.call m).1 rest

/-- The queues that a worker of a configured pool needs: levels only if there are several. -/
def forWorker (c : SchedulerConfig) : Container :=
  if 1 < c.priorityLevels then
    .levels ((Levels.new c.priorityLevels c.dequeCapacity).withDefaultLevel (c.clampLevel none))
  else .deque (.new c.dequeCapacity)

/-- Levels that have one level, beside a deque that is that level. -/
inductive Mirrors : Container → Container → Prop where
  | single {d : WorkDeque} {l : Levels} (h : l.levels = [d]) : Mirrors (.deque d) (.levels l)

variable {d : WorkDeque} {l : Levels}

/-! ### The one level -/

theorem clamp_of_single (h : l.levels = [d]) (level : Nat) : l.clamp level = 0 := by
  rw [Levels.clamp, Levels.levelCount, h]
  exact Nat.min_zero level

theorem atLevel_of_single (h : l.levels = [d]) (level : Nat) : l.atLevel level = d := by
  simp only [Levels.atLevel, List.get_eq_getElem, clamp_of_single h, h, List.getElem_cons_zero]

theorem levels_store_of_single (h : l.levels = [d]) (level : Nat) (d' : WorkDeque) :
    (l.store level d').levels = [d'] := by
  show l.levels.set (l.clamp level) d' = [d']
  rw [clamp_of_single h, h]
  rfl

/-- Whichever way a task is added, it goes to level 0 or fails as it does with the deque. -/
theorem added_of_single (h : l.levels = [d]) (add : WorkDeque → Except SchedError WorkDeque)
    (level : Nat) :
    let plain := added (.deque d) .deque ((add d).map fun d' => (0, d'))
    let levelled := added (.levels l) .levels
      ((add (l.atLevel level)).map fun d' => (l.clamp level, l.store level d'))
    Mirrors plain.1 levelled.1 ∧ plain.2 = levelled.2 := by
  intro plain levelled
  simp only [plain, levelled, atLevel_of_single h, clamp_of_single h]
  cases add d with
  | error e => exact ⟨.single h, rfl⟩
  | ok d' => exact ⟨.single (levels_store_of_single h level d'), rfl⟩

/-! ### One call -/

theorem insert_of_single (h : l.levels = [d]) (t : TaskHandle) (hint : Hint) (source : Location) :
    Mirrors ((deque d).insert t hint source).1 ((levels l).insert t hint source).1 ∧
      ((deque d).insert t hint source).2 = ((levels l).insert t hint source).2 := by
  simp only [insert, Levels.insert, atLevel_of_single h]
  cases d.push t with
  | error e => exact ⟨.single h, rfl⟩
  | ok d' => exact ⟨.single (levels_store_of_single h _ d'), rfl⟩

theorem put_of_single (h : l.levels = [d]) (remote : Bool) (t : TaskHandle) (level : Option Nat) :
    Mirrors ((deque d).put remote t level).1 ((levels l).put remote t level).1 ∧
      ((deque d).put remote t level).2 = ((levels l).put remote t level).2 := by
  cases remote with
  | true =>
      obtain ⟨hmirrors, hanswer⟩ :=
        added_of_single h (fun d => d.inject t) (level.getD l.defaultLevel)
      exact ⟨hmirrors, congrArg some hanswer⟩
  | false =>
      obtain ⟨hmirrors, hanswer⟩ :=
        added_of_single h (fun d => d.push t) (level.getD l.defaultLevel)
      exact ⟨hmirrors, congrArg some hanswer⟩

/-- The search through the levels takes what the deque gives up, at level 0. -/
theorem remove_of_single (h : l.levels = [d]) (sel : Selector) :
    Mirrors ((deque d).remove sel).1 ((levels l).remove sel).1 ∧
      ((deque d).remove sel).2 = ((levels l).remove sel).2 := by
  have hfacts := l.remove_facts sel.side
  rcases hremove : l.remove sel.side with ⟨l', r⟩
  rw [hremove] at hfacts
  rcases hfacts with ⟨rfl, hlevels, hempty⟩ | ⟨k, x, t, d', rfl, hlevels, hk, htake, -⟩
  · have hplain : d.takeAt? sel.side = none :=
      (d.takeAt?_eq_none_iff sel.side).2 (hempty d (by rw [h]; exact List.mem_singleton_self d))
    simp only [remove, hplain, hremove]
    exact ⟨.single (hlevels.trans h), trivial⟩
  · -- the only level that the search can have found is level 0
    rw [h] at hk
    obtain ⟨rfl, rfl⟩ : k = 0 ∧ x = d := by
      cases k with
      | zero => exact ⟨rfl, (Option.some.inj hk).symm⟩
      | succ k => cases hk
    simp only [remove, htake, hremove]
    refine ⟨.single ?_, trivial⟩
    rw [hlevels, h]
    rfl

theorem count_of_single (h : l.levels = [d]) (scope : CountScope) :
    (deque d).count scope = (levels l).count scope := by
  have hsize : l.size = d.held := by
    rw [Levels.size, h]
    rfl
  cases scope with
  | any =>
      have hempty : l.isEmpty = d.isEmpty := by
        rw [Levels.isEmpty, h, List.all_cons, List.all_nil, Bool.and_true]
      show Count.ofAny (!d.isEmpty) = Count.ofAny (!l.isEmpty)
      rw [hempty]
  | all => exact congrArg Count.exact hsize.symm
  | level level =>
      show d.count (.level level) = .exact ((l.levels[level]?.map WorkDeque.held).getD 0)
      rw [h]
      cases level with
      | zero => rfl
      | succ level => rfl
  | worker w => exact congrArg Count.exact hsize.symm
  | staging => rfl

/-- A call of either is answered alike, and leaves them alike. -/
theorem Mirrors.call {c c' : Container} (h : Mirrors c c') (m : Call) :
    Mirrors (c.call m).1 (c'.call m).1 ∧ (c.call m).2 = (c'.call m).2 := by
  obtain ⟨h⟩ := h
  cases m with
  | insert t hint source =>
      obtain ⟨hmirrors, hanswer⟩ := insert_of_single h t hint source
      exact ⟨hmirrors, congrArg Answer.inserted hanswer⟩
  | put remote t level =>
      obtain ⟨hmirrors, hanswer⟩ := put_of_single h remote t level
      exact ⟨hmirrors, congrArg Answer.placed hanswer⟩
  | remove sel =>
      obtain ⟨hmirrors, hanswer⟩ := remove_of_single h sel
      refine ⟨hmirrors, ?_⟩
      simp only [Container.call]
      rw [hanswer]
  | count scope => exact ⟨.single h, congrArg Answer.counted (count_of_single h scope)⟩

/-! ### Rows of calls -/

theorem Mirrors.answers {c c' : Container} (h : Mirrors c c') (calls : List Call) :
    c.answers calls = c'.answers calls := by
  -- induction on the calls still to come; the two still mirror each other after each
  induction calls generalizing c c' with
  | nil => rfl
  | cons m rest ih =>
      obtain ⟨hnext, hanswer⟩ := h.call m
      simp only [Container.answers]
      rw [hanswer, ih hnext]

/-- A pool that gives to a worker adds to that worker's queues, with the same answer. -/
theorem giveToWorker_eq_put (p : Pool) (giver : Giver) (t : TaskHandle) (hint : Hint) {s : Seat}
    (hs : p.seat? (p.target giver.location hint) = some s) :
    let target := p.target giver.location hint
    let remote := !(target = giver.location && giver.isOwner)
    let given := p.giveToWorker giver t hint
    (levels s.lane).put remote t (hint.priority.map UInt32.toNat) =
      ((given.1.seat? target).elim (levels s.lane) fun s' => .levels s'.lane,
        some (given.2.map fun
          | .worker _ level => level
          | .group _ _ => 0)) := by
  intro target remote given
  obtain ⟨hlt, -⟩ := List.getElem?_eq_some_iff.1 hs
  have hstored (s' : Seat) : (p.setSeat target.index s').seat? target = some s' :=
    List.getElem?_set_self hlt
  simp only [put, given, Pool.giveToWorker, hs]
  simp only [target] at hstored
  generalize (hint.priority.map UInt32.toNat).getD s.lane.defaultLevel = level
  cases hown : (decide (p.target giver.location hint = giver.location) && giver.isOwner) with
  | true =>
      simp only [remote, target, hown, Bool.not_true, Bool.false_eq_true, if_false, if_true]
      cases s.lane.insert t level with
      | error e => simp only [added, hs, Option.elim_some, Except.map]
      | ok r => simp only [added, hstored, Option.elim_some, Except.map]
  | false =>
      simp only [remote, target, hown, Bool.not_false, Bool.false_eq_true, if_false, if_true]
      cases s.lane.inject t level with
      | error e => simp only [added, hs, Option.elim_some, Except.map]
      | ok r => simp only [added, hstored, Option.elim_some, Except.map]

/-- A plain deque and levels with a single level of its capacity cannot be told apart: insertions
with any hint, additions from outside or by the owner at any level, removals for any selector and
counts of any scope are answered alike, in whatever order they come. So the queues that a configured
worker needs answer as those that its seat in the pool has. -/
theorem answers_deque_eq_levels (capacity : Nat) (calls : List Call) :
    answers (.deque (.new capacity)) calls = answers (.levels (.new 1 capacity)) calls ∧
      ∀ (c : SchedulerConfig) (auto : Nat), ∀ s ∈ (Pool.new c auto).seats,
        answers (forWorker c) calls = answers (.levels s.lane) calls := by
  constructor
  · exact (Mirrors.single rfl).answers calls
  · intro c auto s hs
    rw [List.eq_of_mem_replicate hs, forWorker]
    split
    next => rfl
    next hfew =>
      apply Mirrors.answers
      apply Mirrors.single
      show List.replicate (max c.priorityLevels 1) (WorkDeque.new c.dequeCapacity) = _
      rw [Nat.max_eq_right (by omega)]
      rfl

end Container

end WorkStealing
