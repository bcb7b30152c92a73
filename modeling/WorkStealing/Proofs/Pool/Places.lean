import WorkStealing.Proofs.Pool.Run

/-!
# Places of a pool

A task stands in one of the deques of a pool: at a level of a worker, or in the queue of a group
(`Place`, `Pool.deque?`). A call that moves one task changes one of them and leaves all others as
they are (`Pool.Swaps`). What a thief sees of a worker beside its deques is the number of attempts
that it has repelled (`Pool.attemptsAt`) and the group that it drains (`Pool.activeAt`).

The tasks of a group all stand at the owner's end (`owned_run`), since nothing is injected into a
group; its newest task is therefore the last of its queue and its oldest one the first.
-/

namespace WorkStealing

/-- A deque of a pool: one of a worker's levels, or the queue of a group. -/
inductive Place where
  | level (worker level : Nat)
  | group (i : ArenaIndex)
deriving DecidableEq, Repr

namespace Pool

/-- The deques of the worker at a position, by level. -/
def levelsAt (p : Pool) (k : Nat) : List WorkDeque :=
  ((p.seats[k]?).map fun s => s.lane.levels).getD []

/-- The queue of the group that an index names. -/
def queueAt? (p : Pool) (i : ArenaIndex) : Option WorkDeque :=
  (p.groups.get? i).map AffinityGroup.queue

/-- The attempts that the worker at a position has repelled. -/
def attemptsAt (p : Pool) (k : Nat) : Nat := ((p.seats[k]?).map Seat.attempts).getD 0

/-- The deque at a place. -/
def deque? (p : Pool) : Place → Option WorkDeque
  | .level k level => (p.levelsAt k)[level]?
  | .group i => p.queueAt? i

/-- One deque becomes another, and all others stay. -/
structure Swaps (p : Pool) (x : Place) (d d' : WorkDeque) (q : Pool) : Prop where
  before : p.deque? x = some d
  after : q.deque? x = some d'
  others : ∀ y, y ≠ x → q.deque? y = p.deque? y

/-- Nothing is injected into a group. -/
def Owned (p : Pool) : Prop := ∀ i d, p.queueAt? i = some d → d.injected.toList = []

variable {p q : Pool} {k : Nat} {s s' : Seat} {i : ArenaIndex} {g g' : AffinityGroup}

/-! ### Seats and groups -/

theorem levelsAt_of_seat (h : p.seats[k]? = some s) : p.levelsAt k = s.lane.levels := by
  rw [levelsAt, h, Option.map_some, Option.getD_some]

theorem attemptsAt_of_seat (h : p.seats[k]? = some s) : p.attemptsAt k = s.attempts := by
  rw [attemptsAt, h, Option.map_some, Option.getD_some]

theorem queueAt?_of_get? (h : p.groups.get? i = some g) : p.queueAt? i = some g.queue := by
  rw [queueAt?, h, Option.map_some]

theorem levelsAt_setSeat (h : p.seats[k]? = some s) (s' : Seat) (j : Nat) :
    (p.setSeat k s').levelsAt j = if j = k then s'.lane.levels else p.levelsAt j := by
  have hlt := (List.getElem?_eq_some_iff.1 h).1
  simp only [levelsAt, setSeat]
  by_cases hj : j = k
  · rw [if_pos hj, hj, List.getElem?_set_self hlt, Option.map_some, Option.getD_some]
  · rw [if_neg hj, List.getElem?_set_ne (Ne.symm hj)]

theorem attemptsAt_setSeat (h : p.seats[k]? = some s) (s' : Seat) (j : Nat) :
    (p.setSeat k s').attemptsAt j = if j = k then s'.attempts else p.attemptsAt j := by
  have hlt := (List.getElem?_eq_some_iff.1 h).1
  simp only [attemptsAt, setSeat]
  by_cases hj : j = k
  · rw [if_pos hj, hj, List.getElem?_set_self hlt, Option.map_some, Option.getD_some]
  · rw [if_neg hj, List.getElem?_set_ne (Ne.symm hj)]

theorem levelsAt_setSeat_same (h : p.seats[k]? = some s) (s' : Seat)
    (hs : s'.lane.levels = s.lane.levels) :
    (p.setSeat k s').levelsAt = p.levelsAt := by
  funext j
  rw [levelsAt_setSeat h]
  by_cases hj : j = k
  · rw [if_pos hj, hs, hj, levelsAt_of_seat h]
  · rw [if_neg hj]

theorem attemptsAt_setSeat_same (h : p.seats[k]? = some s) (s' : Seat)
    (hs : s'.attempts = s.attempts) :
    (p.setSeat k s').attemptsAt = p.attemptsAt := by
  funext j
  rw [attemptsAt_setSeat h]
  by_cases hj : j = k
  · rw [if_pos hj, hs, hj, attemptsAt_of_seat h]
  · rw [if_neg hj]

theorem queueAt?_set (h : p.groups.get? i = some g) (hq : q.groups = p.groups.set i g')
    (j : ArenaIndex) : q.queueAt? j = if j = i then some g'.queue else p.queueAt? j := by
  rw [queueAt?, hq, Arena.get?_set h]
  by_cases hj : j = i
  · rw [if_pos hj, if_pos hj, Option.map_some]
  · rw [if_neg hj, if_neg hj, queueAt?]

theorem queueAt?_set_same (h : p.groups.get? i = some g) (hq : q.groups = p.groups.set i g')
    (hg : g'.queue = g.queue) : q.queueAt? = p.queueAt? := by
  funext j
  rw [queueAt?_set h hq]
  by_cases hj : j = i
  · rw [if_pos hj, hg, hj, queueAt?_of_get? h]
  · rw [if_neg hj]

/-! ### One place -/

theorem deque?_congr (hlevels : q.levelsAt = p.levelsAt) (hqueues : q.queueAt? = p.queueAt?) :
    q.deque? = p.deque? := by
  funext x
  cases x with
  | level k level => rw [deque?, deque?, hlevels]
  | group i => rw [deque?, deque?, hqueues]

/-- A seat with one deque changed. -/
theorem swaps_setSeat {d d' : WorkDeque} {level : Nat} (h : p.seats[k]? = some s)
    (hd : s.lane.levels[level]? = some d) (hs : s'.lane.levels = s.lane.levels.set level d') :
    Swaps p (.level k level) d d' (p.setSeat k s') := by
  have hlt := (List.getElem?_eq_some_iff.1 hd).1
  refine ⟨?_, ?_, fun y hy => ?_⟩
  · rw [deque?, levelsAt_of_seat h, hd]
  · rw [deque?, levelsAt_setSeat h, if_pos rfl, hs, List.getElem?_set_self hlt]
  · cases y with
    | group j => rfl
    | level j l =>
        rw [deque?, deque?, levelsAt_setSeat h]
        by_cases hj : j = k
        · -- another level of the same worker
          have hl : level ≠ l := fun hl => hy (by rw [hj, hl])
          rw [if_pos hj, hs, hj, levelsAt_of_seat h, List.getElem?_set_ne hl]
        · rw [if_neg hj]

/-- A group with its queue changed. -/
theorem swaps_set (h : p.groups.get? i = some g) (hq : q.groups = p.groups.set i g')
    (hlevels : q.levelsAt = p.levelsAt) : Swaps p (.group i) g.queue g'.queue q := by
  refine ⟨queueAt?_of_get? h, ?_, fun y hy => ?_⟩
  · rw [deque?, queueAt?_set h hq, if_pos rfl]
  · cases y with
    | level k l => rw [deque?, deque?, hlevels]
    | group j =>
        have hj : j ≠ i := fun hj => hy (by rw [hj])
        rw [deque?, deque?, queueAt?_set h hq, if_neg hj]

/-! ### Groups hold nothing injected -/

theorem injected_takeAt? {d d' : WorkDeque} {e : End} {t : TaskHandle}
    (h : d.takeAt? e = some (t, d')) (hd : d.injected.toList = []) : d'.injected.toList = [] := by
  have hor : d'.injected = d.injected ∨ d.injected.toList = t :: d'.injected.toList := by
    cases e with
    | tail => exact (WorkDeque.pop?_facts h).2.imp And.right fun hi => hi.2.2
    | head => exact (WorkDeque.steal?_facts h).2.imp And.right fun hi => hi.2.2
  rcases hor with hsame | hcons
  · rw [hsame, hd]
  · rw [hd] at hcons
    cases hcons

theorem Owned.set (h : p.Owned) (hg : p.groups.get? i = some g)
    (hq : q.groups = p.groups.set i g') (hnil : g'.queue.injected.toList = []) : q.Owned := by
  intro j d hj
  rw [queueAt?_set hg hq] at hj
  by_cases hji : j = i
  · rw [if_pos hji] at hj
    cases hj
    exact hnil
  · rw [if_neg hji] at hj
    exact h j d hj

/-- No move injects a task into a group. -/
theorem Move.owned {e : Event} (hl : p.Linked) (m : Move p e q) (h : p.Owned) : q.Owned := by
  cases m with
  | @published key i g t staging d found group new shelf put =>
      refine h.set group rfl ?_
      rw [(WorkDeque.push_facts put).2.2.1]
      exact h i g.queue (queueAt?_of_get? group)
  | @joined key i g t d found group old put =>
      refine h.set group rfl ?_
      rw [(WorkDeque.push_facts put).2.2.1]
      exact h i g.queue (queueAt?_of_get? group)
  | @drained k i g side t d source seat group found origin =>
      exact h.set group rfl (injected_takeAt? found (h i g.queue (queueAt?_of_get? group)))
  | @released w i s g seat noted group stage bare =>
      exact h.set group rfl (h i g.queue (queueAt?_of_get? group))
  | @adopted w i s g t staging d seat free shelf group waits found =>
      have htail : g.queue.takeAt? .tail = some (t, d) := found
      exact h.set group rfl (injected_takeAt? htail (h i g.queue (queueAt?_of_get? group)))
  | @finished i g group => exact h.set group rfl (h i g.queue (queueAt?_of_get? group))
  | @created key fresh =>
      intro j d hj
      obtain ⟨x, hx, rfl⟩ := Option.map_eq_some_iff.1 hj
      -- a new group is empty, and one without a number of its own is never found
      by_cases hlt : p.groups.nextPosition < 2 ^ 32
      · rw [Arena.get?_insert hl.arena hlt] at hx
        by_cases hi : j = (p.groups.insert (.new key p.dequeCapacity)).1
        · rw [if_pos hi] at hx
          cases hx
          rfl
        · rw [if_neg hi] at hx
          exact h j _ (queueAt?_of_get? hx)
      · rw [Arena.get?_insert_of_le hl.arena (Nat.le_of_not_lt hlt)] at hx
        exact h j _ (queueAt?_of_get? hx)
  | @retired key i g groups found gone idle =>
      intro j d hj
      obtain ⟨x, hx, rfl⟩ := Option.map_eq_some_iff.1 hj
      rw [Arena.get?_remove gone] at hx
      by_cases hi : j = i
      · rw [if_pos hi] at hx
        cases hx
      · rw [if_neg hi] at hx
        exact h j _ (queueAt?_of_get? hx)
  | queued | removed | rested | repelled | forgotten => exact h

/-- No run injects a task into a group. -/
theorem owned_run (c : SchedulerConfig) (auto : Nat) (calls : List Call) :
    ((new c auto).run calls).Owned := by
  refine (run_induction (P := Owned) (linked_new c auto) ?_ (fun _ _ _ hl hm h => hm.owned hl h)
    calls).2
  intro i d hi
  simp [queueAt?, new, Arena.get?] at hi

end Pool

end WorkStealing
