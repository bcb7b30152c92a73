import WorkStealing.Proofs.Pool.Placement
import WorkStealing.Proofs.Pool.References

/-!
# What a pool counts

A pool is asked how much it holds in several ways: whether there is anything, in total, at one
worker, at one level, and how many groups wait. Each answer adds up something else, and
`counts_agree` says that after every run they agree with each other and with the tasks that went in
and out, which `History` writes down. What is behind it is that a worker that does not count as
available has nothing queued, and neither has a position that no location names (`Rested`).
-/

namespace WorkStealing

theorem sumOf_eq_sum_map {α : Type} (f : α → Nat) (xs : List α) : sumOf f xs = (xs.map f).sum := by
  induction xs with
  | nil => rfl
  | cons x rest ih => rw [sumOf, ih, List.map_cons, List.sum_cons]

/-- The sum over the first positions of a list, where a position past its end counts for nothing. -/
theorem sum_range_getElem? {α : Type} (f : α → Nat) (xs : List α) (n : Nat) :
    ((List.range n).map fun k => (xs[k]?.map f).getD 0).sum = ((xs.take n).map f).sum := by
  induction n with
  | zero => rfl
  | succ n ih =>
      rw [List.range_succ, List.map_append, List.sum_append, ih, List.take_add_one, List.map_append,
        List.sum_append]
      cases hx : xs[n]? with
      | none => simp [hx]
      | some x => simp [hx]

/-- The levels of a worker hold together what each of them holds. -/
theorem Levels.sum_held (l : Levels) :
    ((List.range l.levelCount).map fun k => (l.levels[k]?.map WorkDeque.held).getD 0).sum =
      l.size := by
  rw [sum_range_getElem?, levelCount, List.take_length, size, sumOf_eq_sum_map]

namespace Pool

/-- The locations that name a worker. -/
def workers (p : Pool) : List Location :=
  (List.range (min p.workerCount UInt32.size)).map Location.ofIndex

/-- What is queued with one worker. -/
def ownSize (p : Pool) (w : Location) : Nat := ((p.seat? w).map fun s => s.lane.size).getD 0

/-- What is queued at one level of all workers. -/
def levelSize (p : Pool) (l : Nat) : Nat :=
  sumOf (fun s => (s.lane.levels[l]?.map WorkDeque.held).getD 0) p.seats

/-- A worker that does not count as available, or that no location names, has nothing queued. -/
def Rested (p : Pool) : Prop :=
  ∀ (k : Nat) (s : Seat), p.seats[k]? = some s → s.available = false ∨ UInt32.size ≤ k →
    s.lane.tasks = []

/-- A pool with the tasks that it accepted and those that it gave out. -/
structure History where
  pool : Pool
  given : List TaskHandle := []
  taken : List Taken := []

namespace History

def step (h : History) : Call → History
  | .give giver t hint =>
    let (p, r) := h.pool.give giver t hint
    match r with
    | .ok _ => { h with pool := p, given := h.given ++ [t] }
    | .error _ => { h with pool := p }
  | .take w cursor =>
    let (p, _, found) := h.pool.take w cursor
    { h with pool := p, taken := h.taken ++ found.toList }
  | call => { h with pool := h.pool.perform call }

def run (h : History) (calls : List Call) : History := calls.foldl step h

end History

variable {p q : Pool} {e : Event} {k : Nat} {s s' : Seat} {w : Location} {r : Option Taken}

theorem mem_workers : w ∈ p.workers ↔ w.index < p.workerCount := by
  have hlt : w.index < UInt32.size := w.id.toNat_lt
  rw [workers, List.mem_map]
  constructor
  · rintro ⟨i, hi, rfl⟩
    rw [List.mem_range] at hi
    rw [Location.index_ofIndex (by omega)]
    omega
  · intro hw
    refine ⟨w.index, List.mem_range.2 (by omega), ?_⟩
    exact Location.index_injective (Location.index_ofIndex hlt)

theorem nodup_workers (p : Pool) : p.workers.Nodup := by
  apply List.Nodup.map_on _ List.nodup_range
  intro i hi j hj hij
  rw [List.mem_range] at hi hj
  rw [← Location.index_ofIndex (i := i) (by omega), hij, Location.index_ofIndex (by omega)]

/-! ### What the answers add up -/

theorem count_worker (p : Pool) (w : Location) : p.count (.worker w) = .exact (p.ownSize w) := by
  rw [count, ownSize]
  cases p.seat? w with
  | none => rfl
  | some s => rfl

theorem count_level (p : Pool) (l : Nat) : p.count (.level l) = .exact (p.levelSize l) := rfl

theorem length_laneTasks (p : Pool) :
    p.laneTasks.length = (p.seats.map fun s => s.lane.size).sum := by
  rw [laneTasks, length_flatMap, sumOf_eq_sum_map]
  simp only [Levels.size_eq_length]

theorem length_groupTasks (p : Pool) :
    p.groupTasks.length = (p.groups.values.map AffinityGroup.size).sum := by
  rw [groupTasks, length_flatMap, sumOf_eq_sum_map]
  simp only [AffinityGroup.tasks, WorkDeque.length_tasks]
  rfl

/-- The workers that have a location hold together what all positions hold. -/
theorem Rested.sum_ownSize (h : p.Rested) :
    (p.workers.map p.ownSize).sum = p.laneTasks.length := by
  have hbelow : (p.workers.map p.ownSize).sum =
      ((p.seats.take (min p.workerCount UInt32.size)).map fun s => s.lane.size).sum := by
    rw [← sum_range_getElem?, workers, List.map_map]
    congr 1
    apply List.map_congr_left
    intro i hi
    rw [List.mem_range] at hi
    show p.ownSize (.ofIndex i) = _
    rw [ownSize, seat?, Location.index_ofIndex (by omega)]
  -- what is dropped has no location
  have habove : ((p.seats.drop (min p.workerCount UInt32.size)).map fun s => s.lane.size).sum = 0 := by
    apply List.sum_eq_zero
    intro n hn
    obtain ⟨s, hs, rfl⟩ := List.mem_map.1 hn
    obtain ⟨j, hj⟩ := List.mem_iff_getElem?.1 hs
    rw [List.getElem?_drop] at hj
    have hlt : min p.workerCount UInt32.size + j < p.workerCount :=
      (List.getElem?_eq_some_iff.1 hj).1
    rw [Levels.size_eq_length, h _ s hj (.inr (by omega)), List.length_nil]
  rw [hbelow, length_laneTasks]
  conv_rhs => rw [← List.take_append_drop (min p.workerCount UInt32.size) p.seats, List.map_append,
    List.sum_append, habove, add_zero]

/-- Counted level by level or worker by worker, it is the same. -/
theorem sum_levelSize {n : Nat} (h : ∀ s ∈ p.seats, s.lane.levelCount = n) :
    ((List.range n).map p.levelSize).sum = p.laneTasks.length := by
  rw [length_laneTasks]
  unfold levelSize
  -- induction on the workers, with the sum over the levels split at each of them
  generalize p.seats = seats at h
  induction seats with
  | nil => simp [sumOf]
  | cons s rest ih =>
      have hrest := ih fun x hx => h x (List.mem_cons_of_mem s hx)
      have hlane := s.lane.sum_held
      rw [h s List.mem_cons_self] at hlane
      simp only [sumOf, List.sum_map_add, List.map_cons, List.sum_cons]
      rw [hlane, hrest]

/-- A group that holds nothing does not wait, whether or not an index names it. -/
theorem Linked.tasks_ne_nil_of_staged (h : p.Linked) {g : AffinityGroup}
    (hg : g ∈ p.groups.values) (hs : g.stage = .staged) : g.tasks ≠ [] := by
  rcases Arena.get?_or_of_mem_values h.beyond hg with ⟨i, hi⟩ | ⟨hnew, -⟩
  · exact (h.consistent i g hi).busy_of_staged hs
  · rw [hs] at hnew
    cases hnew

/-- A pool says that it is busy exactly if it holds a task: no empty group waits. -/
theorem Linked.isBusy_iff (h : p.Linked) : p.isBusy = true ↔ p.tasks ≠ [] := by
  have hlanes : (p.seats.any fun s => !s.lane.isEmpty) = true ↔ p.laneTasks ≠ [] := by
    simp [laneTasks, List.flatMap_eq_nil_iff, ← Levels.isEmpty_iff]
  have hgroups : (p.groups.values.any fun g => !g.isEmpty) = true ↔ p.groupTasks ≠ [] := by
    simp [groupTasks, List.flatMap_eq_nil_iff, ← AffinityGroup.isEmpty_iff]
  have hstaging : (!p.staging.isEmpty) = true → p.groupTasks ≠ [] := by
    intro hbusy hnil
    have hsize := h.size
    rw [total_waiting] at hsize
    have hzero : (p.groups.values.countP fun g => g.stage = .staged) = 0 := by
      rw [List.countP_eq_zero]
      intro g hg hs
      have hne := h.tasks_ne_nil_of_staged hg (of_decide_eq_true hs)
      exact hne (List.flatMap_eq_nil_iff.1 hnil g hg)
    rw [hzero] at hsize
    simp [Staging.isEmpty, hsize] at hbusy
  rw [isBusy, Bool.or_eq_true, Bool.or_eq_true, hlanes, hgroups, tasks, ne_eq (_ ++ _),
    List.append_eq_nil_iff, not_and_or]
  constructor
  · rintro ((hl | hs) | hg)
    · exact .inl hl
    · exact .inr (hstaging hs)
    · exact .inr hg
  · rintro (hl | hg)
    · exact .inl (.inl hl)
    · exact .inr hg

theorem Linked.count_any_eq_empty_iff (h : p.Linked) : p.count .any = .empty ↔ p.tasks = [] := by
  have hbusy := h.isBusy_iff
  rw [count, Count.ofAny]
  cases hb : p.isBusy with
  | true =>
      rw [hb] at hbusy
      simp [hbusy.1 rfl]
  | false =>
      rw [hb] at hbusy
      have hnil : p.tasks = [] := by
        by_contra hne
        exact Bool.false_ne_true (hbusy.2 hne)
      simp [hnil]

theorem Linked.count_staging (h : p.Linked) :
    p.count .staging = .exact (p.groups.values.countP fun g => g.stage = .staged) := by
  rw [count, h.size, total_waiting]

/-! ### Workers at rest -/

theorem Rested.setSeat (h : p.Rested)
    (hs : s'.available = false ∨ UInt32.size ≤ k → s'.lane.tasks = []) : (p.setSeat k s').Rested := by
  intro j x hx
  by_cases hj : k = j
  · obtain ⟨-, rfl⟩ : _ ∧ s' = x := by simpa [Pool.setSeat, hj, List.getElem?_set] using hx
    exact hj ▸ hs
  · exact h j x (by simpa [Pool.setSeat, List.getElem?_set_ne hj] using hx)

/-- Only a give brings tasks to a worker, and only the worker itself goes to rest. -/
theorem Move.rested_of_not_entered (m : Move p e q) (he : ∀ t, e ≠ .entered t) (h : p.Rested) :
    q.Rested := by
  cases m with
  | queued seat put => exact absurd rfl (he _)
  | @removed k s lane side t level source seat found own =>
      apply h.setSeat
      intro hrest
      -- nothing could be removed from a worker at rest
      have hnone := (s.lane.remove_eq_none_iff side).2 (h k s seat hrest)
      rw [found] at hnone
      cases hnone
  | rested seat found =>
      apply h.setSeat
      intro _
      exact (Levels.tasks_remove_none found).trans (Levels.tasks_eq_nil_of_remove found)
  | @repelled k s seat busy below =>
      apply h.setSeat
      exact h k s seat
  | @released w i s g seat noted group stage bare =>
      apply h.setSeat
      exact h w.index s seat
  | @adopted w i s g t staging d seat free shelf group waits found =>
      apply h.setSeat
      exact h w.index s seat
  | published | joined | drained | finished | created | retired | forgotten => exact h

/-- A give goes to a group, or to a worker that has a location and is available from then on. -/
theorem Rested.give (h : p.Rested) (giver : Giver) (t : TaskHandle) (hint : Hint) :
    (p.give giver t hint).1.Rested := by
  have hworker : (p.giveToWorker giver t hint).1.Rested := by
    rw [giveToWorker]
    dsimp only
    split
    next => exact h
    next s hseat =>
      split
      next => exact h
      next used lane hput =>
        apply h.setSeat
        rintro (hfalse | hle)
        · cases hfalse
        · exact absurd (Location.id (p.target giver.location hint)).toNat_lt (Nat.not_lt.2 hle)
  unfold Pool.give
  dsimp only
  split
  next => exact h
  next => exact hworker

theorem Quiet.rested (hq : Quiet p q) (h : p.Rested) : q.Rested := by
  induction hq with
  | refl => exact h
  | tail _ hm ih => exact hm.rested_of_not_entered (fun t => by simp) ih

theorem Rested.perform (h : p.Rested) (hl : p.Linked) (call : Call) : (p.perform call).Rested := by
  cases call with
  | give giver t hint => exact h.give giver t hint
  | take w cursor =>
      have hy := take_yields hl w cursor
      rw [Pool.perform]
      cases hr : (p.take w cursor).2.2 with
      | none =>
          rw [hr] at hy
          exact Quiet.rested hy h
      | some taken =>
          rw [hr] at hy
          obtain ⟨m, hm, hleft⟩ := hy
          exact hleft.rested_of_not_entered (fun t => by simp) (hm.rested h)
  | createGroup key =>
      rcases createGroup_cases p key with hsame | hm
      · rw [Pool.perform, hsame]
        exact h
      · exact hm.rested_of_not_entered (fun t => by simp) h
  | retireGroup key => exact (retireGroup_quiet p key).rested h
  | groupTaskDone i => exact (groupTaskDone_quiet p i).rested h

theorem rested_new (c : SchedulerConfig) (auto : Nat) : (new c auto).Rested := by
  intro k s hs _
  rw [List.eq_of_mem_replicate (List.mem_of_getElem? hs)]
  exact Levels.tasks_new ..

theorem Rested.run (h : p.Rested) (hl : p.Linked) (calls : List Call) : (p.run calls).Rested := by
  induction calls generalizing p with
  | nil => exact h
  | cons call rest ih => exact ih (h.perform hl call) (linked_run hl [call])

/-! ### Tasks in and out -/

theorem History.pool_step (h : History) (call : Call) : (h.step call).pool = h.pool.perform call := by
  cases call with
  | give giver t hint =>
      rw [step]
      cases hr : (h.pool.give giver t hint).2 with
      | ok placed => simp [hr, perform]
      | error f => simp [hr, perform]
  | _ => rfl

theorem History.pool_run (h : History) (calls : List Call) : (h.run calls).pool = h.pool.run calls := by
  induction calls generalizing h with
  | nil => rfl
  | cons call rest ih => exact (ih (h.step call)).trans (by rw [h.pool_step]; rfl)

/-- What is queued and what was given out is what was accepted. -/
def History.Balanced (h : History) : Prop :=
  h.pool.held + (h.taken.map Taken.task : List TaskHandle) = (h.given : Multiset TaskHandle)

theorem coe_toList_map_task (r : Option Taken) :
    (r.toList.map Taken.task : List TaskHandle) = foundTask r := by
  cases r with
  | none => rfl
  | some taken => rfl

/-- A call that lets nothing in or out keeps the balance. -/
theorem History.Balanced.quiet {h h' : History} (hb : h.Balanced) (hheld : h'.pool.held = h.pool.held)
    (hgiven : h'.given = h.given) (htaken : h'.taken = h.taken) : h'.Balanced := by
  rw [Balanced, hheld, hgiven, htaken]
  exact hb

theorem History.Balanced.step {h : History} (hb : h.Balanced) (hl : h.pool.Linked) (call : Call) :
    (h.step call).Balanced := by
  cases call with
  | give giver t hint =>
      rw [History.step]
      rcases give_cases hl giver t hint with ⟨placed, hok, hm⟩ | ⟨f, hf⟩
      · have hheld : (h.pool.give giver t hint).1.held + 0 = h.pool.held + {t} := hm.held hl.arena
        simp only [hok]
        show (h.pool.give giver t hint).1.held + (h.taken.map Taken.task : List TaskHandle) =
          ((h.given ++ [t] : List TaskHandle) : Multiset TaskHandle)
        rw [← Multiset.coe_add, ← hb, Multiset.coe_singleton, add_right_comm, ← hheld, add_zero]
      · simp only [hf]
        exact hb
  | take w cursor =>
      have hheld := (take_yields hl w cursor).held hl
      show (h.pool.take w cursor).1.held +
          ((h.taken ++ (h.pool.take w cursor).2.2.toList).map Taken.task : List TaskHandle) = h.given
      rw [← hb, ← hheld, List.map_append, ← Multiset.coe_add, coe_toList_map_task]
      rw [add_assoc, add_comm (foundTask _)]
  | createGroup key =>
      have hheld : (h.pool.createGroup key).1.held = h.pool.held := by
        rcases createGroup_cases h.pool key with hsame | hm
        · rw [hsame]
        · exact add_right_cancel (b := 0) (hm.held hl.arena)
      exact hb.quiet hheld rfl rfl
  | retireGroup key => exact hb.quiet ((retireGroup_quiet h.pool key).held hl) rfl rfl
  | groupTaskDone i => exact hb.quiet ((groupTaskDone_quiet h.pool i).held hl) rfl rfl

theorem History.Balanced.run {h : History} (hb : h.Balanced) (hl : h.pool.Linked)
    (calls : List Call) : (h.run calls).Balanced := by
  induction calls generalizing h with
  | nil => exact hb
  | cons call rest ih =>
      apply ih (hb.step hl call)
      rw [h.pool_step]
      exact linked_run hl [call]

/-- Every way to ask a pool how much it holds agrees with the others, and with the tasks that went
in and out, after every run. The total is what was given and not yet taken; the pool says that it
holds nothing exactly if the total is zero; the workers and the groups alive hold the total together;
what the levels hold is what the workers hold; what waits in staging are the groups that are staged;
and a worker that is not available holds nothing. -/
theorem counts_agree (c : SchedulerConfig) (auto : Nat) (calls : List Call) :
    let h := History.run { pool := new c auto } calls
    let p := h.pool
    ∃ (total : Nat) (own : Location → Nat) (level : Nat → Nat),
      p.count .all = .exact total ∧
      (∀ w, p.count (.worker w) = .exact (own w)) ∧
      (∀ l, p.count (.level l) = .exact (level l)) ∧
      (p.workers.Nodup ∧ ∀ w, w ∈ p.workers ↔ w.index < p.workerCount) ∧
      (p.tasks : Multiset TaskHandle) + (h.taken.map Taken.task : List TaskHandle) = h.given ∧
      total + h.taken.length = h.given.length ∧
      (p.count .any = .empty ↔ total = 0) ∧
      (p.workers.map own).sum + (p.groups.values.map AffinityGroup.size).sum = total ∧
      ((List.range (max c.priorityLevels 1)).map level).sum = (p.workers.map own).sum ∧
      p.count .staging = .exact (p.groups.values.countP fun g => g.stage = .staged) ∧
      ∀ w, p.isAvailable w = false → own w = 0 := by
  intro h p
  have hnew := linked_new c auto
  have hp : p = (new c auto).run calls := History.pool_run { pool := new c auto } calls
  have hl : p.Linked := hp ▸ linked_run hnew calls
  have hrested : p.Rested := hp ▸ (rested_new c auto).run hnew calls
  have hfits : Fits c p := hp ▸ fits_run c auto calls
  have hbalanced : h.Balanced := by
    apply History.Balanced.run _ hnew calls
    show (new c auto).held + 0 = 0
    rw [held, tasks_new]
    rfl
  have hown := hrested.sum_ownSize
  refine ⟨p.tasks.length, p.ownSize, p.levelSize, p.count_all, p.count_worker, p.count_level,
    ⟨p.nodup_workers, fun _ => mem_workers⟩, hbalanced, ?_, ?_, ?_, ?_, hl.count_staging, ?_⟩
  · have hcard := congrArg Multiset.card hbalanced
    simpa [held] using hcard
  · rw [hl.count_any_eq_empty_iff, List.length_eq_zero_iff]
  · rw [hown, ← length_groupTasks, tasks, List.length_append]
  · rw [hown, sum_levelSize hfits.levelCount]
  · intro w hrest
    rw [ownSize]
    cases hseat : p.seat? w with
    | none => rfl
    | some s =>
        have havailable : s.available = false := by
          rw [isAvailable, hseat] at hrest
          exact hrest
        have hbare := hrested w.index s hseat (.inl havailable)
        simp [Levels.size_eq_length, hbare]

end Pool

end WorkStealing
