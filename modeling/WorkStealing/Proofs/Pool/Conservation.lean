import WorkStealing.Proofs.Pool.Run

/-!
# Work conservation

A worker that searches in vain has been repelled by every other worker with tasks, and such a
worker repels only so often. While anything is queued, takes in a row therefore fail at most as
often as one worker may repel (`failures_le_maxRepels`); a pool whose workers repel nobody gives
every worker a task as long as there is one.
-/

namespace WorkStealing.Pool

/-- Takes in a row, by any workers with any cursors, and what each of them found. -/
def takeAll : Pool → List (Location × StealCursor) → Pool × List (Option Taken)
  | p, [] => (p, [])
  | p, (w, cursor) :: rest =>
    let (q, found) := (p.take w cursor).1.takeAll rest
    (q, (p.take w cursor).2.2 :: found)

variable {p q : Pool} {v n : Nat} {w : Location} {cursor : StealCursor} {tasks : List TaskHandle}

theorem takeAll_eq_run (p : Pool) (takes : List (Location × StealCursor)) :
    (p.takeAll takes).1 = p.run (takes.map fun x => .take x.1 x.2) := by
  induction takes generalizing p with
  | nil => rfl
  | cons x rest ih => exact ih (p.take x.1 x.2).1

/-- A take in vain, from a pool that holds something, has been repelled by a worker with tasks. -/
theorem Barren.exists_guard {w : Nat} (hb : Barren p q w) (h : p.Linked) (hne : p.tasks ≠ []) :
    ∃ v tasks n, p.guard v = some (tasks, n) ∧ tasks ≠ [] := by
  -- quiet moves lost nothing, and no group holds anything, so some worker still has tasks
  have hheld : q.tasks ≠ [] := by
    intro hnil
    have hsame : q.held = p.held := hb.quiet.held h
    rw [held, held, hnil] at hsame
    exact hne (Multiset.coe_eq_zero _ |>.1 hsame.symm)
  have hlanes : q.laneTasks ≠ [] := by
    intro hnil
    rw [Pool.tasks, hnil, hb.groups] at hheld
    exact hheld rfl
  obtain ⟨t, ht⟩ := List.exists_mem_of_ne_nil _ hlanes
  obtain ⟨s, hs, hts⟩ := List.mem_flatMap.1 ht
  obtain ⟨v, hv⟩ := List.mem_iff_getElem?.1 hs
  have hguard := guard_of_seat hv
  have hlt : v < p.workerCount := by
    rw [← hb.quiet.workerCount]
    exact (List.getElem?_eq_some_iff.1 hv).1
  obtain ⟨s', hseat⟩ := seat_of_lt hlt
  have hbusy : s.lane.tasks ≠ [] := List.ne_nil_of_mem hts
  -- that worker is not the thief, and had tasks before the thief came
  by_cases hvw : v = w
  · obtain ⟨m, -, hown⟩ := hb.own
    rw [← hvw, hguard, Option.some.injEq, Prod.mk.injEq] at hown
    exact absurd hown.1 hbusy
  · refine ⟨v, s'.lane.tasks, s'.attempts, guard_of_seat hseat, ?_⟩
    intro hnil
    rcases hb.others v hvw _ _ (guard_of_seat hseat) with ⟨-, hq⟩ | ⟨hne', -⟩
    · rw [hguard, hnil, Option.some.injEq, Prod.mk.injEq] at hq
      exact hbusy hq.1
    · exact hne' hnil

/-- A worker with tasks repels one attempt per take in vain, and no more than it may. -/
theorem length_le_of_guard (h : p.Linked) (hv : p.guard v = some (tasks, n)) (hne : tasks ≠ [])
    {block : List (Location × StealCursor)} (hvalid : ∀ x ∈ block, x.1.index < p.workerCount)
    (hmiss : ∀ r ∈ (p.takeAll block).2, r = none) : block.length ≤ p.maxRepels - n := by
  -- induction on the row of takes, with the repelled attempts of `v` as the measure
  induction block generalizing p n with
  | nil => exact Nat.zero_le _
  | cons x rest ih =>
      obtain ⟨w, cursor⟩ := x
      have hfirst : (p.take w cursor).2.2 = none := hmiss _ List.mem_cons_self
      have hw : w.index < p.workerCount := hvalid _ List.mem_cons_self
      rcases take_cases h hw cursor with ⟨taken, hr, -⟩ | ⟨-, hb⟩
      · rw [hfirst] at hr
        cases hr
      · -- the thief has found its own queues empty, so it is not `v`
        have hvw : v ≠ w.index := by
          intro hvw
          obtain ⟨m, hown, -⟩ := hb.own
          rw [← hvw, hv, Option.some.injEq, Prod.mk.injEq] at hown
          exact hne hown.1
        rcases hb.others v hvw tasks n hv with ⟨hnil, -⟩ | ⟨-, hlt, hq⟩
        · exact absurd hnil hne
        · -- `v` keeps its tasks and has repelled once more
          have hrest := ih (hb.quiet.linked h) hq
            (fun y hy => hb.quiet.workerCount.symm ▸ hvalid y (List.mem_cons_of_mem _ hy))
            (fun r hr => hmiss r (List.mem_cons_of_mem _ hr))
          rw [hb.quiet.maxRepels] at hrest
          rw [List.length_cons]
          omega

/-- From a pool in step that holds something, takes in a row fail at most as often as one worker may
repel. -/
theorem length_le_of_miss (h : p.Linked) (hne : p.tasks ≠ [])
    {block : List (Location × StealCursor)} (hvalid : ∀ x ∈ block, x.1.index < p.workerCount)
    (hmiss : ∀ r ∈ (p.takeAll block).2, r = none) : block.length ≤ p.maxRepels := by
  cases block with
  | nil => exact Nat.zero_le _
  | cons x rest =>
      obtain ⟨w, cursor⟩ := x
      rcases take_cases h (hvalid _ List.mem_cons_self) cursor with ⟨taken, hr, -⟩ | ⟨-, hb⟩
      · have hfirst : (p.take w cursor).2.2 = none := hmiss _ List.mem_cons_self
        rw [hfirst] at hr
        cases hr
      · -- the first take in vain already names a worker with tasks
        obtain ⟨v, tasks, n, hv, hbusy⟩ := hb.exists_guard h hne
        have hle := length_le_of_guard h hv hbusy hvalid hmiss
        omega

/-- An empty pool has no task to find. -/
theorem take_of_tasks_eq_nil (h : p.Linked) (hnil : p.tasks = []) (w : Location)
    (cursor : StealCursor) : (p.take w cursor).2.2 = none := by
  have hheld := (take_yields h w cursor).held h
  cases hr : (p.take w cursor).2.2 with
  | none => rfl
  | some taken =>
      rw [hr, held, held, hnil] at hheld
      -- what is found was queued before
      have hmem : taken.task ∈ (0 : Multiset TaskHandle) := by
        rw [← Multiset.coe_nil, ← hheld]
        exact Multiset.mem_add.2 (.inr (Multiset.mem_singleton_self _))
      exact absurd hmem (Multiset.notMem_zero _)

/-- Bounded failure of every search: after any run, and after any further takes, a row of takes by
workers that exist finds nothing at most as often as the configuration lets a worker repel, as long
as anything is queued when the row begins. If workers may not repel at all, a take finds nothing
only in a pool that holds nothing. -/
theorem failures_le_maxRepels (c : SchedulerConfig) (auto : Nat) (calls : List Call) :
    let p := (new c auto).run calls
    (∀ before block : List (Location × StealCursor),
      (∀ x ∈ before ++ block, x.1.index < p.workerCount) → (p.takeAll before).1.tasks ≠ [] →
      (∀ r ∈ ((p.takeAll before).1.takeAll block).2, r = none) →
      block.length ≤ c.maxStealRepels.toNat) ∧
    (c.maxStealRepels = 0 → ∀ (w : Location) (cursor : StealCursor), w.index < p.workerCount →
      ((p.take w cursor).2.2 = none ↔ p.tasks = [])) := by
  intro p
  have h : p.Linked := linked_run (linked_new c auto) calls
  have hmax : p.maxRepels = c.maxStealRepels.toNat := maxRepels_run (linked_new c auto) calls
  refine ⟨fun before block hvalid hne hmiss => ?_, fun hzero w cursor hw => ⟨fun hnone => ?_,
    fun hnil => take_of_tasks_eq_nil h hnil w cursor⟩⟩
  · rw [takeAll_eq_run] at hne hmiss
    rw [← hmax, ← maxRepels_run h (before.map fun x => .take x.1 x.2)]
    refine length_le_of_miss (linked_run h _) hne (fun x hx => ?_) hmiss
    rw [workerCount_run h]
    exact hvalid x (List.mem_append_right _ hx)
  · by_contra hne
    -- a single take in vain is a row of length one, and none is allowed
    have hmiss : ∀ r ∈ (p.takeAll [(w, cursor)]).2, r = none := by
      intro r hr
      rw [List.mem_singleton.1 hr]
      exact hnone
    have hvalid : ∀ x ∈ [(w, cursor)], x.1.index < p.workerCount := by
      intro x hx
      rw [List.mem_singleton.1 hx]
      exact hw
    have hle := length_le_of_miss h hne hvalid hmiss
    rw [hmax, hzero] at hle
    exact absurd hle (Nat.not_succ_le_zero 0)

/-- Worker 0 has a task and repels two attempts, so worker 1 looks for it in vain twice, and no more
than that is allowed. In a pool whose workers do not repel it finds nothing where nothing is. -/
theorem failures_le_maxRepels_twice :
    let c : SchedulerConfig := { workers := 2, maxStealRepels := 2 }
    let p := (new c 1).run [.give (.owner ⟨0⟩) ⟨5⟩ Hint.none]
    let cursor : StealCursor := .forWorker 1 2
    let block : List (Location × StealCursor) := [(⟨1⟩, cursor), (⟨1⟩, cursor)]
    (p.tasks = [⟨5⟩] ∧ (p.takeAll block).2 = [none, none] ∧
        block.length ≤ c.maxStealRepels.toNat) ∧
      ((new { workers := 2 } 1).take ⟨1⟩ cursor).2.2 = none := by
  intro c p cursor block
  have hqueued : p.tasks = [⟨5⟩] := by decide +kernel
  have hmiss : (p.takeAll block).2 = [none, none] := by decide +kernel
  have hvalid : ∀ x ∈ block, x.1.index < p.workerCount := by decide +kernel
  refine ⟨⟨hqueued, hmiss, ?_⟩, ?_⟩
  · refine (failures_le_maxRepels c 1 _).1 [] block hvalid ?_ fun r hr => ?_
    · show p.tasks ≠ []
      rw [hqueued]
      exact List.cons_ne_nil _ _
    · change r ∈ (p.takeAll block).2 at hr
      rw [hmiss] at hr
      exact List.eq_of_mem_replicate (n := 2) hr
  · exact ((failures_le_maxRepels { workers := 2 } 1 []).2 rfl ⟨1⟩ cursor (by decide +kernel)).2
      (by decide +kernel)

end WorkStealing.Pool
