import WorkStealing.Command.Seeding
import WorkStealing.Proofs.Cluster.Exchange
import WorkStealing.Proofs.Driver.Refusals
import WorkStealing.Proofs.Pool.Places
import WorkStealing.Proofs.Pool.Shelving

/-!
# Staging holds the groups of a seeding

The check before a seeding compares the number of groups with what all staging slots hold together.
It is enough: the keys of the groups are the numbers below that, so no slot is ever full when a task
stages its group (`Pool.Filed.room`), and only a full deque can refuse a task
(`Pool.exhausted_of_refusal`). `Seeded` is what every give of a seeding keeps, and `seed_staged` is
what the seeding comes to.
-/

namespace WorkStealing

namespace Pool

variable {p : Pool} {source : Location} {hint : Hint} {e : SchedError}

/-- A pool with a deque that holds as many tasks as it may, and an error that says so. -/
def Exhausted (p : Pool) (e : SchedError) : Prop :=
  ∃ x d, p.deque? x = some d ∧ d.held = d.capacity ∧ e = .capacityExhausted "deque" d.capacity

theorem exhausted_of_deque {x : Place} {d : WorkDeque} (hd : p.deque? x = some d)
    (hrefusal : d.refusal? = some e) : p.Exhausted e := by
  rw [WorkDeque.refusal?] at hrefusal
  split at hrefusal
  next hfull =>
    cases hrefusal
    exact ⟨x, d, hd, hfull, rfl⟩
  next => cases hrefusal

/-- A group that a hint names is stored where its key leads. -/
theorem hintedGroup?_eq_some {key : AffinityKey} {g : AffinityGroup}
    (h : p.hintedGroup? hint = some (key, g)) :
    p.affinity = true ∧ ∃ i, p.indexOf? key = some i ∧ p.groups.get? i = some g := by
  rw [hintedGroup?] at h
  split at h
  next haffinity =>
    obtain ⟨key', -, hgroup⟩ := Option.bind_eq_some_iff.1 h
    obtain ⟨g', hg', heq⟩ := Option.map_eq_some_iff.1 hgroup
    cases heq
    exact ⟨haffinity, Option.bind_eq_some_iff.1 hg'⟩
  next => cases h

/-- Where staging has room for every group that is not staged, only a full deque refuses a task. -/
theorem exhausted_of_refusal (hroom : p.affinity = true → ∀ key i, p.indexOf? key = some i →
      p.stageAt i ≠ some .staged → ∃ staging, p.staging.push key i = .ok staging)
    (hrefusal : p.refusal? source hint = some e) : p.Exhausted e := by
  rw [refusal?] at hrefusal
  cases hhinted : p.hintedGroup? hint with
  | some found =>
      obtain ⟨key, g⟩ := found
      obtain ⟨haffinity, i, hfound, hg⟩ := hintedGroup?_eq_some hhinted
      rw [hhinted] at hrefusal
      dsimp only at hrefusal
      rw [groupRefusal?, Option.or_eq_some_iff] at hrefusal
      rcases hrefusal with hqueue | ⟨-, hshelf⟩
      · exact exhausted_of_deque (x := .group i) (queueAt?_of_get? hg) hqueue
      · -- a new group is not staged, and there is room for it
        split at hshelf
        next hnew =>
          have hout : p.stageAt i ≠ some .staged := by
            rw [stageAt_of_get? hg, hnew]
            simp
          obtain ⟨staging, hpush⟩ := hroom haffinity key i hfound hout
          rw [← Staging.faultOf_push p.staging key i, hpush] at hshelf
          cases hshelf
        next => cases hshelf
  | none =>
      rw [hhinted] at hrefusal
      obtain ⟨s, hs, hdeque⟩ := Option.bind_eq_some_iff.1 hrefusal
      have hseat : p.seats[(p.target source hint).index]? = some s := hs
      refine exhausted_of_deque (x := .level (p.target source hint).index
        (s.lane.clamp ((hint.priority.map UInt32.toNat).getD s.lane.defaultLevel))) ?_ hdeque
      rw [deque?, levelsAt_of_seat hseat, Levels.getElem?_clamp]

end Pool

namespace Command

/-- The handles of a node's first tasks. -/
def taskHandles (node : UInt32) (tasks : Nat) : List TaskHandle :=
  (List.range tasks).map fun n => taskHandle node (UInt64.ofNat (n + 1))

theorem coe_taskHandles_succ (node : UInt32) (tasks : Nat) :
    (taskHandles node (tasks + 1) : Multiset TaskHandle) =
      (taskHandles node tasks : Multiset TaskHandle) +
        {taskHandle node (UInt64.ofNat (tasks + 1))} := by
  rw [taskHandles, List.range_succ, List.map_append, ← Multiset.coe_add]
  rfl

/-- A driver that is up and holds some tasks, all of them queued, with no groups but those of the
first keys and staging in order. -/
structure Seeded (c : SchedulerConfig) (auto groups : Nat) (ctx : ContextId)
    (given : Multiset TaskHandle) (d : Driver) : Prop where
  housed : d.Housed
  accepting : d.accepting = true
  bound : ∃ x w, d.context? ctx = some x ∧ x.location = some w
  affinity : d.pool.affinity = c.affinity
  filed : d.pool.Filed c auto
  keys : ∀ key i, d.pool.indexOf? key = some i → key.id.toNat < groups
  held : d.pool.held = given
  outstanding : d.outstanding = given.card

variable {c : SchedulerConfig} {auto groups : Nat} {ctx : ContextId} {given : Multiset TaskHandle}
  {d : Driver} {t : TaskHandle}

/-- What the check before a seeding finds out: the groups fit, if there can be any. -/
theorem checkGroups_eq_ok (h : checkGroups c auto groups = .ok ()) (haffinity : c.affinity = true) :
    groups ≤ c.resolvedStagingSlots auto * c.stagingSlotCapacity := by
  rw [checkGroups] at h
  split at h
  next => cases h
  next hfit =>
    have hle : groups ≤ c.stagingCapacity auto := by
      by_contra hlt
      exact hfit ⟨haffinity, Nat.lt_of_not_le hlt⟩
    exact Nat.le_trans hle (Nat.min_le_left _ _)

theorem isNone_taskHandle (node : UInt32) {n : Nat} (hpos : 1 ≤ n) (hlt : n < UInt64.size) :
    (taskHandle node (UInt64.ofNat n)).isNone = false := by
  rw [Bool.eq_false_iff, ne_eq, TaskHandle.isNone_iff]
  intro hzero
  have hor : node.toUInt64 <<< 40 ||| UInt64.ofNat n = 0 := hzero
  have hn := (UInt64.or_eq_zero_iff.1 hor).2
  rw [← UInt64.toNat_inj, UInt64.toNat_ofNat_of_lt' hlt, UInt64.toNat_zero] at hn
  omega

namespace Seeded

/-- Staging has room for every group that is not staged. -/
theorem room (h : Seeded c auto groups ctx given d) (hcheck : checkGroups c auto groups = .ok ())
    (haffinity : d.pool.affinity = true) (key : AffinityKey) (i : ArenaIndex)
    (hfound : d.pool.indexOf? key = some i) (hout : d.pool.stageAt i ≠ some .staged) :
    ∃ staging, d.pool.staging.push key i = .ok staging := by
  refine h.filed.room h.housed.tidy.linked (fun key' i' hfound' => ?_) hfound hout
  have hfit := checkGroups_eq_ok hcheck (h.affinity.symm.trans haffinity)
  have hmax : c.resolvedStagingSlots auto * c.stagingSlotCapacity ≤
      max (c.resolvedStagingSlots auto) 1 * max c.stagingSlotCapacity 1 :=
    Nat.mul_le_mul (Nat.le_max_left _ _) (Nat.le_max_left _ _)
  exact Nat.lt_of_lt_of_le (h.keys key' i' hfound') (Nat.le_trans hfit hmax)

/-- Why a driver that is being seeded would refuse a task: a deque is full. -/
theorem exhausted (h : Seeded c auto groups ctx given d)
    (hcheck : checkGroups c auto groups = .ok ()) (hname : t.isNone = false) {hint : Hint}
    {e : SchedError} (hrefusal : d.refusal? ctx t hint = some e) : d.pool.Exhausted e := by
  obtain ⟨x, w, hx, hw⟩ := h.bound
  rw [Driver.refusal?, hname, h.accepting, hx] at hrefusal
  simp only [hw, Bool.not_true, Bool.false_eq_true, if_false] at hrefusal
  exact Pool.exhausted_of_refusal (h.room hcheck) hrefusal

/-- One more task. It is let in, or a deque is full. -/
theorem give (h : Seeded c auto groups ctx given d) (hcheck : checkGroups c auto groups = .ok ())
    (hname : t.isNone = false) (hint : Hint) :
    match d.give ctx t hint with
    | (d', .ok ()) => Seeded c auto groups ctx (given + {t}) d'
    | (d', .error e) => Seeded c auto groups ctx given d' ∧ d'.pool.Exhausted e := by
  have hhoused := h.housed.call (.give ctx t hint)
  change (d.give ctx t hint).1.Housed at hhoused
  have hfault := Driver.faultOf_give h.housed ctx t hint
  rcases Driver.give_cases h.housed.tidy.linked ctx t hint with
    ⟨pool, x, placement, -, -, hmove, hx, hgive⟩ | ⟨e, counters, hout, -, -, hgive⟩
  · rw [hgive] at hhoused ⊢
    obtain ⟨hdirectory, haffinity⟩ := hmove.directory_of_entered
    obtain ⟨x', w, hx', hw⟩ := h.bound
    rw [hx] at hx'
    cases hx'
    refine ⟨hhoused, h.accepting, ⟨x.recordGiven, w, ?_, hw⟩, haffinity.trans h.affinity,
      hmove.filed h.housed.tidy.linked h.filed, ?_, ?_, ?_⟩
    · show (d.setContext ctx x.recordGiven).context? ctx = _
      rw [Driver.context?_setContext hx, if_pos rfl]
    · intro key i hfound
      refine h.keys key i ?_
      rw [Pool.indexOf?, ← hdirectory]
      exact hfound
    · have hheld : pool.held + 0 = d.pool.held + {t} := hmove.held h.housed.tidy.linked.arena
      rw [add_zero, h.held] at hheld
      exact hheld
    · show d.outstanding + 1 = (given + {t}).card
      rw [Multiset.card_add, Multiset.card_singleton, h.outstanding]
  · rw [hgive] at hhoused hfault ⊢
    exact ⟨⟨hhoused, h.accepting, h.bound, h.affinity, h.filed, h.keys, h.held,
      hout.trans h.outstanding⟩, h.exhausted hcheck hname hfault.symm⟩

/-- A group with one of the first keys. -/
theorem createGroup (h : Seeded c auto groups ctx given d) {key : AffinityKey}
    (hkey : key.id.toNat < groups) : Seeded c auto groups ctx given (d.createGroup key) := by
  have hhoused : (d.createGroup key).Housed := h.housed.call (.createGroup key)
  rcases Pool.createGroup_cases d.pool key with hsame | hmove
  · have hpool : d.createGroup key = d := by rw [Driver.createGroup, hsame]
    rw [hpool]
    exact h
  · refine ⟨hhoused, h.accepting, h.bound, ?_, hmove.filed h.housed.tidy.linked h.filed, ?_, ?_,
      h.outstanding⟩
    · exact (Pool.affinity_createGroup d.pool key).trans h.affinity
    · intro key' i hfound
      rcases Pool.indexOf?_createGroup hfound with rfl | hold
      · exact hkey
      · exact h.keys key' i hold
    · have hheld : (d.pool.createGroup key).1.held + 0 = d.pool.held + 0 :=
        hmove.held h.housed.tidy.linked.arena
      exact (add_right_cancel hheld).trans h.held

theorem createGroups (h : Seeded c auto groups ctx given d) :
    Seeded c auto groups ctx given (Command.createGroups groups d) := by
  rw [Command.createGroups]
  refine List.foldlRecOn _ _ h fun d hd g hg => hd.createGroup ?_
  have hlt := List.mem_range.1 hg
  show (UInt64.ofNat g).toNat < groups
  rw [UInt64.toNat_ofNat']
  exact Nat.lt_of_le_of_lt (Nat.mod_le _ _) hlt

end Seeded

/-! ### One give after another -/

/-- A row of gives with one more is that row and then, if none has failed, one give. -/
theorem giveFrom_succ (ctx : ContextId) (node : UInt32) (levels groups count n : Nat) (d : Driver) :
    giveFrom ctx node levels groups (count + 1) n d =
      match giveFrom ctx node levels groups count n d with
      | (d', .ok ()) =>
        d'.give ctx (taskHandle node (UInt64.ofNat (n + count)))
          (seedHint levels groups (n + count))
      | (d', .error e) => (d', .error e) := by
  -- induction on the gives before the last
  induction count generalizing n d with
  | zero =>
      rw [giveFrom, Nat.add_zero]
      simp only [giveFrom]
      cases d.give ctx (taskHandle node (UInt64.ofNat n)) (seedHint levels groups n) with
      | mk d' r =>
          cases r with
          | ok => rfl
          | error e => rfl
  | succ count ih =>
      rw [giveFrom, giveFrom]
      cases d.give ctx (taskHandle node (UInt64.ofNat n)) (seedHint levels groups n) with
      | mk d' r =>
          cases r with
          | ok =>
              dsimp only
              rw [ih, Nat.succ_add_eq_add_succ]
          | error e => rfl

/-- A seeding of one task more is that seeding and then, if it has not failed, one give. -/
theorem seed_succ (d : Driver) (auto : Nat) (node : UInt32) (tasks groups : Nat) :
    seed d auto node (tasks + 1) groups =
      match seed d auto node tasks groups with
      | (d', .ok ()) =>
        let r := d'.give (.ofIndex d.contexts.length) (taskHandle node (UInt64.ofNat (tasks + 1)))
          (seedHint (max d.config.priorityLevels 1) groups (tasks + 1))
        (r.1, r.2.mapError .scheduler)
      | (d', .error e) => (d', .error e) := by
  rw [seed, seed]
  cases checkGroups d.config auto groups with
  | error e => rfl
  | ok =>
      dsimp only
      rw [Driver.openContext]
      -- the context that opens has the next number
      by_cases hout : d.workerCount ≤ (Location.ofIndex 0).index
      · rw [if_pos hout]
      by_cases hdown : d.contexts.isEmpty = true
      · rw [if_neg hout, if_pos hdown]
      rw [if_neg hout, if_neg hdown]
      dsimp only
      rw [giveFrom_succ, Nat.add_comm 1 tasks]
      generalize giveFrom _ node _ groups tasks 1 _ = given
      obtain ⟨d', r⟩ := given
      cases r with
      | error e => rfl
      | ok =>
          dsimp only
          generalize d'.give _ _ _ = last
          obtain ⟨d'', r⟩ := last
          cases r with
          | error e => rfl
          | ok => rfl

/-! ### From the start -/

section

variable (hnew : Driver.new c auto = .ok d) (resolver : Option Resolver)
  (doorkeeper : Option Doorkeeper)

include hnew

theorem stagingSlotCapacity_pos : 0 < c.stagingSlotCapacity := by
  rw [Driver.new] at hnew
  split at hnew
  next hvalid => exact ((c.validate_eq_ok_iff auto).1 hvalid).2.2.1
  next => cases hnew

/-- A driver that has just come up has the configured sizes and a new pool, and a context for each
worker. -/
theorem started_facts :
    let start := ({ d with resolver := resolver, doorkeeper := doorkeeper } : Driver).started.1
    start.config = c ∧ start.pool = .new c auto ∧ start.accepting = true ∧
      start.outstanding = 0 ∧ start.contexts.length = c.resolvedWorkers auto ∧ start.Housed := by
  intro start
  have hhoused : start.Housed :=
    (Driver.housed_of_new hnew).run (h := { driver := d })
      [.resolve resolver, .park doorkeeper, .switchRunlevel .memoryOk 0 .up,
        .switchRunlevel .computeOk 0 .up]
  obtain rfl := Driver.new_eq_ok hnew
  have hcontexts : start.contexts.length = c.resolvedWorkers auto := by
    show (Driver.bindFrom _ 0 ((List.range (Pool.new c auto).workerCount).map _)).length = _
    rw [Node.length_bindFrom, List.length_map, List.length_range, Pool.workerCount_new]
  exact ⟨rfl, rfl, rfl, rfl, hcontexts, hhoused⟩

/-- A seeding finds such a driver ready: its context opens, and nothing has been given yet. -/
theorem seeded_opened (hauto : 0 < auto) (groups : Nat) :
    let start := ({ d with resolver := resolver, doorkeeper := doorkeeper } : Driver).started.1
    ∃ d', start.openContext (.ofIndex 0) = (d', .ok (.ofIndex start.contexts.length)) ∧
      Seeded c auto groups (.ofIndex start.contexts.length) 0 d' := by
  intro start
  obtain ⟨-, hpool, haccepting, hout, hcontexts, hhoused⟩ :=
    started_facts hnew resolver doorkeeper
  have hlength := Node.length_contexts_started hnew resolver doorkeeper
  change start.contexts.length < UInt32.size at hlength
  have hworkers : 0 < c.resolvedWorkers auto := by
    rw [SchedulerConfig.resolvedWorkers]
    split
    · exact hauto
    · omega
  have hin : ¬ start.workerCount ≤ (Location.ofIndex 0).index := by
    rw [Driver.workerCount, hpool, Pool.workerCount_new, Location.index_ofIndex (by decide)]
    omega
  have hsome : ¬ start.contexts.isEmpty = true := by
    rw [List.isEmpty_iff_length_eq_zero, hcontexts]
    omega
  have hopens : ∃ x, start.openContext (.ofIndex 0) =
      ({ start with contexts := start.contexts ++ [x] },
        .ok (.ofIndex start.contexts.length)) := by
    rw [Driver.openContext, if_neg hin, if_neg hsome]
    exact ⟨_, rfl⟩
  obtain ⟨x, hopen⟩ := hopens
  obtain ⟨-, ⟨y, hy, hlocation⟩, -⟩ := Node.openContext_facts hlength hopen
  have hhoused' : (start.openContext (.ofIndex 0)).1.Housed :=
    hhoused.call (.openContext (.ofIndex 0))
  rw [hopen] at hhoused'
  refine ⟨_, hopen, hhoused', haccepting, ⟨y, _, hy, hlocation⟩, ?_, ?_, ?_, ?_, hout⟩
  · show start.pool.affinity = c.affinity
    rw [hpool]
    rfl
  · show start.pool.Filed c auto
    rw [hpool]
    exact Pool.filed_new c auto
  · intro key i hfound
    change start.pool.indexOf? key = some i at hfound
    rw [hpool] at hfound
    cases hfound
  · show start.pool.held = 0
    rw [hpool, Pool.held, Pool.tasks_new]
    rfl

/-- What a seeding comes to, however many tasks it has got to. -/
theorem seed_cases (hauto : 0 < auto) (node : UInt32) {groups : Nat}
    (hcheck : checkGroups c auto groups = .ok ()) {tasks : Nat} (htasks : tasks < UInt64.size) :
    let start := ({ d with resolver := resolver, doorkeeper := doorkeeper } : Driver).started.1
    ∃ given, Seeded c auto groups (.ofIndex start.contexts.length) given
        (seed start auto node tasks groups).1 ∧
      match seed start auto node tasks groups with
      | (_, .ok ()) => given = taskHandles node tasks
      | (d', .error e) => ∃ f, e = .scheduler f ∧ d'.pool.Exhausted f := by
  intro start
  -- induction on the tasks; each is one more give, unless an earlier one has failed
  induction tasks with
  | zero =>
      obtain ⟨d', hopen, hseeded⟩ := seeded_opened hnew resolver doorkeeper hauto groups
      change start.openContext (.ofIndex 0) = _ at hopen
      have hconfig : start.config = c := (started_facts hnew resolver doorkeeper).1
      rw [seed, hconfig, hcheck]
      simp only [hopen, giveFrom]
      exact ⟨0, hseeded.createGroups, rfl⟩
  | succ tasks ih =>
      obtain ⟨given, hseeded, hresult⟩ := ih (Nat.lt_of_succ_lt htasks)
      rw [seed_succ]
      cases hseed : seed start auto node tasks groups with
      | mk d' r =>
          rw [hseed] at hseeded hresult
          cases r with
          | error e => exact ⟨given, hseeded, hresult⟩
          | ok =>
              cases hresult
              have hname := isNone_taskHandle node (Nat.le_add_left 1 tasks) htasks
              have hgive := hseeded.give hcheck hname
                (seedHint (max start.config.priorityLevels 1) groups (tasks + 1))
              rw [← coe_taskHandles_succ] at hgive
              dsimp only
              generalize d'.give _ _ _ = last at hgive ⊢
              obtain ⟨d'', r⟩ := last
              cases r with
              | error e => exact ⟨_, hgive.1, e, rfl, hgive.2⟩
              | ok => exact ⟨_, hgive, rfl⟩

/-- The check before a seeding is enough for it. Take a driver with any valid sizes that has just
come up, with affinity hints or without, and any numbers of tasks and of groups that pass the check.
At every point of the seeding, which is a seeding of the first tasks (`seed_succ`), no staging slot
holds more groups than it may. The seeding fails only with a deque that is full, never for want of
room in staging; and if it succeeds, then the tasks queued are exactly the seeded ones and as many
are outstanding. Nothing is asked of the machine but that it can run a worker. -/
theorem seed_staged (hauto : 0 < auto) (node : UInt32) (tasks groups : UInt64)
    (hcheck : checkGroups c auto groups.toNat = .ok ()) :
    let start := ({ d with resolver := resolver, doorkeeper := doorkeeper } : Driver).started.1
    (∀ k ≤ tasks.toNat, ∀ slot ∈ (seed start auto node k groups.toNat).1.pool.staging.slots,
      slot.size ≤ c.stagingSlotCapacity) ∧
    match seed start auto node tasks.toNat groups.toNat with
    | (d', .ok ()) =>
      d'.pool.held = taskHandles node tasks.toNat ∧ d'.outstanding = tasks.toNat
    | (d', .error e) => ∃ f, e = .scheduler f ∧ d'.pool.Exhausted f := by
  intro start
  have hcapacity := stagingSlotCapacity_pos hnew
  refine ⟨fun k hk slot hslot => ?_, ?_⟩
  · obtain ⟨given, hseeded, -⟩ := seed_cases hnew resolver doorkeeper hauto node hcheck
      (Nat.lt_of_le_of_lt hk tasks.toNat_lt)
    have hle := hseeded.filed.bounded slot hslot
    rw [hseeded.filed.slotCapacity] at hle
    omega
  · obtain ⟨given, hseeded, hresult⟩ := seed_cases hnew resolver doorkeeper hauto node hcheck
      tasks.toNat_lt
    change Seeded c auto _ _ given (seed start auto node tasks.toNat groups.toNat).1 at hseeded
    change (match seed start auto node tasks.toNat groups.toNat with
      | (_, .ok ()) => given = taskHandles node tasks.toNat
      | (d', .error e) => ∃ f, e = .scheduler f ∧ d'.pool.Exhausted f) at hresult
    cases hseed : seed start auto node tasks.toNat groups.toNat with
    | mk d' r =>
        rw [hseed] at hseeded hresult
        cases r with
        | ok =>
            cases hresult
            refine ⟨hseeded.held, hseeded.outstanding.trans ?_⟩
            rw [Multiset.coe_card, taskHandles, List.length_map, List.length_range]
        | error e => exact hresult

end

/-- Two groups in two slots that hold one group each: three tasks are seeded, and both slots are
full. -/
theorem seed_staged_full :
    let c : SchedulerConfig :=
      { SchedulerConfig.withWorkers 1 with stagingSlots := 2, stagingSlotCapacity := 1 }
    let d : Driver := { config := c, pool := .new c 1 }
    let start := ({ d with resolver := none, doorkeeper := none } : Driver).started.1
    Driver.new c 1 = .ok d ∧ 0 < 1 ∧ checkGroups c 1 (2 : UInt64).toNat = .ok () ∧
      (seed start 1 5 (3 : UInt64).toNat (2 : UInt64).toNat).2 = .ok () ∧
      (seed start 1 5 (3 : UInt64).toNat (2 : UInt64).toNat).1.pool.staging.size = 2 ∧
      ∀ slot ∈ (seed start 1 5 (3 : UInt64).toNat (2 : UInt64).toNat).1.pool.staging.slots,
        slot.size ≤ c.stagingSlotCapacity := by
  intro c d start
  have hnew : Driver.new c 1 = .ok d := rfl
  have hcheck : checkGroups c 1 (2 : UInt64).toNat = .ok () := by decide
  have hok : (seed start 1 5 (3 : UInt64).toNat (2 : UInt64).toNat).2 = .ok () := by
    decide +kernel
  have hsize : (seed start 1 5 (3 : UInt64).toNat (2 : UInt64).toNat).1.pool.staging.size = 2 := by
    decide +kernel
  have hslots := (seed_staged hnew none none Nat.one_pos 5 3 2 hcheck).1 _ (Nat.le_refl _)
  -- named as above, so that the two seedings are seen to be one without running them
  have hstart : ({ d with resolver := none, doorkeeper := none } : Driver).started.1 = start := rfl
  rw [hstart] at hslots
  exact ⟨hnew, Nat.one_pos, hcheck, hok, hsize, hslots⟩

end Command

end WorkStealing
