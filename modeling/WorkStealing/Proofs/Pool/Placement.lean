import WorkStealing.Proofs.Pool.Places
import WorkStealing.Proofs.Queue.Scan

/-!
# Where a given task goes

A give that goes well adds its task to one deque and leaves everything else alone. If affinity hints
count and the hint names a group that is alive, that deque is the group's queue (`Pool.InGroup`);
else it stands at the level that the configuration makes of the hint's priority, with the worker
that the hint is mapped to, or with the giver's own (`Pool.WithWorker`). The task stands at the
owner's end exactly if the giver is the worker it went to. `give_placed` states this for every run,
and that the answer names the place.

Which level it is depends on two clamps, the configuration's and that of a worker's queues. They
agree because no call changes the number of levels or the usual one (`Pool.Fits`).
-/

namespace WorkStealing

namespace Levels

variable {l l' : Levels} {t : TaskHandle} {level used : Nat}

/-- An addition of either kind stores one changed deque at the level that it names. -/
theorem put_eq_ok {owner : Bool}
    (h : (if owner then l.insert else l.inject) t level = .ok (used, l')) :
    ∃ d, (if owner then (l.atLevel level).push t else (l.atLevel level).inject t) = .ok d ∧
      used = l.clamp level ∧ l' = l.store level d := by
  cases owner with
  | true => exact insert_eq_ok h
  | false => exact inject_eq_ok h

theorem levelCount_store (l : Levels) (level : Nat) (d : WorkDeque) :
    (l.store level d).levelCount = l.levelCount := List.length_set

theorem levelCount_remove (l : Levels) (e : End) :
    (l.remove e).1.levelCount = l.levelCount := by
  rcases l.remove_facts e with ⟨-, hlevels, -⟩ | ⟨k, d, t, d', -, hlevels, -⟩
  · rw [levelCount, hlevels, levelCount]
  · rw [levelCount, hlevels, List.length_set, levelCount]

theorem defaultLevel_remove (l : Levels) (e : End) :
    (l.remove e).1.defaultLevel = l.defaultLevel := by
  rw [remove]
  split <;> rfl

end Levels

namespace Pool

/-- The group alive that a hint names, with its key and its index. -/
def named? (p : Pool) (hint : Hint) : Option (AffinityKey × ArenaIndex × AffinityGroup) :=
  hint.affinity.bind fun key =>
    (p.indexOf? key).bind fun i => (p.groups.get? i).map fun g => (key, i, g)

/-- A task has joined a deque: at the owner's end, or behind the injected tasks. -/
def Joins (t : TaskHandle) (owner : Bool) (d d' : WorkDeque) : Prop :=
  if owner then d'.own.toList = d.own.toList ++ [t] ∧ d'.injected = d.injected
  else d'.own = d.own ∧ d'.injected.toList = d.injected.toList ++ [t]

/-- A task has joined a level of a worker. No other level, worker, group or slot has changed. -/
structure WithWorker (p : Pool) (giver : Giver) (t : TaskHandle) (w : Location) (level : Nat)
    (q : Pool) : Prop where
  deque : ∃ d d', Swaps p (.level w.index level) d d' q ∧ Joins t (giver = .owner w) d d'
  others : ∀ k, k ≠ w.index → q.seats[k]? = p.seats[k]?
  /-- Nothing but seats has changed. -/
  rest : q = { p with seats := q.seats }

/-- A task has joined the queue of a group, and has published the group if that was new. No other
group, slot or worker has changed. -/
structure InGroup (p : Pool) (t : TaskHandle) (key : AffinityKey) (i : ArenaIndex)
    (g : AffinityGroup) (published : Bool) (q : Pool) : Prop where
  deque : ∃ d', Swaps p (.group i) g.queue d' q ∧ Joins t true g.queue d'
  published_iff : published = true ↔ g.stage = .new
  /-- The index joins the slot of the group's key if the task publishes the group. -/
  staged : published = true → ∃ slot, p.staging.slots[p.staging.slotFor key]? = some slot ∧
    q.staging.slots = p.staging.slots.set (p.staging.slotFor key) (slot.push i)
  unstaged : published = false → q.staging = p.staging
  stage : q.stageAt i = some (if published then .staged else g.stage)
  others : ∀ j, j ≠ i → q.groups.get? j = p.groups.get? j
  /-- Nothing but groups and staging has changed. -/
  rest : q = { p with groups := q.groups, staging := q.staging }

/-- A pool as it is configured: whether affinity hints count, and the levels of each worker. -/
structure Fits (c : SchedulerConfig) (p : Pool) : Prop where
  affinity : p.affinity = c.affinity
  levelCount : ∀ s ∈ p.seats, s.lane.levelCount = max c.priorityLevels 1
  defaultLevel : ∀ s ∈ p.seats, s.lane.defaultLevel = c.clampLevel none

variable {p q : Pool} {c : SchedulerConfig} {k : Nat} {s s' : Seat} {i : ArenaIndex}
  {g : AffinityGroup} {giver : Giver} {t : TaskHandle} {hint : Hint} {placement : Placement}

/-! ### The configured levels -/

theorem Fits.setSeat (h : Fits c p) (hseat : p.seats[k]? = some s) (s' : Seat)
    (hcount : s'.lane.levelCount = s.lane.levelCount)
    (hdefault : s'.lane.defaultLevel = s.lane.defaultLevel) : Fits c (p.setSeat k s') := by
  have hmem := List.mem_of_getElem? hseat
  refine ⟨h.affinity, fun x hx => ?_, fun x hx => ?_⟩
  · rcases List.mem_or_eq_of_mem_set hx with hold | rfl
    · exact h.levelCount x hold
    · rw [hcount, h.levelCount s hmem]
  · rcases List.mem_or_eq_of_mem_set hx with hold | rfl
    · exact h.defaultLevel x hold
    · rw [hdefault, h.defaultLevel s hmem]

/-- No move changes how many levels a worker has, or which is the usual one. -/
theorem Move.fits {e : Event} (m : Move p e q) (h : Fits c p) : Fits c q := by
  cases m with
  | @queued k s lane t level used seat put =>
      rcases put with hput | hput
      · obtain ⟨d, -, -, rfl⟩ := Levels.insert_eq_ok hput
        exact h.setSeat seat _ (Levels.levelCount_store ..) rfl
      · obtain ⟨d, -, -, rfl⟩ := Levels.inject_eq_ok hput
        exact h.setSeat seat _ (Levels.levelCount_store ..) rfl
  | @removed k s lane side t level source seat found own =>
      have hcount := s.lane.levelCount_remove side
      have hdefault := s.lane.defaultLevel_remove side
      rw [found] at hcount hdefault
      exact h.setSeat seat _ hcount hdefault
  | @rested k s lane seat found =>
      have hcount := s.lane.levelCount_remove .tail
      have hdefault := s.lane.defaultLevel_remove .tail
      rw [found] at hcount hdefault
      exact h.setSeat seat _ hcount hdefault
  | @repelled k s seat busy below =>
      have hseat := h.setSeat seat { s with attempts := s.attempts + 1 } rfl rfl
      exact ⟨hseat.affinity, hseat.levelCount, hseat.defaultLevel⟩
  | @released w i s g seat noted group stage bare =>
      have hgroup : Fits c (p.setGroup i { g with stage := .new }) :=
        ⟨h.affinity, h.levelCount, h.defaultLevel⟩
      exact hgroup.setSeat seat _ rfl rfl
  | @adopted w i s g t staging d seat free shelf group waits found =>
      have hgroup : Fits c ({ p with staging := staging }.setGroup i
          { g with stage := .active w, queue := d, inFlight := g.inFlight + 1 }) :=
        ⟨h.affinity, h.levelCount, h.defaultLevel⟩
      exact hgroup.setSeat seat _ rfl rfl
  | published | joined | drained | finished | created | retired | forgotten =>
      exact ⟨h.affinity, h.levelCount, h.defaultLevel⟩

theorem fits_new (c : SchedulerConfig) (auto : Nat) : Fits c (new c auto) := by
  refine ⟨rfl, fun s hs => ?_, fun s hs => ?_⟩
  · rw [List.eq_of_mem_replicate hs]
    simp [Levels.withDefaultLevel, Levels.levelCount, Levels.new]
  · rw [List.eq_of_mem_replicate hs]
    -- the usual level is within the levels already, so the second clamp leaves it
    simp only [Levels.withDefaultLevel, Levels.clamp, Levels.levelCount, Levels.new,
      List.length_replicate, SchedulerConfig.clampLevel]
    omega

theorem fits_run (c : SchedulerConfig) (auto : Nat) (calls : List Call) :
    Fits c ((new c auto).run calls) :=
  (run_induction (P := Fits c) (linked_new c auto) (fits_new c auto) (fun _ _ _ _ hm h => hm.fits h)
    calls).2

/-- The two clamps agree: a worker's queues put a task at the level that the configuration makes of
its priority. -/
theorem Fits.clamp (h : Fits c p) (hs : s ∈ p.seats) (hint : Hint) :
    s.lane.clamp ((hint.priority.map UInt32.toNat).getD s.lane.defaultLevel) =
      c.clampLevel hint.priority := by
  rw [Levels.clamp, h.levelCount s hs, h.defaultLevel s hs]
  cases hint.priority with
  | none =>
      simp only [SchedulerConfig.clampLevel, Option.map_none, Option.getD_none]
      omega
  | some level =>
      simp only [SchedulerConfig.clampLevel, Option.map_some, Option.getD_some]
      omega

/-! ### One give -/

theorem joins_put {d d' : WorkDeque} (owner : Bool)
    (h : (if owner then d.push t else d.inject t) = .ok d') : Joins t owner d d' := by
  cases owner with
  | true =>
      obtain ⟨-, hown, hinjected, -⟩ := WorkDeque.push_facts h
      exact ⟨hown, hinjected⟩
  | false =>
      obtain ⟨-, hown, hinjected, -⟩ := WorkDeque.inject_facts h
      exact ⟨hown, hinjected⟩

/-- The giver is the worker itself, or it only shares its location. -/
theorem isOwner_iff (giver : Giver) (w : Location) :
    (decide (w = giver.location) && giver.isOwner) = decide (giver = .owner w) := by
  cases giver with
  | owner l => simp [Giver.location, Giver.isOwner, eq_comm (a := w)]
  | service l => simp [Giver.isOwner]

theorem giveToWorker_placed (h : Fits c p)
    (hok : (p.giveToWorker giver t hint).2 = .ok placement) :
    placement = .worker (p.target giver.location hint) (c.clampLevel hint.priority) ∧
      WithWorker p giver t (p.target giver.location hint) (c.clampLevel hint.priority)
        (p.giveToWorker giver t hint).1 := by
  rw [giveToWorker] at hok ⊢
  dsimp only at hok ⊢
  cases hs : p.seat? (p.target giver.location hint) with
  | none =>
      rw [hs] at hok
      cases hok
  | some s =>
      have hseat : p.seats[(p.target giver.location hint).index]? = some s := hs
      rw [hs] at hok
      dsimp only at hok ⊢
      rw [isOwner_iff] at hok ⊢
      split at hok
      next => cases hok
      next used lane hput =>
        obtain ⟨d', hd', rfl, rfl⟩ := Levels.put_eq_ok hput
        cases hok
        have hclamp := h.clamp (List.mem_of_getElem? hseat) hint
        have hlevel := s.lane.getElem?_clamp
          ((hint.priority.map UInt32.toNat).getD s.lane.defaultLevel)
        refine ⟨by rw [hclamp], ⟨?_, fun k hk => ?_, rfl⟩⟩
        · refine ⟨_, d', ?_, joins_put _ hd'⟩
          rw [← hclamp]
          exact swaps_setSeat hseat hlevel rfl
        · exact List.getElem?_set_ne (Ne.symm hk)

/-- A group with one task more in its queue, and staging as the group's stage asks for. -/
theorem InGroup.of_set {key : AffinityKey} {g' : AffinityGroup} {staging : Staging}
    {published : Bool} (hg : p.groups.get? i = some g) (hd : g.queue.push t = .ok g'.queue)
    (hpublished : published = true ↔ g.stage = .new)
    (hstage : g'.stage = if published then .staged else g.stage)
    (hstaged : published = true → p.staging.push key i = .ok staging)
    (hunstaged : published = false → staging = p.staging) :
    InGroup p t key i g published
      { p with groups := p.groups.set i g', staging := staging } := by
  have hjoins : Joins t true g.queue g'.queue := joins_put true hd
  refine ⟨⟨_, swaps_set hg rfl rfl, hjoins⟩, hpublished, fun hp => ?_, hunstaged, ?_,
    fun j hj => ?_, rfl⟩
  · obtain ⟨-, -, slot, hslot, -, hslots⟩ := Staging.push_facts (hstaged hp)
    exact ⟨slot, hslot, hslots⟩
  · have hset := stageAt_setGroup hg g' i
    rw [if_pos rfl, hstage] at hset
    exact hset
  · show (p.groups.set i g').get? j = p.groups.get? j
    rw [Arena.get?_set hg, if_neg hj]

theorem giveToGroup_placed (h : p.Linked) {key : AffinityKey} (hg : p.groups.get? i = some g)
    (hok : (p.giveToGroup key i g t).2 = .ok placement) :
    ∃ published, placement = .group key published ∧
      InGroup p t key i g published (p.giveToGroup key i g t).1 := by
  rw [giveToGroup] at hok ⊢
  by_cases hnew : g.stage = .new
  · -- the queue of a new group has room, so only the shelf could have refused
    obtain ⟨d, hd⟩ := WorkDeque.push_of_tasks_eq_nil ((h.consistent i g hg).empty_of_new hnew) t
    rw [AffinityGroup.insertWith_of_new hnew hd] at hok ⊢
    cases hshelf : p.staging.push key i with
    | error e =>
        rw [hshelf] at hok
        cases hok
    | ok staging =>
        rw [hshelf] at hok
        cases hok
        refine ⟨true, rfl, .of_set hg hd ⟨fun _ => hnew, fun _ => rfl⟩ rfl (fun _ => hshelf) ?_⟩
        intro hfalse
        cases hfalse
  · rw [AffinityGroup.insertWith_of_ne_new hnew] at hok ⊢
    cases hd : g.queue.push t with
    | error e =>
        rw [hd] at hok
        cases hok
    | ok d =>
        rw [hd] at hok
        cases hok
        have hold : false = true ↔ g.stage = .new := (iff_false_right hnew).2 Bool.false_ne_true
        refine ⟨false, rfl, .of_set hg hd hold rfl ?_ fun _ => rfl⟩
        intro htrue
        cases htrue

theorem named?_eq_some {key : AffinityKey} (h : p.named? hint = some (key, i, g)) :
    p.groups.get? i = some g := by
  obtain ⟨key', -, hkey⟩ := Option.bind_eq_some_iff.1 h
  obtain ⟨i', -, hi⟩ := Option.bind_eq_some_iff.1 hkey
  obtain ⟨g', hg, heq⟩ := Option.map_eq_some_iff.1 hi
  cases heq
  exact hg

/-! ### Gives of a run -/

/-- A give that goes well adds its task to one place and changes nothing else, after any run. If the
configuration lets affinity hints count and the hint names a group that is alive, the task joins
that group, and publishes it if and only if it was new. Else it joins the worker that the hint is
mapped to, if there is such a worker, or the giver's own, at the level that the configuration makes of
the hint's priority; it stands at the owner's end if and only if that worker gives. The answer names
the place. Nothing is asked of the configuration or of the giver, since a giver outside the pool is
refused. -/
theorem give_placed (c : SchedulerConfig) (auto : Nat) (calls : List Call) (giver : Giver)
    (t : TaskHandle) (hint : Hint) (placement : Placement)
    (hok : (((new c auto).run calls).give giver t hint).2 = .ok placement) :
    let p := (new c auto).run calls
    let q := (p.give giver t hint).1
    match if c.affinity then p.named? hint else none with
    | some (key, i, g) =>
      ∃ published, placement = .group key published ∧ InGroup p t key i g published q
    | none =>
      placement = .worker (p.target giver.location hint) (c.clampLevel hint.priority) ∧
        WithWorker p giver t (p.target giver.location hint) (c.clampLevel hint.priority) q := by
  intro p q
  have hlinked : p.Linked := linked_run (linked_new c auto) calls
  have hfits : Fits c p := fits_run c auto calls
  have hgive : p.give giver t hint =
      match if c.affinity then p.named? hint else none with
      | some (key, i, g) => p.giveToGroup key i g t
      | none => p.giveToWorker giver t hint := by
    rw [give, hfits.affinity]
    rfl
  change (p.give giver t hint).2 = .ok placement at hok
  rw [hgive] at hok
  simp only [q, hgive]
  cases hnamed : if c.affinity then p.named? hint else none with
  | none =>
      rw [hnamed] at hok
      exact giveToWorker_placed hfits hok
  | some found =>
      obtain ⟨key, i, g⟩ := found
      rw [hnamed] at hok
      exact giveToGroup_placed hlinked (named?_eq_some (Option.ite_none_right_eq_some.1 hnamed).2)
        hok

/-- Worker 1 gives a task that is mapped to worker 0 at a level past the last: it is injected there,
at the last level. -/
theorem give_placed_mapped :
    let p := (new { workers := 2 } 1).run []
    let hint : Hint := { priority := some 9, affinity := some ⟨7⟩, mapping := some ⟨0⟩ }
    let r := p.give (.owner ⟨1⟩) ⟨5⟩ hint
    r.2 = .ok (.worker ⟨0⟩ 3) ∧ WithWorker p (.owner ⟨1⟩) ⟨5⟩ ⟨0⟩ 3 r.1 :=
  have h := give_placed { workers := 2 } 1 [] (.owner ⟨1⟩) ⟨5⟩
    { priority := some 9, affinity := some ⟨7⟩, mapping := some ⟨0⟩ } (.worker ⟨0⟩ 3)
    (by decide +kernel)
  ⟨by decide +kernel, h.2⟩

end Pool

end WorkStealing
