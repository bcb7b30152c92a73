import WorkStealing.Proofs.Driver.Down

/-!
# Gives that are refused

`Driver.refusal?` reads off a driver why it would refuse a task: the handle is empty, the driver
does not accept, the context is unknown or not bound, or there is no room where the task would go.
On every driver that calls lead to a give fails exactly for that reason and then changes nothing but
the largest load (`Driver.give_refused_iff`).

Two facts about all runs carry this. A group that is new is empty, so it is never staged for a task
that its queue then refuses (`Pool.Linked`); and every context that is bound is bound to one of the
workers (`Driver.Housed`).
-/

namespace WorkStealing

/-- What a call failed with, if it failed. -/
def faultOf {ε α : Type} : Except ε α → Option ε
  | .error e => some e
  | .ok _ => none

section

variable {ε α β : Type} {r : Except ε α} {e : ε}

theorem faultOf_map (f : α → β) (r : Except ε α) : faultOf (r.map f) = faultOf r := by
  cases r with
  | error e => rfl
  | ok a => rfl

theorem eq_error_iff_faultOf : r = .error e ↔ faultOf r = some e := by
  cases r with
  | error e' => simp only [faultOf, Except.error.injEq, Option.some.injEq]
  | ok a => simp only [faultOf, reduceCtorEq]

end

/-! ### Room -/

/-- A deque refuses every task once it holds as many as it may. -/
def WorkDeque.refusal? (d : WorkDeque) : Option SchedError :=
  if d.held = d.capacity then some d.full else none

theorem WorkDeque.faultOf_push (d : WorkDeque) (t : TaskHandle) :
    faultOf (d.push t) = d.refusal? := by
  have hle := d.held_le
  rw [push, refusal?]
  split
  · rw [if_neg (by omega)]
    rfl
  · rw [if_pos (by omega)]
    rfl

theorem WorkDeque.faultOf_inject (d : WorkDeque) (t : TaskHandle) :
    faultOf (d.inject t) = d.refusal? := by
  have hle := d.held_le
  rw [inject, refusal?]
  split
  · rw [if_neg (by omega)]
    rfl
  · rw [if_pos (by omega)]
    rfl

/-- The shelf refuses a group once the slot of its key is full. -/
def Staging.refusal? (s : Staging) (key : AffinityKey) : Option SchedError :=
  if (s.slots.get ⟨s.slotFor key, s.slotFor_lt key⟩).size < s.slotCapacity then none
  else some (.capacityExhausted "staging slot" s.slotCapacity)

theorem Staging.faultOf_push (s : Staging) (key : AffinityKey) (i : ArenaIndex) :
    faultOf (s.push key i) = s.refusal? key := by
  unfold push refusal?
  dsimp only
  by_cases hroom : (s.slots.get ⟨s.slotFor key, s.slotFor_lt key⟩).size < s.slotCapacity
  · rw [if_pos hroom, if_pos hroom]
    rfl
  · rw [if_neg hroom, if_neg hroom]
    rfl

namespace Pool

variable {p : Pool} {key : AffinityKey} {i : ArenaIndex} {g : AffinityGroup}

/-- The group that a hint names, if hints of that kind count and there is such a group. -/
def hintedGroup? (p : Pool) (hint : Hint) : Option (AffinityKey × AffinityGroup) :=
  if p.affinity then hint.affinity.bind fun key => (p.group? key).map fun g => (key, g) else none

/-- A group refuses a task if its deque is full, or if it has to be staged and cannot be. -/
def groupRefusal? (p : Pool) (key : AffinityKey) (g : AffinityGroup) : Option SchedError :=
  g.queue.refusal?.or (if g.stage = .new then p.staging.refusal? key else none)

/-- A worker refuses a task if the deque of the level that the task comes to is full. -/
def workerRefusal? (p : Pool) (target : Location) (hint : Hint) : Option SchedError :=
  (p.seat? target).bind fun s =>
    (s.lane.atLevel ((hint.priority.map UInt32.toNat).getD s.lane.defaultLevel)).refusal?

/-- Why a pool has no room for a task that comes from a location. -/
def refusal? (p : Pool) (source : Location) (hint : Hint) : Option SchedError :=
  match p.hintedGroup? hint with
  | some (key, g) => p.groupRefusal? key g
  | none => p.workerRefusal? (p.target source hint) hint

theorem faultOf_giveToWorker (p : Pool) (giver : Giver) (t : TaskHandle) (hint : Hint)
    (hw : giver.location.index < p.workerCount) :
    faultOf (p.giveToWorker giver t hint).2 =
      p.workerRefusal? (p.target giver.location hint) hint := by
  have htarget : (p.target giver.location hint).index < p.workerCount := by
    rw [target]
    split
    · split
      next hm => exact hm
      next => exact hw
    · exact hw
  obtain ⟨s, hs⟩ := seat_of_lt htarget
  have hseat : p.seat? (p.target giver.location hint) = some s := hs
  rw [giveToWorker, workerRefusal?]
  simp only [hseat, Option.bind_some]
  generalize (hint.priority.map UInt32.toNat).getD s.lane.defaultLevel = level
  -- the owner's end and the injected part share one bound
  have hput : faultOf ((if decide (p.target giver.location hint = giver.location) &&
      giver.isOwner then s.lane.insert else s.lane.inject) t level) =
        (s.lane.atLevel level).refusal? := by
    split
    · rw [Levels.insert, faultOf_map, WorkDeque.faultOf_push]
    · rw [Levels.inject, faultOf_map, WorkDeque.faultOf_inject]
  rw [← hput]
  generalize (if decide (p.target giver.location hint = giver.location) &&
    giver.isOwner then s.lane.insert else s.lane.inject) t level = r
  cases r with
  | error e => rfl
  | ok put => rfl

theorem faultOf_giveToGroup (p : Pool) (key : AffinityKey) (i : ArenaIndex) (hg : g.Consistent)
    (t : TaskHandle) : faultOf (p.giveToGroup key i g t).2 = p.groupRefusal? key g := by
  rw [giveToGroup, groupRefusal?]
  by_cases hnew : g.stage = .new
  · -- nothing is queued in a new group, so its deque has room once the group is staged
    obtain ⟨d, hd⟩ := WorkDeque.push_of_tasks_eq_nil (hg.empty_of_new hnew) t
    have hroom : g.queue.refusal? = none := by
      rw [← WorkDeque.faultOf_push g.queue t, hd]
      rfl
    rw [AffinityGroup.insertWith_of_new hnew hd, hroom, if_pos hnew, Option.none_or,
      ← Staging.faultOf_push p.staging key i]
    cases p.staging.push key i with
    | error e => rfl
    | ok staging => rfl
  · rw [AffinityGroup.insertWith_of_ne_new hnew, if_neg hnew, Option.or_none,
      ← WorkDeque.faultOf_push g.queue t]
    cases g.queue.push t with
    | error e => rfl
    | ok d => rfl

/-- A pool in step refuses what it has no room for. -/
theorem faultOf_give (h : p.Linked) (giver : Giver) (t : TaskHandle) (hint : Hint)
    (hw : giver.location.index < p.workerCount) :
    faultOf (p.give giver t hint).2 = p.refusal? giver.location hint := by
  unfold give
  dsimp only
  rw [refusal?, hintedGroup?]
  by_cases haffinity : p.affinity = true
  · rw [if_pos haffinity, if_pos haffinity]
    cases hint.affinity with
    | none => exact faultOf_giveToWorker p giver t hint hw
    | some key =>
        simp only [Option.bind_some, group?]
        cases p.indexOf? key with
        | none => exact faultOf_giveToWorker p giver t hint hw
        | some i =>
            simp only [Option.bind_some]
            cases hg : p.groups.get? i with
            | none => exact faultOf_giveToWorker p giver t hint hw
            | some g => exact faultOf_giveToGroup p key i (h.consistent i g hg) t
  · rw [if_neg haffinity, if_neg haffinity]
    exact faultOf_giveToWorker p giver t hint hw

end Pool

/-! ### Contexts at workers -/

namespace Driver

variable {d : Driver} {c : ContextId} {ctx : Context} {n : Nat} {contexts : List Context}

/-- Contexts of which none is bound to a worker beyond a number of workers. -/
def Lodged (n : Nat) (contexts : List Context) : Prop :=
  ∀ x ∈ contexts, ∀ w, x.location = some w → w.index < n

namespace Lodged

theorem of_context? (h : Lodged n d.contexts) (hctx : d.context? c = some ctx) (w : Location)
    (hw : ctx.location = some w) : w.index < n :=
  h ctx (List.mem_of_getElem? hctx) w hw

theorem set (h : Lodged n contexts) (i : Nat) (hx : ∀ w, ctx.location = some w → w.index < n) :
    Lodged n (contexts.set i ctx) := by
  intro x hmem w hw
  rcases List.mem_or_eq_of_mem_set hmem with hold | rfl
  · exact h x hold w hw
  · exact hx w hw

/-- Each context that is bound in order gets its own position, as long as there are workers. -/
theorem bindFrom (h : Lodged n contexts) (hn : n < UInt32.size) (i : Nat) :
    Lodged n (Driver.bindFrom n i contexts) := by
  induction contexts generalizing i with
  | nil => exact h
  | cons y rest ih =>
      intro x hmem w hw
      rw [Driver.bindFrom] at hmem
      rcases List.mem_cons.1 hmem with rfl | hrest
      · split at hw
        next hfree =>
          cases hw
          rw [Location.index_ofIndex (by omega)]
          exact hfree.1
        next => exact h y List.mem_cons_self w hw
      · exact ih (fun x hx => h x (List.mem_cons_of_mem y hx)) (i + 1) x hrest w hw

end Lodged

theorem lodged_give (h : Lodged n d.contexts) (hlinked : d.pool.Linked) (c : ContextId)
    (t : TaskHandle) (hint : Hint) : Lodged n (d.give c t hint).1.contexts := by
  rcases give_cases hlinked c t hint with
    ⟨pool, ctx, placement, -, -, -, hctx, hgive⟩ | ⟨e, counters, -, -, -, hgive⟩
  · rw [hgive]
    have hlodged := h.of_context? hctx
    exact h.set c.index hlodged
  · rw [hgive]
    exact h

theorem lodged_take (h : Lodged n d.contexts) (c : ContextId) :
    Lodged n (d.take c).1.contexts := by
  rw [take]
  cases hparty : d.party c with
  | error e => exact h
  | ok found =>
      obtain ⟨ctx, w⟩ := found
      have hlodged := h.of_context? (party_eq_ok hparty).1
      dsimp only
      split
      · exact h.set c.index hlodged
      · exact h.set c.index hlodged

theorem lodged_done (h : Lodged n d.contexts) (c : ContextId) (t : TaskHandle) :
    Lodged n (d.done c t).1.contexts := by
  rcases done_cases d c t with ⟨ctx, source, ctx', pool, hctx, hrelease, -, hdone⟩ | ⟨e, he⟩
  · rw [hdone]
    apply h.set c.index
    rw [(release_facts hrelease).2]
    exact h.of_context? hctx
  · rw [he]
    exact h

theorem lodged_registerContext (h : Lodged d.workerCount d.contexts) (c : ContextId)
    (l : Location) : Lodged d.workerCount (d.registerContext c l).1.contexts := by
  rw [registerContext]
  split
  next => exact h
  next hinside =>
    cases hctx : d.context? c with
    | none => exact h
    | some ctx =>
        dsimp only
        cases hbind : ctx.bind l d.workerCount with
        | error e => exact h
        | ok ctx' =>
            apply h.set c.index
            intro w hw
            obtain ⟨⟨cursor, rfl⟩, -⟩ := bind_eq_ok hbind
            cases hw
            exact Nat.lt_of_not_le hinside

theorem lodged_openContext (h : Lodged d.workerCount d.contexts) (l : Location) :
    Lodged d.workerCount (d.openContext l).1.contexts := by
  rw [openContext]
  split
  next => exact h
  next hinside =>
    split
    next => exact h
    next =>
      intro x hmem w hw
      rcases List.mem_append.1 hmem with hold | hnew
      · exact h x hold w hw
      · rw [List.mem_singleton.1 hnew] at hw
        cases hw
        exact Nat.lt_of_not_le hinside

theorem lodged_allocateContexts (h : Lodged n d.contexts) :
    Lodged n d.allocateContexts.contexts := by
  rw [allocateContexts]
  split
  · -- contexts that are new are not bound yet
    intro x hmem w hw
    obtain ⟨i, -, rfl⟩ := List.mem_map.1 hmem
    cases hw
  · exact h

theorem lodged_switchRunlevel (h : Lodged d.workerCount d.contexts)
    (hfew : d.workerCount < UInt32.size) (level : RunLevel) (phase : Nat) (direction : Direction) :
    Lodged d.workerCount (switchRunlevel level phase direction d).1.contexts := by
  simp only [switchRunlevel]
  split
  · exact lodged_allocateContexts h
  · exact h.bindFrom hfew 0
  · exact h
  · exact fun x hx => absurd hx List.not_mem_nil
  · exact h

/-- A driver whose pool is in step and whose contexts are bound, if at all, to its own workers. -/
structure Housed (d : Driver) : Prop where
  tidy : d.Tidy
  few : d.workerCount < UInt32.size
  lodged : Lodged d.workerCount d.contexts

/-- No call hires or dismisses a worker. -/
theorem workerCount_call (h : d.Tidy) (call : Call) :
    (d.call call).1.workerCount = d.workerCount := by
  by_cases hkeep : call.keepsContexts = true
  · -- the books of the driver that has counted anew are those of this one
    have halike := ((alike_recounted d).call call).1
    have hbooks := books_call h.sound_recounted hkeep
    exact halike.workerCount.symm.trans hbooks.workers
  · obtain ⟨phase, rfl⟩ := Call.memoryDown_of_not_keepsContexts hkeep
    rfl

theorem lodged_call (h : d.Housed) (call : Call) :
    Lodged d.workerCount (d.call call).1.contexts := by
  cases call with
  | give c t hint => exact lodged_give h.lodged h.tidy.linked c t hint
  | giveResolved c t =>
      show Lodged d.workerCount (d.giveResolved c t).1.contexts
      rw [giveResolved]
      split
      · exact h.lodged
      · exact lodged_give h.lodged h.tidy.linked c t _
  | take c => exact lodged_take h.lodged c
  | takeBatch c most =>
      exact takeBatch_induction (P := fun d' => Lodged d.workerCount d'.contexts)
        (fun d' hd' => lodged_take hd' c) most h.lodged
  | done c t => exact lodged_done h.lodged c t
  | registerContext c l => exact lodged_registerContext h.lodged c l
  | openContext l => exact lodged_openContext h.lodged l
  | createGroup key => exact h.lodged
  | retireGroup key => exact h.lodged
  | switchRunlevel level phase direction =>
      exact lodged_switchRunlevel h.lodged h.few level phase direction
  | resolve resolver => exact h.lodged
  | park doorkeeper => exact h.lodged

theorem Housed.call (h : d.Housed) (call : Call) : (d.call call).1.Housed := by
  have hworkers := workerCount_call h.tidy call
  refine ⟨(within_call h.tidy call).tidy, ?_, ?_⟩
  · rw [hworkers]
    exact h.few
  · rw [hworkers]
    exact lodged_call h call

theorem Housed.run {h : History} (hhoused : h.driver.Housed) (calls : List Call) :
    (h.run calls).driver.Housed := by
  -- induction on the calls still to come
  induction calls generalizing h with
  | nil => exact hhoused
  | cons call rest ih => exact ih (h := h.step call) (hhoused.call call)

/-- A new driver has no contexts, and not more workers than there are locations. -/
theorem housed_of_new {config : SchedulerConfig} {auto : Nat}
    (h : Driver.new config auto = .ok d) : d.Housed := by
  refine ⟨(sound_of_new h).1.tidy, ?_, ?_⟩
  · have hvalid : config.validate auto = .ok () := by
      rw [Driver.new] at h
      split at h
      next hok => exact hok
      next => cases h
    obtain ⟨-, -, -, hfew⟩ := (config.validate_eq_ok_iff auto).1 hvalid
    rw [new_eq_ok h, workerCount, Pool.workerCount_new]
    exact hfew
  · rw [new_eq_ok h]
    exact fun x hx => absurd hx List.not_mem_nil

/-! ### Refusals -/

/-- Why a driver would refuse a task, by the first reason that applies. -/
def refusal? (d : Driver) (c : ContextId) (t : TaskHandle) (hint : Hint) : Option SchedError :=
  if t.isNone then some (.violation (.emptyHandle c))
  else if !d.accepting then some (.notRunning "give")
  else
    match d.context? c with
    | none => some (.unknownContext c)
    | some ctx =>
      match ctx.location with
      | none => some (.violation (.unbound ctx.id))
      | some w => d.pool.refusal? w hint

/-- The driver after it has refused a task. One that it meant to let in has added to the largest
load that it knows of; all else is as it was. -/
def refused (d : Driver) (t : TaskHandle) : Driver :=
  { d with
    counters.maxLoad :=
      if t.isNone || !d.accepting then d.counters.maxLoad
      else max d.counters.maxLoad (d.outstanding + 1) }

/-- A placement fails for want of a worker or of room. -/
theorem faultOf_place (h : d.Housed) (c : ContextId) (t : TaskHandle) (hint : Hint) :
    faultOf (d.place c t hint).2 =
      match d.context? c with
      | none => some (.unknownContext c)
      | some ctx =>
        match ctx.location with
        | none => some (.violation (.unbound ctx.id))
        | some w => d.pool.refusal? w hint := by
  rw [place, party]
  cases hctx : d.context? c with
  | none => rfl
  | some ctx =>
      simp only [Context.worker]
      cases hw : ctx.location with
      | none => rfl
      | some w =>
          have hlt := h.lodged.of_context? hctx w hw
          -- owner or service, the giver stands at the context's worker
          generalize hgiver : (if ctx.id.index < d.workerCount then Giver.owner w
            else Giver.service w) = giver
          have hlocation : giver.location = w := by
            rw [← hgiver]
            split <;> rfl
          have hfault := Pool.faultOf_give h.tidy.linked giver t hint (hlocation ▸ hlt)
          rw [hlocation] at hfault
          simp only [Except.map, hgiver]
          rw [← hfault]
          cases d.pool.give giver t hint with
          | mk pool r =>
              cases r with
              | error e => rfl
              | ok placement => rfl

theorem faultOf_give (h : d.Housed) (c : ContextId) (t : TaskHandle) (hint : Hint) :
    faultOf (d.give c t hint).2 = d.refusal? c t hint := by
  rw [give, refusal?]
  split
  · rfl
  split
  · rfl
  -- the load is counted before the task is placed, and decides nothing
  have hentered : ({ d with counters := d.counters.entered } : Driver).Housed :=
    ⟨⟨h.tidy.linked, h.tidy.named⟩, h.few, h.lodged⟩
  have hfault := faultOf_place hentered c t hint
  rw [show ({ d with counters := d.counters.entered } : Driver).context? c = d.context? c from rfl]
    at hfault
  rw [← hfault]
  cases place { d with counters := d.counters.entered } c t hint with
  | mk d' r =>
      cases r with
      | error e => rfl
      | ok placement => rfl

/-- The task that was counted in is counted out again when it finds no place. -/
theorem give_eq_of_error (h : d.pool.Linked) {c : ContextId} {t : TaskHandle} {hint : Hint}
    {e : SchedError} (he : (d.give c t hint).2 = .error e) :
    (d.give c t hint).1 = d.refused t := by
  rw [give] at he ⊢
  rw [refused]
  by_cases hnone : t.isNone = true
  · rw [if_pos hnone, if_pos (by rw [hnone, Bool.true_or])]
  rw [if_neg hnone] at he ⊢
  by_cases hclosed : (!d.accepting) = true
  · rw [if_pos hclosed, if_pos (by rw [hclosed, Bool.or_true])]
  rw [if_neg hclosed] at he ⊢
  rw [if_neg (by simp [hnone, hclosed])]
  have hlinked : ({ d with counters := d.counters.entered } : Driver).pool.Linked := h
  rcases place_cases hlinked c t hint with ⟨placement, pool, ctx, hplace, -, -⟩ | ⟨e', hplace⟩
  · rw [hplace] at he
    cases he
  · rw [hplace]
    rfl

/-- A give fails exactly when it must, and at once. On every driver that a row of calls has led to,
up, down or between, a give of any task with any hint fails with an error exactly if that error is
the first reason to refuse the task. The driver is then as it was, in its pool, its contexts and all
that it counts but the largest load. No give leaves a group staged without a task. -/
theorem give_refused_iff {config : SchedulerConfig} {auto : Nat} {d₀ : Driver}
    (hnew : Driver.new config auto = .ok d₀) (calls : List Call) (c : ContextId) (t : TaskHandle)
    (hint : Hint) :
    let d := (({ driver := d₀ } : History).run calls).driver
    (∀ e, (d.give c t hint).2 = .error e ↔ d.refusal? c t hint = some e) ∧
      (∀ e, (d.give c t hint).2 = .error e →
        (d.give c t hint).1 = d.refused t) ∧
      ∀ i g, (d.give c t hint).1.pool.groups.get? i = some g → g.stage = .staged →
        g.tasks ≠ [] := by
  intro d
  have hhoused : d.Housed := (housed_of_new hnew).run calls
  refine ⟨?_, ?_, ?_⟩
  · intro e
    rw [← faultOf_give hhoused]
    exact eq_error_iff_faultOf
  · intro e he
    exact give_eq_of_error hhoused.tidy.linked he
  · intro i g hg
    have hafter := (within_call hhoused.tidy (.give c t hint)).tidy.linked
    exact (hafter.consistent i g hg).busy_of_staged

/-- Two groups share the only place on the shelf. With one of them staged, the first task of the
other is refused. -/
theorem give_refused_iff_shelf_full :
    let config : SchedulerConfig := { SchedulerConfig.withWorkers 1 with stagingSlotCapacity := 1 }
    let d₀ : Driver := { config := config, pool := .new config 1 }
    let calls : List Call :=
      [.switchRunlevel .memoryOk 0 .up, .switchRunlevel .computeOk 0 .up, .createGroup ⟨5⟩,
        .createGroup ⟨6⟩, .give ⟨0⟩ ⟨70⟩ (.ofAffinity ⟨5⟩)]
    let d := (({ driver := d₀ } : History).run calls).driver
    Driver.new config 1 = .ok d₀ ∧
      (d.give ⟨0⟩ ⟨71⟩ (.ofAffinity ⟨6⟩)).2 = .error (.capacityExhausted "staging slot" 1) ∧
      (d.give ⟨0⟩ ⟨71⟩ (.ofAffinity ⟨6⟩)).1 = d.refused ⟨71⟩ := by
  intro config d₀ calls d
  have hnew : Driver.new config 1 = .ok d₀ := rfl
  obtain ⟨hreason, hsame, -⟩ := give_refused_iff hnew calls ⟨0⟩ ⟨71⟩ (.ofAffinity ⟨6⟩)
  have hfull : d.refusal? ⟨0⟩ ⟨71⟩ (.ofAffinity ⟨6⟩) =
      some (.capacityExhausted "staging slot" 1) := by
    decide +kernel
  have hrefused := (hreason _).2 hfull
  exact ⟨hnew, hrefused, hsame _ hrefused⟩

end Driver

end WorkStealing
