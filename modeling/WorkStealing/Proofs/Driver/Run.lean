import WorkStealing.Proofs.Driver.Calls

/-!
# Runs of a driver

A history is a driver together with the handles that were given to it and the handles that were
reported done, each time a call succeeded. After every run of calls the given handles are those in
the pool, those in flight and those reported, each as often as it was given (`given_eq_held`).
-/

namespace WorkStealing.Driver

/-- The calls that change a driver. The resolver and the listener belong to others, who may change
them between calls. -/
inductive Call where
  | give (c : ContextId) (t : TaskHandle) (hint : Hint)
  | giveResolved (c : ContextId) (t : TaskHandle)
  | take (c : ContextId)
  | takeBatch (c : ContextId) (most : Nat)
  | done (c : ContextId) (t : TaskHandle)
  | registerContext (c : ContextId) (l : Location)
  | openContext (l : Location)
  | createGroup (key : AffinityKey)
  | retireGroup (key : AffinityKey)
  | switchRunlevel (level : RunLevel) (phase : Nat) (direction : Direction)
  | resolve (resolver : Option Resolver)
  | park (doorkeeper : Option Doorkeeper)

namespace Call

/-- Whether a call leaves the contexts in memory. -/
def keepsContexts : Call → Bool
  | .switchRunlevel level _ direction => !(level = .memoryOk && direction = .down)
  | _ => true

end Call

/-- The driver after a call, with the handles that the call gave and those that it reported done. A
call that fails does neither. -/
def call (d : Driver) : Call → Driver × List TaskHandle × List TaskHandle
  | .give c t hint => ((d.give c t hint).1, ifOk (d.give c t hint).2 [t], [])
  | .giveResolved c t => ((d.giveResolved c t).1, ifOk (d.giveResolved c t).2 [t], [])
  | .take c => ((d.take c).1, [], [])
  | .takeBatch c most => ((takeBatch c most d).1, [], [])
  | .done c t => ((d.done c t).1, [], ifOk (d.done c t).2 [t])
  | .registerContext c l => ((d.registerContext c l).1, [], [])
  | .openContext l => ((d.openContext l).1, [], [])
  | .createGroup key => (d.createGroup key, [], [])
  | .retireGroup key => ((d.retireGroup key).1, [], [])
  | .switchRunlevel level phase direction =>
    ((Driver.switchRunlevel level phase direction d).1, [], [])
  | .resolve resolver => ({ d with resolver := resolver }, [], [])
  | .park doorkeeper => ({ d with doorkeeper := doorkeeper }, [], [])

/-- A driver and the handles that went in and out of it, the latest first. -/
structure History where
  driver : Driver
  given : List TaskHandle := []
  finished : List TaskHandle := []

namespace History

/-- The history after one more call. -/
def step (h : History) (call : Call) : History :=
  let (d, given, finished) := h.driver.call call
  { driver := d, given := given ++ h.given, finished := finished ++ h.finished }

def run (h : History) (calls : List Call) : History := calls.foldl step h

end History

variable {d d₀ : Driver}

/-- Each call enters in the books what it says it gives and reports. -/
theorem books_call (h : d.Sound) {call : Call} (hkeep : call.keepsContexts = true) :
    Books d (d.call call).1 (d.call call).2.1 (d.call call).2.2 := by
  cases call with
  | give c t hint => exact books_give h c t hint
  | giveResolved c t => exact books_giveResolved h c t
  | take c => exact books_take h c
  | takeBatch c most => exact books_takeBatch h c most
  | done c t => exact books_done h c t
  | registerContext c l => exact books_registerContext h c l
  | openContext l => exact books_openContext h l
  | createGroup key => exact books_createGroup h key
  | retireGroup key => exact books_retireGroup h key
  | switchRunlevel level phase direction =>
      apply books_switchRunlevel h level phase direction
      rintro ⟨rfl, rfl⟩
      cases hkeep
  | resolve resolver => exact (Books.refl h).of_eq rfl rfl rfl rfl rfl
  | park doorkeeper => exact (Books.refl h).of_eq rfl rfl rfl rfl rfl

/-- A run enters in the books what it gives and reports. -/
theorem books_run {h : History} (hbooks : Books d₀ h.driver h.given h.finished)
    {calls : List Call} (hkeep : ∀ call ∈ calls, call.keepsContexts = true) :
    Books d₀ (h.run calls).driver (h.run calls).given (h.run calls).finished := by
  -- induction on the calls still to come; the books so far are part of the history
  induction calls generalizing h with
  | nil => exact hbooks
  | cons call rest ih =>
      refine ih (h := h.step call) ?_ fun x hx => hkeep x (List.mem_cons_of_mem call hx)
      have hstep := hbooks.trans (books_call hbooks.sound (hkeep call List.mem_cons_self))
      -- the latest call stands first in the history
      rw [add_comm (h.given : Multiset TaskHandle), add_comm (h.finished : Multiset TaskHandle)]
        at hstep
      exact hstep

/-! ### From the start -/

/-- All runlevels are up when the contexts are made and bound and tasks are accepted. -/
theorem started_eq (d : Driver) :
    d.started = ({ d.allocateContexts.bindContexts with accepting := true }, .ok ()) := rfl

theorem new_eq_ok {c : SchedulerConfig} {auto : Nat} (h : Driver.new c auto = .ok d) :
    d = { config := c, pool := .new c auto } := by
  rw [Driver.new] at h
  split at h
  · cases h
    rfl
  · cases h

/-- A new driver holds nothing and has counted nothing. -/
theorem sound_of_new {c : SchedulerConfig} {auto : Nat} (h : Driver.new c auto = .ok d) :
    d.Sound ∧ d.held = 0 ∧ d.counters = {} := by
  rw [Driver.new] at h
  split at h
  next =>
    cases h
    -- nothing is queued and there are no contexts yet
    have hheld : ({ config := c, pool := .new c auto } : Driver).held = 0 := by
      show ((Pool.new c auto).tasks : Multiset TaskHandle) + 0 = 0
      rw [Pool.tasks_new]
      rfl
    refine ⟨⟨Pool.linked_new c auto, ?_, ?_⟩, hheld, rfl⟩
    · rw [hheld]
      rfl
    · rw [hheld]
      exact fun t ht => absurd ht (Multiset.notMem_zero t)
  next => cases h

/-- Bring-up enters nothing in the books of a new driver, whatever listens to it. -/
theorem books_started {c : SchedulerConfig} {auto : Nat} (h : Driver.new c auto = .ok d)
    (resolver : Option Resolver) (doorkeeper : Option Doorkeeper) :
    Books d ({ d with resolver := resolver, doorkeeper := doorkeeper } : Driver).started.1 0 0 := by
  have hfirst : Books d { d with resolver := resolver, doorkeeper := doorkeeper } 0 0 :=
    (Books.refl (sound_of_new h).1).of_eq rfl rfl rfl rfl rfl
  have hmake := hfirst.trans (books_allocateContexts hfirst.sound)
  have hbind := hmake.trans (books_bindContexts hmake.sound)
  rw [started_eq]
  exact hbind.of_eq rfl rfl rfl rfl rfl

theorem card_inFlight (d : Driver) :
    d.inFlight.card = (d.contexts.map fun x => x.inFlight.length).sum := by
  simp [inFlight, Context.holding, List.length_flatMap]

/-- Exactly-once bookkeeping. After every run of calls on a started driver, by any contexts, with
any hints and any handles, some of them failing, the handles given are those in the pool, those in
flight and those reported done, each as often as it was given; the driver's counters say so. Only
a switch that takes memory down is left out, as it frees the contexts with what is in flight. -/
theorem given_eq_held {c : SchedulerConfig} {auto : Nat} (hnew : Driver.new c auto = .ok d)
    (resolver : Option Resolver) (doorkeeper : Option Doorkeeper) (calls : List Call)
    (hkeep : ∀ call ∈ calls, call.keepsContexts = true) :
    let start : History :=
      { driver := ({ d with resolver := resolver, doorkeeper := doorkeeper } : Driver).started.1 }
    let h := start.run calls
    (h.given : Multiset TaskHandle) =
        (h.driver.pool.tasks : Multiset TaskHandle) + h.driver.inFlight + h.finished ∧
      (∃ queued, h.driver.count .all = .exact queued ∧
        h.driver.outstanding =
          queued + (h.driver.contexts.map fun x => x.inFlight.length).sum) ∧
      h.driver.counters.gives = h.given.length ∧ h.driver.counters.done = h.finished.length ∧
      h.driver.outstanding + h.driver.counters.done = h.driver.counters.gives := by
  intro start h
  obtain ⟨-, hzero, hcounters⟩ := sound_of_new hnew
  have hbooks : Books d h.driver h.given h.finished :=
    books_run (h := start) (books_started hnew resolver doorkeeper) hkeep
  -- before the first call nothing was held and nothing counted
  have hbalance := hbooks.balance
  have hgives := hbooks.gives
  have hdone := hbooks.done
  rw [hzero, zero_add] at hbalance
  rw [hcounters, Multiset.coe_card] at hgives hdone
  have hgives' : h.driver.counters.gives = h.given.length := hgives.trans (Nat.zero_add _)
  have hdone' : h.driver.counters.done = h.finished.length := hdone.trans (Nat.zero_add _)
  have hcard := congrArg Multiset.card hbalance
  rw [Multiset.card_add, Multiset.coe_card, Multiset.coe_card, ← hbooks.sound.outstanding] at hcard
  refine ⟨hbalance.symm, ⟨h.driver.pool.tasks.length, Pool.count_all _, ?_⟩, hgives', hdone', ?_⟩
  · rw [← card_inFlight, outstanding, hbooks.sound.outstanding, held, Multiset.card_add]
    rfl
  · rw [hgives', hdone']
    exact hcard

/-- One handle given twice by two workers, taken once by a steal and reported once; a report by a
worker that never took it and a give by a context that does not exist fail. -/
theorem given_eq_held_twice :
    let d : Driver := { config := .withWorkers 2, pool := .new (.withWorkers 2) 1 }
    let calls : List Call :=
      [.give ⟨0⟩ ⟨7⟩ {}, .give ⟨1⟩ ⟨7⟩ (.ofMapping ⟨0⟩), .take ⟨1⟩, .done ⟨0⟩ ⟨7⟩, .done ⟨1⟩ ⟨7⟩,
        .give ⟨5⟩ ⟨9⟩ {}]
    let start : History :=
      { driver := ({ d with resolver := none, doorkeeper := none } : Driver).started.1 }
    let h := start.run calls
    (Driver.new (.withWorkers 2) 1 = .ok d ∧ ∀ call ∈ calls, call.keepsContexts = true) ∧
      h.given = [⟨7⟩, ⟨7⟩] ∧ h.finished = [⟨7⟩] ∧
      (h.given : Multiset TaskHandle) =
        (h.driver.pool.tasks : Multiset TaskHandle) + h.driver.inFlight + h.finished := by
  refine ⟨⟨rfl, by decide⟩, by decide, by decide, ?_⟩
  have hnew : Driver.new (.withWorkers 2) 1 =
      .ok { config := .withWorkers 2, pool := .new (.withWorkers 2) 1 } := rfl
  exact (given_eq_held hnew none none _ (by decide)).1

end WorkStealing.Driver
