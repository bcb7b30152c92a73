import WorkStealing.Driver.Lifecycle
import WorkStealing.Proofs.Pool.Calls
import WorkStealing.Proofs.Pool.Search

/-!
# The books of a driver

A driver holds a task from the give that lets it in to the report that lets it go: in the pool, or
in flight at a context. `Driver.Books` relates a driver to the one after a call by what the call let
in and let go; each call has one lemma that says so, and `Books.trans` adds them up.

The relation also keeps what later calls rely on: a pool in step, a count of outstanding tasks that
is the number of tasks held, and contexts that stay where they are.
-/

namespace WorkStealing

/-- The tasks that a context has taken and not yet reported, each as often as it was taken. -/
def Context.holding (c : Context) : List TaskHandle := c.inFlight.map Taken.task

namespace Driver

/-- The tasks in flight at all contexts. -/
def inFlight (d : Driver) : Multiset TaskHandle := (d.contexts.flatMap Context.holding : List _)

/-- Everything queued and everything in flight. -/
def held (d : Driver) : Multiset TaskHandle := d.pool.held + d.inFlight

/-- A driver whose count is right and whose tasks all stand for something. -/
structure Sound (d : Driver) : Prop where
  linked : d.pool.Linked
  outstanding : d.counters.outstanding = d.held.card
  named : ∀ t ∈ d.held, t.isNone = false

/-- A driver and the one after a call that let some tasks in and some go. -/
structure Books (d d' : Driver) (added removed : Multiset TaskHandle) : Prop where
  sound : d'.Sound
  balance : d'.held + removed = d.held + added
  gives : d'.counters.gives = d.counters.gives + added.card
  done : d'.counters.done = d.counters.done + removed.card
  workers : d'.workerCount = d.workerCount
  located : ∀ c ctx l, d.context? c = some ctx → ctx.location = some l →
    ∃ ctx', d'.context? c = some ctx' ∧ ctx'.location = some l

variable {d d' d'' : Driver} {c : ContextId} {ctx ctx' : Context} {t : TaskHandle}
  {a b r s : Multiset TaskHandle}

namespace Books

theorem refl (h : d.Sound) : Books d d 0 0 where
  sound := h
  balance := rfl
  gives := rfl
  done := rfl
  workers := rfl
  located _ ctx _ hc hl := ⟨ctx, hc, hl⟩

theorem trans (h : Books d d' a r) (h' : Books d' d'' b s) : Books d d'' (a + b) (r + s) where
  sound := h'.sound
  balance := by
    rw [add_comm r, ← add_assoc, h'.balance, add_right_comm, h.balance, add_assoc]
  gives := by rw [h'.gives, h.gives, Multiset.card_add, add_assoc]
  done := by rw [h'.done, h.done, Multiset.card_add, add_assoc]
  workers := h'.workers.trans h.workers
  located c ctx l hc hl := by
    obtain ⟨x, hx, hxl⟩ := h.located c ctx l hc hl
    exact h'.located c x l hx hxl

/-- A count that follows the tasks held stays right, and tasks that are let in are named. -/
theorem of_balance (h : d.Sound) (hlinked : d'.pool.Linked) (hnamed : ∀ t ∈ a, t.isNone = false)
    (hcount : d'.counters.outstanding + r.card = d.counters.outstanding + a.card)
    (balance : d'.held + r = d.held + a)
    (gives : d'.counters.gives = d.counters.gives + a.card)
    (done : d'.counters.done = d.counters.done + r.card)
    (workers : d'.workerCount = d.workerCount)
    (located : ∀ c ctx l, d.context? c = some ctx → ctx.location = some l →
      ∃ ctx', d'.context? c = some ctx' ∧ ctx'.location = some l) : Books d d' a r := by
  -- the balance gives the count by cardinality and the names by membership
  refine ⟨⟨hlinked, ?_, fun t ht => ?_⟩, balance, gives, done, workers, located⟩
  · have hcard := congrArg Multiset.card balance
    rw [Multiset.card_add, Multiset.card_add, ← h.outstanding] at hcard
    omega
  · have hmem : t ∈ d.held + a := balance ▸ Multiset.mem_add.2 (.inl ht)
    rcases Multiset.mem_add.1 hmem with hold | hnew
    · exact h.named t hold
    · exact hnamed t hnew

/-- A call that neither lets tasks in nor lets them go, and counts nothing. -/
theorem of_held_eq (h : d.Sound) (hlinked : d'.pool.Linked)
    (hcount : d'.counters.outstanding = d.counters.outstanding) (hheld : d'.held = d.held)
    (gives : d'.counters.gives = d.counters.gives) (done : d'.counters.done = d.counters.done)
    (workers : d'.workerCount = d.workerCount)
    (located : ∀ c ctx l, d.context? c = some ctx → ctx.location = some l →
      ∃ ctx', d'.context? c = some ctx' ∧ ctx'.location = some l) : Books d d' 0 0 :=
  of_balance h hlinked (fun t ht => absurd ht (Multiset.notMem_zero t)) (congrArg (· + 0) hcount)
    (congrArg (· + 0) hheld) gives done workers located

/-- The state of listeners and counters that nobody counts with is free. -/
theorem of_eq (h : Books d d' a r) (hpool : d''.pool = d'.pool)
    (hcontexts : d''.contexts = d'.contexts)
    (houtstanding : d''.counters.outstanding = d'.counters.outstanding)
    (hgives : d''.counters.gives = d'.counters.gives)
    (hdone : d''.counters.done = d'.counters.done) : Books d d'' a r := by
  have hheld : d''.held = d'.held := by rw [held, held, inFlight, inFlight, hpool, hcontexts]
  refine ⟨⟨hpool ▸ h.sound.linked, ?_, ?_⟩, ?_, ?_, ?_, ?_, ?_⟩
  · rw [houtstanding, hheld, h.sound.outstanding]
  · rw [hheld]
    exact h.sound.named
  · rw [hheld, h.balance]
  · rw [hgives, h.gives]
  · rw [hdone, h.done]
  · rw [workerCount, hpool]
    exact h.workers
  · intro c ctx l hc hl
    rw [context?, hcontexts]
    exact h.located c ctx l hc hl

end Books

/-! ### Contexts -/

theorem context?_setContext (h : d.context? c = some ctx) (ctx' : Context) (e : ContextId) :
    (d.setContext c ctx').context? e = if e.index = c.index then some ctx' else d.context? e := by
  have hlt := (List.getElem?_eq_some_iff.1 h).1
  simp only [setContext, context?]
  by_cases he : e.index = c.index
  · rw [if_pos he, he, List.getElem?_set_self hlt]
  · rw [if_neg he, List.getElem?_set_ne (Ne.symm he)]

theorem inFlight_setContext (h : d.context? c = some ctx) (ctx' : Context) :
    (d.setContext c ctx').inFlight + (ctx.holding : Multiset TaskHandle) =
      d.inFlight + (ctx'.holding : Multiset TaskHandle) := by
  rw [inFlight, inFlight, coe_flatMap, coe_flatMap]
  exact sum_map_set (fun x : Context => (x.holding : Multiset TaskHandle)) h ctx'

/-- A context that stays at its worker may take the place of another. -/
theorem located_setContext (h : d.context? c = some ctx)
    (hl : ∀ l, ctx.location = some l → ctx'.location = some l) (e : ContextId) (x : Context)
    (l : Location) (hx : d.context? e = some x) (hxl : x.location = some l) :
    ∃ x', (d.setContext c ctx').context? e = some x' ∧ x'.location = some l := by
  rw [context?_setContext h]
  by_cases he : e.index = c.index
  · -- the context that is replaced is the one that was looked up
    have hsame : some x = some ctx := hx.symm.trans ((congrArg (d.contexts[·]?) he).trans h)
    cases hsame
    exact ⟨ctx', if_pos he, hl l hxl⟩
  · exact ⟨x, by rw [if_neg he, hx], hxl⟩

theorem party_eq_ok {w : Location} (h : d.party c = .ok (ctx, w)) :
    d.context? c = some ctx ∧ ctx.location = some w := by
  rw [party] at h
  cases hc : d.context? c with
  | none =>
      rw [hc] at h
      cases h
  | some x =>
      rw [hc] at h
      simp only [Context.worker] at h
      cases hl : x.location with
      | none =>
          simp only [hl] at h
          cases h
      | some l =>
          simp only [hl] at h
          cases h
          exact ⟨rfl, hl⟩

end Driver

end WorkStealing
