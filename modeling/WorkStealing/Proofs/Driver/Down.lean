import WorkStealing.Proofs.Driver.Service

/-!
# Drivers that may go down

When memory goes down the contexts go with what they had in flight, and the count of outstanding
tasks is off from then on. What stays true of a driver under every call is that its pool is in step
and that it holds no more than was let in (`within_call`). The counters decide nothing that a call
does with tasks (`call_withCounters`), so the books of a driver whose count is right speak for the
others too.
-/

namespace WorkStealing.Driver

variable {d d' d'' : Driver} {c : ContextId} {ctx : Context} {t : TaskHandle}
  {ts : List TaskHandle} {a b r s : Multiset TaskHandle}

/-- A driver whose pool is in step and whose tasks all stand for something. -/
structure Tidy (d : Driver) : Prop where
  linked : d.pool.Linked
  named : ∀ t ∈ d.held, t.isNone = false

theorem Sound.tidy (h : d.Sound) : d.Tidy := ⟨h.linked, h.named⟩

/-- A driver and one after it that holds no more than what came in and did not go. -/
structure Within (d d' : Driver) (added removed : Multiset TaskHandle) : Prop where
  tidy : d'.Tidy
  bound : d'.held + removed ≤ d.held + added

namespace Within

theorem refl (h : d.Tidy) : Within d d 0 0 := ⟨h, le_refl _⟩

theorem trans (h : Within d d' a r) (h' : Within d' d'' b s) : Within d d'' (a + b) (r + s) where
  tidy := h'.tidy
  bound :=
    calc d''.held + (r + s)
      _ = d''.held + s + r := by rw [add_comm r, add_assoc]
      _ ≤ d'.held + b + r := Multiset.add_le_add_right h'.bound
      _ = d'.held + r + b := add_right_comm _ _ _
      _ ≤ d.held + a + b := Multiset.add_le_add_right h.bound
      _ = d.held + (a + b) := add_assoc _ _ _

/-- More may have come in than was let in. -/
theorem of_le (h : Within d d' a r) (hle : a ≤ b) : Within d d' b r where
  tidy := h.tidy
  bound := h.bound.trans (Multiset.add_le_add_left hle)

end Within

/-! ### Counters decide nothing -/

/-- Two drivers that differ at most in what they count and in who listens. -/
structure Alike (d d' : Driver) : Prop where
  pool : d'.pool = d.pool
  contexts : d'.contexts = d.contexts
  accepting : d'.accepting = d.accepting
  resolver : d'.resolver = d.resolver

/-- A call leaves two such drivers alike and tells both callers the same. -/
def Agree {α : Type} (x y : Driver × α) : Prop := Alike x.1 y.1 ∧ y.2 = x.2

namespace Alike

variable (h : Alike d d')

include h

theorem held : d'.held = d.held := by
  rw [Driver.held, Driver.held, inFlight, inFlight, h.pool, h.contexts]

theorem tidy (hd : d.Tidy) : d'.Tidy := by
  refine ⟨?_, ?_⟩
  · rw [h.pool]
    exact hd.linked
  · rw [h.held]
    exact hd.named

theorem workerCount : d'.workerCount = d.workerCount := by
  rw [Driver.workerCount, Driver.workerCount, h.pool]

theorem context? (c : ContextId) : d'.context? c = d.context? c := by
  rw [Driver.context?, Driver.context?, h.contexts]

theorem party (c : ContextId) : d'.party c = d.party c := by
  rw [Driver.party, Driver.party, h.context?]

/-- Alike drivers that get the same pool and the same context stay alike, whatever they count. -/
theorem setContext (pool : Pool) (k k' : Counters) (c : ContextId) (ctx : Context) :
    Alike (({ d with pool := pool, counters := k } : Driver).setContext c ctx)
      (({ d' with pool := pool, counters := k' } : Driver).setContext c ctx) where
  pool := rfl
  contexts := congrArg (List.set · c.index ctx) h.contexts
  accepting := h.accepting
  resolver := h.resolver

theorem withPool (pool : Pool) : Alike { d with pool := pool } { d' with pool := pool } where
  pool := rfl
  contexts := h.contexts
  accepting := h.accepting
  resolver := h.resolver

theorem withContexts (contexts : List Context) :
    Alike { d with contexts := contexts } { d' with contexts := contexts } where
  pool := h.pool
  contexts := rfl
  accepting := h.accepting
  resolver := h.resolver

/-- What two drivers count and who listens to them is free. -/
theorem of_counters {d₁ d₁' : Driver} (h₁ : d₁.pool = d.pool ∧ d₁.contexts = d.contexts ∧
      d₁.accepting = d.accepting ∧ d₁.resolver = d.resolver)
    (h₂ : d₁'.pool = d'.pool ∧ d₁'.contexts = d'.contexts ∧ d₁'.accepting = d'.accepting ∧
      d₁'.resolver = d'.resolver) : Alike d₁ d₁' where
  pool := h₂.1.trans (h.pool.trans h₁.1.symm)
  contexts := h₂.2.1.trans (h.contexts.trans h₁.2.1.symm)
  accepting := h₂.2.2.1.trans (h.accepting.trans h₁.2.2.1.symm)
  resolver := h₂.2.2.2.trans (h.resolver.trans h₁.2.2.2.symm)

theorem place (c : ContextId) (t : TaskHandle) (hint : Hint) :
    Agree (d.place c t hint) (d'.place c t hint) := by
  rw [Driver.place, Driver.place, h.party]
  cases d.party c with
  | error e => exact ⟨h, rfl⟩
  | ok found =>
      obtain ⟨ctx, source⟩ := found
      dsimp only
      rw [h.workerCount, h.pool]
      generalize (if ctx.id.index < d.workerCount then Giver.owner source
        else Giver.service source) = giver
      cases d.pool.give giver t hint with
      | mk pool r =>
          cases r with
          | error e => exact ⟨h.withPool pool, rfl⟩
          | ok placement => exact ⟨h.setContext pool _ _ c ctx.recordGiven, rfl⟩

theorem give (c : ContextId) (t : TaskHandle) (hint : Hint) :
    Agree (d.give c t hint) (d'.give c t hint) := by
  have hgate : (!d'.accepting) = (!d.accepting) := congrArg not h.accepting
  rw [Driver.give, Driver.give]
  by_cases hnone : t.isNone = true
  · rw [if_pos hnone, if_pos hnone]
    exact ⟨h, rfl⟩
  rw [if_neg hnone, if_neg hnone]
  by_cases hclosed : (!d.accepting) = true
  · rw [if_pos hclosed, if_pos (hgate.trans hclosed)]
    exact ⟨h, rfl⟩
  rw [if_neg hclosed, if_neg (hgate ▸ hclosed)]
  -- one more task is counted on both sides before it is placed
  have hentered : Alike { d with counters := d.counters.entered }
      { d' with counters := d'.counters.entered } :=
    h.of_counters ⟨rfl, rfl, rfl, rfl⟩ ⟨rfl, rfl, rfl, rfl⟩
  obtain ⟨halike, hresult⟩ := hentered.place c t hint
  revert halike hresult
  cases Driver.place { d with counters := d.counters.entered } c t hint with
  | mk d₁ r =>
      cases Driver.place { d' with counters := d'.counters.entered } c t hint with
      | mk d₁' r' =>
          rintro halike rfl
          cases r' with
          | error e => exact ⟨halike.of_counters ⟨rfl, rfl, rfl, rfl⟩ ⟨rfl, rfl, rfl, rfl⟩, rfl⟩
          | ok placement =>
              exact ⟨halike.of_counters ⟨rfl, rfl, rfl, rfl⟩ ⟨rfl, rfl, rfl, rfl⟩, rfl⟩

theorem giveResolved (c : ContextId) (t : TaskHandle) :
    Agree (d.giveResolved c t) (d'.giveResolved c t) := by
  rw [Driver.giveResolved, Driver.giveResolved, h.resolver]
  cases d.resolver with
  | none => exact ⟨h, rfl⟩
  | some r => exact h.give c t (r.hintFor t)

theorem take (c : ContextId) : Agree (d.take c) (d'.take c) := by
  rw [Driver.take, Driver.take, h.party, h.pool]
  cases d.party c with
  | error e => exact ⟨h, rfl⟩
  | ok found =>
      obtain ⟨ctx, w⟩ := found
      dsimp only
      cases d.pool.take w ctx.cursor with
      | mk pool r =>
          obtain ⟨cursor, r⟩ := r
          cases r with
          | none =>
              have hset := h.setContext pool d.counters d'.counters c
                ({ ctx with cursor := cursor } : Context).recordEmpty
              exact ⟨hset.of_counters ⟨rfl, rfl, rfl, rfl⟩ ⟨rfl, rfl, rfl, rfl⟩, rfl⟩
          | some taken => exact ⟨h.setContext pool _ _ c _, rfl⟩

theorem takeBatch (c : ContextId) (most : Nat) :
    Agree (Driver.takeBatch c most d) (Driver.takeBatch c most d') := by
  induction most generalizing d d' with
  | zero => exact ⟨h, rfl⟩
  | succ most ih =>
      obtain ⟨halike, hresult⟩ := h.take c
      rw [Driver.takeBatch, Driver.takeBatch]
      revert halike hresult
      cases d.take c with
      | mk d₁ r =>
          cases d'.take c with
          | mk d₁' r' =>
              rintro halike rfl
              rcases r' with e | _ | t
              · exact ⟨halike, rfl⟩
              · exact ⟨halike, rfl⟩
              · obtain ⟨hrest, hresult⟩ := ih halike
                dsimp only
                revert hrest hresult
                cases Driver.takeBatch c most d₁ with
                | mk d₂ r₂ =>
                    cases Driver.takeBatch c most d₁' with
                    | mk d₂' r₂' =>
                        rintro hrest rfl
                        cases r₂' with
                        | error e => exact ⟨hrest, rfl⟩
                        | ok ts => exact ⟨hrest, rfl⟩

theorem done (c : ContextId) (t : TaskHandle) : Agree (d.done c t) (d'.done c t) := by
  rw [Driver.done, Driver.done, h.context?, h.pool]
  cases d.context? c with
  | none => exact ⟨h, rfl⟩
  | some ctx =>
      dsimp only
      cases ctx.release t with
      | error e => exact ⟨h, rfl⟩
      | ok found => exact ⟨h.setContext _ _ _ c found.2, rfl⟩

theorem registerContext (c : ContextId) (l : Location) :
    Agree (d.registerContext c l) (d'.registerContext c l) := by
  rw [Driver.registerContext, Driver.registerContext, h.workerCount, h.context?]
  split
  · exact ⟨h, rfl⟩
  · cases d.context? c with
    | none => exact ⟨h, rfl⟩
    | some ctx =>
        dsimp only
        cases ctx.bind l d.workerCount with
        | error e => exact ⟨h, rfl⟩
        | ok ctx' =>
            refine ⟨?_, rfl⟩
            show Alike { d with contexts := d.contexts.set c.index ctx' }
              { d' with contexts := d'.contexts.set c.index ctx' }
            rw [h.contexts]
            exact h.withContexts _

theorem openContext (l : Location) : Agree (d.openContext l) (d'.openContext l) := by
  rw [Driver.openContext, Driver.openContext, h.workerCount, h.contexts]
  split
  · exact ⟨h, rfl⟩
  · split
    · exact ⟨h, rfl⟩
    · exact ⟨h.withContexts _, rfl⟩

theorem allocateContexts : Alike d.allocateContexts d'.allocateContexts := by
  rw [Driver.allocateContexts, Driver.allocateContexts, h.workerCount, h.contexts]
  split
  · exact h.withContexts _
  · exact h

theorem bindContexts : Alike d.bindContexts d'.bindContexts := by
  rw [Driver.bindContexts, Driver.bindContexts, h.workerCount, h.contexts]
  exact h.withContexts _

theorem switchRunlevel (level : RunLevel) (phase : Nat) (direction : Direction) :
    Agree (Driver.switchRunlevel level phase direction d)
      (Driver.switchRunlevel level phase direction d') := by
  simp only [Driver.switchRunlevel]
  split
  · exact ⟨h.allocateContexts, rfl⟩
  · obtain ⟨hpool, hcontexts, -, hresolver⟩ := h.bindContexts
    exact ⟨⟨hpool, hcontexts, rfl, hresolver⟩, rfl⟩
  · exact ⟨⟨h.pool, h.contexts, rfl, h.resolver⟩, rfl⟩
  · exact ⟨h.withContexts [], rfl⟩
  · exact ⟨h, rfl⟩

/-- Alike drivers stay so under every call, which gives and reports the same on both. -/
theorem call (call : Call) : Agree (d.call call) (d'.call call) := by
  cases call with
  | give c t hint =>
      obtain ⟨halike, hresult⟩ := h.give c t hint
      exact ⟨halike, congrArg (fun r => (ifOk r [t], [])) hresult⟩
  | giveResolved c t =>
      obtain ⟨halike, hresult⟩ := h.giveResolved c t
      exact ⟨halike, congrArg (fun r => (ifOk r [t], [])) hresult⟩
  | take c => exact ⟨(h.take c).1, rfl⟩
  | takeBatch c most => exact ⟨(h.takeBatch c most).1, rfl⟩
  | done c t =>
      obtain ⟨halike, hresult⟩ := h.done c t
      exact ⟨halike, congrArg (fun r => ([], ifOk r [t])) hresult⟩
  | registerContext c l => exact ⟨(h.registerContext c l).1, rfl⟩
  | openContext l => exact ⟨(h.openContext l).1, rfl⟩
  | createGroup key =>
      refine ⟨?_, rfl⟩
      show Alike { d with pool := (d.pool.createGroup key).1 }
        { d' with pool := (d'.pool.createGroup key).1 }
      rw [h.pool]
      exact h.withPool _
  | retireGroup key =>
      refine ⟨?_, rfl⟩
      show Alike { d with pool := (d.pool.retireGroup key).1 }
        { d' with pool := (d'.pool.retireGroup key).1 }
      rw [h.pool]
      exact h.withPool _
  | switchRunlevel level phase direction => exact ⟨(h.switchRunlevel level phase direction).1, rfl⟩
  | resolve resolver => exact ⟨⟨h.pool, h.contexts, h.accepting, rfl⟩, rfl⟩
  | park doorkeeper => exact ⟨h.of_counters ⟨rfl, rfl, rfl, rfl⟩ ⟨rfl, rfl, rfl, rfl⟩, rfl⟩

end Alike

/-! ### Books without a count -/

/-- Only one call frees the contexts. -/
theorem Call.memoryDown_of_not_keepsContexts {call : Call} (h : ¬ call.keepsContexts = true) :
    ∃ phase, call = .switchRunlevel .memoryOk phase .down := by
  cases call with
  | switchRunlevel level phase direction =>
      rw [Call.keepsContexts, Bool.not_eq_true', Bool.not_eq_false, Bool.and_eq_true,
        decide_eq_true_eq, decide_eq_true_eq] at h
      obtain ⟨rfl, rfl⟩ := h
      exact ⟨phase, rfl⟩
  | _ => exact absurd rfl h

/-- A driver that has counted what it holds. -/
def recounted (d : Driver) : Driver :=
  { d with counters := { d.counters with outstanding := d.held.card } }

theorem alike_recounted (d : Driver) : Alike d d.recounted := ⟨rfl, rfl, rfl, rfl⟩

theorem Tidy.sound_recounted (h : d.Tidy) : d.recounted.Sound := ⟨h.linked, rfl, h.named⟩

/-- No call makes a driver hold more than it lets in, or keep what it lets go. -/
theorem within_call (h : d.Tidy) (call : Call) :
    Within d (d.call call).1 (d.call call).2.1 (d.call call).2.2 := by
  obtain ⟨halike, hresult⟩ := (alike_recounted d).call call
  by_cases hkeep : call.keepsContexts = true
  · -- the books of the driver that has counted anew are those of this one
    have hbooks := books_call h.sound_recounted hkeep
    have hback : Alike (d.recounted.call call).1 (d.call call).1 :=
      ⟨halike.pool.symm, halike.contexts.symm, halike.accepting.symm, halike.resolver.symm⟩
    refine ⟨hback.tidy hbooks.sound.tidy, ?_⟩
    rw [hback.held, ← hresult]
    exact hbooks.balance.le
  · obtain ⟨phase, rfl⟩ := Call.memoryDown_of_not_keepsContexts hkeep
    -- what was queued stays, what was in flight goes with the contexts
    have hle : ({ d with contexts := [] } : Driver).held ≤ d.held := by
      show d.pool.held + 0 ≤ d.pool.held + d.inFlight
      exact Multiset.add_le_add_left (Multiset.zero_le _)
    exact ⟨⟨h.linked, fun t ht => h.named t (Multiset.mem_of_le hle ht)⟩,
      Multiset.add_le_add_right hle⟩

/-! ### Giving and reporting in a row -/

/-- Of tasks that are given one after the other no more are let in than there are. -/
theorem within_giveAll (h : d.Tidy) (c : ContextId) (ts : List TaskHandle) :
    Within d (ts.foldl (fun d t => (d.give c t Hint.none).1) d) ts 0 := by
  induction ts generalizing d with
  | nil => exact .refl h
  | cons t rest ih =>
      have hgive := within_call h (.give c t Hint.none)
      -- a give lets its task in once or not at all
      have hle : ((ifOk (d.give c t Hint.none).2 [t] : List TaskHandle) : Multiset TaskHandle) ≤
          {t} := by
        rw [ifOk]
        split
        · exact le_refl _
        · exact Multiset.zero_le _
      exact (hgive.of_le hle).trans (ih hgive.tidy)

/-- Tasks that a context holds are let go of when all of them are reported done. -/
theorem within_doneAll (h : d.Tidy) (hctx : d.context? c = some ctx)
    (hle : (ts : Multiset TaskHandle) ≤ ctx.holding) :
    Within d (ts.foldl (fun d t => (d.done c t).1) d) 0 ts := by
  -- induction on the tasks still to be reported; the context holds them until then
  induction ts generalizing d ctx with
  | nil => exact .refl h
  | cons t rest ih =>
      have hmem : t ∈ ctx.holding := Multiset.mem_of_le hle (Multiset.mem_coe.2 List.mem_cons_self)
      obtain ⟨ctx', hok, hctx', hholding⟩ := done_of_mem hctx hmem
      have hdone : Within d (d.done c t).1 0 (ifOk (d.done c t).2 [t]) :=
        within_call h (.done c t)
      rw [hok] at hdone
      rw [hholding, ← Multiset.cons_coe] at hle
      exact hdone.trans (ih hdone.tidy hctx' ((Multiset.cons_le_cons_iff t).1 hle))

/-- A batch that is taken and reported done at once has left the driver. -/
theorem within_takeBatch_doneAll (h : d.Tidy) {most : Nat}
    (hbatch : takeBatch c most d = (d', .ok ts)) :
    Within d (ts.foldl (fun d t => (d.done c t).1) d') 0 ts ∧ ts.length ≤ most ∧
      ∀ t ∈ ts, t.isNone = false := by
  have htaken : Within d d' 0 0 := by
    have hcall := within_call h (.takeBatch c most)
    simp only [call, hbatch] at hcall
    exact hcall
  cases hctx : d.context? c with
  | none =>
      -- nothing can be taken through a context that does not exist
      have hnil : ts = [] := by
        cases most with
        | zero =>
            cases hbatch
            rfl
        | succ most =>
            have hparty : d.party c = .error (.unknownContext c) := by
              rw [party, hctx]
            rw [takeBatch, take, hparty] at hbatch
            cases hbatch
      rw [hnil]
      exact ⟨htaken, Nat.zero_le _, fun t ht => absurd ht List.not_mem_nil⟩
  | some ctx =>
      obtain ⟨hlength, ctx', hctx', hholding⟩ := takeBatch_eq_ok hctx hbatch
      have hle : (ts : Multiset TaskHandle) ≤ ctx'.holding := by
        rw [hholding]
        exact Multiset.le_add_right _ _
      have hwithin := htaken.trans (within_doneAll htaken.tidy hctx' hle)
      rw [zero_add, zero_add] at hwithin
      refine ⟨hwithin, hlength, ?_⟩
      intro t ht
      -- what has left was held before, and everything held is named
      have hall := hwithin.bound
      rw [add_zero] at hall
      exact h.named t (Multiset.mem_of_le hall (Multiset.mem_add.2 (.inr ht)))

end WorkStealing.Driver
