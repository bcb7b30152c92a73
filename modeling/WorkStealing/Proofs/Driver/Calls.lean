import WorkStealing.Proofs.Driver.Books

/-!
# What each call of a driver enters in the books

One lemma per call: what it lets in and what it lets go, whether it succeeds or fails. Gives and
reports count only if they succeed (`ifOk`); every other call moves tasks inside the driver or
leaves them where they are.
-/

namespace WorkStealing.Driver

/-- What a call contributes if it succeeds; a call that fails contributes nothing. -/
def ifOk {α : Type} (r : Except SchedError α) (tasks : List TaskHandle) : List TaskHandle :=
  if r.isOk then tasks else []

variable {d d' : Driver} {c : ContextId} {ctx : Context} {t : TaskHandle} {hint : Hint}

/-! ### Giving -/

/-- A task is placed by one move of the pool, or nothing changes. -/
theorem place_cases (h : d.pool.Linked) (c : ContextId) (t : TaskHandle) (hint : Hint) :
    (∃ placement pool ctx, d.place c t hint =
        ({ d with pool := pool }.setContext c ctx.recordGiven, .ok placement) ∧
        Pool.Move d.pool (.entered t) pool ∧ d.context? c = some ctx) ∨
      ∃ e, d.place c t hint = (d, .error e) := by
  rw [place]
  cases hparty : d.party c with
  | error e => exact .inr ⟨e, rfl⟩
  | ok found =>
      obtain ⟨ctx, source⟩ := found
      obtain ⟨hctx, -⟩ := party_eq_ok hparty
      dsimp only
      -- a move of the pool does not depend on who gives
      generalize (if ctx.id.index < d.workerCount then Giver.owner source
        else Giver.service source) = giver
      rcases Pool.give_cases h giver t hint with ⟨placed, hok, hmove⟩ | ⟨f, hf⟩
      · cases hgive : d.pool.give giver t hint with
        | mk pool r =>
            rw [hgive] at hok hmove
            cases hok
            exact .inl ⟨placed, pool, ctx, rfl, hmove, hctx⟩
      · rw [hf]
        exact .inr ⟨f, rfl⟩

/-- A give that succeeds places its task and counts it. One that fails leaves all but the largest
load as it was. -/
theorem give_cases (h : d.pool.Linked) (c : ContextId) (t : TaskHandle) (hint : Hint) :
    (∃ pool ctx placement, t.isNone = false ∧ d.accepting = true ∧
        Pool.Move d.pool (.entered t) pool ∧ d.context? c = some ctx ∧
        d.give c t hint =
          (({ d with
              pool := pool
              counters := { d.counters.entered with gives := d.counters.gives + 1 } }.setContext c
                ctx.recordGiven).tell (.ready (readyAt placement)), .ok ())) ∨
      ∃ e counters, counters.outstanding = d.counters.outstanding ∧
        counters.gives = d.counters.gives ∧ counters.done = d.counters.done ∧
        d.give c t hint = ({ d with counters := counters }, .error e) := by
  rw [give]
  -- two gates before the pool sees the task: its name, and whether the driver accepts
  by_cases hnone : t.isNone = true
  · exact .inr ⟨_, d.counters, rfl, rfl, rfl, by rw [if_pos hnone]⟩
  rw [if_neg hnone]
  by_cases hclosed : (!d.accepting) = true
  · exact .inr ⟨_, d.counters, rfl, rfl, rfl, by rw [if_pos hclosed]⟩
  rw [if_neg hclosed]
  have hlinked : ({ d with counters := d.counters.entered } : Driver).pool.Linked := h
  rcases place_cases hlinked c t hint with ⟨placement, pool, ctx, hplace, hmove, hctx⟩ | ⟨e, he⟩
  · refine .inl ⟨pool, ctx, placement, Bool.eq_false_iff.2 hnone, by simpa using hclosed, hmove,
      hctx, ?_⟩
    rw [hplace]
    rfl
  · refine .inr ⟨e, d.counters.entered.left, Nat.add_sub_cancel _ 1, rfl, rfl, ?_⟩
    rw [he]

/-- A give that succeeds lets its task in, and one that fails changes nothing that is counted. -/
theorem books_give (h : d.Sound) (c : ContextId) (t : TaskHandle) (hint : Hint) :
    Books d (d.give c t hint).1 (ifOk (d.give c t hint).2 [t]) 0 := by
  rcases give_cases h.linked c t hint with
    ⟨pool, ctx, placement, hname, -, hmove, hctx, hgive⟩ | ⟨e, counters, hout, hgives, hdone, hgive⟩
  · rw [hgive]
    have hpool : pool.held = d.pool.held + {t} :=
      (add_zero _).symm.trans (hmove.held h.linked.arena)
    have hflight := add_right_cancel (inFlight_setContext hctx ctx.recordGiven)
    refine .of_balance h (hmove.linked h.linked) ?_ rfl ?_ rfl rfl hmove.workerCount
      (located_setContext hctx fun _ hl => hl)
    · intro u hu
      rw [Multiset.mem_singleton.1 hu]
      exact hname
    · show pool.held + (d.setContext c ctx.recordGiven).inFlight + 0 =
        d.pool.held + d.inFlight + {t}
      rw [hpool, hflight, add_zero, add_right_comm]
  · rw [hgive]
    exact (Books.refl h).of_eq rfl rfl hout hgives hdone

theorem books_giveResolved (h : d.Sound) (c : ContextId) (t : TaskHandle) :
    Books d (d.giveResolved c t).1 (ifOk (d.giveResolved c t).2 [t]) 0 := by
  rw [giveResolved]
  cases d.resolver with
  | none => exact .refl h
  | some r => exact books_give h c t (r.hintFor t)

/-! ### Taking -/

theorem holding_track (ctx : Context) (taken : Taken) :
    ((ctx.track taken).holding : Multiset TaskHandle) =
      taken.task ::ₘ (ctx.holding : Multiset TaskHandle) := rfl

/-- A take carries a task from the pool to a context; the driver holds the same before and after. -/
theorem books_take (h : d.Sound) (c : ContextId) : Books d (d.take c).1 0 0 := by
  rw [take]
  cases hparty : d.party c with
  | error e => exact .refl h
  | ok found =>
      obtain ⟨ctx, w⟩ := found
      obtain ⟨hctx, -⟩ := party_eq_ok hparty
      have hyields := Pool.take_yields h.linked w ctx.cursor
      have hpool := hyields.held h.linked
      dsimp only
      cases htake : d.pool.take w ctx.cursor with
      | mk pool r =>
          obtain ⟨cursor, r⟩ := r
          rw [htake] at hyields hpool
          cases r with
          | none =>
              have hflight := add_right_cancel
                (inFlight_setContext hctx ({ ctx with cursor := cursor } : Context).recordEmpty)
              refine .of_held_eq h (hyields.linked h.linked) rfl ?_ rfl rfl hyields.workerCount
                (located_setContext hctx fun _ hl => hl)
              show pool.held + (d.setContext c _).inFlight = d.pool.held + d.inFlight
              rw [hflight]
              exact congrArg (· + _) ((add_zero _).symm.trans hpool)
          | some taken =>
              -- what leaves the pool is what the context comes to hold
              have hsum := inFlight_setContext hctx
                (({ ctx with cursor := cursor } : Context).track taken)
              have hflight := Pool.add_singleton_of_exchange hsum (holding_track _ taken)
              have hout := d.counters.outstanding_recordTake taken.source
              refine .of_held_eq h (hyields.linked h.linked) hout ?_ ?_ ?_ hyields.workerCount
                (located_setContext hctx fun _ hl => hl)
              · show pool.held + (d.setContext c _).inFlight = d.pool.held + d.inFlight
                rw [hflight, ← hpool]
                exact (add_assoc _ _ _).symm.trans (add_right_comm _ _ _)
              · show (d.counters.recordTake taken.source).gives = _
                cases taken.source <;> rfl
              · show (d.counters.recordTake taken.source).done = _
                cases taken.source <;> rfl

theorem books_takeBatch (h : d.Sound) (c : ContextId) (most : Nat) :
    Books d (takeBatch c most d).1 0 0 := by
  -- induction on the size of the batch; it ends at the first take that finds nothing or fails
  induction most generalizing d with
  | zero => exact .refl h
  | succ most ih =>
      have hfirst := books_take h c
      rw [takeBatch]
      cases htake : d.take c with
      | mk d₁ r =>
          rw [htake] at hfirst
          rcases r with e | _ | t
          · exact hfirst
          · exact hfirst
          · have hrest := hfirst.trans (ih hfirst.sound)
            dsimp only
            cases hbatch : takeBatch c most d₁ with
            | mk d₂ r₂ =>
                rw [hbatch] at hrest
                cases r₂ with
                | ok ts => exact hrest
                | error e => exact hrest

/-- What every take of a context keeps, a batch keeps. -/
theorem takeBatch_induction {P : Driver → Prop} (step : ∀ d, P d → P (d.take c).1) (most : Nat)
    (h : P d) : P (takeBatch c most d).1 := by
  induction most generalizing d with
  | zero => exact h
  | succ most ih =>
      have hfirst := step d h
      rw [takeBatch]
      cases htake : d.take c with
      | mk d₁ r =>
          rw [htake] at hfirst
          rcases r with e | _ | t
          · exact hfirst
          · exact hfirst
          · have hrest := ih hfirst
            dsimp only
            cases hbatch : takeBatch c most d₁ with
            | mk d₂ r₂ =>
                rw [hbatch] at hrest
                cases r₂ with
                | ok ts => exact hrest
                | error e => exact hrest

/-! ### Reporting -/

/-- A context that reports a task lets go of the first entry for it, wherever it stands. -/
theorem release_eq_ok {source : Source} {ctx' : Context}
    (h : ctx.release t = .ok (source, ctx')) :
    ∃ before taken after, ctx.inFlight = before ++ taken :: after ∧ taken.task = t ∧
      taken.source = source ∧
      ctx' = { ctx with inFlight := before ++ after, stats.done := ctx.stats.done + 1 } := by
  rw [Context.release] at h
  cases hf : ctx.inFlight.find? (fun x => x.task = t) with
  | none =>
      rw [hf] at h
      cases h
  | some taken =>
      rw [hf] at h
      cases h
      -- the entry that is found is the one that is erased
      obtain ⟨htask, before, after, hsplit, hbefore⟩ := List.find?_eq_some_iff_append.1 hf
      have hnone : ∀ x ∈ before, ¬ (decide (x.task = t)) = true := by
        intro x hx
        simpa using hbefore x hx
      have herase : ctx.inFlight.eraseP (fun x => x.task = t) = before ++ after := by
        have hcons : (taken :: after).eraseP (fun x => x.task = t) = after :=
          List.eraseP_cons_of_pos htask
        rw [hsplit, List.eraseP_append_right _ hnone, hcons]
      refine ⟨before, taken, after, hsplit, of_decide_eq_true htask, rfl, ?_⟩
      rw [herase]

/-- A context lets go of one take of the task that it reports. -/
theorem release_facts {source : Source} {ctx' : Context}
    (h : ctx.release t = .ok (source, ctx')) :
    (ctx.holding : Multiset TaskHandle) = t ::ₘ (ctx'.holding : Multiset TaskHandle) ∧
      ctx'.location = ctx.location := by
  obtain ⟨before, taken, after, hsplit, rfl, -, rfl⟩ := release_eq_ok h
  refine ⟨?_, rfl⟩
  rw [Context.holding, Context.holding, hsplit, Multiset.cons_coe, Multiset.coe_eq_coe,
    List.map_append, List.map_append, List.map_cons]
  exact List.perm_middle

theorem done_cases (d : Driver) (c : ContextId) (t : TaskHandle) :
    (∃ ctx source ctx' pool, d.context? c = some ctx ∧ ctx.release t = .ok (source, ctx') ∧
        Pool.Quiet d.pool pool ∧
        d.done c t =
          ({ d with
              pool := pool
              counters := { d.counters.left with done := d.counters.done + 1 } }.setContext c ctx',
            .ok ())) ∨
      ∃ e, d.done c t = (d, .error e) := by
  rw [done]
  cases hctx : d.context? c with
  | none => exact .inr ⟨_, rfl⟩
  | some ctx =>
      dsimp only
      cases hrelease : ctx.release t with
      | error e => exact .inr ⟨e, rfl⟩
      | ok found =>
          obtain ⟨source, ctx'⟩ := found
          refine .inl ⟨ctx, source, ctx', _, rfl, hrelease, ?_, rfl⟩
          cases source.group? with
          | none => exact .refl _
          | some i => exact Pool.groupTaskDone_quiet d.pool i

/-- A report that succeeds lets its task go, and one that fails changes nothing. -/
theorem books_done (h : d.Sound) (c : ContextId) (t : TaskHandle) :
    Books d (d.done c t).1 0 (ifOk (d.done c t).2 [t]) := by
  rcases done_cases d c t with ⟨ctx, source, ctx', pool, hctx, hrelease, hquiet, hdone⟩ | ⟨e, he⟩
  · rw [hdone]
    obtain ⟨hholding, hlocation⟩ := release_facts hrelease
    have hflight := Pool.add_singleton_of_exchange (inFlight_setContext hctx ctx').symm hholding
    have hmem : t ∈ d.held := by
      rw [held, hflight]
      exact Multiset.mem_add.2 (.inr (Multiset.mem_add.2 (.inr (Multiset.mem_singleton_self t))))
    -- the count is not at zero, so taking one off it does not stop short
    have hpos : 0 < d.counters.outstanding := by
      rw [h.outstanding]
      exact Multiset.card_pos_iff_exists_mem.2 ⟨t, hmem⟩
    refine .of_balance h (hquiet.linked h.linked) (fun u hu => absurd hu (Multiset.notMem_zero u))
      (Nat.sub_add_cancel hpos) ?_ rfl rfl hquiet.workerCount
      (located_setContext hctx fun l hl => hlocation.trans hl)
    show pool.held + (d.setContext c ctx').inFlight + {t} = d.pool.held + d.inFlight + 0
    rw [hquiet.held h.linked, hflight, add_zero, add_assoc]
  · rw [he]
    exact .refl h

/-! ### Contexts and groups -/

/-- A context that is bound is at that worker, and was nowhere else before. -/
theorem bind_eq_ok {l : Location} {workers : Nat} {ctx' : Context}
    (h : ctx.bind l workers = .ok ctx') :
    (∃ cursor, ctx' = { ctx with location := some l, cursor := cursor }) ∧
      ∀ x, ctx.location = some x → x = l := by
  rw [Context.bind] at h
  split at h
  next hfree =>
    cases h
    refine ⟨⟨_, rfl⟩, ?_⟩
    intro x hx
    rw [hfree] at hx
    cases hx
  next bound hbound =>
    split at h
    next hsame =>
      cases h
      rw [hsame] at hbound
      refine ⟨⟨ctx.cursor, ?_⟩, ?_⟩
      · rw [← hbound]
      · intro x hx
        exact Option.some.inj (hx.symm.trans hbound)
    next => cases h

/-- A context is bound, or nothing happens. -/
theorem registerContext_cases (d : Driver) (c : ContextId) (l : Location) :
    (∃ ctx ctx', d.context? c = some ctx ∧ ctx.bind l d.workerCount = .ok ctx' ∧
        d.registerContext c l = (d.setContext c ctx', .ok ())) ∨
      ∃ e, d.registerContext c l = (d, .error e) := by
  rw [registerContext]
  split
  · exact .inr ⟨_, rfl⟩
  · cases hctx : d.context? c with
    | none => exact .inr ⟨_, rfl⟩
    | some ctx =>
        dsimp only
        cases hbind : ctx.bind l d.workerCount with
        | error e => exact .inr ⟨e, rfl⟩
        | ok ctx' => exact .inl ⟨ctx, ctx', rfl, hbind, rfl⟩

/-- A context that holds nothing joins others, or nothing happens. -/
theorem openContext_cases (d : Driver) (l : Location) :
    (∃ ctx id, d.contexts.isEmpty = false ∧ ctx.inFlight = [] ∧
        d.openContext l = ({ d with contexts := d.contexts ++ [ctx] }, .ok id)) ∨
      ∃ e, d.openContext l = (d, .error e) := by
  rw [openContext]
  split
  · exact .inr ⟨_, rfl⟩
  · split
    · exact .inr ⟨_, rfl⟩
    next hsome => exact .inl ⟨_, _, Bool.eq_false_iff.2 hsome, rfl, rfl⟩

/-- A row of contexts with the same tasks in flight, none of which has moved, may take the place of
another. -/
theorem books_of_contexts (h : d.Sound) {contexts : List Context}
    (hflight : (contexts.flatMap Context.holding : List TaskHandle) =
      d.contexts.flatMap Context.holding)
    (hlocated : ∀ (i : Nat) (x : Context) (l : Location), d.contexts[i]? = some x →
      x.location = some l → ∃ x', contexts[i]? = some x' ∧ x'.location = some l) :
    Books d { d with contexts := contexts } 0 0 := by
  refine .of_held_eq h h.linked rfl ?_ rfl rfl rfl fun c x l hx hl => hlocated c.index x l hx hl
  show d.pool.held + (contexts.flatMap Context.holding : List TaskHandle) = _
  rw [hflight]
  rfl

theorem books_registerContext (h : d.Sound) (c : ContextId) (l : Location) :
    Books d (d.registerContext c l).1 0 0 := by
  rcases registerContext_cases d c l with ⟨ctx, ctx', hctx, hbind, hregister⟩ | ⟨e, he⟩
  · rw [hregister]
    obtain ⟨⟨cursor, rfl⟩, hsame⟩ := bind_eq_ok hbind
    have hflight := add_right_cancel
      (inFlight_setContext hctx { ctx with location := some l, cursor := cursor })
    refine .of_held_eq h h.linked rfl (congrArg (d.pool.held + ·) hflight) rfl rfl rfl
      (located_setContext hctx ?_)
    intro x hx
    rw [hsame x hx]
  · rw [he]
    exact .refl h

theorem books_openContext (h : d.Sound) (l : Location) : Books d (d.openContext l).1 0 0 := by
  rcases openContext_cases d l with ⟨ctx, id, -, hempty, hopen⟩ | ⟨e, he⟩
  · rw [hopen]
    refine books_of_contexts h ?_ fun i x l hx hl => ⟨x, ?_, hl⟩
    · simp [Context.holding, hempty]
    · rw [List.getElem?_append_left (List.getElem?_eq_some_iff.1 hx).1, hx]
  · rw [he]
    exact .refl h

/-- A pool in step that holds the same may take the place of another. -/
theorem books_of_pool (h : d.Sound) {pool : Pool} (hlinked : pool.Linked)
    (hheld : pool.held = d.pool.held) (hworkers : pool.workerCount = d.pool.workerCount) :
    Books d { d with pool := pool } 0 0 :=
  .of_held_eq h hlinked rfl (congrArg (· + d.inFlight) hheld) rfl rfl hworkers
    fun _ x _ hx hl => ⟨x, hx, hl⟩

theorem books_createGroup (h : d.Sound) (key : AffinityKey) : Books d (d.createGroup key) 0 0 := by
  rcases Pool.createGroup_cases d.pool key with hsame | hmove
  · rw [createGroup, hsame]
    exact .refl h
  · have hheld : (d.pool.createGroup key).1.held + 0 = d.pool.held + 0 :=
      hmove.held h.linked.arena
    exact books_of_pool h (hmove.linked h.linked) (add_right_cancel hheld) hmove.workerCount

theorem books_retireGroup (h : d.Sound) (key : AffinityKey) :
    Books d (d.retireGroup key).1 0 0 := by
  have hquiet := Pool.retireGroup_quiet d.pool key
  exact books_of_pool h (hquiet.linked h.linked) (hquiet.held h.linked) hquiet.workerCount

/-! ### Runlevels -/

theorem books_allocateContexts (h : d.Sound) : Books d d.allocateContexts 0 0 := by
  rw [allocateContexts]
  -- contexts are made only where there are none, and new ones hold nothing
  by_cases hempty : d.contexts.isEmpty = true
  · rw [if_pos hempty]
    have hnil : d.contexts = [] := List.isEmpty_iff.1 hempty
    refine books_of_contexts h ?_ fun i x l hx hl => ?_
    · rw [hnil, List.flatMap_map]
      exact List.flatMap_eq_nil_iff.2 fun i _ => rfl
    · rw [hnil] at hx
      cases hx
  · rw [if_neg hempty]
    exact .refl h

/-- What the binding in order leaves alone is the same for every context after it. -/
theorem map_bindFrom {α : Type} {f : Context → α}
    (hf : ∀ x l k, f { x with location := l, cursor := k } = f x) (workers i : Nat)
    (contexts : List Context) : (bindFrom workers i contexts).map f = contexts.map f := by
  induction contexts generalizing i with
  | nil => rfl
  | cons x rest ih =>
      rw [bindFrom, List.map_cons, List.map_cons, ih]
      split
      · rw [hf]
      · rfl

theorem holding_bindFrom (workers i : Nat) (contexts : List Context) :
    (bindFrom workers i contexts).flatMap Context.holding = contexts.flatMap Context.holding := by
  rw [List.flatMap_def, List.flatMap_def, map_bindFrom (fun _ _ _ => rfl)]

theorem location_bindFrom (workers : Nat) {contexts : List Context} {i k : Nat} {x : Context}
    {l : Location} (hx : contexts[k]? = some x) (hl : x.location = some l) :
    ∃ x', (bindFrom workers i contexts)[k]? = some x' ∧ x'.location = some l := by
  induction contexts generalizing i k with
  | nil => cases hx
  | cons y rest ih =>
      rw [bindFrom]
      cases k with
      | zero =>
          cases hx
          -- a context that has a location is bound already
          have hbound : ¬ (i < workers ∧ (!x.isBound) = true) := by
            simp [Context.isBound, hl]
          rw [if_neg hbound]
          exact ⟨x, rfl, hl⟩
      | succ k => exact ih hx

theorem books_bindContexts (h : d.Sound) : Books d d.bindContexts 0 0 :=
  books_of_contexts h (holding_bindFrom _ _ _) fun _ _ _ hx hl => location_bindFrom _ hx hl

/-- No switch but the one that takes memory down touches a task. -/
theorem books_switchRunlevel (h : d.Sound) (level : RunLevel) (phase : Nat) (direction : Direction)
    (hkeep : ¬ (level = .memoryOk ∧ direction = .down)) :
    Books d (switchRunlevel level phase direction d).1 0 0 := by
  simp only [switchRunlevel]
  split
  · exact books_allocateContexts h
  · exact (books_bindContexts h).of_eq rfl rfl rfl rfl rfl
  · exact (Books.refl h).of_eq rfl rfl rfl rfl rfl
  · exact absurd ⟨rfl, rfl⟩ hkeep
  · exact .refl h

end WorkStealing.Driver
