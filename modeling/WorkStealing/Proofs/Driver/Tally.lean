import WorkStealing.Proofs.Driver.Refusals
import WorkStealing.Proofs.Pool.Counts

/-!
# Counters, contexts and the pool

A driver counts what its callers do, and so does each of its contexts. `Tallied` says that the two
agree, figure by figure, and that a context has in flight what it took and did not report;
`Records` says what one call does to this, with the tasks that it took and where they came from.
`counters_agree` adds the calls of a run up.
-/

namespace WorkStealing

/-- What a driver and its contexts both count. -/
inductive Figure where
  | given
  | taken
  | stolen
  | emptyTakes
  | done

namespace Figure

def ofContext (s : ContextStats) : Figure → Nat
  | .given => s.given
  | .taken => s.taken
  | .stolen => s.stolen
  | .emptyTakes => s.emptyTakes
  | .done => s.done

def ofDriver (k : Counters) : Figure → Nat
  | .given => k.gives
  | .taken => k.takes
  | .stolen => k.steals + k.groupSteals
  | .emptyTakes => k.emptyTakes
  | .done => k.done

/-- What a take from a source adds. -/
def ofTake (s : Source) : Figure → Nat
  | .taken => 1
  | .stolen => if s.isSteal then 1 else 0
  | _ => 0

end Figure

/-- The kinds of sources, which a driver counts apart. -/
inductive SourceKind where
  | own
  | active
  | staged
  | stolen
  | stolenFromGroup
deriving DecidableEq

def Source.kind : Source → SourceKind
  | .own _ => .own
  | .active _ => .active
  | .staged _ => .staged
  | .stolen _ _ => .stolen
  | .stolenFromGroup _ _ => .stolenFromGroup

/-- The takes from one kind of source. -/
def Counters.takesFrom (k : Counters) : SourceKind → Nat
  | .own => k.takesOwn
  | .active => k.takesActive
  | .staged => k.takesStaged
  | .stolen => k.steals
  | .stolenFromGroup => k.groupSteals

theorem Counters.takesFrom_recordTake (k : Counters) (s : Source) (kind : SourceKind) :
    (k.recordTake s).takesFrom kind = k.takesFrom kind + if s.kind = kind then 1 else 0 := by
  cases s <;> cases kind <;> rfl

theorem Figure.ofDriver_recordTake (k : Counters) (s : Source) (f : Figure) :
    f.ofDriver (k.recordTake s) = f.ofDriver k + f.ofTake s := by
  cases f with
  | taken => exact k.takes_recordTake s
  | stolen => cases s <;> simp [ofDriver, ofTake, Counters.recordTake, Source.isSteal] <;> omega
  | given => cases s <;> rfl
  | emptyTakes => cases s <;> rfl
  | done => cases s <;> rfl

theorem Figure.ofContext_track (ctx : Context) (taken : Taken) (f : Figure) :
    f.ofContext (ctx.track taken).stats = f.ofContext ctx.stats + f.ofTake taken.source := by
  cases f with
  | stolen =>
      simp only [ofContext, ofTake, Context.track]
      split <;> rfl
  | given | taken | emptyTakes | done => rfl

namespace Driver

/-- What a take through a context takes. -/
def taken? (d : Driver) (c : ContextId) : Option Taken :=
  match d.party c with
  | .ok (ctx, w) => (d.pool.take w ctx.cursor).2.2
  | .error _ => none

/-- What a batch through a context takes. -/
def batchTakings (c : ContextId) : Nat → Driver → List Taken
  | 0, _ => []
  | most + 1, d =>
    match d.taken? c with
    | some taken => taken :: batchTakings c most (d.take c).1
    | none => []

/-- What a call takes. -/
def takings (d : Driver) : Call → List Taken
  | .take c => (d.taken? c).toList
  | .takeBatch c most => batchTakings c most d
  | _ => []

/-- The tasks that a call answers. -/
def answered (d : Driver) : Call → List TaskHandle
  | .take c => match (d.take c).2 with
    | .ok t => t.toList
    | .error _ => []
  | .takeBatch c most => match (takeBatch c most d).2 with
    | .ok ts => ts
    | .error _ => []
  | _ => []

/-- What a row of calls takes. -/
def takingsAlong (d : Driver) : List Call → List Taken
  | [] => []
  | call :: rest => d.takings call ++ (d.call call).1.takingsAlong rest

/-- The tasks that a row of calls answers. -/
def answeredAlong (d : Driver) : List Call → List TaskHandle
  | [] => []
  | call :: rest => d.answered call ++ (d.call call).1.answeredAlong rest

/-- The driver and its contexts count the same, and what a context took is done or in flight. -/
structure Tallied (d : Driver) : Prop where
  figures : ∀ f : Figure, f.ofDriver d.counters = (d.contexts.map fun x => f.ofContext x.stats).sum
  flight : ∀ x ∈ d.contexts, x.stats.taken = x.stats.done + x.inFlight.length

/-- A call that takes some tasks: the counts go on agreeing, and each task is counted under the kind
of its source. -/
structure Records (d d' : Driver) (found : List Taken) : Prop where
  tallied : d.Tallied → d'.Tallied
  sources : ∀ kind, d'.counters.takesFrom kind =
    d.counters.takesFrom kind + found.countP fun x => x.source.kind = kind

variable {d d' d'' : Driver} {c : ContextId} {ctx ctx' : Context} {t : TaskHandle} {w : Location}
  {found found' : List Taken}

/-- One context changes, and the driver counts the same change. -/
theorem Tallied.setContext (h : d.Tallied) (hctx : d.context? c = some ctx) (pool : Pool)
    {counters : Counters}
    (hfigures : ∀ f : Figure, f.ofDriver counters + f.ofContext ctx.stats =
      f.ofDriver d.counters + f.ofContext ctx'.stats)
    (hflight : ctx.stats.taken = ctx.stats.done + ctx.inFlight.length →
      ctx'.stats.taken = ctx'.stats.done + ctx'.inFlight.length) :
    ({ d with pool := pool, counters := counters }.setContext c ctx').Tallied where
  figures f := by
    have hsum := sum_map_set (fun x : Context => f.ofContext x.stats) hctx ctx'
    have hchange := hfigures f
    rw [h.figures f] at hchange
    show f.ofDriver counters = ((d.contexts.set c.index ctx').map _).sum
    omega
  flight x hx := by
    rcases List.mem_or_eq_of_mem_set hx with hold | rfl
    · exact h.flight x hold
    · exact hflight (h.flight ctx (List.mem_of_getElem? hctx))

namespace Records

theorem refl (d : Driver) : Records d d [] := ⟨id, fun _ => rfl⟩

theorem trans (h : Records d d' found) (h' : Records d' d'' found') :
    Records d d'' (found ++ found') where
  tallied hd := h'.tallied (h.tallied hd)
  sources kind := by rw [h'.sources, h.sources, List.countP_append, add_assoc]

/-- The pool, the flag and the listeners are free. -/
theorem of_eq (h : Records d d' found) (hcontexts : d''.contexts = d'.contexts)
    (hcounters : d''.counters = d'.counters) : Records d d'' found where
  tallied hd := by
    have htallied := h.tallied hd
    constructor
    · rw [hcontexts, hcounters]
      exact htallied.figures
    · rw [hcontexts]
      exact htallied.flight
  sources := by
    rw [hcounters]
    exact h.sources

theorem tell (h : Records d d' found) (n : Parking.Notice) : Records d (d'.tell n) found :=
  h.of_eq rfl rfl

/-- Contexts may be replaced by others that count and hold the same. -/
theorem of_contexts {contexts : List Context}
    (hsame : contexts.map (fun x => (x.stats, x.inFlight)) =
      d.contexts.map fun x => (x.stats, x.inFlight)) :
    Records d { d with contexts := contexts } [] where
  tallied h := by
    constructor
    · intro f
      have hsum := congrArg (fun l => (l.map fun y => f.ofContext y.1).sum) hsame
      simp only [List.map_map] at hsum
      exact (h.figures f).trans hsum.symm
    · intro x hx
      have hmem := List.mem_map_of_mem (f := fun x : Context => (x.stats, x.inFlight)) hx
      rw [hsame] at hmem
      obtain ⟨y, hy, heq⟩ := List.mem_map.1 hmem
      obtain ⟨hstats, hheld⟩ := Prod.mk.inj heq
      rw [← hstats, ← hheld]
      exact h.flight y hy
  sources _ := rfl

/-- Contexts that have done nothing count for nothing. -/
theorem of_fresh {fresh : List Context}
    (hfresh : ∀ x ∈ fresh, x.stats = {} ∧ x.inFlight = []) :
    Records d { d with contexts := d.contexts ++ fresh } [] where
  tallied h := by
    constructor
    · intro f
      have hzero : (fresh.map fun x => f.ofContext x.stats).sum = 0 := by
        apply List.sum_eq_zero
        intro n hn
        obtain ⟨x, hx, rfl⟩ := List.mem_map.1 hn
        rw [(hfresh x hx).1]
        cases f <;> rfl
      show f.ofDriver d.counters = ((d.contexts ++ fresh).map _).sum
      rw [List.map_append, List.sum_append, hzero, h.figures f, add_zero]
    · intro x hx
      rcases List.mem_append.1 hx with hold | hnew
      · exact h.flight x hold
      · obtain ⟨hstats, hheld⟩ := hfresh x hnew
        rw [hstats, hheld]
        rfl
  sources _ := rfl

end Records

/-! ### Giving -/

theorem records_refused (d : Driver) (t : TaskHandle) : Records d (d.refused t) [] where
  tallied h :=
    { figures := fun f => by
        have hsame : f.ofDriver (d.refused t).counters = f.ofDriver d.counters := by cases f <;> rfl
        exact hsame.trans (h.figures f)
      flight := h.flight }
  sources kind := by cases kind <;> rfl

theorem records_give (h : d.pool.Linked) (c : ContextId) (t : TaskHandle) (hint : Hint) :
    Records d (d.give c t hint).1 [] := by
  rcases give_cases h c t hint with
    ⟨pool, ctx, placement, -, -, -, hctx, hgive⟩ | ⟨e, counters, -, -, -, hgive⟩
  · rw [hgive]
    apply Records.tell
    constructor
    · intro htallied
      apply htallied.setContext hctx pool
      · intro f
        cases f with
        | given =>
            show d.counters.gives + 1 + ctx.stats.given = d.counters.gives + (ctx.stats.given + 1)
            omega
        | taken | stolen | emptyTakes | done => rfl
      · exact id
    · intro kind
      cases kind <;> rfl
  · have he : (d.give c t hint).2 = .error e := congrArg Prod.snd hgive
    rw [give_eq_of_error h he]
    exact records_refused d t

theorem records_giveResolved (h : d.pool.Linked) (c : ContextId) (t : TaskHandle) :
    Records d (d.giveResolved c t).1 [] := by
  rw [giveResolved]
  cases d.resolver with
  | none => exact .refl d
  | some r => exact records_give h c t (r.hintFor t)

/-! ### Taking -/

theorem records_take (d : Driver) (c : ContextId) :
    Records d (d.take c).1 (d.taken? c).toList := by
  rw [take, taken?]
  cases hparty : d.party c with
  | error e => exact .refl d
  | ok party =>
      obtain ⟨ctx, w⟩ := party
      obtain ⟨hctx, -⟩ := party_eq_ok hparty
      dsimp only
      cases d.pool.take w ctx.cursor with
      | mk pool r =>
          obtain ⟨cursor, r⟩ := r
          cases r with
          | none =>
              apply Records.tell
              constructor
              · intro htallied
                apply htallied.setContext hctx pool
                · intro f
                  cases f with
                  | emptyTakes =>
                      show d.counters.emptyTakes + 1 + ctx.stats.emptyTakes =
                        d.counters.emptyTakes + (ctx.stats.emptyTakes + 1)
                      omega
                  | given | taken | stolen | done => rfl
                · exact id
              · intro kind
                cases kind <;> rfl
          | some taken =>
              constructor
              · intro htallied
                apply htallied.setContext hctx pool
                · intro f
                  rw [Figure.ofDriver_recordTake, Figure.ofContext_track]
                  show _ + f.ofContext ctx.stats = _ + (f.ofContext ctx.stats + _)
                  omega
                · intro hflight
                  show ctx.stats.taken + 1 = ctx.stats.done + (ctx.inFlight.length + 1)
                  omega
              · intro kind
                refine (d.counters.takesFrom_recordTake taken.source kind).trans ?_
                simp [List.countP_singleton]

/-- A context that is not at a worker takes nothing. -/
theorem take_of_party_error {e : SchedError} (h : d.party c = .error e) :
    d.take c = (d, .error e) ∧ d.taken? c = none := by
  constructor
  · rw [take, h]
  · rw [taken?, h]

theorem take_eq_of_taken? (h : d.party c = .ok (ctx, w)) :
    (d.take c).2 = .ok ((d.taken? c).map Taken.task) := by
  rw [take, taken?, h]
  dsimp only
  cases d.pool.take w ctx.cursor with
  | mk pool r =>
      obtain ⟨cursor, r⟩ := r
      cases r <;> rfl

theorem records_takeBatch (c : ContextId) (most : Nat) (d : Driver) :
    Records d (takeBatch c most d).1 (batchTakings c most d) := by
  -- induction on the size of the batch; it ends at the first take that finds nothing or fails
  induction most generalizing d with
  | zero => exact .refl d
  | succ most ih =>
      have hfirst := records_take d c
      rw [takeBatch, batchTakings]
      cases hparty : d.party c with
      | error e =>
          obtain ⟨htake, htaken⟩ := take_of_party_error hparty
          rw [htake, htaken]
          exact .refl d
      | ok party =>
          have hanswer := take_eq_of_taken? hparty
          cases htake : d.take c with
          | mk d₁ r =>
              rw [htake] at hfirst hanswer
              cases hanswer
              cases htaken : d.taken? c with
              | none =>
                  rw [htaken] at hfirst
                  exact hfirst
              | some taken =>
                  rw [htaken] at hfirst
                  have hrest := hfirst.trans (ih d₁)
                  simp only [Option.map_some]
                  cases hbatch : takeBatch c most d₁ with
                  | mk d₂ r₂ =>
                      rw [hbatch] at hrest
                      cases r₂ with
                      | ok ts => exact hrest
                      | error e => exact hrest

/-- A batch answers the tasks that its takes find. -/
theorem takeBatch_eq_of_party (h : d.party c = .ok (ctx, w)) (most : Nat) :
    (takeBatch c most d).2 = .ok ((batchTakings c most d).map Taken.task) := by
  -- induction on the size of the batch; each take leaves the context where the next one needs it
  induction most generalizing d ctx with
  | zero => rfl
  | succ most ih =>
      have hanswer := take_eq_of_taken? h
      obtain ⟨-, ctx', hparty⟩ := party_take h
      rw [takeBatch, batchTakings]
      cases htake : d.take c with
      | mk d₁ r =>
          rw [htake] at hanswer hparty
          cases hanswer
          cases htaken : d.taken? c with
          | none => rfl
          | some taken =>
              have hrest := ih hparty
              simp only [Option.map_some]
              cases hbatch : takeBatch c most d₁ with
              | mk d₂ r₂ =>
                  rw [hbatch] at hrest
                  cases hrest
                  rfl

/-- Each take that succeeds is a task that its caller gets. -/
theorem map_task_takings (d : Driver) (call : Call) :
    (d.takings call).map Taken.task = d.answered call := by
  cases call with
  | take c =>
      rw [takings, answered]
      cases hparty : d.party c with
      | error e =>
          obtain ⟨htake, htaken⟩ := take_of_party_error hparty
          rw [htake, htaken]
          rfl
      | ok party =>
          rw [take_eq_of_taken? hparty]
          cases d.taken? c with
          | none => rfl
          | some taken => rfl
  | takeBatch c most =>
      rw [takings, answered]
      cases hparty : d.party c with
      | error e =>
          obtain ⟨htake, htaken⟩ := take_of_party_error hparty
          cases most with
          | zero => rfl
          | succ most =>
              rw [takeBatch, batchTakings, htake, htaken]
              rfl
      | ok party => rw [takeBatch_eq_of_party hparty]
  | _ => rfl

theorem map_task_takingsAlong (d : Driver) (calls : List Call) :
    (d.takingsAlong calls).map Taken.task = d.answeredAlong calls := by
  induction calls generalizing d with
  | nil => rfl
  | cons call rest ih =>
      rw [takingsAlong, answeredAlong, List.map_append, map_task_takings, ih]

/-! ### Reporting -/

theorem records_done (d : Driver) (c : ContextId) (t : TaskHandle) :
    Records d (d.done c t).1 [] := by
  rcases done_cases d c t with ⟨ctx, source, ctx', pool, hctx, hrelease, -, hdone⟩ | ⟨e, he⟩
  · rw [hdone]
    obtain ⟨before, taken, after, hsplit, -, -, rfl⟩ := release_eq_ok hrelease
    constructor
    · intro htallied
      apply htallied.setContext hctx pool
      · intro f
        cases f with
        | done =>
            show d.counters.done + 1 + ctx.stats.done = d.counters.done + (ctx.stats.done + 1)
            omega
        | given | taken | stolen | emptyTakes => rfl
      · intro hflight
        rw [hsplit, List.length_append, List.length_cons] at hflight
        show ctx.stats.taken = ctx.stats.done + 1 + (before ++ after).length
        rw [List.length_append]
        omega
    · intro kind
      cases kind <;> rfl
  · rw [he]
    exact .refl d

/-! ### Contexts -/

theorem records_registerContext (d : Driver) (c : ContextId) (l : Location) :
    Records d (d.registerContext c l).1 [] := by
  rcases registerContext_cases d c l with ⟨ctx, ctx', hctx, hbind, hregister⟩ | ⟨e, he⟩
  · rw [hregister]
    obtain ⟨⟨cursor, rfl⟩, -⟩ := bind_eq_ok hbind
    constructor
    · intro htallied
      apply htallied.setContext hctx d.pool
      · intro f
        rfl
      · exact id
    · intro kind
      rfl
  · rw [he]
    exact .refl d

theorem records_openContext (d : Driver) (l : Location) :
    Records d (d.openContext l).1 [] := by
  rw [openContext]
  split
  · exact .refl d
  · split
    · exact .refl d
    · apply Records.of_fresh
      intro x hx
      rw [List.mem_singleton.1 hx]
      exact ⟨rfl, rfl⟩

theorem records_allocateContexts (d : Driver) : Records d d.allocateContexts [] := by
  rw [allocateContexts]
  split
  next hempty =>
    have hnil : d.contexts = [] := List.isEmpty_iff.1 hempty
    rw [← List.nil_append ((List.range d.workerCount).map _), ← hnil]
    apply Records.of_fresh
    intro x hx
    obtain ⟨i, -, rfl⟩ := List.mem_map.1 hx
    exact ⟨rfl, rfl⟩
  next => exact .refl d

theorem records_bindContexts (d : Driver) : Records d d.bindContexts [] := by
  apply Records.of_contexts
  exact map_bindFrom (fun _ _ _ => rfl) d.workerCount 0 d.contexts

theorem records_switchRunlevel (d : Driver) (level : RunLevel) (phase : Nat)
    (direction : Direction) (hkeep : ¬ (level = .memoryOk ∧ direction = .down)) :
    Records d (switchRunlevel level phase direction d).1 [] := by
  simp only [switchRunlevel]
  split
  · exact records_allocateContexts d
  · exact (records_bindContexts d).of_eq rfl rfl
  · exact (Records.refl d).of_eq rfl rfl
  · exact absurd ⟨rfl, rfl⟩ hkeep
  · exact .refl d

/-! ### Runs -/

/-- Every call that leaves the contexts in memory records what it takes. -/
theorem records_call (h : d.Sound) {call : Call} (hkeep : call.keepsContexts = true) :
    Records d (d.call call).1 (d.takings call) := by
  cases call with
  | give c t hint => exact records_give h.linked c t hint
  | giveResolved c t => exact records_giveResolved h.linked c t
  | take c => exact records_take d c
  | takeBatch c most => exact records_takeBatch c most d
  | done c t => exact records_done d c t
  | registerContext c l => exact records_registerContext d c l
  | openContext l => exact records_openContext d l
  | createGroup key => exact (Records.refl d).of_eq rfl rfl
  | retireGroup key => exact (Records.refl d).of_eq rfl rfl
  | switchRunlevel level phase direction =>
      apply records_switchRunlevel d level phase direction
      rintro ⟨rfl, rfl⟩
      cases hkeep
  | resolve resolver => exact (Records.refl d).of_eq rfl rfl
  | park doorkeeper => exact (Records.refl d).of_eq rfl rfl

theorem records_run {h : History} (hs : h.driver.Sound) {calls : List Call}
    (hkeep : ∀ call ∈ calls, call.keepsContexts = true) :
    Records h.driver (h.run calls).driver (h.driver.takingsAlong calls) := by
  -- induction on the calls still to come; a driver that keeps its books goes along
  induction calls generalizing h with
  | nil => exact .refl h.driver
  | cons call rest ih =>
      have hcall := hkeep call List.mem_cons_self
      have hbooks := books_call hs hcall
      apply (records_call hs hcall).trans
      apply ih (h := h.step call) hbooks.sound
      intro x hx
      exact hkeep x (List.mem_cons_of_mem call hx)

theorem records_started (d : Driver) : Records d d.started.1 [] := by
  rw [started_eq]
  have hmade := records_allocateContexts d
  have hbound := hmade.trans (records_bindContexts d.allocateContexts)
  exact hbound.of_eq rfl rfl

/-- A driver without contexts that has counted nothing is tallied. -/
theorem tallied_of_new {config : SchedulerConfig} {auto : Nat}
    (h : Driver.new config auto = .ok d) : d.Tallied := by
  rw [new_eq_ok h]
  constructor
  · intro f
    cases f <;> rfl
  · exact fun x hx => absurd hx List.not_mem_nil

/-- What was taken and not reported is in flight, over all contexts. -/
theorem Tallied.sum_taken (h : d.Tallied) :
    (d.contexts.map fun x => x.stats.taken).sum =
      (d.contexts.map fun x => x.stats.done).sum +
        (d.contexts.map fun x => x.inFlight.length).sum := by
  rw [← List.sum_map_add]
  exact congrArg List.sum (List.map_congr_left h.flight)

/-- The metrics of a driver agree with its contexts, its pool and the calls that were made. After
every run of calls on a started driver, some of them failing, each figure that the driver counts is
the sum of what its contexts count; the takes that are not done are the tasks in flight; each kind
of source has as many takes as the run took tasks from it, which are the tasks that it answered; and
the groups that the driver shows as staged and as alive are those of its pool. Only a switch that
takes memory down is left out, as it frees the contexts with what they count. -/
theorem counters_agree {config : SchedulerConfig} {auto : Nat} {d₀ : Driver}
    (hnew : Driver.new config auto = .ok d₀) (resolver : Option Resolver)
    (doorkeeper : Option Doorkeeper) (calls : List Call)
    (hkeep : ∀ call ∈ calls, call.keepsContexts = true) :
    let start : History :=
      { driver := ({ d₀ with resolver := resolver, doorkeeper := doorkeeper } : Driver).started.1 }
    let d := (start.run calls).driver
    let m := d.metrics
    let taken := start.driver.takingsAlong calls
    (m.counters.gives = (m.contexts.map ContextStats.given).sum ∧
      m.counters.takes = (m.contexts.map ContextStats.taken).sum ∧
      m.counters.steals + m.counters.groupSteals = (m.contexts.map ContextStats.stolen).sum ∧
      m.counters.emptyTakes = (m.contexts.map ContextStats.emptyTakes).sum ∧
      m.counters.done = (m.contexts.map ContextStats.done).sum) ∧
    (m.counters.done ≤ m.counters.takes ∧
      m.counters.takes - m.counters.done = (d.contexts.map fun x => x.inFlight.length).sum) ∧
    (taken.map Taken.task = start.driver.answeredAlong calls ∧
      ∀ kind, m.counters.takesFrom kind = taken.countP fun x => x.source.kind = kind) ∧
    m.stagedGroups = (d.pool.groups.values.countP fun g => g.stage = .staged) ∧
    m.affinityGroups = d.pool.groups.values.length := by
  intro start d m taken
  have hbooks := books_started hnew resolver doorkeeper
  have hlinked : d.pool.Linked :=
    (books_run (h := start) hbooks hkeep).sound.linked
  have hfirst : Records d₀ { d₀ with resolver := resolver, doorkeeper := doorkeeper } [] :=
    (Records.refl d₀).of_eq rfl rfl
  have hrecords : Records d₀ d taken := by
    have hup := hfirst.trans (records_started _)
    exact hup.trans (records_run (h := start) hbooks.sound hkeep)
  have htallied : d.Tallied := hrecords.tallied (tallied_of_new hnew)
  have hsum : ∀ f : Figure, f.ofDriver m.counters = (m.contexts.map f.ofContext).sum := by
    intro f
    show f.ofDriver d.counters = ((d.contexts.map Context.stats).map f.ofContext).sum
    rw [List.map_map]
    exact htallied.figures f
  refine ⟨⟨hsum .given, hsum .taken, hsum .stolen, hsum .emptyTakes, hsum .done⟩, ?_, ?_, ?_, ?_⟩
  · have htaken : m.counters.takes = (d.contexts.map fun x => x.stats.taken).sum :=
      htallied.figures .taken
    have hdone : m.counters.done = (d.contexts.map fun x => x.stats.done).sum :=
      htallied.figures .done
    have hflight := htallied.sum_taken
    omega
  · refine ⟨map_task_takingsAlong _ calls, ?_⟩
    intro kind
    -- before the first call nothing was taken
    have hzero : d₀.counters.takesFrom kind = 0 := by
      rw [new_eq_ok hnew]
      cases kind <;> rfl
    have hsources := hrecords.sources kind
    rw [hzero, zero_add] at hsources
    exact hsources
  · exact hlinked.size.trans (Pool.total_waiting d.pool.groups)
  · exact hlinked.arena.size_eq

/-- A worker steals one task and drains a group, whose second task the other worker steals; one
take finds nothing, and a give of no task and a report of a task that was not taken fail. -/
theorem counters_agree_stolen :
    let d : Driver := { config := .withWorkers 2, pool := .new (.withWorkers 2) 1 }
    let calls : List Call :=
      [.createGroup ⟨5⟩, .give ⟨0⟩ ⟨7⟩ {}, .take ⟨1⟩, .give ⟨0⟩ ⟨8⟩ (.ofAffinity ⟨5⟩),
        .give ⟨0⟩ ⟨9⟩ (.ofAffinity ⟨5⟩), .take ⟨1⟩, .takeBatch ⟨0⟩ 3, .give ⟨0⟩ .none {},
        .done ⟨1⟩ ⟨7⟩, .done ⟨1⟩ ⟨7⟩]
    let start : History :=
      { driver := ({ d with resolver := none, doorkeeper := none } : Driver).started.1 }
    let m := (start.run calls).driver.metrics
    (Driver.new (.withWorkers 2) 1 = .ok d ∧ ∀ call ∈ calls, call.keepsContexts = true) ∧
      (m.counters.gives, m.counters.takesStaged, m.counters.steals, m.counters.groupSteals,
        m.counters.emptyTakes, m.counters.done) = (3, 1, 1, 1, 1, 1) ∧
      m.counters.steals + m.counters.groupSteals = (m.contexts.map ContextStats.stolen).sum := by
  have hnew : Driver.new (.withWorkers 2) 1 =
      .ok { config := .withWorkers 2, pool := .new (.withWorkers 2) 1 } := rfl
  refine ⟨⟨rfl, by decide⟩, by decide +kernel, ?_⟩
  exact (counters_agree hnew none none _ (by decide)).1.2.2.1

end Driver

end WorkStealing
