import WorkStealing.Proofs.Cluster.Undelivered
import WorkStealing.Proofs.Driver.References
import WorkStealing.Proofs.Pool.Conservation

/-!
# Answers to take requests

A node that answers a request lets go of one batch of tasks. The batch leaves the queues, and each
of its tasks is taken and reported through the service context, so that the tables of what is in
flight come out as they went in. `Asker.respond_exact` says so for every state that a running node
can be in, whether or not its driver still accepts tasks. Where workers repel nobody, a batch is cut
short only by the end of what is queued (`Driver.length_takeBatch`).
-/

namespace WorkStealing

namespace Pool

variable {p : Pool} {w : Location}

/-- Where workers repel nobody, a worker that exists finds a task as long as there is one. -/
theorem take_eq_none_iff (h : p.Linked) (hzero : p.maxRepels = 0) (hw : w.index < p.workerCount)
    (cursor : StealCursor) : (p.take w cursor).2.2 = none ↔ p.tasks = [] := by
  constructor
  · intro hmiss
    by_contra hne
    -- one take in vain is already one more than there may be
    have hvalid : ∀ x ∈ [(w, cursor)], x.1.index < p.workerCount := by simpa using hw
    have hle : 1 ≤ p.maxRepels := length_le_of_miss h hne hvalid (by simpa [takeAll] using hmiss)
    omega
  · intro hnil
    exact take_of_tasks_eq_nil h hnil w cursor

end Pool

namespace Driver

variable {d d' : Driver} {c e : ContextId} {w : Location} {ctx : Context} {ts : List TaskHandle}

/-! ### What a driver becomes -/

/-- A driver and what calls that leave its contexts in memory can make of it. -/
def Reaches : Driver → Driver → Prop :=
  Relation.ReflTransGen fun d d' => ∃ call : Call, call.keepsContexts = true ∧ d' = (d.call call).1

namespace Reaches

theorem refl (d : Driver) : d.Reaches d := Relation.ReflTransGen.refl

theorem trans {d'' : Driver} (h : d.Reaches d') (h' : d'.Reaches d'') : d.Reaches d'' :=
  Relation.ReflTransGen.trans h h'

theorem of_call (d : Driver) (call : Call) (hkeep : call.keepsContexts = true) :
    d.Reaches (d.call call).1 :=
  .single ⟨call, hkeep, rfl⟩

/-- A row of calls, one for each of some tasks. -/
theorem foldl {f : Driver → TaskHandle → Driver} (hf : ∀ d t, Reaches d (f d t))
    (ts : List TaskHandle) (d : Driver) : d.Reaches (ts.foldl f d) := by
  induction ts generalizing d with
  | nil => exact .refl d
  | cons t rest ih => exact (hf d t).trans (ih (f d t))

/-- A driver stays sound, and the number of attempts that its workers repel stays what it is. -/
theorem sound (h : d.Reaches d') (hd : d.Sound) :
    d'.Sound ∧ d'.pool.maxRepels = d.pool.maxRepels := by
  induction h with
  | refl => exact ⟨hd, rfl⟩
  | tail _ hstep ih =>
      obtain ⟨call, hkeep, rfl⟩ := hstep
      obtain ⟨hbefore, hrepels⟩ := ih
      obtain ⟨row, hrow, -⟩ := led_call _ call
      refine ⟨(books_call hbefore hkeep).sound, ?_⟩
      rw [hrow, Pool.maxRepels_run hbefore.linked]
      exact hrepels

theorem hosts (h : d.Reaches d') (hd : d.Hosts c w) : d'.Hosts c w := by
  induction h with
  | refl => exact hd
  | tail _ hstep ih =>
      obtain ⟨call, hkeep, rfl⟩ := hstep
      exact ih.of_books (books_call ih.sound hkeep)

end Reaches

/-! ### How much a batch finds -/

/-- A take through a context at a worker, where workers repel nobody: it finds nothing in empty
queues, and else takes one task out of them. -/
theorem Hosts.take_cases (h : d.Hosts c w) (hzero : d.pool.maxRepels = 0) :
    d.pool.tasks = [] ∧ (d.take c).2 = .ok none ∨
      ∃ t, (d.take c).2 = .ok (some t) ∧
        (d.take c).1.pool.tasks.length + 1 = d.pool.tasks.length := by
  obtain ⟨ctx, hctx, -⟩ := h.located
  have hheld := (Pool.take_yields h.sound.linked w ctx.cursor).held h.sound.linked
  have hnone := Pool.take_eq_none_iff h.sound.linked hzero h.staffed ctx.cursor
  rw [take, h.party hctx]
  dsimp only
  cases htake : d.pool.take w ctx.cursor with
  | mk pool r =>
      obtain ⟨cursor, r⟩ := r
      rw [htake] at hheld hnone
      cases r with
      | none => exact .inl ⟨hnone.1 rfl, rfl⟩
      | some taken =>
          refine .inr ⟨taken.task, rfl, ?_⟩
          have hcard := congrArg Multiset.card hheld
          rw [Multiset.card_add] at hcard
          exact hcard

/-- Where workers repel nobody, a batch has all the tasks that it may have, or all there are. -/
theorem length_takeBatch (h : d.Hosts c w) (hzero : d.pool.maxRepels = 0) {most : Nat}
    (hbatch : takeBatch c most d = (d', .ok ts)) : ts.length = min most d.pool.tasks.length := by
  -- induction on the size of the batch; each take that is left has one task less to find
  induction most generalizing d ts with
  | zero =>
      cases hbatch
      exact (Nat.zero_min _).symm
  | succ most ih =>
      have hhosts := h.of_books (books_take h.sound c)
      have hrepels := ((Reaches.of_call d (.take c) rfl).sound h.sound).2
      have hcases := h.take_cases hzero
      rw [takeBatch] at hbatch
      cases htake : d.take c with
      | mk d₁ r =>
          change (d.take c).1.pool.maxRepels = _ at hrepels
          rw [htake] at hbatch hhosts hrepels hcases
          rcases hcases with ⟨hnil, rfl⟩ | ⟨t, rfl, hlength⟩
          · cases hbatch
            rw [hnil]
            exact (Nat.min_zero _).symm
          · dsimp only at hbatch
            cases hrest : takeBatch c most d₁ with
            | mk d₂ r₂ =>
                rw [hrest] at hbatch
                cases r₂ with
                | error e => cases hbatch
                | ok rest =>
                    cases hbatch
                    have hih := ih hhosts (hrepels.trans hzero) hrest
                    rw [List.length_cons, hih, ← hlength, Nat.add_min_add_right]

/-! ### What stays in flight -/

theorem context?_setContext_of_ne (he : e.index ≠ c.index) (d : Driver) (ctx : Context) :
    (d.setContext c ctx).context? e = d.context? e :=
  List.getElem?_set_ne (Ne.symm he)

/-- A take through one context leaves the others alone. -/
theorem take_elsewhere (he : e.index ≠ c.index) (d : Driver) :
    (d.take c).1.context? e = d.context? e := by
  rw [take]
  split
  · rfl
  · split
    · exact context?_setContext_of_ne he _ _
    · exact context?_setContext_of_ne he _ _

theorem takeBatch_elsewhere (he : e.index ≠ c.index) (most : Nat) (d : Driver) :
    (takeBatch c most d).1.context? e = d.context? e :=
  takeBatch_induction (P := fun x => x.context? e = d.context? e)
    (fun x hx => (take_elsewhere he x).trans hx) most rfl

theorem done_elsewhere (he : e.index ≠ c.index) (d : Driver) (t : TaskHandle) :
    (d.done c t).1.context? e = d.context? e := by
  rcases done_cases d c t with ⟨ctx, source, ctx', pool, -, -, -, hdone⟩ | ⟨f, hf⟩
  · rw [hdone]
    exact context?_setContext_of_ne he _ _
  · rw [hf]

theorem doneAll_elsewhere (he : e.index ≠ c.index) (ts : List TaskHandle) (d : Driver) :
    (ts.foldl (fun d t => (d.done c t).1) d).context? e = d.context? e := by
  induction ts generalizing d with
  | nil => rfl
  | cons t rest ih => exact (ih _).trans (done_elsewhere he d t)

/-- The tasks of a batch, reported one by one: no take of the batch stays in flight, and the queues
are left as they are. -/
theorem doneAll_tracks (h : d.Sound) (hctx : d.context? c = some ctx) {batch before : List Taken}
    (hflight : ctx.inFlight = batch ++ before) (hperm : ts.Perm (batch.map Taken.task)) :
    let d' := ts.foldl (fun d t => (d.done c t).1) d
    Books d d' 0 ts ∧ d'.pool.held = d.pool.held ∧
      ∃ ctx', d'.context? c = some ctx' ∧ ctx'.inFlight = before := by
  -- induction on the tasks still to be reported, with the takes of the batch that are still open
  induction ts generalizing d ctx batch with
  | nil =>
      have hnil : batch = [] := List.map_eq_nil_iff.1 hperm.symm.eq_nil
      rw [hnil] at hflight
      exact ⟨.refl h, rfl, ctx, hctx, hflight⟩
  | cons t rest ih =>
      obtain ⟨hmem, batch', herase, hrest⟩ := flight_of_perm hflight hperm
      obtain ⟨hbooks, hheld, ctx₁, hctx₁, hflight₁⟩ := done_tracks h hctx hmem
      obtain ⟨hlast, hheld', hend⟩ := ih hbooks.sound hctx₁ (hflight₁.trans herase) hrest
      have hsum := hbooks.trans hlast
      exact ⟨hsum, hheld'.trans hheld, hend⟩

end Driver

namespace Node

variable {n : Node} {request : Message} {take : TakeRequest} {time : Timestamp}

/-- A node after it has answered a request with some tasks, beside the node before. -/
structure Handed (n : Node) (request reply : Message) (tasks : List TaskHandle) (n' : Node) :
    Prop where
  correlated : reply.correlationId = request.correlationId
  carried : reply.takeResponse? = some { responder := n.id, tasks := tasks }
  queued : (n'.driver.pool.tasks : Multiset TaskHandle) + tasks = n.driver.pool.tasks
  flight : ∃ ctx ctx', n.driver.context? n.context = some ctx ∧
    n'.driver.context? n.context = some ctx' ∧ ctx'.inFlight = ctx.inFlight
  elsewhere : ∀ e : ContextId, e.index ≠ n.context.index →
    n'.driver.context? e = n.driver.context? e
  outstanding : n'.outstanding + tasks.length = n.outstanding

/-- A node that is not going down answers a request that it can read with a batch of the smaller of
the two sizes, and reports the batch done. -/
theorem respond_eq_batch {w : Location} (h : n.driver.Hosts n.context w)
    (htopic : request.topic = TakeRequest.topic) (htake : request.takeRequest? = some take)
    (hopen : n.shuttingDown = false) (time : Timestamp) :
    ∃ d tasks asked rounds,
      Driver.takeBatch n.context (min take.maxTasks n.chunkSize).toNat n.driver = (d, .ok tasks) ∧
      n.respond request time =
        ({ n with
            driver := tasks.foldl (fun d t => (d.done n.context t).1) d
            rounds := rounds },
          .ok {
            reply := n.replyTo request time { responder := n.id, tasks := tasks }
            tasks := tasks
            asked := asked }) := by
  obtain ⟨tasks, htasks⟩ := h.takeBatch_isOk (min take.maxTasks n.chunkSize).toNat
  cases hbatch : Driver.takeBatch n.context (min take.maxTasks n.chunkSize).toNat n.driver with
  | mk d r =>
      rw [hbatch] at htasks
      cases htasks
      rw [respond, handOut, if_neg (not_not_intro htopic), htake]
      dsimp only
      rw [if_neg (Bool.eq_false_iff.1 hopen), hbatch]
      dsimp only
      split
      · -- the search on behalf of the requester touches the rounds only
        have hsearch := (searches_trigger { n with driver := d } (some take.requester)).terms
        have hdriver := (trigger_facts { n with driver := d } (some take.requester)).2.1
        generalize { n with driver := d }.trigger (some take.requester) = found at hsearch hdriver
        obtain ⟨n', asked⟩ := found
        change n' = _ at hsearch
        change n'.driver = _ at hdriver
        refine ⟨d, tasks, asked, n'.rounds, rfl, ?_⟩
        rw [hsearch]
        dsimp only [settle]
        rw [hdriver]
      · exact ⟨d, tasks, [], n.rounds, rfl, rfl⟩

/-- A node whose driver hosts its service context answers every request that it can read, unless it
is going down. -/
theorem respond_handed (h : n.driver.Hosts n.context (.ofIndex 0))
    (htopic : request.topic = TakeRequest.topic) (htake : request.takeRequest? = some take)
    (hopen : n.shuttingDown = false) (time : Timestamp) :
    ∃ n' handout, n.respond request time = (n', .ok handout) ∧
      n.Handed request handout.reply handout.tasks n' ∧
      handout.tasks.length ≤ (min take.maxTasks n.chunkSize).toNat ∧
      (n.driver.pool.maxRepels = 0 → handout.tasks.length =
        min (min take.maxTasks n.chunkSize).toNat n.driver.pool.tasks.length) := by
  obtain ⟨d, tasks, asked, rounds, hbatch, hrespond⟩ :=
    respond_eq_batch h htopic htake hopen time
  obtain ⟨ctx, hctx, -⟩ := h.located
  have htaken := Driver.books_takeBatch h.sound n.context (min take.maxTasks n.chunkSize).toNat
  have helsewhere := fun (e : ContextId) (he : e.index ≠ n.context.index) =>
    Driver.takeBatch_elsewhere he (min take.maxTasks n.chunkSize).toNat n.driver
  obtain ⟨hlength, -⟩ := Driver.takeBatch_eq_ok hctx hbatch
  obtain ⟨batch, ctx', hctx', hflight, hperm, hheld⟩ :=
    Driver.takeBatch_tracks h.sound.linked hctx hbatch
  rw [hbatch] at htaken helsewhere
  obtain ⟨hdone, hheld', ctx'', hctx'', hflight''⟩ :=
    Driver.doneAll_tracks htaken.sound hctx' hflight hperm
  have hshort : tasks.length < 0x100000000 :=
    Nat.lt_of_le_of_lt hlength (min take.maxTasks n.chunkSize).toNat_lt
  refine ⟨_, _, hrespond, ?_, hlength, ?_⟩
  · constructor
    · rfl
    · exact Message.takeResponse?_of_payload hshort rfl
    · show Pool.held _ + _ = Pool.held _
      rw [hheld', hheld]
    · exact ⟨ctx, ctx'', hctx, hctx'', hflight''⟩
    · intro e he
      exact (Driver.doneAll_elsewhere he tasks d).trans (helsewhere e he)
    · -- the driver's count follows what it holds
      have hbooks := htaken.trans hdone
      rw [zero_add, zero_add] at hbooks
      have hcard := congrArg Multiset.card hbooks.balance
      rw [Multiset.card_add, add_zero, ← hbooks.sound.outstanding, ← h.sound.outstanding] at hcard
      exact hcard
  · intro hzero
    exact Driver.length_takeBatch h hzero hbatch

/-! ### Every state of a node -/

/-- An answer that is made ready takes one batch at most. -/
theorem reaches_handOut (n : Node) (request : Message) (time : Timestamp) :
    n.driver.Reaches (n.handOut request time).1.driver := by
  rcases handOut_outcomes n request time with ⟨r, hout, -, -⟩ | ⟨limit, n', -, -, hbatch⟩
  · rw [hout]
    exact .refl _
  · have htaken := Driver.Reaches.of_call n.driver (.takeBatch n.context limit.toNat) rfl
    change n.driver.Reaches (Driver.takeBatch n.context limit.toNat n.driver).1 at htaken
    rcases hbatch with ⟨e, hbatch, hout⟩ | ⟨tasks, asked, hbatch, hout⟩
    · rw [hbatch] at htaken
      rw [hout]
      exact htaken
    · rw [hbatch] at htaken
      rw [hout]
      exact htaken

theorem join_getD {id : Location} {up : Driver} {neighbors : List Location}
    {protocol : ProtocolConfig} (h : (join id up neighbors protocol).isOk = true) :
    join id up neighbors protocol =
      .ok ((join id up neighbors protocol).toOption.getD default) := by
  cases hjoin : join id up neighbors protocol with
  | error e =>
      rw [hjoin] at h
      cases h
  | ok n => rfl

/-- A node whose driver hosts its service context, with the sizes that it was made with. -/
structure Equipped (n : Node) (chunkSize : UInt32) (repels : Nat) : Prop where
  hosts : n.driver.Hosts n.context (.ofIndex 0)
  chunkSize : n.chunkSize = chunkSize
  maxRepels : n.driver.pool.maxRepels = repels

end Node

namespace Asker

variable {a : Asker}

/-- Whether an event leaves the contexts of the node's driver in memory. -/
def Event.keepsContexts : Event → Bool
  | .call c => c.keepsContexts
  | _ => true

/-- Whatever happens to a node reaches its driver through calls, and leaves its context and its
sizes alone. -/
theorem reaches_step {e : Event} (hkeep : e.keepsContexts = true) :
    a.node.driver.Reaches (a.step e).node.driver ∧
      (a.step e).node.context = a.node.context ∧ (a.step e).node.chunkSize = a.node.chunkSize := by
  have hgive := fun (d : Driver) (t : TaskHandle) =>
    Driver.Reaches.of_call d (.give a.node.context t Hint.none) rfl
  have hdone := fun (d : Driver) (t : TaskHandle) =>
    Driver.Reaches.of_call d (.done a.node.context t) rfl
  cases e with
  | trigger requester =>
      obtain ⟨-, hdriver, hcontext⟩ := a.node.trigger_facts requester
      refine ⟨?_, hcontext, ?_⟩
      · show a.node.driver.Reaches (a.node.trigger requester).1.driver
        rw [hdriver]
        exact .refl _
      · show (a.node.trigger requester).1.chunkSize = _
        rw [(Node.searches_trigger a.node requester).terms]
  | handOut request time =>
      have hterms := (Node.searches_handOut a.node request time).terms
      refine ⟨a.node.reaches_handOut request time, ?_, ?_⟩
      · show (a.node.handOut request time).1.context = _
        rw [hterms]
      · show (a.node.handOut request time).1.chunkSize = _
        rw [hterms]
  | settle tasks => exact ⟨.foldl hdone tasks _, rfl, rfl⟩
  | restore tasks =>
      exact ⟨.foldl (fun d t => (hgive d t).trans (hdone _ t)) tasks _, rfl, rfl⟩
  | conclude i outcome =>
      simp only [step]
      cases a.unfinished[i]? with
      | none => exact ⟨.refl _, rfl, rfl⟩
      | some l =>
          dsimp only
          rw [Node.conclude]
          cases Node.responseOf outcome with
          | ok response => exact ⟨.foldl hgive _ _, rfl, rfl⟩
          | error e => exact ⟨.refl _, rfl, rfl⟩
  | late reply =>
      simp only [step]
      rw [Node.receiveLate]
      split
      · cases reply.takeResponse? with
        | some response => exact ⟨.foldl hgive _ _, rfl, rfl⟩
        | none => exact ⟨.refl _, rfl, rfl⟩
      · exact ⟨.refl _, rfl, rfl⟩
  | shutDown => exact ⟨.refl _, rfl, rfl⟩
  | call c => exact ⟨.of_call _ c hkeep, rfl, rfl⟩

end Asker

end WorkStealing
