import WorkStealing.Proofs.Cluster.Exchange
import WorkStealing.Proofs.Cluster.Requests

/-!
# Replies that do not leave

A node whose reply could not be sent gives each task of the reply back to its own driver and then
reports the take of that task as finished. The service context comes out as it went in
(`Driver.serves_giveBackAll`). The tasks may come from many queues, but all of them go back to one,
that of the node's first worker at the usual level; a task that finds no room there is reported as
finished all the same and is gone (`Asker.undelivered_kept_iff_fits`).
-/

namespace WorkStealing

namespace Driver

variable {d d' : Driver} {c : ContextId} {w : Location} {ctx : Context} {t : TaskHandle}
  {ts : List TaskHandle}

theorem Serves.give (h : d.Serves c w) (e : ContextId) (t : TaskHandle) (hint : Hint) :
    (d.give e t hint).1.Serves c w :=
  h.of_books (books_give h.sound e t hint) (accepting_give h.sound e t hint)

theorem Serves.done (h : d.Serves c w) (e : ContextId) (t : TaskHandle) :
    (d.done e t).1.Serves c w :=
  h.of_books (books_done h.sound e t) (accepting_done d e t)

/-- What every single call leaves up, a row of calls leaves up. -/
theorem Serves.foldl (h : d.Serves c w) (ts : List TaskHandle) {f : Driver → TaskHandle → Driver}
    (hf : ∀ d t, d.Serves c w → (f d t).Serves c w) : (ts.foldl f d).Serves c w := by
  induction ts generalizing d with
  | nil => exact h
  | cons t rest ih => exact ih (hf d t h)

/-! ### What a batch leaves in flight -/

/-- A take moves what it finds from the queues to what its context has in flight. -/
theorem take_tracks (hlinked : d.pool.Linked) {found : Option TaskHandle}
    (h : d.take c = (d', .ok found)) :
    d'.pool.Linked ∧ ∃ ctx ctx' taken, found = taken.map Taken.task ∧ d.context? c = some ctx ∧
      d'.context? c = some ctx' ∧ ctx'.inFlight = taken.toList ++ ctx.inFlight ∧
      d'.pool.held + Pool.foundTask taken = d.pool.held := by
  rw [take] at h
  cases hparty : d.party c with
  | error e =>
      rw [hparty] at h
      cases h
  | ok party =>
      obtain ⟨ctx, v⟩ := party
      obtain ⟨hctx, -⟩ := party_eq_ok hparty
      have hyields := Pool.take_yields hlinked v ctx.cursor
      have hheld := hyields.held hlinked
      have hlinked' := hyields.linked hlinked
      rw [hparty] at h
      dsimp only at h
      cases htake : d.pool.take v ctx.cursor with
      | mk pool r =>
          obtain ⟨cursor, r⟩ := r
          rw [htake] at h hheld hlinked'
          cases r with
          | none =>
              cases h
              exact ⟨hlinked', ctx, _, none, rfl, hctx,
                (context?_setContext hctx _ c).trans (if_pos rfl), rfl, hheld⟩
          | some taken =>
              cases h
              exact ⟨hlinked', ctx, _, some taken, rfl, hctx,
                (context?_setContext hctx _ c).trans (if_pos rfl), rfl, hheld⟩

/-- The takes of a batch come before what was in flight already. -/
theorem takeBatch_tracks (hlinked : d.pool.Linked) (hctx : d.context? c = some ctx) {most : Nat}
    (h : takeBatch c most d = (d', .ok ts)) :
    ∃ batch ctx', d'.context? c = some ctx' ∧ ctx'.inFlight = batch ++ ctx.inFlight ∧
      ts.Perm (batch.map Taken.task) ∧ d'.pool.held + ts = d.pool.held := by
  -- induction on the size of the batch; the context after each take is where the next one starts
  induction most generalizing d ctx ts with
  | zero =>
      cases h
      exact ⟨[], ctx, hctx, rfl, List.Perm.refl _, add_zero _⟩
  | succ most ih =>
      rw [takeBatch] at h
      cases htake : d.take c with
      | mk d₁ r =>
          rw [htake] at h
          cases r with
          | error e => cases h
          | ok found =>
              obtain ⟨hlinked₁, x, ctx₁, taken, rfl, hx, hctx₁, hflight₁, hheld₁⟩ :=
                take_tracks hlinked htake
              cases hx.symm.trans hctx
              cases taken with
              | none =>
                  cases h
                  exact ⟨[], ctx₁, hctx₁, hflight₁, List.Perm.refl _, hheld₁⟩
              | some taken =>
                  dsimp only [Option.map_some] at h
                  cases hbatch : takeBatch c most d₁ with
                  | mk d₂ r₂ =>
                      rw [hbatch] at h
                      cases r₂ with
                      | error e => cases h
                      | ok rest =>
                          cases h
                          obtain ⟨batch, ctx₂, hctx₂, hflight₂, hperm, hheld₂⟩ :=
                            ih hlinked₁ hctx₁ hbatch
                          refine ⟨batch ++ [taken], ctx₂, hctx₂, ?_, ?_, ?_⟩
                          · rw [hflight₂, hflight₁, Option.toList_some, List.append_assoc]
                          · rw [List.map_append, List.map_singleton]
                            exact (hperm.cons _).trans (List.perm_append_singleton _ _).symm
                          · rw [← Multiset.cons_coe, ← Multiset.singleton_add, ← hheld₁, ← hheld₂]
                            show d'.pool.held + ({taken.task} + (rest : Multiset TaskHandle)) =
                              d'.pool.held + rest + {taken.task}
                            ac_rfl

/-! ### Giving back -/

theorem isNone_of_mem_holding (h : d.Sound) (hctx : d.context? c = some ctx)
    (ht : t ∈ ctx.holding) : t.isNone = false :=
  h.named t (mem_held_of_mem_holding hctx ht)

/-- A named task without a hint joins the queues of its giver's worker if there is room. -/
theorem give_none_facts (h : d.Serves c w) (hctx : d.context? c = some ctx)
    (hname : t.isNone = false) :
    let d' := (d.give c t Hint.none).1
    let kept := [t].take (d.pool.roomAt w)
    d'.Serves c w ∧ Books d d' kept 0 ∧ d'.pool.held = d.pool.held + (kept : Multiset TaskHandle) ∧
      d'.pool.roomAt w = d.pool.roomAt w - 1 ∧
      ∃ ctx', d'.context? c = some ctx' ∧ ctx'.inFlight = ctx.inFlight := by
  intro d' kept
  have hbooks := books_give h.sound c t Hint.none
  have hserves := h.give c t Hint.none
  have hroom := give_none_cases h hname
  rcases Driver.give_cases h.sound.linked c t Hint.none with
    ⟨pool, x, placement, -, -, hmove, hx, hgive⟩ | ⟨e, counters, -, -, -, hgive⟩
  · rw [hgive] at hroom hbooks
    rcases hroom with ⟨-, hroom⟩ | ⟨-, -, e, he⟩
    · have hkept : kept = [t] := by
        show [t].take (d.pool.roomAt w) = [t]
        rw [← hroom, List.take_succ_cons, List.take_nil]
      have hheld : pool.held = d.pool.held + {t} :=
        (add_zero _).symm.trans (hmove.held h.sound.linked.arena)
      cases hx.symm.trans hctx
      refine ⟨hserves, ?_, ?_, ?_, ?_⟩
      · rw [hkept, show d' = _ from congrArg Prod.fst hgive]
        exact hbooks
      · rw [hkept, show d'.pool = pool from congrArg (·.1.pool) hgive]
        exact hheld
      · have hafter : d'.pool.roomAt w + 1 = d.pool.roomAt w := by
          rw [show d'.pool = pool from congrArg (·.1.pool) hgive]
          exact hroom
        omega
      · refine ⟨ctx.recordGiven, ?_, rfl⟩
        rw [show d' = _ from congrArg Prod.fst hgive]
        exact (context?_setContext hctx ctx.recordGiven c).trans (if_pos rfl)
    · cases he
  · rw [hgive] at hroom hbooks
    rcases hroom with ⟨hok, -⟩ | ⟨hfull, -, -⟩
    · cases hok
    · have hkept : kept = [] := by
        show [t].take (d.pool.roomAt w) = []
        rw [hfull, List.take_zero]
      have hsame : d' = { d with counters := counters } := congrArg Prod.fst hgive
      refine ⟨hserves, ?_, ?_, ?_, ctx, ?_, rfl⟩
      · rw [hkept, hsame]
        exact hbooks
      · rw [hkept, hsame]
        exact (add_zero _).symm
      · rw [hsame]
        show d.pool.roomAt w = d.pool.roomAt w - 1
        omega
      · rw [hsame]
        exact hctx

/-- The first task and those after it share the room. -/
theorem coe_take_add_take (t : TaskHandle) (rest : List TaskHandle) (room : Nat) :
    ([t].take room : Multiset TaskHandle) + (rest.take (room - 1) : Multiset TaskHandle) =
      ((t :: rest).take room : Multiset TaskHandle) := by
  cases room with
  | zero => rfl
  | succ k =>
      rw [List.take_succ_cons, List.take_nil, List.take_succ_cons, Nat.add_sub_cancel,
        Multiset.coe_add]
      rfl

/-- Of tasks that are given one after the other, the first ones join the queues, as many as there is
room for. -/
theorem held_giveAll (h : d.Serves c w) (hnamed : ∀ t ∈ ts, t.isNone = false) :
    (ts.foldl (fun d t => (d.give c t Hint.none).1) d).pool.held =
      d.pool.held + (ts.take (d.pool.roomAt w) : Multiset TaskHandle) := by
  induction ts generalizing d with
  | nil =>
      rw [List.take_nil]
      exact (add_zero _).symm
  | cons t rest ih =>
      obtain ⟨ctx, hctx, -⟩ := h.located
      obtain ⟨hgiven, -, hheld, hroom, -⟩ := give_none_facts h hctx (hnamed t List.mem_cons_self)
      have hrest := ih hgiven fun x hx => hnamed x (List.mem_cons_of_mem t hx)
      rw [List.foldl_cons, hrest, hheld, hroom, add_assoc, coe_take_add_take]

/-- A report touches no worker's queues. -/
theorem seats_done (d : Driver) (c : ContextId) (t : TaskHandle) :
    (d.done c t).1.pool.seats = d.pool.seats := by
  rw [done]
  cases d.context? c with
  | none => rfl
  | some ctx =>
      dsimp only
      cases ctx.release t with
      | error e => rfl
      | ok found =>
          dsimp only [setContext]
          cases found.1.group? with
          | none => rfl
          | some i =>
              dsimp only
              rw [Pool.groupTaskDone]
              split <;> rfl

/-- A report of a task in flight ends its latest take and leaves the queues as they are. -/
theorem done_tracks (h : d.Sound) (hctx : d.context? c = some ctx) (ht : t ∈ ctx.holding) :
    let d' := (d.done c t).1
    Books d d' 0 [t] ∧ d'.pool.held = d.pool.held ∧
      ∃ ctx', d'.context? c = some ctx' ∧
        ctx'.inFlight = ctx.inFlight.eraseP fun x => x.task = t := by
  intro d'
  obtain ⟨-, hok, -, -⟩ := done_of_mem hctx ht
  have hbooks := books_done h c t
  rw [hok] at hbooks
  refine ⟨hbooks, ?_, ?_⟩
  · rcases done_cases d c t with ⟨x, source, ctx', pool, -, -, hquiet, hdone⟩ | ⟨e, he⟩
    · rw [show d'.pool = pool from congrArg (·.1.pool) hdone]
      exact hquiet.held h.linked
    · rw [he] at hok
      cases hok
  · rcases done_cases d c t with ⟨x, source, ctx', pool, hx, hrelease, -, hdone⟩ | ⟨e, he⟩
    · cases hx.symm.trans hctx
      refine ⟨ctx', ?_, ?_⟩
      · rw [show d' = _ from congrArg Prod.fst hdone]
        exact (context?_setContext hctx ctx' c).trans (if_pos rfl)
      · rw [Context.release] at hrelease
        split at hrelease
        · cases hrelease
        · cases hrelease
          rfl
    · rw [he] at hok
      cases hok

theorem done_facts (h : d.Serves c w) (hctx : d.context? c = some ctx) (ht : t ∈ ctx.holding) :
    let d' := (d.done c t).1
    d'.Serves c w ∧ Books d d' 0 [t] ∧ d'.pool.held = d.pool.held ∧
      d'.pool.roomAt w = d.pool.roomAt w ∧
      ∃ ctx', d'.context? c = some ctx' ∧
        ctx'.inFlight = ctx.inFlight.eraseP fun x => x.task = t := by
  intro d'
  have hroom : d'.pool.roomAt w = d.pool.roomAt w := by
    rw [Pool.roomAt, Pool.seat?, seats_done]
    rfl
  obtain ⟨hbooks, hheld, hflight⟩ := done_tracks h.sound hctx ht
  exact ⟨h.done c t, hbooks, hheld, hroom, hflight⟩

/-- A batch without one of its tasks is what is left when the latest take of that task goes. -/
theorem perm_eraseP {batch : List Taken} {rest : List TaskHandle}
    (h : (t :: rest).Perm (batch.map Taken.task)) :
    (∃ x ∈ batch, x.task = t) ∧
      rest.Perm ((batch.eraseP fun x => x.task = t).map Taken.task) := by
  obtain ⟨x, hx, htask⟩ := List.mem_map.1 (h.subset List.mem_cons_self)
  refine ⟨⟨x, hx, htask⟩, ?_⟩
  obtain ⟨y, before, after, -, hy, hsplit, herase⟩ :=
    List.exists_of_eraseP (p := fun x : Taken => decide (x.task = t)) hx (decide_eq_true htask)
  rw [herase]
  rw [hsplit, List.map_append, List.map_cons, of_decide_eq_true hy] at h
  rw [List.map_append]
  exact (h.trans List.perm_middle).cons_inv

/-- A task of a batch whose takes come first is in flight, and the end of its latest take leaves the
rest of the batch before what was in flight already. -/
theorem flight_of_perm {batch before : List Taken} (hflight : ctx.inFlight = batch ++ before)
    (hperm : (t :: ts).Perm (batch.map Taken.task)) :
    t ∈ ctx.holding ∧ ∃ batch', (ctx.inFlight.eraseP fun x => x.task = t) = batch' ++ before ∧
      ts.Perm (batch'.map Taken.task) := by
  obtain ⟨⟨x, hx, htask⟩, hrest⟩ := perm_eraseP hperm
  refine ⟨?_, _, ?_, hrest⟩
  · rw [Context.holding, hflight, ← htask]
    exact List.mem_map_of_mem (List.mem_append_left before hx)
  · rw [hflight]
    exact List.eraseP_append_left (p := fun x : Taken => decide (x.task = t))
      (decide_eq_true htask) before hx

/-- Tasks of a batch that are given back one by one, each before its take is ended: the first ones
join the queues, as many as there is room for, and no take of the batch stays in flight. -/
theorem serves_giveBackAll (h : d.Serves c w) (hctx : d.context? c = some ctx)
    {batch before : List Taken} (hflight : ctx.inFlight = batch ++ before)
    (hperm : ts.Perm (batch.map Taken.task)) :
    let d' := ts.foldl (fun d t => ((d.give c t Hint.none).1.done c t).1) d
    let kept := ts.take (d.pool.roomAt w)
    d'.Serves c w ∧ Books d d' kept ts ∧
      d'.pool.held = d.pool.held + (kept : Multiset TaskHandle) ∧
      ∃ ctx', d'.context? c = some ctx' ∧ ctx'.inFlight = before := by
  -- induction on the tasks still to be given back; each takes up one place, or there is none left
  induction ts generalizing d ctx batch with
  | nil =>
      have hnil : batch = [] := List.map_eq_nil_iff.1 hperm.symm.eq_nil
      rw [hnil] at hflight
      dsimp only
      rw [List.take_nil]
      exact ⟨h, .refl h.sound, (add_zero _).symm, ctx, hctx, hflight⟩
  | cons t rest ih =>
      obtain ⟨hmem, batch', herase, hrest⟩ := flight_of_perm hflight hperm
      have hname := isNone_of_mem_holding h.sound hctx hmem
      obtain ⟨hgiven, hbooks₁, hheld₁, hroom₁, ctx₁, hctx₁, hflight₁⟩ :=
        give_none_facts h hctx hname
      have hmem₁ : t ∈ ctx₁.holding := by
        rw [Context.holding, hflight₁]
        exact hmem
      obtain ⟨hdone, hbooks₂, hheld₂, hroom₂, ctx₂, hctx₂, hflight₂⟩ :=
        done_facts hgiven hctx₁ hmem₁
      have hflight' : ctx₂.inFlight = batch' ++ before := by
        rw [hflight₂, hflight₁]
        exact herase
      obtain ⟨hlast, hbooks₃, hheld₃, hend⟩ := ih hdone hctx₂ hflight' hrest
      rw [hroom₂, hroom₁] at hbooks₃ hheld₃
      refine ⟨hlast, ?_, ?_, hend⟩
      · have hsum := (hbooks₁.trans hbooks₂).trans hbooks₃
        rw [add_zero, zero_add, coe_take_add_take] at hsum
        exact hsum
      · rw [← coe_take_add_take, ← add_assoc, ← hheld₁, ← hheld₂]
        exact hheld₃

end Driver

namespace Node

variable {n : Node}

/-- A node after a reply with some tasks has not left, beside the node before the request. -/
structure Undelivered (n : Node) (tasks : List TaskHandle) (room : Nat) (n' : Node) : Prop where
  queued : n'.driver.pool.held + (tasks.drop room : Multiset TaskHandle) = n.driver.pool.held
  outstanding : n'.outstanding + (tasks.drop room).length = n.outstanding
  flight : ∃ ctx ctx', n.driver.context? n.context = some ctx ∧
    n'.driver.context? n.context = some ctx' ∧ ctx'.inFlight = ctx.inFlight

/-- A node that hands nothing out has nothing to give back. -/
theorem undelivered_of_nil (h : n.Sound) (room : Nat) : Undelivered n [] room n := by
  obtain ⟨ctx, hctx, -⟩ := h.located
  refine ⟨?_, ?_, ctx, ctx, hctx, hctx, rfl⟩
  · rw [List.drop_nil]
    exact add_zero _
  · rw [List.drop_nil]
    rfl

/-- What finds room at the first worker is given back, and the rest is lost. -/
theorem serveOne_undelivered (h : n.Sound) (request : Message) (time : Timestamp) :
    Undelivered n (handedOut (n.handOut request time).2) (n.handOut request time).1.room
      (n.serveOne time (.message request true)).1 := by
  rw [serveOne]
  rcases handOut_cases h request time with
    ⟨r, hout, hnone, -⟩ | ⟨limit, tasks, n', asked, hbatch, -, hcontext, hout⟩
  · rw [hout]
    dsimp only
    rw [hnone]
    cases r with
    | error e => exact undelivered_of_nil h _
    | ok handout =>
        have hrestore : n.restore handout.tasks = n := by
          rw [show handout.tasks = [] from hnone]
          rfl
        dsimp only
        rw [if_pos rfl, hrestore]
        exact undelivered_of_nil h _
  · rw [hout]
    obtain ⟨ctx, hctx, -⟩ := h.located
    have htaken := Driver.books_takeBatch h.sound n.context limit.toNat
    have hserves := Driver.Serves.of_books h htaken (Driver.accepting_takeBatch _ _ _)
    obtain ⟨batch, ctx', hctx', hflight, hperm, hheld⟩ :=
      Driver.takeBatch_tracks h.sound.linked hctx hbatch
    rw [hbatch] at htaken hserves
    dsimp only at htaken hserves
    obtain ⟨hlast, hbooks, hheld', ctx'', hctx'', hflight''⟩ :=
      Driver.serves_giveBackAll hserves hctx' hflight hperm
    have hrestored : (n'.restore tasks).driver =
        tasks.foldl (fun d t => ((d.give n.context t Hint.none).1.done n.context t).1)
          n'.driver := by
      rw [restore, hcontext]
    -- the tasks given back and those lost are the batch
    have hsplit : (tasks : Multiset TaskHandle) =
        (tasks.take n'.room : Multiset TaskHandle) + (tasks.drop n'.room : Multiset TaskHandle) := by
      rw [Multiset.coe_add, List.take_append_drop]
    dsimp only [handedOut]
    rw [if_pos rfl]
    refine ⟨?_, ?_, ctx, ctx'', hctx, ?_, hflight''⟩
    · rw [hrestored, hheld', ← hheld, hsplit, add_assoc]
      rfl
    · -- the driver's count follows what it holds
      have hbalance := (htaken.trans hbooks).balance
      rw [zero_add, zero_add] at hbalance
      have hcard := congrArg Multiset.card hbalance
      rw [Multiset.card_add, Multiset.card_add, Multiset.coe_card, Multiset.coe_card,
        ← hlast.sound.outstanding, ← h.sound.outstanding] at hcard
      have hlength : (tasks.take n'.room).length + (tasks.drop n'.room).length = tasks.length := by
        rw [← List.length_append, List.take_append_drop]
      rw [outstanding, hrestored, Driver.outstanding, outstanding, Driver.outstanding]
      change _ + tasks.length = _ + (tasks.take n'.room).length at hcard
      omega
    · rw [hrestored]
      exact hctx''

end Node

/-! ### Every state of a running node -/

namespace Driver

/-- Calls that leave a driver up, in any number. -/
theorem up_run {h : History} (hsound : h.driver.Sound) (hopen : h.driver.accepting = true)
    {calls : List Call} (hup : ∀ call ∈ calls, call.keepsUp = true) :
    (h.run calls).driver.Sound ∧ (h.run calls).driver.accepting = true := by
  -- induction on the calls still to come
  induction calls generalizing h with
  | nil => exact ⟨hsound, hopen⟩
  | cons call rest ih =>
      have hcall := hup call List.mem_cons_self
      have hbooks := books_call hsound (Call.keepsContexts_of_keepsUp hcall)
      have haccepting := accepting_call hsound hopen hcall
      exact ih (h := h.step call) hbooks.sound (haccepting.trans hopen) fun x hx =>
        hup x (List.mem_cons_of_mem call hx)

end Driver

namespace Node

/-- A node that joins with a driver that has come up and has been called since, in any way that left
it up. A context is named by 32 bits, so the node needs a name that is not taken. -/
def IsJoined (n : Node) : Prop :=
  ∃ (c : SchedulerConfig) (auto : Nat) (d : Driver) (resolver : Option Resolver)
    (doorkeeper : Option Doorkeeper) (calls : List Driver.Call) (id : Location)
    (neighbors : List Location) (protocol : ProtocolConfig),
    let start : Driver.History :=
      { driver := ({ d with resolver := resolver, doorkeeper := doorkeeper } : Driver).started.1 }
    Driver.new c auto = .ok d ∧ (∀ call ∈ calls, call.keepsUp = true) ∧
      (start.run calls).driver.contexts.length < UInt32.size ∧
      join id (start.run calls).driver neighbors protocol = .ok n

theorem IsJoined.sound {n : Node} (h : n.IsJoined) : n.Sound := by
  obtain ⟨c, auto, d, resolver, doorkeeper, calls, id, neighbors, protocol, hnew, hup, hlength,
    hjoin⟩ := h
  have hstarted := (Driver.books_started hnew resolver doorkeeper).sound
  obtain ⟨hsound, hopen⟩ := Driver.up_run
    (h := { driver := ({ d with resolver := resolver, doorkeeper := doorkeeper } :
      Driver).started.1 }) hstarted rfl hup
  rw [join] at hjoin
  split at hjoin
  next => cases hjoin
  next driver' context heq =>
    cases hjoin
    have hbooks := Driver.books_openContext hsound (.ofIndex 0)
    rw [heq] at hbooks
    obtain ⟨hin, hlocated, haccepting⟩ := openContext_facts hlength heq
    refine ⟨hbooks.sound, haccepting.trans hopen, hlocated, ?_⟩
    rw [hbooks.workers]
    exact hin

end Node

namespace Asker

variable {a : Asker}

/-- Whether an event leaves the node's driver up and accepting. -/
def Event.keepsUp : Event → Bool
  | .call c => c.keepsUp
  | _ => true

theorem sound_step (h : a.node.Sound) {e : Event} (hup : e.keepsUp = true) :
    (a.step e).node.Sound := by
  cases e with
  | trigger requester =>
      obtain ⟨-, hdriver, hcontext⟩ := a.node.trigger_facts requester
      show (a.node.trigger requester).1.Sound
      rw [Node.Sound, hdriver, hcontext]
      exact h
  | handOut request time =>
      show (a.node.handOut request time).1.Sound
      rcases Node.handOut_cases h request time with
        ⟨r, hout, -, -⟩ | ⟨limit, tasks, n', asked, hbatch, -, hcontext, hout⟩
      · rw [hout]
        exact h
      · rw [hout]
        have htaken := Driver.books_takeBatch h.sound a.node.context limit.toNat
        have hserves := Driver.Serves.of_books h htaken (Driver.accepting_takeBatch _ _ _)
        rw [hbatch] at hserves
        rw [Node.Sound, hcontext]
        exact hserves
  | settle tasks =>
      exact Driver.Serves.foldl h tasks fun d t hd => hd.done a.node.context t
  | restore tasks =>
      exact Driver.Serves.foldl h tasks fun d t hd =>
        (hd.give a.node.context t Hint.none).done a.node.context t
  | conclude i outcome =>
      simp only [step]
      cases a.unfinished[i]? with
      | none => exact h
      | some l => exact (Node.conclude_facts h l outcome).1
  | late reply =>
      show (a.node.receiveLate reply).Sound
      rw [Node.receiveLate]
      split
      · split
        next response _ =>
          exact Driver.Serves.foldl h (Rounds.kept response) fun d t hd =>
            hd.give a.node.context t Hint.none
        next => exact h
      · exact h
  | shutDown => exact h
  | call c => exact Driver.Serves.call h hup

theorem sound_run (h : a.node.Sound) {events : List Event}
    (hup : ∀ e ∈ events, e.keepsUp = true) : (a.run events).node.Sound := by
  -- induction on the events still to come
  induction events generalizing a with
  | nil => exact h
  | cons e rest ih =>
      exact ih (sound_step h (hup e List.mem_cons_self)) fun x hx =>
        hup x (List.mem_cons_of_mem e hx)

/-- Tasks of a reply that could not be sent stay, as far as there is room. In every state of a node
that joined with a driver that was up, after searches, answers made ready, settled or taken back,
exchanges that end, late replies, a shutdown and calls of the driver that leave it up, and for every
request whose reply does not leave: the service context has in flight what it had before. What is
queued, and the count of outstanding tasks, is what it was before except for the tasks of the reply
beyond the room that the first worker's queue has once they are taken. So nothing is lost exactly if
that room is enough for all of them. -/
theorem undelivered_kept_iff_fits {node : Node} (hjoined : node.IsJoined) {events : List Event}
    (hup : ∀ e ∈ events, e.keepsUp = true) (request : Message) (time : Timestamp) :
    let n := (run { node := node } events).node
    let tasks := Node.handedOut (n.handOut request time).2
    let room := (n.handOut request time).1.room
    let n' := (n.serveOne time (.message request true)).1
    (n'.driver.pool.tasks : Multiset TaskHandle) + (tasks.drop room : Multiset TaskHandle) =
        n.driver.pool.tasks ∧
      n'.outstanding + (tasks.drop room).length = n.outstanding ∧
      (∃ ctx ctx', n.driver.context? n.context = some ctx ∧
        n'.driver.context? n.context = some ctx' ∧ ctx'.inFlight = ctx.inFlight) ∧
      ((n'.driver.pool.tasks : Multiset TaskHandle) = n.driver.pool.tasks ↔
        tasks.length ≤ room) ∧
      (n'.outstanding = n.outstanding ↔ tasks.length ≤ room) := by
  intro n tasks room n'
  have hsound : n.Sound := sound_run (a := { node := node }) hjoined.sound hup
  have hafter : n.Undelivered tasks room n' := Node.serveOne_undelivered hsound request time
  have hqueued : (n'.driver.pool.tasks : Multiset TaskHandle) +
      (tasks.drop room : Multiset TaskHandle) = n.driver.pool.tasks := hafter.queued
  have houtstanding := hafter.outstanding
  have hlost : tasks.drop room = [] ↔ tasks.length ≤ room := List.drop_eq_nil_iff
  refine ⟨hqueued, houtstanding, hafter.flight, ?_, ?_⟩
  · -- cancelling what is queued afterwards leaves the losses
    rw [← hlost, ← Multiset.coe_eq_zero]
    constructor
    · intro hsame
      exact add_eq_left.1 (hqueued.trans hsame.symm)
    · intro hnone
      rw [← hqueued, hnone, add_zero]
  · rw [← hlost, ← List.length_eq_zero_iff]
    omega

/-- Two workers have a task each, and queues that hold one. The reply with both tasks does not
leave, and only the first of them fits back into the queue of the first worker. -/
theorem undelivered_kept_iff_fits_full :
    let c : SchedulerConfig := { workers := 2, dequeCapacity := 1 }
    let start : Driver.History :=
      { driver := ({ config := c, pool := .new c 1 } : Driver).started.1 }
    let joined := Node.join ⟨1⟩ (start.run [.give ⟨0⟩ ⟨5⟩ Hint.none]).driver [] {}
    let node : Node := joined.toOption.getD default
    let events : List Event := [.call (.give ⟨1⟩ ⟨6⟩ Hint.none)]
    let request : Message :=
      { topic := TakeRequest.topic
        sender := ⟨9⟩
        payload := TakeRequest.toBytes { requester := ⟨9⟩, maxTasks := 4 }
        timestamp := .epoch
        correlationId := .nil }
    (node.IsJoined ∧ ∀ e ∈ events, e.keepsUp = true) ∧
      Node.handedOut ((run { node := node } events).node.handOut request .epoch).2 =
        [⟨5⟩, ⟨6⟩] ∧
      (run { node := node } events).node.outstanding = 2 ∧
      ((run { node := node } events).node.serveOne .epoch (.message request true)).1.outstanding =
        1 ∧
      ¬ (((run { node := node } events).node.serveOne .epoch
          (.message request true)).1.driver.pool.tasks : Multiset TaskHandle) =
        (run { node := node } events).node.driver.pool.tasks := by
  intro c start joined node events request
  have hjoined : node.IsJoined :=
    ⟨c, 1, _, none, none, [.give ⟨0⟩ ⟨5⟩ Hint.none], ⟨1⟩, [], {}, rfl, by decide, by decide +kernel,
      rfl⟩
  have hup : ∀ e ∈ events, e.keepsUp = true := by decide +kernel
  have htasks : Node.handedOut ((run { node := node } events).node.handOut request .epoch).2 =
      [⟨5⟩, ⟨6⟩] := by
    decide +kernel
  have hroom : ((run { node := node } events).node.handOut request .epoch).1.room = 1 := by
    decide +kernel
  have hbefore : (run { node := node } events).node.outstanding = 2 := by decide +kernel
  have hafter : ((run { node := node } events).node.serveOne .epoch
      (.message request true)).1.outstanding = 1 := by
    decide +kernel
  obtain ⟨-, -, -, hkept, -⟩ := undelivered_kept_iff_fits hjoined hup request .epoch
  refine ⟨⟨hjoined, hup⟩, htasks, hbefore, hafter, ?_⟩
  intro hsame
  have hfits := hkept.1 hsame
  rw [htasks, hroom] at hfits
  exact absurd hfits (by decide)

end Asker

end WorkStealing
