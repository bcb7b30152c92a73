import WorkStealing.Proofs.Driver.Run

/-!
# Drivers that serve a context

What a party can rely on that gives and takes through one context of a running driver
(`Driver.Serves`): tasks given without a hint are let in one after the other until the worker's
queue is full (`serves_giveAll`), and what a batch has taken can be reported done, all of it
(`serves_doneAll`).
-/

namespace WorkStealing

/-! ### Room -/

namespace Levels

variable {l l' : Levels} {t : TaskHandle} {used : Nat}

/-- How many more tasks without an urgency can be queued. -/
def room (l : Levels) : Nat :=
  (l.atLevel l.defaultLevel).capacity - (l.atLevel l.defaultLevel).held

theorem atLevel_store (l : Levels) (level : Nat) (d : WorkDeque) :
    (l.store level d).atLevel level = d := by
  have hclamp : (l.store level d).clamp level = l.clamp level := by
    simp [clamp, levelCount, store]
  have hget := (l.store level d).getElem?_clamp level
  rw [hclamp, store, List.getElem?_set_self (l.clamp_lt level)] at hget
  exact (Option.some.inj hget).symm

/-- A deque with one more task in it leaves room for one less. -/
theorem room_store {d : WorkDeque} (hcapacity : d.capacity = (l.atLevel l.defaultLevel).capacity)
    (htasks : (d.tasks : Multiset TaskHandle) =
      t ::ₘ ((l.atLevel l.defaultLevel).tasks : Multiset TaskHandle)) :
    (l.store l.defaultLevel d).room + 1 = l.room := by
  have hheld := congrArg Multiset.card htasks
  rw [Multiset.card_cons, Multiset.coe_card, Multiset.coe_card, WorkDeque.length_tasks,
    WorkDeque.length_tasks] at hheld
  have hle := d.held_le
  -- the same level is looked at before and after
  have hroom : (l.store l.defaultLevel d).room = d.capacity - d.held := by
    show ((l.store l.defaultLevel d).atLevel l.defaultLevel).capacity -
      ((l.store l.defaultLevel d).atLevel l.defaultLevel).held = _
    rw [atLevel_store]
  rw [hroom, room]
  omega

theorem room_insert (h : l.insert t l.defaultLevel = .ok (used, l')) : l'.room + 1 = l.room := by
  obtain ⟨d, hd, -, rfl⟩ := insert_eq_ok h
  exact room_store (WorkDeque.push_facts hd).2.2.2 (WorkDeque.coe_tasks_push hd)

theorem room_inject (h : l.inject t l.defaultLevel = .ok (used, l')) : l'.room + 1 = l.room := by
  obtain ⟨d, hd, -, rfl⟩ := inject_eq_ok h
  exact room_store (WorkDeque.inject_facts hd).2.2.2 (WorkDeque.coe_tasks_inject hd)

theorem room_of_insert_error {e : SchedError} (h : l.insert t l.defaultLevel = .error e) :
    l.room = 0 := by
  rw [insert] at h
  cases hput : (l.atLevel l.defaultLevel).push t with
  | error e' => exact Nat.sub_eq_zero_of_le ((WorkDeque.push_eq_error_iff _ _ _).1 hput).1.ge
  | ok d =>
      rw [hput] at h
      cases h

theorem room_of_inject_error {e : SchedError} (h : l.inject t l.defaultLevel = .error e) :
    l.room = 0 := by
  rw [inject] at h
  cases hput : (l.atLevel l.defaultLevel).inject t with
  | error e' => exact Nat.sub_eq_zero_of_le ((WorkDeque.inject_eq_error_iff _ _ _).1 hput).1.ge
  | ok d =>
      rw [hput] at h
      cases h

end Levels

namespace Pool

variable {p q : Pool} {w : Location}

/-- How many more tasks without an urgency the queue of a worker can hold. -/
def roomAt (p : Pool) (w : Location) : Nat := (p.seat? w).elim 0 fun s => s.lane.room

/-- A task without a hint goes to the giver's worker, and is refused only if there is no room. -/
theorem give_none_cases (giver : Giver) (t : TaskHandle)
    (hw : giver.location.index < p.workerCount) :
    (∃ placement q, p.give giver t Hint.none = (q, .ok placement) ∧
        q.roomAt giver.location + 1 = p.roomAt giver.location) ∨
      (p.roomAt giver.location = 0 ∧ ∃ e, p.give giver t Hint.none = (p, .error e)) := by
  obtain ⟨s, hs⟩ := seat_of_lt hw
  have hseat : p.seat? giver.location = some s := hs
  have hroom : p.roomAt giver.location = s.lane.room := by rw [roomAt, hseat, Option.elim_some]
  have hgive : p.give giver t Hint.none = p.giveToWorker giver t Hint.none := by
    rw [give]
    cases p.affinity <;> rfl
  -- without a hint there is no group to ask for and no other worker to aim at
  have htarget : p.target giver.location Hint.none = giver.location := rfl
  rw [hgive, hroom, giveToWorker]
  rw [htarget]
  dsimp only
  rw [hseat]
  dsimp only [Hint.none, Option.map_none, Option.getD_none]
  -- the owner's end and the injected part share one bound, so both refuse alike
  generalize hput : (if (decide (giver.location = giver.location) && giver.isOwner) = true
    then s.lane.insert else s.lane.inject) t s.lane.defaultLevel = r
  cases r with
  | error e =>
      refine .inr ⟨?_, e, rfl⟩
      split at hput
      · exact Levels.room_of_insert_error hput
      · exact Levels.room_of_inject_error hput
  | ok put =>
      obtain ⟨used, lane⟩ := put
      have hlane : lane.room + 1 = s.lane.room := by
        split at hput
        · exact Levels.room_insert hput
        · exact Levels.room_inject hput
      refine .inl ⟨_, _, rfl, ?_⟩
      rw [roomAt, seat?, setSeat, List.getElem?_set_self hw, Option.elim_some]
      exact hlane

end Pool

namespace Driver

variable {d d' : Driver} {c : ContextId} {w : Location} {ctx : Context} {t : TaskHandle}
  {ts : List TaskHandle} {a r : Multiset TaskHandle}

/-- A driver with a context at one of its workers, whether or not it accepts tasks. -/
structure Hosts (d : Driver) (c : ContextId) (w : Location) : Prop where
  sound : d.Sound
  located : ∃ ctx, d.context? c = some ctx ∧ ctx.location = some w
  staffed : w.index < d.workerCount

theorem Hosts.of_books (h : d.Hosts c w) (hb : Books d d' a r) : d'.Hosts c w where
  sound := hb.sound
  located := by
    obtain ⟨ctx, hctx, hl⟩ := h.located
    exact hb.located c ctx w hctx hl
  staffed := hb.workers ▸ h.staffed

theorem Hosts.party (h : d.Hosts c w) (hctx : d.context? c = some ctx) :
    d.party c = .ok (ctx, w) := by
  obtain ⟨x, hx, hl⟩ := h.located
  cases hx.symm.trans hctx
  rw [Driver.party, hctx]
  dsimp only
  rw [Context.worker, hl]
  rfl

/-- A running driver with a context at one of its workers. -/
structure Serves (d : Driver) (c : ContextId) (w : Location) : Prop where
  sound : d.Sound
  accepting : d.accepting = true
  located : ∃ ctx, d.context? c = some ctx ∧ ctx.location = some w
  staffed : w.index < d.workerCount

theorem Serves.hosts (h : d.Serves c w) : d.Hosts c w := ⟨h.sound, h.located, h.staffed⟩

theorem Serves.of_books (h : d.Serves c w) (hb : Books d d' a r)
    (haccepting : d'.accepting = d.accepting) : d'.Serves c w where
  sound := hb.sound
  accepting := haccepting.trans h.accepting
  located := (h.hosts.of_books hb).located
  staffed := (h.hosts.of_books hb).staffed

theorem Serves.party (h : d.Serves c w) (hctx : d.context? c = some ctx) :
    d.party c = .ok (ctx, w) := h.hosts.party hctx

/-! ### Calls leave a driver open -/

theorem accepting_give (h : d.Sound) (c : ContextId) (t : TaskHandle) (hint : Hint) :
    (d.give c t hint).1.accepting = d.accepting := by
  rcases give_cases h.linked c t hint with
    ⟨pool, ctx, placement, -, -, -, -, hgive⟩ | ⟨e, counters, -, -, -, hgive⟩
  · rw [hgive]
    rfl
  · rw [hgive]

theorem accepting_giveResolved (h : d.Sound) (c : ContextId) (t : TaskHandle) :
    (d.giveResolved c t).1.accepting = d.accepting := by
  rw [giveResolved]
  split
  · rfl
  · exact accepting_give h c t _

theorem accepting_take (d : Driver) (c : ContextId) : (d.take c).1.accepting = d.accepting := by
  rw [take]
  split
  · rfl
  · split
    · rfl
    · rfl

theorem accepting_takeBatch (c : ContextId) (most : Nat) (d : Driver) :
    (takeBatch c most d).1.accepting = d.accepting := by
  induction most generalizing d with
  | zero => rfl
  | succ most ih =>
      have hfirst := accepting_take d c
      rw [takeBatch]
      cases htake : d.take c with
      | mk d₁ r =>
          rw [htake] at hfirst
          rcases r with e | _ | t
          · exact hfirst
          · exact hfirst
          · have hrest := (ih d₁).trans hfirst
            dsimp only
            cases hbatch : takeBatch c most d₁ with
            | mk d₂ r₂ =>
                rw [hbatch] at hrest
                cases r₂ with
                | ok ts => exact hrest
                | error e => exact hrest

theorem accepting_done (d : Driver) (c : ContextId) (t : TaskHandle) :
    (d.done c t).1.accepting = d.accepting := by
  rcases done_cases d c t with ⟨ctx, source, ctx', pool, -, -, -, hdone⟩ | ⟨e, he⟩
  · rw [hdone]
    rfl
  · rw [he]

theorem accepting_registerContext (d : Driver) (c : ContextId) (l : Location) :
    (d.registerContext c l).1.accepting = d.accepting := by
  rw [registerContext]
  split
  · rfl
  · split
    · rfl
    · split <;> rfl

theorem accepting_openContext (d : Driver) (l : Location) :
    (d.openContext l).1.accepting = d.accepting := by
  rw [openContext]
  split
  · rfl
  · split <;> rfl

namespace Call

/-- Whether a call leaves the driver up and accepting. -/
def keepsUp : Call → Bool
  | .switchRunlevel level _ direction =>
    !(direction = .down && (level = .memoryOk || level = .userOk))
  | _ => true

theorem keepsContexts_of_keepsUp {call : Call} (h : call.keepsUp = true) :
    call.keepsContexts = true := by
  cases call with
  | switchRunlevel level phase direction =>
      cases level <;> cases direction <;> first | rfl | cases h
  | _ => rfl

end Call

theorem accepting_call (h : d.Sound) (hopen : d.accepting = true) {call : Call}
    (hup : call.keepsUp = true) : (d.call call).1.accepting = d.accepting := by
  -- only a switch of runlevels touches the flag, and the two that clear it are excluded
  cases call with
  | give c t hint => exact accepting_give h c t hint
  | giveResolved c t => exact accepting_giveResolved h c t
  | take c => exact accepting_take d c
  | takeBatch c most => exact accepting_takeBatch c most d
  | done c t => exact accepting_done d c t
  | registerContext c l => exact accepting_registerContext d c l
  | openContext l => exact accepting_openContext d l
  | createGroup key => rfl
  | retireGroup key => rfl
  | switchRunlevel level phase direction =>
      show (switchRunlevel level phase direction d).1.accepting = _
      simp only [switchRunlevel]
      split
      · rw [allocateContexts]
        split <;> rfl
      · exact hopen.symm
      · cases hup
      · cases hup
      · rfl
  | resolve resolver => rfl
  | park doorkeeper => rfl

/-- A driver that serves a context still does so after any call that leaves it up. -/
theorem Serves.call (h : d.Serves c w) {call : Call} (hup : call.keepsUp = true) :
    (d.call call).1.Serves c w :=
  h.of_books (books_call h.sound (Call.keepsContexts_of_keepsUp hup))
    (accepting_call h.sound h.accepting hup)

/-! ### Giving without a hint -/

/-- A task without a hint is put with the worker of its giver, if there is room. -/
theorem place_none_cases (hparty : d.party c = .ok (ctx, w)) (hw : w.index < d.workerCount)
    (t : TaskHandle) :
    (∃ placement q, d.place c t Hint.none =
        ({ d with pool := q }.setContext c ctx.recordGiven, .ok placement) ∧
        q.roomAt w + 1 = d.pool.roomAt w) ∨
      (d.pool.roomAt w = 0 ∧ ∃ e, d.place c t Hint.none = (d, .error e)) := by
  rw [place, hparty]
  dsimp only
  -- owner or service, the giver stands at the context's worker
  generalize hgiver :
    (if ctx.id.index < d.workerCount then Giver.owner w else Giver.service w) = giver
  have hlocation : giver.location = w := by
    rw [← hgiver]
    split <;> rfl
  have hcases := Pool.give_none_cases giver t (hlocation ▸ hw)
  rw [hlocation] at hcases
  rcases hcases with ⟨placement, q, hgive, hroom⟩ | ⟨hroom, e, hgive⟩
  · rw [hgive]
    exact .inl ⟨placement, q, rfl, hroom⟩
  · rw [hgive]
    exact .inr ⟨hroom, e, rfl⟩

/-- A named task is let in if its worker's queue has room, and else leaves the pool as it was. -/
theorem give_none_cases (h : d.Serves c w) (hname : t.isNone = false) :
    ((d.give c t Hint.none).2 = .ok () ∧
        (d.give c t Hint.none).1.pool.roomAt w + 1 = d.pool.roomAt w) ∨
      (d.pool.roomAt w = 0 ∧ (d.give c t Hint.none).1.pool = d.pool ∧
        ∃ e, (d.give c t Hint.none).2 = .error e) := by
  obtain ⟨ctx, hctx, -⟩ := h.located
  have hparty : ({ d with counters := d.counters.entered } : Driver).party c = .ok (ctx, w) :=
    h.party hctx
  have hopen : ¬ (!d.accepting) = true := by simp [h.accepting]
  rw [give, if_neg (Bool.eq_false_iff.1 hname), if_neg hopen]
  rcases place_none_cases hparty h.staffed t with ⟨placement, q, hplace, hroom⟩ | ⟨hroom, e, hplace⟩
  · rw [hplace]
    exact .inl ⟨rfl, hroom⟩
  · rw [hplace]
    exact .inr ⟨hroom, rfl, e, rfl⟩

/-- Of tasks that are given one after the other without a hint, the first ones are let in, as many
as there is room for. -/
theorem serves_giveAll (h : d.Serves c w) (hnamed : ∀ t ∈ ts, t.isNone = false) :
    (ts.foldl (fun d t => (d.give c t Hint.none).1) d).Serves c w ∧
      Books d (ts.foldl (fun d t => (d.give c t Hint.none).1) d) (ts.take (d.pool.roomAt w)) 0 := by
  -- induction on the tasks still to be given; each takes up one place, or there is none left
  induction ts generalizing d with
  | nil =>
      rw [List.take_nil]
      exact ⟨h, .refl h.sound⟩
  | cons t rest ih =>
      have hbooks := books_give h.sound c t Hint.none
      have hserves := h.of_books hbooks (accepting_give h.sound c t Hint.none)
      obtain ⟨hlast, hrest⟩ := ih hserves fun x hx => hnamed x (List.mem_cons_of_mem t hx)
      refine ⟨hlast, ?_⟩
      have hsum := hbooks.trans hrest
      rw [add_zero] at hsum
      rcases give_none_cases h (hnamed t List.mem_cons_self) with
        ⟨hok, hroom⟩ | ⟨hfull, hpool, e, he⟩
      · rw [hok] at hsum
        rw [← hroom, List.take_succ_cons]
        exact hsum
      · rw [he, hpool, hfull] at hsum
        rw [hfull]
        exact hsum

/-! ### Taking and reporting a batch -/

/-- What a take finds is added to what its context holds. -/
theorem take_eq_ok {found : Option TaskHandle} (h : d.take c = (d', .ok found)) :
    ∃ ctx ctx', d.context? c = some ctx ∧ d'.context? c = some ctx' ∧
      ctx'.holding = found.toList ++ ctx.holding := by
  rw [take] at h
  cases hparty : d.party c with
  | error e =>
      rw [hparty] at h
      cases h
  | ok party =>
      obtain ⟨ctx, w⟩ := party
      obtain ⟨hctx, -⟩ := party_eq_ok hparty
      rw [hparty] at h
      dsimp only at h
      cases htake : d.pool.take w ctx.cursor with
      | mk pool r =>
          obtain ⟨cursor, r⟩ := r
          rw [htake] at h
          cases r with
          | none =>
              cases h
              exact ⟨ctx, _, hctx, (context?_setContext hctx _ c).trans (if_pos rfl), rfl⟩
          | some taken =>
              cases h
              exact ⟨ctx, _, hctx, (context?_setContext hctx _ c).trans (if_pos rfl), rfl⟩

/-- A batch has no more tasks than were asked for, and its context holds them all. -/
theorem takeBatch_eq_ok (hctx : d.context? c = some ctx) {most : Nat}
    (h : takeBatch c most d = (d', .ok ts)) :
    ts.length ≤ most ∧ ∃ ctx', d'.context? c = some ctx' ∧
      (ctx'.holding : Multiset TaskHandle) = ts + ctx.holding := by
  -- induction on the size of the batch; the context after each take is where the next one starts
  induction most generalizing d ctx ts with
  | zero =>
      cases h
      exact ⟨Nat.le_refl 0, ctx, hctx, (zero_add _).symm⟩
  | succ most ih =>
      rw [takeBatch] at h
      cases htake : d.take c with
      | mk d₁ r =>
          rw [htake] at h
          cases r with
          | error e => cases h
          | ok found =>
              obtain ⟨x, ctx₁, hx, hctx₁, hholding₁⟩ := take_eq_ok htake
              cases hx.symm.trans hctx
              cases found with
              | none =>
                  cases h
                  exact ⟨Nat.zero_le _, ctx₁, hctx₁, by rw [hholding₁]; rfl⟩
              | some t =>
                  dsimp only at h
                  cases hbatch : takeBatch c most d₁ with
                  | mk d₂ r₂ =>
                      rw [hbatch] at h
                      cases r₂ with
                      | error e => cases h
                      | ok rest =>
                          cases h
                          obtain ⟨hlength, ctx₂, hctx₂, hholding₂⟩ := ih hctx₁ hbatch
                          refine ⟨Nat.succ_le_succ hlength, ctx₂, hctx₂, ?_⟩
                          rw [hholding₂, hholding₁]
                          exact Multiset.coe_eq_coe.2 List.perm_middle

/-- A take through a context at a worker does not fail, and leaves the context at its worker. -/
theorem party_take (h : d.party c = .ok (ctx, w)) :
    (∃ found, (d.take c).2 = .ok found) ∧ ∃ ctx', (d.take c).1.party c = .ok (ctx', w) := by
  obtain ⟨hctx, hlocation⟩ := party_eq_ok h
  have hparty : ∀ (e : Driver) (ctx' : Context), e.contexts = d.contexts →
      ctx'.location = some w → (e.setContext c ctx').party c = .ok (ctx', w) := by
    intro e ctx' hcontexts hl
    have he : e.context? c = some ctx := by
      rw [context?, hcontexts]
      exact hctx
    have hfound : (e.setContext c ctx').context? c = some ctx' :=
      (context?_setContext he ctx' c).trans (if_pos rfl)
    rw [party, hfound]
    dsimp only
    rw [Context.worker, hl]
    rfl
  rw [take, h]
  dsimp only
  cases d.pool.take w ctx.cursor with
  | mk pool r =>
      obtain ⟨cursor, r⟩ := r
      cases r with
      | none => exact ⟨⟨none, rfl⟩, _, hparty _ _ rfl hlocation⟩
      | some taken => exact ⟨⟨some taken.task, rfl⟩, _, hparty _ _ rfl hlocation⟩

/-- A batch taken through a context at a worker never fails. -/
theorem takeBatch_isOk_of_party (h : d.party c = .ok (ctx, w)) (most : Nat) :
    ∃ ts, (takeBatch c most d).2 = .ok ts := by
  -- induction on the size of the batch; each take leaves the context where the next one needs it
  induction most generalizing d ctx with
  | zero => exact ⟨[], rfl⟩
  | succ most ih =>
      obtain ⟨⟨found, hfound⟩, ctx', hparty⟩ := party_take h
      rw [takeBatch]
      cases htake : d.take c with
      | mk d₁ r =>
          rw [htake] at hfound hparty
          cases hfound
          cases found with
          | none => exact ⟨[], rfl⟩
          | some t =>
              obtain ⟨rest, hrest⟩ := ih hparty
              dsimp only
              cases hbatch : takeBatch c most d₁ with
              | mk d₂ r₂ =>
                  rw [hbatch] at hrest
                  cases hrest
                  exact ⟨t :: rest, rfl⟩

theorem Hosts.takeBatch_isOk (h : d.Hosts c w) (most : Nat) :
    ∃ ts, (takeBatch c most d).2 = .ok ts := by
  obtain ⟨ctx, hctx, -⟩ := h.located
  exact takeBatch_isOk_of_party (h.party hctx) most

theorem Serves.takeBatch_isOk (h : d.Serves c w) (most : Nat) :
    ∃ ts, (takeBatch c most d).2 = .ok ts := h.hosts.takeBatch_isOk most

/-- A batch that a served context takes is what it holds more than before. -/
theorem takeBatch_holding (h : d.Serves c w) (hctx : d.context? c = some ctx) (most : Nat) :
    ∃ ts ctx', (takeBatch c most d).2 = .ok ts ∧ ts.length ≤ most ∧
      (takeBatch c most d).1.context? c = some ctx' ∧
      (ctx'.holding : Multiset TaskHandle) = ts + ctx.holding := by
  obtain ⟨ts, hts⟩ := h.takeBatch_isOk most
  have hbatch : takeBatch c most d = ((takeBatch c most d).1, .ok ts) := Prod.ext rfl hts
  obtain ⟨hlength, ctx', hctx', hholding⟩ := takeBatch_eq_ok hctx hbatch
  exact ⟨ts, ctx', hts, hlength, hctx', hholding⟩

theorem mem_held_of_mem_holding (hctx : d.context? c = some ctx) (ht : t ∈ ctx.holding) :
    t ∈ d.held :=
  Multiset.mem_add.2
    (.inr (Multiset.mem_coe.2 (List.mem_flatMap.2 ⟨ctx, List.mem_of_getElem? hctx, ht⟩)))

/-- A driver that holds nothing has an empty batch to give. -/
theorem Serves.takeBatch_dry (h : d.Serves c w) (hdry : d.held = 0) (most : Nat) :
    (takeBatch c most d).2 = .ok [] := by
  obtain ⟨ctx, hctx, -⟩ := h.located
  obtain ⟨ts, ctx', hts, -, hctx', hholding⟩ := takeBatch_holding h hctx most
  have hbalance := (books_takeBatch h.sound c most).balance
  rw [hdry, add_zero, add_zero] at hbalance
  rw [hts]
  cases ts with
  | nil => rfl
  | cons t rest =>
      -- the first task of a batch would be held after it
      have ht : t ∈ ctx'.holding := by
        rw [← Multiset.mem_coe, hholding]
        exact Multiset.mem_add.2 (.inl (List.mem_cons_self))
      have hheld := mem_held_of_mem_holding hctx' ht
      rw [hbalance] at hheld
      exact absurd hheld (Multiset.notMem_zero t)

/-- A task that a context holds can be reported done, which lets go of it once. -/
theorem done_of_mem (hctx : d.context? c = some ctx) (ht : t ∈ ctx.holding) :
    ∃ ctx', (d.done c t).2 = .ok () ∧ (d.done c t).1.context? c = some ctx' ∧
      (ctx.holding : Multiset TaskHandle) = t ::ₘ (ctx'.holding : Multiset TaskHandle) := by
  obtain ⟨taken, htaken, htask⟩ := List.mem_map.1 ht
  -- a release is refused only for a task that the context does not hold
  cases hrelease : ctx.release t with
  | error e => exact absurd htask (((ctx.release_eq_error_iff t e).1 hrelease).1 taken htaken)
  | ok found =>
      obtain ⟨source, ctx'⟩ := found
      rw [done, hctx]
      dsimp only
      rw [hrelease]
      exact ⟨ctx', rfl, (context?_setContext hctx ctx' c).trans (if_pos rfl),
        (release_facts hrelease).1⟩

/-- Tasks that a context holds are let go of when all of them are reported done. -/
theorem serves_doneAll (h : d.Serves c w) (hctx : d.context? c = some ctx)
    (hle : (ts : Multiset TaskHandle) ≤ ctx.holding) :
    (ts.foldl (fun d t => (d.done c t).1) d).Serves c w ∧
      Books d (ts.foldl (fun d t => (d.done c t).1) d) 0 ts := by
  -- induction on the tasks still to be reported; the context holds them until then
  induction ts generalizing d ctx with
  | nil => exact ⟨h, .refl h.sound⟩
  | cons t rest ih =>
      have hmem : t ∈ ctx.holding := Multiset.mem_of_le hle (Multiset.mem_coe.2 List.mem_cons_self)
      obtain ⟨ctx', hok, hctx', hholding⟩ := done_of_mem hctx hmem
      have hbooks := books_done h.sound c t
      rw [hok] at hbooks
      rw [hholding, ← Multiset.cons_coe] at hle
      obtain ⟨hlast, hrest⟩ := ih (h.of_books hbooks (accepting_done d c t)) hctx'
        ((Multiset.cons_le_cons_iff t).1 hle)
      exact ⟨hlast, hbooks.trans hrest⟩

end Driver

end WorkStealing
