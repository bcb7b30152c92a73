import WorkStealing.Proofs.Driver.Parking
import WorkStealing.Proofs.Driver.Run

/-!
# Wakes for idle workers

A driver tells its parking lot of takes that found nothing and of work that came in. A worker waits
(`waits`) if the latest take of its own context found nothing and it has not parked since; it rests
(`rests`) if any take at its place found nothing since it last parked. The flag in the parking lot
says who rests (`Attended.flags`), so a later take that finds a task does not clear it, and the idle
worker that a give picks need not be one that waits.

`give_wakes` says what holds after every give that succeeds: if some worker rests, one that rests
has a wake pending, and those that wait have one exactly if they had one before or were picked.
-/

namespace WorkStealing.Driver

/-! ### What workers do -/

/-- What decides whether a worker waits or rests: takes that did not fail, and parking. -/
inductive Event where
  | took (c : ContextId) (w : Location) (found : Bool)
  | parked (w : Location)

/-- Whether the worker at a position waits, by the latest of its own context's takes and its own
parking. -/
def waits (i : Nat) : List Event → Bool
  | [] => false
  | .took c _ found :: earlier => if c.index = i then !found else waits i earlier
  | .parked w :: earlier => if w.index = i then false else waits i earlier

/-- Whether the worker at a position rests: some take at its place found nothing since it parked. -/
def rests (i : Nat) : List Event → Bool
  | [] => false
  | .took _ w found :: earlier => if w.index = i ∧ found = false then true else rests i earlier
  | .parked w :: earlier => if w.index = i then false else rests i earlier

/-- The event of one take. -/
def takeEvents (d : Driver) (c : ContextId) : List Event :=
  match d.party c, (d.take c).2 with
  | .ok (_, w), .ok found => [.took c w found.isSome]
  | _, _ => []

/-- The events of a batch, the latest first. -/
def batchEvents (c : ContextId) : Nat → Driver → List Event
  | 0, _ => []
  | most + 1, d =>
    match (d.take c).2 with
    | .ok (some _) => batchEvents c most (d.take c).1 ++ d.takeEvents c
    | _ => d.takeEvents c

/-- The events of a call. -/
def events (d : Driver) : Call → List Event
  | .take c => d.takeEvents c
  | .takeBatch c most => batchEvents c most d
  | _ => []

/-- A call of the driver, or of its parking lot. -/
inductive Turn where
  | call (act : Call)
  | park (w : Location)
  | unpark (w : Location)
  | unparkAll

/-- Whether a turn leaves the contexts in memory and the parking lot in its place. -/
def Turn.keeps : Turn → Bool
  | .call (.park _) => false
  | .call act => act.keepsContexts
  | _ => true

/-- Change the parking lot. -/
def withParking (d : Driver) (f : Parking → Parking) : Driver :=
  { d with doorkeeper := d.doorkeeper.map fun k => { k with parking := f k.parking } }

/-- A driver and what its workers did, the latest first. -/
structure Shift where
  driver : Driver
  events : List Event := []

namespace Shift

def turn (s : Shift) : Turn → Shift
  | .call act => { driver := (s.driver.call act).1, events := s.driver.events act ++ s.events }
  | .park w =>
    { driver := s.driver.withParking fun p => (p.park w).1, events := .parked w :: s.events }
  | .unpark w => { s with driver := s.driver.withParking fun p => p.unpark w }
  | .unparkAll => { s with driver := s.driver.withParking Parking.unparkAll }

def run (s : Shift) (turns : List Turn) : Shift := turns.foldl turn s

end Shift

variable {d d' d'' : Driver} {c : ContextId} {i workers : Nat} {earlier new new' : List Event}

/-! ### The flags -/

/-- A driver whose flags say who rests becomes one whose flags do so after some events. -/
def Minds (d : Driver) (new : List Event) (d' : Driver) : Prop :=
  ∀ k, d.doorkeeper = some k → ∃ k', d'.doorkeeper = some k' ∧
    k'.parking.parkers.length = k.parking.parkers.length ∧
    ∀ i, i < k.parking.parkers.length → ∀ earlier, k.parking.idleAt i = rests i earlier →
      k'.parking.idleAt i = rests i (new ++ earlier)

namespace Minds

theorem of_same (h : d'.doorkeeper = d.doorkeeper) : Minds d [] d' := by
  intro k hk
  exact ⟨k, h.trans hk, rfl, fun _ _ _ hi => hi⟩

theorem trans (h : Minds d new d') (h' : Minds d' new' d'') : Minds d (new' ++ new) d'' := by
  intro k hk
  obtain ⟨k', hk', hlength, hflags⟩ := h k hk
  obtain ⟨k'', hk'', hlength', hflags'⟩ := h' k' hk'
  refine ⟨k'', hk'', hlength'.trans hlength, ?_⟩
  intro i hi earlier hearlier
  rw [List.append_assoc]
  exact hflags' i (hlength ▸ hi) _ (hflags i hi earlier hearlier)

end Minds

/-- Work changes no flag. -/
theorem minds_give (h : d.pool.Linked) (c : ContextId) (t : TaskHandle) (hint : Hint) :
    Minds d [] (d.give c t hint).1 := by
  rcases give_cases h c t hint with
    ⟨pool, ctx, placement, -, -, -, -, hgive⟩ | ⟨e, counters, -, -, -, hgive⟩
  · rw [hgive]
    intro k hk
    refine ⟨k.tell (.ready (readyAt placement)), ?_, ?_, ?_⟩
    · show d.doorkeeper.map _ = _
      rw [hk]
      rfl
    · exact Parking.length_ready k.parking _
    · intro i _ earlier hi
      exact (Parking.idleAt_ready k.parking _ i).trans hi
  · rw [hgive]
    exact .of_same rfl

/-- A take sets the flag of its place if it finds nothing. -/
theorem minds_take (d : Driver) (c : ContextId) : Minds d (d.takeEvents c) (d.take c).1 := by
  rw [takeEvents, take]
  cases hparty : d.party c with
  | error e => exact .of_same rfl
  | ok found =>
      obtain ⟨ctx, w⟩ := found
      dsimp only
      cases htake : d.pool.take w ctx.cursor with
      | mk pool r =>
          obtain ⟨cursor, r⟩ := r
          intro k hk
          cases r with
          | some taken =>
              refine ⟨k, hk, rfl, ?_⟩
              intro i _ earlier hi
              simpa [rests] using hi
          | none =>
              refine ⟨k.tell (.idle w), ?_, Parking.length_modifyAt .., ?_⟩
              · show d.doorkeeper.map _ = _
                rw [hk]
                rfl
              · intro i hlt earlier hi
                have hmark := Parking.idleAt_markIdle k.parking w i hlt
                rw [hi] at hmark
                show (k.parking.markIdle w).idleAt i = _
                rw [hmark, List.singleton_append, rests]
                by_cases hw : w.index = i
                · simp [hw]
                · simp [hw]

theorem minds_takeBatch (c : ContextId) (most : Nat) (d : Driver) :
    Minds d (batchEvents c most d) (takeBatch c most d).1 := by
  induction most generalizing d with
  | zero => exact .of_same rfl
  | succ most ih =>
      have hfirst := minds_take d c
      rw [takeBatch, batchEvents]
      cases htake : d.take c with
      | mk d₁ r =>
          rw [htake] at hfirst
          rcases r with e | _ | t
          · exact hfirst
          · exact hfirst
          · have hrest := hfirst.trans (ih d₁)
            dsimp only
            cases hbatch : takeBatch c most d₁ with
            | mk d₂ r₂ =>
                rw [hbatch] at hrest
                cases r₂ with
                | ok ts => exact hrest
                | error e => exact hrest

theorem minds_call (h : d.Sound) {act : Call} (hkeep : (Turn.call act).keeps = true) :
    Minds d (d.events act) (d.call act).1 := by
  cases act with
  | give c t hint => exact minds_give h.linked c t hint
  | giveResolved c t =>
      show Minds d [] (d.giveResolved c t).1
      rw [giveResolved]
      split
      · exact .of_same rfl
      · exact minds_give h.linked c t _
  | take c => exact minds_take d c
  | takeBatch c most => exact minds_takeBatch c most d
  | done c t =>
      show Minds d [] (d.done c t).1
      rcases done_cases d c t with ⟨ctx, source, ctx', pool, -, -, -, hdone⟩ | ⟨e, he⟩
      · rw [hdone]
        exact .of_same rfl
      · rw [he]
        exact .of_same rfl
  | registerContext c l =>
      show Minds d [] (d.registerContext c l).1
      rcases registerContext_cases d c l with ⟨ctx, ctx', -, -, hregister⟩ | ⟨e, he⟩
      · rw [hregister]
        exact .of_same rfl
      · rw [he]
        exact .of_same rfl
  | openContext l =>
      show Minds d [] (d.openContext l).1
      rcases openContext_cases d l with ⟨ctx, id, -, -, hopen⟩ | ⟨e, he⟩
      · rw [hopen]
        exact .of_same rfl
      · rw [he]
        exact .of_same rfl
  | createGroup key => exact .of_same rfl
  | retireGroup key => exact .of_same rfl
  | switchRunlevel level phase direction =>
      show Minds d [] (switchRunlevel level phase direction d).1
      simp only [switchRunlevel]
      split
      · rw [allocateContexts]
        split
        · exact .of_same rfl
        · exact .of_same rfl
      · exact .of_same rfl
      · exact .of_same rfl
      · exact .of_same rfl
      · exact .of_same rfl
  | resolve resolver => exact .of_same rfl
  | park doorkeeper => cases hkeep

/-! ### Workers at their places -/

/-- The contexts of the first workers are bound to their own positions. -/
def Homed (workers : Nat) (d : Driver) : Prop :=
  ∀ c : ContextId, c.index < workers → ∃ ctx l, d.context? c = some ctx ∧
    ctx.location = some l ∧ l.index = c.index

/-- Takes of the first workers are made at their own places. -/
def AtHome (workers : Nat) (events : List Event) : Prop :=
  ∀ c w found, .took c w found ∈ events → c.index < workers → w.index = c.index

/-- A worker that waits also rests. -/
theorem rests_of_waits (h : AtHome workers earlier) (hi : i < workers)
    (hwaits : waits i earlier = true) : rests i earlier = true := by
  induction earlier with
  | nil => cases hwaits
  | cons event rest ih =>
      have hrest : AtHome workers rest := by
        intro c w found hmem
        exact h c w found (List.mem_cons_of_mem event hmem)
      cases event with
      | took c w found =>
          rw [waits] at hwaits
          rw [rests]
          by_cases hc : c.index = i
          · -- its own take, at its own place
            rw [if_pos hc] at hwaits
            have hw : w.index = i := by
              rw [← hc]
              exact h c w found List.mem_cons_self (hc ▸ hi)
            rw [if_pos ⟨hw, by simpa using hwaits⟩]
          · rw [if_neg hc] at hwaits
            split
            · rfl
            · exact ih hrest hwaits
      | parked w =>
          rw [waits] at hwaits
          rw [rests]
          by_cases hw : w.index = i
          · rw [if_pos hw] at hwaits
            cases hwaits
          · rw [if_neg hw] at hwaits ⊢
            exact ih hrest hwaits

theorem atHome_takeEvents (h : d.Homed workers) (c : ContextId) :
    AtHome workers (d.takeEvents c) := by
  intro c' w found hmem hlt
  rw [takeEvents] at hmem
  cases hparty : d.party c with
  | error e =>
      rw [hparty] at hmem
      cases hmem
  | ok party =>
      obtain ⟨ctx, l⟩ := party
      rw [hparty] at hmem
      cases htake : (d.take c).2 with
      | error e =>
          rw [htake] at hmem
          cases hmem
      | ok r =>
          rw [htake, List.mem_singleton] at hmem
          obtain ⟨rfl, rfl, -⟩ := Event.took.inj hmem
          obtain ⟨hctx, hl⟩ := party_eq_ok hparty
          obtain ⟨ctx', l', hctx', hl', hindex⟩ := h c' hlt
          have hsame : ctx' = ctx := Option.some.inj (hctx'.symm.trans hctx)
          rw [hsame, hl, Option.some.injEq] at hl'
          rw [hl']
          exact hindex

theorem Homed.of_books {a r : Multiset TaskHandle} (h : d.Homed workers) (hb : Books d d' a r) :
    d'.Homed workers := by
  intro c hc
  obtain ⟨ctx, l, hctx, hl, hindex⟩ := h c hc
  obtain ⟨ctx', hctx', hl'⟩ := hb.located c ctx l hctx hl
  exact ⟨ctx', l, hctx', hl', hindex⟩

theorem atHome_batchEvents (hs : d.Sound) (h : d.Homed workers) (c : ContextId) (most : Nat) :
    AtHome workers (batchEvents c most d) := by
  induction most generalizing d with
  | zero => exact fun _ _ _ hmem => nomatch hmem
  | succ most ih =>
      have hfirst := atHome_takeEvents h c
      have hbooks := books_take hs c
      rw [batchEvents]
      split
      · intro c' w found hmem
        rcases List.mem_append.1 hmem with hlater | hnow
        · exact ih hbooks.sound (h.of_books hbooks) c' w found hlater
        · exact hfirst c' w found hnow
      · exact hfirst

theorem atHome_events (hs : d.Sound) (h : d.Homed workers) (act : Call) :
    AtHome workers (d.events act) := by
  cases act with
  | take c => exact atHome_takeEvents h c
  | takeBatch c most => exact atHome_batchEvents hs h c most
  | _ => exact fun _ _ _ hmem => nomatch hmem

/-! ### Turns -/

/-- A driver in whose parking lot the flags say who rests. -/
structure Attended (workers : Nat) (s : Shift) : Prop where
  sound : s.driver.Sound
  homed : s.driver.Homed workers
  atHome : AtHome workers s.events
  flags : ∃ k, s.driver.doorkeeper = some k ∧ k.parking.parkers.length = workers ∧
    ∀ i, i < workers → k.parking.idleAt i = rests i s.events

namespace Attended

variable {s : Shift}

/-- A change of the parking lot that treats the flags as the events say. -/
theorem withParking (h : Attended workers s) {f : Parking → Parking} (new : List Event)
    (hnew : AtHome workers new)
    (hlength : ∀ p : Parking, (f p).parkers.length = p.parkers.length)
    (hflags : ∀ (p : Parking) (i : Nat) (earlier : List Event), p.idleAt i = rests i earlier →
      (f p).idleAt i = rests i (new ++ earlier)) :
    Attended workers { driver := s.driver.withParking f, events := new ++ s.events } := by
  obtain ⟨k, hk, hplaces, hidle⟩ := h.flags
  have hbooks : Books s.driver (s.driver.withParking f) 0 0 :=
    (Books.refl h.sound).of_eq rfl rfl rfl rfl rfl
  refine ⟨hbooks.sound, h.homed.of_books hbooks, ?_, { k with parking := f k.parking }, ?_,
    (hlength _).trans hplaces, fun i hi => hflags _ _ _ (hidle i hi)⟩
  · intro c w found hmem
    rcases List.mem_append.1 hmem with hlater | hbefore
    · exact hnew c w found hlater
    · exact h.atHome c w found hbefore
  · show s.driver.doorkeeper.map _ = _
    rw [hk]
    rfl

/-- Every turn keeps the flags in step with the events. -/
theorem turn (h : Attended workers s) {turn : Turn} (hkeep : turn.keeps = true) :
    Attended workers (s.turn turn) := by
  cases turn with
  | call act =>
      obtain ⟨k, hk, hplaces, hidle⟩ := h.flags
      have hcontexts : act.keepsContexts = true := by
        cases act with
        | park doorkeeper => rfl
        | _ => exact hkeep
      have hbooks := books_call h.sound hcontexts
      obtain ⟨k', hk', hlength, hflags⟩ := minds_call h.sound hkeep k hk
      refine ⟨hbooks.sound, h.homed.of_books hbooks, ?_, k', hk', hlength.trans hplaces, ?_⟩
      · intro c w found hmem
        rcases List.mem_append.1 hmem with hlater | hbefore
        · exact atHome_events h.sound h.homed act c w found hlater
        · exact h.atHome c w found hbefore
      · intro i hi
        exact hflags i (hplaces ▸ hi) _ (hidle i hi)
  | park w =>
      refine h.withParking [.parked w] ?_ (fun p => Parking.length_park p w) ?_
      · intro c w' found hmem
        cases List.mem_singleton.1 hmem
      · intro p i earlier hi
        rw [Parking.idleAt_park, hi, List.singleton_append, rests]
        by_cases hw : w.index = i
        · simp [hw]
        · simp [hw]
  | unpark w =>
      exact h.withParking [] (fun _ _ _ hmem => nomatch hmem)
        (fun p => Parking.length_wake p w.index)
        (fun p i earlier hi => (Parking.idleAt_wake p w.index i).trans hi)
  | unparkAll =>
      exact h.withParking [] (fun _ _ _ hmem => nomatch hmem)
        (fun p => List.length_map _)
        (fun p i earlier hi => (Parking.idleAt_unparkAll p i).trans hi)

theorem run (h : Attended workers s) {turns : List Turn}
    (hkeep : ∀ turn ∈ turns, turn.keeps = true) : Attended workers (s.run turns) := by
  induction turns generalizing s with
  | nil => exact h
  | cons t rest ih =>
      apply ih (s := s.turn t)
      · exact h.turn (hkeep t List.mem_cons_self)
      · intro x hx
        exact hkeep x (List.mem_cons_of_mem t hx)

end Attended

/-! ### From the start -/

theorem getElem?_bindFrom (workers first : Nat) (contexts : List Context) (i : Nat) :
    (bindFrom workers first contexts)[i]? = (contexts[i]?).map fun ctx =>
      if first + i < workers ∧ (!ctx.isBound) = true then
        { ctx with
          location := some (.ofIndex (first + i))
          cursor := .forWorker (first + i) workers }
      else ctx := by
  induction contexts generalizing first i with
  | nil => rfl
  | cons ctx rest ih =>
      rw [bindFrom]
      cases i with
      | zero => rfl
      | succ i =>
          rw [List.getElem?_cons_succ, List.getElem?_cons_succ, ih, Nat.add_assoc, Nat.add_comm 1]

/-- A driver that was made has a number for each of its workers. -/
theorem resolvedWorkers_lt_size {c : SchedulerConfig} {auto : Nat}
    (hnew : Driver.new c auto = .ok d) : c.resolvedWorkers auto < UInt32.size := by
  rw [Driver.new] at hnew
  split at hnew
  next hvalid => exact ((c.validate_eq_ok_iff auto).1 hvalid).2.2.2
  next => cases hnew

/-- Bring-up binds the first contexts to their own positions. -/
theorem homed_started {c : SchedulerConfig} {auto : Nat} (hnew : Driver.new c auto = .ok d)
    (resolver : Option Resolver) (doorkeeper : Option Doorkeeper) :
    ({ d with resolver := resolver, doorkeeper := doorkeeper } : Driver).started.1.Homed
      (c.resolvedWorkers auto) := by
  intro e he
  have hsize := resolvedWorkers_lt_size hnew
  obtain rfl := new_eq_ok hnew
  have hworkers := Pool.workerCount_new c auto
  have hfirst : ((List.range (c.resolvedWorkers auto)).map fun i =>
      ({ id := ContextId.ofIndex i } : Context))[e.index]? = some { id := .ofIndex e.index } := by
    rw [List.getElem?_map, List.getElem?_range he]
    rfl
  have hbound : (bindFrom (c.resolvedWorkers auto) 0 ((List.range (c.resolvedWorkers auto)).map
      fun i => ({ id := ContextId.ofIndex i } : Context)))[e.index]? =
      some
        { id := .ofIndex e.index
          location := some (.ofIndex e.index)
          cursor := .forWorker e.index (c.resolvedWorkers auto) } := by
    rw [getElem?_bindFrom, hfirst, Option.map_some, Nat.zero_add, if_pos ⟨he, rfl⟩]
  rw [← hworkers] at hbound
  exact ⟨_, _, hbound, rfl, Location.index_ofIndex (Nat.lt_trans he hsize)⟩

theorem doorkeeper_started (d : Driver) : d.started.1.doorkeeper = d.doorkeeper := by
  rw [started_eq]
  show d.allocateContexts.doorkeeper = d.doorkeeper
  rw [allocateContexts]
  split
  · rfl
  · rfl

/-- Nobody is idle at first, and nobody has done anything. -/
theorem attended_started {c : SchedulerConfig} {auto : Nat} (hnew : Driver.new c auto = .ok d)
    (resolver : Option Resolver) :
    Attended (c.resolvedWorkers auto)
      { driver := ({ d with
          resolver := resolver
          doorkeeper := some { parking := .new (c.resolvedWorkers auto) } } : Driver).started.1 } := by
  refine ⟨(books_started hnew resolver _).sound, homed_started hnew resolver _,
    (fun _ _ _ hmem => nomatch hmem), { parking := .new (c.resolvedWorkers auto) },
    doorkeeper_started _, List.length_replicate, ?_⟩
  · intro i hi
    show ((List.replicate (c.resolvedWorkers auto) ({} : Parker))[i]?.map Parker.idle).getD false =
      _
    rw [List.getElem?_replicate, if_pos hi]
    rfl

/-- After a give that succeeds the parking lot has heard where the work is. -/
theorem doorkeeper_give (h : d.pool.Linked) {t : TaskHandle} {hint : Hint}
    (hok : (d.give c t hint).2 = .ok ()) :
    ∃ target, (d.give c t hint).1.doorkeeper =
      d.doorkeeper.map fun k => k.tell (.ready target) := by
  rcases give_cases h c t hint with
    ⟨pool, ctx, placement, -, -, -, -, hgive⟩ | ⟨e, counters, -, -, -, hgive⟩
  · refine ⟨readyAt placement, ?_⟩
    rw [hgive]
    rfl
  · rw [hgive] at hok
    cases hok

/-- No wake is lost on those that rest. After every give that succeeds, on a started driver with a
parking lot for its workers, if some worker rests then one that rests has a wake pending: the one
that was picked. Of the workers that wait, all of which rest, those have one that had one before
and the one that was picked, if it waits. So one that waits has a wake pending whenever those that
rest wait. -/
theorem give_wakes {c : SchedulerConfig} {auto : Nat} (hnew : Driver.new c auto = .ok d)
    (resolver : Option Resolver) (turns : List Turn)
    (hkeep : ∀ turn ∈ turns, turn.keeps = true) :
    let workers := c.resolvedWorkers auto
    let start : Shift :=
      { driver := ({ d with
          resolver := resolver
          doorkeeper := some { parking := .new workers } } : Driver).started.1 }
    let s := start.run turns
    (∀ w : Location, w.index < workers → waits w.index s.events = true →
        rests w.index s.events = true) ∧
      ∀ c t hint, (s.driver.give c t hint).2 = .ok () →
        (∃ w : Location, w.index < workers ∧ rests w.index s.events = true) →
          ∃ (k : Doorkeeper) (target : Option Location) (one : Location),
            s.driver.doorkeeper = some k ∧
            (s.driver.give c t hint).1.doorkeeper = some (k.tell (.ready target)) ∧
            k.parking.picked target = some one.index ∧ one.index < workers ∧
            rests one.index s.events = true ∧
            ((k.tell (.ready target)).parking.park one).2 = true ∧
            ∀ w : Location, w.index < workers → waits w.index s.events = true →
              (((k.tell (.ready target)).parking.park w).2 = true ↔
                w = one ∨ (k.parking.park w).2 = true) := by
  intro workers start s
  have hattended : Attended workers s := (attended_started hnew resolver).run hkeep
  obtain ⟨k, hk, hplaces, hidle⟩ := hattended.flags
  have hrests : ∀ w : Location, w.index < workers → waits w.index s.events = true →
      rests w.index s.events = true := by
    intro w hw hwaits
    exact rests_of_waits hattended.atHome hw hwaits
  refine ⟨hrests, ?_⟩
  rintro c t hint hok ⟨w, hw, hrest⟩
  obtain ⟨target, htarget⟩ := doorkeeper_give hattended.sound.linked hok
  rw [hk] at htarget
  -- somebody is idle, so somebody is picked, and the flag says that it rests
  obtain ⟨j, hpicked, hj⟩ := Parking.exists_picked ((hidle _ hw).trans hrest) target
  have hlt := Parking.lt_of_idleAt hj
  rw [hplaces] at hlt
  have hone : (Location.ofIndex j).index = j :=
    Location.index_ofIndex (Nat.lt_trans hlt (resolvedWorkers_lt_size hnew))
  refine ⟨k, target, .ofIndex j, hk, htarget, ?_, ?_, ?_, ?_, ?_⟩
  · rw [hone]
    exact hpicked
  · rw [hone]
    exact hlt
  · rw [hone, ← hidle j hlt]
    exact hj
  · rw [Parking.park_eq_pendingAt, hone]
    show (k.parking.ready target).pendingAt j = true
    rw [Parking.pendingAt_ready hj, hpicked]
    simp
  · intro w' hw' hwaits
    have hflag : k.parking.idleAt w'.index = true := (hidle _ hw').trans (hrests w' hw' hwaits)
    rw [Parking.park_eq_pendingAt, Parking.park_eq_pendingAt]
    show (k.parking.ready target).pendingAt w'.index = true ↔ _
    have hsame : j = w'.index ↔ w' = .ofIndex j := by
      constructor
      · intro hj
        exact Location.index_injective (hj.symm.trans hone.symm)
      · rintro rfl
        exact hone.symm
    rw [Parking.pendingAt_ready hflag, hpicked, Bool.or_eq_true, decide_eq_true_eq,
      Option.some.injEq, hsame]

/-- The first of two workers finds nothing and then a task, the second finds nothing. A task that
the first gives itself wakes the first, which rests, and not the second, which waits. -/
theorem give_wakes_owner :
    let d : Driver := { config := .withWorkers 2, pool := .new (.withWorkers 2) 1 }
    let turns : List Turn :=
      [.call (.take ⟨0⟩), .call (.give ⟨0⟩ ⟨5⟩ {}), .call (.take ⟨0⟩), .call (.take ⟨1⟩)]
    let s := Shift.run { driver := ({ d with
      resolver := none
      doorkeeper := some { parking := .new ((SchedulerConfig.withWorkers 2).resolvedWorkers 1) } } :
        Driver).started.1 } turns
    let after := (s.driver.give ⟨0⟩ ⟨6⟩ {}).1
    (Driver.new (.withWorkers 2) 1 = .ok d ∧ (∀ turn ∈ turns, turn.keeps = true) ∧
        (s.driver.give ⟨0⟩ ⟨6⟩ {}).2 = .ok ()) ∧
      waits 0 s.events = false ∧ waits 1 s.events = true ∧
      (∃ k, after.doorkeeper = some k ∧ ∃ one : Location, one.index < 2 ∧
        rests one.index s.events = true ∧ (k.parking.park one).2 = true) ∧
      after.doorkeeper.map (fun k => (k.parking.park ⟨1⟩).2) = some false := by
  intro d turns s after
  have hnew : Driver.new (.withWorkers 2) 1 = .ok d := rfl
  have hkeep : ∀ turn ∈ turns, turn.keeps = true := by decide
  have hok : (s.driver.give ⟨0⟩ ⟨6⟩ {}).2 = .ok () := by decide +kernel
  have hrests : rests 1 s.events = true := by decide +kernel
  have hwaits : waits 0 s.events = false := by decide +kernel
  have hwaits' : waits 1 s.events = true := by decide +kernel
  have hasleep : after.doorkeeper.map (fun k => (k.parking.park ⟨1⟩).2) = some false := by
    decide +kernel
  have hgive := (give_wakes hnew none turns hkeep).2 ⟨0⟩ ⟨6⟩ {} hok ⟨⟨1⟩, by decide, hrests⟩
  -- from here on the outcome of the turns is a name, so that nothing runs them again
  have hfold : Shift.run { driver := ({ d with
      resolver := none
      doorkeeper := some { parking := .new ((SchedulerConfig.withWorkers 2).resolvedWorkers 1) } } :
        Driver).started.1 } turns = s := rfl
  rw [hfold] at hgive
  clear hfold
  clear_value s
  obtain ⟨k, target, one, -, hafter, -, hone, hrest, hwoken, -⟩ := hgive
  exact ⟨⟨hnew, hkeep, hok⟩, hwaits, hwaits', ⟨_, hafter, one, hone, hrest, hwoken⟩, hasleep⟩

end WorkStealing.Driver
