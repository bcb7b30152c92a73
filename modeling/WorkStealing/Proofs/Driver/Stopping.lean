import WorkStealing.Proofs.Driver.Run
import WorkStealing.Proofs.Runlevel.Nesting

/-!
# Drivers that are torn down

A driver begins to accept tasks when computing comes up and ceases when the users go down. A
tear-down passes over users that never came up, so it need not make a driver cease:
`accepting_iff_of_tornDown` says that a driver that is torn down accepts tasks exactly if the latest
of the two levels that came up was computing. It has no contexts then, so that a give fails all the
same, but for the lack of a context and not because the driver was stopped.

Two things are put together. The flag and the contexts of a driver can be read off what it was told
(`Follows`), which every call keeps, as calls of others leave them alone (`gate_run`). And what a
nested history says about them once nothing is up is a matter of the order of the phases
(`opens_iff`, `begun_of_holdsMemory`).
-/

namespace WorkStealing.Driver

variable {d : Driver} {τ : Type}

/-! ### Calls that leave the runlevels alone -/

/-- What a driver's calls other than switches leave alone: whether it accepts, and whether there are
contexts. -/
def gate (d : Driver) : Bool × Bool := (d.accepting, d.contexts.isEmpty)

/-- Whether a call is anything but a switch of the runlevels. -/
def Call.isOrdinary : Call → Bool
  | .switchRunlevel _ _ _ => false
  | _ => true

theorem gate_setContext (d : Driver) (c : ContextId) (ctx : Context) :
    (d.setContext c ctx).gate = d.gate := by
  have hempty : (d.contexts.set c.index ctx).isEmpty = d.contexts.isEmpty := by
    rw [Bool.eq_iff_iff, List.isEmpty_iff, List.isEmpty_iff, List.set_eq_nil_iff]
  rw [gate, setContext, hempty]
  rfl

theorem gate_tell (d : Driver) (n : Parking.Notice) : (d.tell n).gate = d.gate := rfl

theorem gate_give (d : Driver) (c : ContextId) (t : TaskHandle) (hint : Hint) :
    (d.give c t hint).1.gate = d.gate := by
  have hplace : (place { d with counters := d.counters.entered } c t hint).1.gate = d.gate := by
    rw [place]
    split
    · rfl
    · dsimp only
      split
      · exact gate_setContext _ _ _
      · rfl
  rw [give]
  split
  · rfl
  · split
    · rfl
    · cases hr : place { d with counters := d.counters.entered } c t hint with
      | mk d' r =>
          rw [hr] at hplace
          cases r with
          | ok placement => exact hplace
          | error e => exact hplace

theorem gate_take (d : Driver) (c : ContextId) : (d.take c).1.gate = d.gate := by
  rw [take]
  split
  · rfl
  · split
    · exact gate_setContext _ _ _
    · exact (gate_tell _ _).trans (gate_setContext _ _ _)

theorem gate_takeBatch (c : ContextId) (most : Nat) (d : Driver) :
    (takeBatch c most d).1.gate = d.gate :=
  takeBatch_induction (P := fun x => x.gate = d.gate) (fun x hx => (gate_take x c).trans hx)
    most rfl

theorem gate_call (d : Driver) {call : Call} (hcall : call.isOrdinary = true) :
    (d.call call).1.gate = d.gate := by
  cases call with
  | give c t hint => exact gate_give d c t hint
  | giveResolved c t =>
      show (d.giveResolved c t).1.gate = d.gate
      rw [giveResolved]
      split
      · rfl
      · exact gate_give d c t _
  | take c => exact gate_take d c
  | takeBatch c most => exact gate_takeBatch c most d
  | done c t =>
      show (d.done c t).1.gate = d.gate
      rcases done_cases d c t with ⟨ctx, source, ctx', pool, -, -, -, hdone⟩ | ⟨e, he⟩
      · rw [hdone]
        exact gate_setContext _ _ _
      · rw [he]
  | registerContext c l =>
      show (d.registerContext c l).1.gate = d.gate
      rcases registerContext_cases d c l with ⟨ctx, ctx', -, -, hregister⟩ | ⟨e, he⟩
      · rw [hregister]
        exact gate_setContext _ _ _
      · rw [he]
  | openContext l =>
      show (d.openContext l).1.gate = d.gate
      rcases openContext_cases d l with ⟨ctx, id, hsome, -, hopen⟩ | ⟨e, he⟩
      · -- a context joins only others
        rw [hopen]
        simp [gate, hsome]
      · rw [he]
  | createGroup key => rfl
  | retireGroup key => rfl
  | switchRunlevel level phase direction => cases hcall
  | resolve resolver => rfl
  | park doorkeeper => rfl

theorem gate_run (h : History) {calls : List Call}
    (hcalls : ∀ call ∈ calls, call.isOrdinary = true) :
    (h.run calls).driver.gate = h.driver.gate := by
  induction calls generalizing h with
  | nil => rfl
  | cons call rest ih =>
      have hrest := ih (h.step call) fun x hx => hcalls x (List.mem_cons_of_mem call hx)
      exact hrest.trans (gate_call h.driver (hcalls call List.mem_cons_self))

/-! ### What a history says -/

/-- The later of computing and users, by when they last came up. -/
def latest : List Telling → Option RunLevel
  | [] => none
  | t :: earlier =>
    if t.accepted ∧ t.direction = .up ∧ (t.mark.level = .computeOk ∨ t.mark.level = .userOk) then
      some t.mark.level
    else latest earlier

/-- Whether a driver accepts tasks after what it was told. -/
def opens : List Telling → Bool
  | [] => false
  | t :: earlier =>
    if t.accepted ∧ (t.mark.level = .computeOk ∧ t.direction = .up ∨
        t.mark.level = .userOk ∧ t.direction = .down) then
      t.direction = .up
    else opens earlier

/-- Whether a driver may have contexts after what it was told. -/
def holdsMemory : List Telling → Bool
  | [] => false
  | t :: earlier =>
    if t.accepted ∧ t.mark.level = .memoryOk then t.direction = .up else holdsMemory earlier

/-- Whether a level has a phase among the first ones of an order. -/
def Begun (order : List (RunLevel × Nat)) (level : RunLevel) (height : Nat) : Prop :=
  ∃ i phase, i < height ∧ order[i]? = some (level, phase)

variable {order : List (RunLevel × Nat)} {k height : Nat} {history : List Telling}
  {level : RunLevel} {phase : Nat}

theorem not_begun_zero (order : List (RunLevel × Nat)) (level : RunLevel) :
    ¬ Begun order level 0 := by
  rintro ⟨i, phase, hi, -⟩
  exact Nat.not_lt_zero i hi

theorem begun_succ (h : order[height]? = some (level, phase)) (l : RunLevel) :
    Begun order l (height + 1) ↔ Begun order l height ∨ level = l := by
  constructor
  · rintro ⟨i, p, hi, hp⟩
    rcases Nat.lt_or_eq_of_le (Nat.le_of_lt_succ hi) with hlt | rfl
    · exact .inl ⟨i, p, hlt, hp⟩
    · right
      rw [h, Option.some.injEq] at hp
      exact (Prod.mk.inj hp).1
  · rintro (⟨i, p, hi, hp⟩ | rfl)
    · exact ⟨i, p, Nat.lt_succ_of_lt hi, hp⟩
    · exact ⟨height, phase, Nat.lt_succ_self _, h⟩

/-- Contexts are there only while a phase of memory is up. -/
theorem begun_of_holdsMemory (h : Runlevels.Nested order k history height)
    (hholds : holdsMemory history = true) : Begun order .memoryOk height := by
  induction h with
  | start => cases hholds
  | @up history height level phase accepted below next ih =>
      cases accepted with
      | false => exact ih (by simpa [holdsMemory] using hholds)
      | true =>
          rw [if_pos rfl, begun_succ next]
          by_cases hl : level = .memoryOk
          · exact .inr hl
          · left
            apply ih
            simpa [holdsMemory, hl] using hholds
  | @down history height level phase accepted above last ih =>
      cases accepted with
      | false => exact ih (by simpa [holdsMemory] using hholds)
      | true =>
          rw [if_pos rfl]
          -- the last phase of memory takes the contexts with it
          have hl : level ≠ .memoryOk := by
            rintro rfl
            simp [holdsMemory] at hholds
          have habove := ih (by simpa [holdsMemory, hl] using hholds)
          rw [begun_succ last] at habove
          exact habove.resolve_right hl

/-- How the flag of a driver goes with its history. Once computing was the latest to come up, no
users are up, and the flag is set; once users were, the flag may be set only while they are. -/
structure Gated (order : List (RunLevel × Nat)) (history : List Telling) (height : Nat) : Prop where
  computing : latest history = some .computeOk →
    opens history = true ∧ ¬ Begun order .userOk height
  users : latest history = some .userOk → opens history = true → Begun order .userOk height
  neither : latest history ≠ some .computeOk → latest history ≠ some .userOk →
    opens history = false ∧ ¬ Begun order .userOk height

/-- Most switches concern neither the flag nor the users. -/
theorem Gated.of_same {history' : List Telling} {height' : Nat} (h : Gated order history height)
    (hlatest : latest history' = latest history) (hopens : opens history' = opens history)
    (hbegun : Begun order .userOk height' ↔ Begun order .userOk height) :
    Gated order history' height' where
  computing hl := by
    rw [hopens, hbegun]
    exact h.computing (hlatest.symm.trans hl)
  users hl ho := by
    rw [hbegun]
    exact h.users (hlatest.symm.trans hl) (hopens.symm.trans ho)
  neither hc hu := by
    rw [hopens, hbegun]
    rw [hlatest] at hc hu
    exact h.neither hc hu

/-- No users are up where computing comes next. -/
theorem not_begun_users (hsorted : order.Pairwise fun x y => x.1.rank ≤ y.1.rank)
    (h : order[height]? = some (.computeOk, phase)) : ¬ Begun order .userOk height := by
  rintro ⟨i, p, hi, hp⟩
  obtain ⟨hlt, hx⟩ := List.getElem?_eq_some_iff.1 h
  obtain ⟨hlt', hy⟩ := List.getElem?_eq_some_iff.1 hp
  have hle := List.pairwise_iff_getElem.1 hsorted i height hlt' hlt hi
  rw [hx, hy] at hle
  have hranks : RunLevel.userOk.rank ≤ RunLevel.computeOk.rank := hle
  exact absurd hranks (by decide)

/-- Each switch that goes through keeps the flag in step with the history. -/
theorem gated_of_nested (hsorted : order.Pairwise fun x y => x.1.rank ≤ y.1.rank)
    (h : Runlevels.Nested order k history height) : Gated order history height := by
  -- the cases are the two levels that the flag depends on, and all others
  induction h with
  | start => exact ⟨nofun, nofun, fun _ _ => ⟨rfl, not_begun_zero _ _⟩⟩
  | @up history height level phase accepted below next ih =>
      cases accepted with
      | false => exact ih.of_same (by simp [latest]) (by simp [opens]) Iff.rfl
      | true =>
          rw [if_pos rfl]
          have hbegun := begun_succ next .userOk
          by_cases hc : level = .computeOk
          · subst hc
            have hnone := not_begun_users hsorted next
            constructor
            · intro _
              refine ⟨by simp [opens], ?_⟩
              rw [hbegun]
              rintro (hbelow | hlevel)
              · exact hnone hbelow
              · cases hlevel
            · intro hlatest
              simp [latest] at hlatest
            · intro hlatest
              simp [latest] at hlatest
          · by_cases hu : level = .userOk
            · subst hu
              constructor
              · intro hlatest
                simp [latest] at hlatest
              · intro _ _
                exact hbegun.2 (.inr rfl)
              · intro _ hlatest
                simp [latest] at hlatest
            · have hsame : Begun order .userOk (height + 1) ↔ Begun order .userOk height := by
                rw [hbegun]
                exact or_iff_left hu
              exact ih.of_same (by simp [latest, hc, hu]) (by simp [opens, hc]) hsame
  | @down history height level phase accepted above last ih =>
      cases accepted with
      | false => exact ih.of_same (by simp [latest]) (by simp [opens]) Iff.rfl
      | true =>
          rw [if_pos rfl]
          have hbegun := begun_succ last .userOk
          by_cases hu : level = .userOk
          · subst hu
            constructor
            · intro hlatest
              exact absurd (hbegun.2 (.inr rfl)) (ih.computing (by simpa [latest] using hlatest)).2
            · intro _ hopens
              simp [opens] at hopens
            · intro hcompute husers
              exact absurd (hbegun.2 (.inr rfl))
                (ih.neither (by simpa [latest] using hcompute) (by simpa [latest] using husers)).2
          · have hsame : Begun order .userOk (height + 1) ↔ Begun order .userOk height := by
              rw [hbegun]
              exact or_iff_left hu
            exact ih.of_same (by simp [latest]) (by simp [opens, hu]) hsame.symm

/-- With nothing up, the flag says whether computing was the latest to come up. -/
theorem opens_iff (hsorted : order.Pairwise fun x y => x.1.rank ≤ y.1.rank)
    (h : Runlevels.Nested order k history 0) :
    opens history = true ↔ latest history = some .computeOk := by
  have hgated := gated_of_nested hsorted h
  constructor
  · intro hopens
    by_contra hne
    by_cases hu : latest history = some .userOk
    · exact not_begun_zero _ _ (hgated.users hu hopens)
    · rw [(hgated.neither hne hu).1] at hopens
      cases hopens
  · intro hlatest
    exact (hgated.computing hlatest).1

/-! ### Drivers among other participants -/

/-- A driver as a participant in a world that holds other things as well. -/
def participantIn (τ : Type) : Participant (Driver × τ) where
  name := participant.name
  switch level phase direction w :=
    (((participant.switch level phase direction w.1).1, w.2),
      (participant.switch level phase direction w.1).2)

/-- What others do to a world with a driver: they call it as they like and leave its runlevels to
the manager. -/
def Uses (change : Driver × τ → Driver × τ) : Prop :=
  ∀ w, ∃ calls : List Call, (∀ call ∈ calls, call.isOrdinary = true) ∧
    (change w).1 = (({ driver := w.1 } : History).run calls).driver

/-- Calls of a manager by which others come and go about their business. -/
def ByOthers : Runlevels.Call (Driver × τ) → Prop
  | .register p => ∀ level phase direction, Uses fun w => (p.switch level phase direction w).1
  | .outside change => Uses change
  | _ => True

/-- A driver that is as its history says. -/
structure Follows (history : List Telling) (d : Driver) : Prop where
  accepting : d.accepting = opens history
  contexts : holdsMemory history = false → d.contexts = []

theorem Follows.of_gate {d' : Driver} (h : Follows history d) (hgate : d'.gate = d.gate) :
    Follows history d' := by
  obtain ⟨haccepting, hempty⟩ := Prod.mk.inj hgate
  constructor
  · exact haccepting.trans h.accepting
  · intro hnone
    rw [← List.isEmpty_iff, hempty, List.isEmpty_iff]
    exact h.contexts hnone

theorem switchRunlevel_eq_ok (d : Driver) (level : RunLevel) (phase : Nat) (direction : Direction) :
    (switchRunlevel level phase direction d).2 = .ok () := by
  simp only [switchRunlevel]
  split
  · rfl
  · rfl
  · rfl
  · rfl
  · rfl

theorem accepting_allocateContexts (d : Driver) : d.allocateContexts.accepting = d.accepting := by
  rw [allocateContexts]
  split
  · rfl
  · rfl

/-- A driver goes along with every switch. -/
theorem Follows.switch (h : Follows history d) (level : RunLevel) (phase : Nat)
    (direction : Direction) (k : Nat) :
    Follows
      ({ mark := { participant := k, level := level, phase := phase }
         direction := direction, accepted := true } :: history)
      (switchRunlevel level phase direction d).1 := by
  have hold := h.accepting
  -- the five switches that a driver acts on, and the others
  constructor
  · rw [opens]
    simp only [switchRunlevel]
    split
    · simpa using (accepting_allocateContexts d).trans hold
    · simp
    · simp
    · simpa using hold
    next hmake hbind hstop hfree =>
      rw [if_neg, hold]
      rintro ⟨-, hup | hdown⟩
      · exact hbind hup.1 hup.2
      · exact hstop hdown.1 hdown.2
  · intro hnone
    rw [holdsMemory] at hnone
    simp only [switchRunlevel]
    split
    · simp at hnone
    · have hempty : d.contexts = [] := h.contexts (by simpa using hnone)
      show bindFrom d.workerCount 0 d.contexts = []
      rw [hempty]
      rfl
    · exact h.contexts (by simpa using hnone)
    · rfl
    next hmake hbind hstop hfree =>
      apply h.contexts
      rw [if_neg] at hnone
      · exact hnone
      · rintro ⟨-, hlevel⟩
        have hlevel : level = .memoryOk := hlevel
        cases direction with
        | up => exact hmake hlevel rfl
        | down => exact hfree hlevel rfl

/-- A manager with a driver at a position and others at all others. -/
structure Seated (k : Nat) (o : Runlevels.Observed (Driver × τ)) : Prop where
  stacked : ∃ heights, Runlevels.Stacked o.manager o.journal heights
  follows : Follows (Runlevels.told o.journal k) o.world.1
  driver : ∀ p, o.manager.participants[k]? = some p → p = participantIn τ
  others : ∀ (j : Nat) (p : Participant (Driver × τ)), j ≠ k →
    o.manager.participants[j]? = some p → ∀ level phase direction,
      Uses fun w => (p.switch level phase direction w).1

namespace Seated

variable {o : Runlevels.Observed (Driver × τ)}

/-- What others do leaves a driver as its history says. -/
theorem follows_of_uses {change : Driver × τ → Driver × τ} (hchange : Uses change)
    {w : Driver × τ} (h : Follows history w.1) : Follows history (change w).1 := by
  obtain ⟨calls, hcalls, hrun⟩ := hchange w
  rw [hrun]
  exact h.of_gate (gate_run { driver := w.1 } hcalls)

/-- The driver follows what it is told, through every call. -/
theorem follows_call (h : Seated k o) (c : Runlevels.Call (Driver × τ))
    (houtside : ∀ change, c = .outside change → Uses change) :
    Follows (Runlevels.told (o.call c).1.journal k) (o.call c).1.world.1 := by
  obtain ⟨heights, hs⟩ := h.stacked
  refine Runlevels.Observed.call_keeps
    (P := fun w => Follows (Runlevels.told w.journal k) w.world.1) hs ?_ c ?_ h.follows
  · intro j p hp level phase direction w hw
    show Follows (Runlevels.told (_ :: w.journal) k) _
    rw [Runlevels.told_cons]
    by_cases hj : j = k
    · -- the driver refuses no switch
      subst hj
      have hok : ((participantIn τ).switch level phase direction w.world).2 = .ok () :=
        switchRunlevel_eq_ok w.world.1 level phase direction
      rw [if_pos rfl, h.driver p hp]
      simp only [hok]
      exact hw.switch level phase direction j
    · rw [if_neg hj]
      exact follows_of_uses (h.others j p hj hp level phase direction) hw
  · intro change hchange w hw
    exact follows_of_uses (houtside change hchange) hw

/-- A call of others comes to nothing for the driver and its position. -/
theorem call (h : Seated k o) {c : Runlevels.Call (Driver × τ)} (hc : ByOthers c)
    (hposition : k < o.manager.participants.length ∨
      o.manager.participants.length + c.registered.length ≤ k) : Seated k (o.call c).1 := by
  obtain ⟨heights, hs⟩ := h.stacked
  obtain ⟨-, hstacked, -⟩ := Runlevels.Observed.stacked_call hs c
  have hfollows := h.follows_call c (by
    rintro change rfl
    exact hc)
  -- a participant after the call was there before, or comes last and is not the driver
  have hold : ∀ (j : Nat) (p : Participant (Driver × τ)),
      (o.call c).1.manager.participants[j]? = some p →
        o.manager.participants[j]? = some p ∨
          (j ≠ k ∧ ∀ level phase direction, Uses fun w => (p.switch level phase direction w).1) := by
    intro j p hp
    rw [Runlevels.Observed.participants_call] at hp
    by_cases hj : j < o.manager.participants.length
    · rw [List.getElem?_append_left hj] at hp
      exact .inl hp
    · rw [List.getElem?_append_right (Nat.le_of_not_lt hj)] at hp
      right
      cases c with
      | register q =>
          have hlt := (List.getElem?_eq_some_iff.1 hp).1
          have hmem := List.mem_of_getElem? hp
          rw [Runlevels.Call.registered, List.mem_singleton] at hmem
          subst hmem
          refine ⟨?_, hc⟩
          rw [Runlevels.Call.registered] at hlt hposition
          rw [List.length_singleton] at hlt hposition
          omega
      | _ => simp [Runlevels.Call.registered] at hp
  refine ⟨hstacked, hfollows, ?_, ?_⟩
  · intro p hp
    rcases hold k p hp with hbefore | ⟨hne, -⟩
    · exact h.driver p hbefore
    · exact absurd rfl hne
  · intro j p hj hp
    rcases hold j p hp with hbefore | ⟨-, huses⟩
    · exact h.others j p hj hbefore
    · exact huses

theorem run (h : Seated k o) {calls : List (Runlevels.Call (Driver × τ))}
    (hcalls : ∀ c ∈ calls, ByOthers c)
    (hposition : k < o.manager.participants.length ∨
      o.manager.participants.length + (calls.flatMap Runlevels.Call.registered).length ≤ k) :
    Seated k (o.run calls) := by
  induction calls generalizing o with
  | nil => exact h
  | cons c rest ih =>
      rw [List.flatMap_cons, List.length_append] at hposition
      have hlength : (o.call c).1.manager.participants.length =
          o.manager.participants.length + c.registered.length := by
        rw [Runlevels.Observed.participants_call, List.length_append]
      apply ih (o := (o.call c).1)
      · exact h.call (hcalls c List.mem_cons_self) (by omega)
      · intro x hx
        exact hcalls x (List.mem_cons_of_mem c hx)
      · omega

/-- A driver takes the last place. -/
theorem register (h : Seated k o) (hlast : o.manager.participants.length = k) :
    Seated k (o.call (.register (participantIn τ))).1 := by
  obtain ⟨heights, hs⟩ := h.stacked
  obtain ⟨-, hstacked, -⟩ := Runlevels.Observed.stacked_call hs (.register (participantIn τ))
  refine ⟨hstacked, h.follows, ?_, ?_⟩
  · intro p hp
    have hp : (o.manager.participants ++ [participantIn τ])[k]? = some p := hp
    rw [← hlast, List.getElem?_concat_length, Option.some.injEq] at hp
    exact hp.symm
  · intro j p hj hp
    have hp : (o.manager.participants ++ [participantIn τ])[j]? = some p := hp
    have hlt := (List.getElem?_eq_some_iff.1 hp).1
    rw [List.length_append, List.length_singleton] at hlt
    rw [List.getElem?_append_left (by omega)] at hp
    exact h.others j p hj hp

end Seated

/-- A new driver is seated as soon as it is registered, after and before any calls of others. -/
theorem seated_of_new {c : SchedulerConfig} {auto : Nat} (hnew : Driver.new c auto = .ok d) (x : τ)
    (phaseCounts : List (RunLevel × Nat)) {early late : List (Runlevels.Call (Driver × τ))}
    (hothers : ∀ call ∈ early ++ late, ByOthers call) :
    let k := (early.flatMap Runlevels.Call.registered).length
    let o := (Runlevels.Observed.fresh phaseCounts (d, x)).run
      (early ++ .register (participantIn τ) :: late)
    Seated k o ∧ k < o.manager.participants.length := by
  intro k o
  have hfirst : Seated k (Runlevels.Observed.fresh phaseCounts (d, x)) := by
    obtain rfl := new_eq_ok hnew
    refine ⟨⟨_, Runlevels.Observed.stacked_fresh _ _⟩, ⟨rfl, fun _ => rfl⟩, nofun, ?_⟩
    intro j p _ hp
    cases hp
  -- before its registration others have taken the places below its own
  have hbefore : Seated k ((Runlevels.Observed.fresh phaseCounts (d, x)).run early) := by
    apply hfirst.run
    · intro call hcall
      exact hothers call (List.mem_append_left late hcall)
    · exact .inr (Nat.le_of_eq (Nat.zero_add _))
  have hlength :
      ((Runlevels.Observed.fresh phaseCounts (d, x)).run early).manager.participants.length = k := by
    rw [Runlevels.Observed.participants_run, List.length_append]
    exact Nat.zero_add _
  have hregistered := hbefore.register hlength
  have hlast : k < (((Runlevels.Observed.fresh phaseCounts (d, x)).run early).call
      (.register (participantIn τ))).1.manager.participants.length := by
    rw [Runlevels.Observed.participants_call, List.length_append, hlength]
    exact Nat.lt_succ_self k
  have hrun : o = (((Runlevels.Observed.fresh phaseCounts (d, x)).run early).call
      (.register (participantIn τ))).1.run late := by
    show List.foldl _ _ _ = _
    rw [List.foldl_append, List.foldl_cons]
    rfl
  rw [hrun]
  constructor
  · apply hregistered.run
    · intro call hcall
      exact hothers call (List.mem_append_right early hcall)
    · exact .inl hlast
  · rw [Runlevels.Observed.participants_run, List.length_append]
    exact Nat.lt_of_lt_of_le hlast (Nat.le_add_right _ _)

/-! ### Torn down -/

/-- How often computing came up at a participant. -/
def raised (journal : List Telling) (k : Nat) : Nat :=
  (Runlevels.told journal k).countP fun t =>
    t.accepted && t.mark.level = .computeOk && t.direction = .up

/-- A history without computing coming up opens no driver. -/
theorem opens_append {later earlier : List Telling}
    (hnone : ∀ t ∈ later, ¬ (t.accepted ∧ t.mark.level = .computeOk ∧ t.direction = .up))
    (hclosed : opens earlier = false) : opens (later ++ earlier) = false := by
  induction later with
  | nil => exact hclosed
  | cons t rest ih =>
      have hrest := ih fun x hx => hnone x (List.mem_cons_of_mem t hx)
      rw [List.cons_append, opens]
      split
      next hturns =>
        rcases hturns with ⟨haccepted, hup | hdown⟩
        · exact absurd ⟨haccepted, hup⟩ (hnone t List.mem_cons_self)
        · rw [hdown.2]
          rfl
      next => exact hrest

/-- A closed driver stays closed until computing comes up again. -/
theorem opens_of_raised {later earlier : List Telling} {k : Nat}
    (hraised : raised (later ++ earlier) k = raised earlier k)
    (hclosed : opens (Runlevels.told earlier k) = false) :
    opens (Runlevels.told (later ++ earlier) k) = false := by
  rw [raised, raised, Runlevels.told, List.filter_append, List.countP_append] at hraised
  have hzero := Nat.add_eq_right.1 hraised
  rw [Runlevels.told, List.filter_append]
  apply opens_append ?_ hclosed
  rintro t ht ⟨haccepted, hlevel, hdirection⟩
  have hnot := List.countP_eq_zero.1 hzero t ht
  simp [haccepted, hlevel, hdirection] at hnot

theorem give_of_closed (hclosed : d.accepting = false) (c : ContextId) {t : TaskHandle}
    (ht : t.isNone = false) (hint : Hint) :
    (d.give c t hint).2 = .error (.notRunning "give") := by
  rw [give, ht, hclosed]
  rfl

theorem give_of_no_contexts (hopen : d.accepting = true) (hnone : d.contexts = []) (c : ContextId)
    {t : TaskHandle} (ht : t.isNone = false) (hint : Hint) :
    (d.give c t hint).2 = .error (.unknownContext c) := by
  have hplace : ({ d with counters := d.counters.entered } : Driver).place c t hint =
      ({ d with counters := d.counters.entered }, .error (.unknownContext c)) := by
    rw [place, party, context?, hnone]
    rfl
  have hgate : (!d.accepting) = false := by
    rw [hopen]
    rfl
  rw [give, ht, if_neg Bool.false_ne_true, hgate, if_neg Bool.false_ne_true, hplace]

/-- When a torn-down driver is stopped. A tear-down that succeeds, after bring-ups to any targets
and tear-downs, some of them cut short by others, leaves no contexts. The driver accepts tasks still
if computing came up at it and no users after that; then a give fails for the lack of a context. It
is stopped otherwise, and so it stays until computing comes up again. -/
theorem accepting_iff_of_tornDown {c : SchedulerConfig} {auto : Nat}
    (hnew : Driver.new c auto = .ok d) (x : τ) (phaseCounts : List (RunLevel × Nat))
    (early late : List (Runlevels.Call (Driver × τ)))
    (hothers : ∀ call ∈ early ++ late, ByOthers call) :
    let k := (early.flatMap Runlevels.Call.registered).length
    let o := (Runlevels.Observed.fresh phaseCounts (d, x)).run
      (early ++ .register (participantIn τ) :: late)
    let e := (o.call .tearDown).1
    (o.call .tearDown).2 = .ok () →
      e.world.1.contexts = [] ∧
        (e.world.1.accepting = true ↔
          latest (Runlevels.told e.journal k) = some .computeOk) ∧
        (∀ c (t : TaskHandle) hint, t.isNone = false → (e.world.1.give c t hint).2 =
          .error (if e.world.1.accepting then .unknownContext c else .notRunning "give")) ∧
        (e.world.1.accepting = false → ∀ more : List (Runlevels.Call (Driver × τ)),
          (∀ call ∈ more, ByOthers call) →
            raised (e.run more).journal k = raised e.journal k →
              (e.run more).world.1.accepting = false ∧
                ∀ c (t : TaskHandle) hint, t.isNone = false →
                  ((e.run more).world.1.give c t hint).2 = .error (.notRunning "give")) := by
  intro k o e hok
  obtain ⟨hseated, hlast⟩ := seated_of_new hnew x phaseCounts hothers
  obtain ⟨heights, hs⟩ := hseated.stacked
  obtain ⟨heights', htracked, hempty⟩ := Runlevels.stacked_tearDown o.world hs
  obtain ⟨-, hs', -⟩ := Runlevels.Observed.unaffected_of_tracked (c := .tearDown) htracked
  have hdown : Seated k e := hseated.call (c := .tearDown) trivial (.inl hlast)
  have hlast' : k < e.manager.participants.length := by
    rw [Runlevels.Observed.participants_call, List.length_append]
    exact Nat.lt_of_lt_of_le hlast (Nat.le_add_right _ _)
  -- the driver has nothing up
  have hnested : Runlevels.Nested e.manager.order k (Runlevels.told e.journal k) 0 := by
    rw [← hempty hok k hlast]
    exact hs'.nested k
  have hcontexts : e.world.1.contexts = [] := by
    apply hdown.follows.contexts
    by_contra hholds
    exact not_begun_zero _ _ (begun_of_holdsMemory hnested (by simpa using hholds))
  refine ⟨hcontexts, ?_, ?_, ?_⟩
  · rw [hdown.follows.accepting]
    exact opens_iff e.manager.pairwise_order hnested
  · intro c t hint ht
    cases hopen : e.world.1.accepting with
    | true => exact give_of_no_contexts hopen hcontexts c ht hint
    | false => exact give_of_closed hopen c ht hint
  · intro hclosed more hmore hraised
    have hafter : Seated k (e.run more) := hdown.run hmore (.inl hlast')
    obtain ⟨later, hjournal⟩ := Runlevels.Observed.journal_run hs' more
    rw [hjournal] at hraised
    have hstays : (e.run more).world.1.accepting = false := by
      rw [hafter.follows.accepting, hjournal]
      exact opens_of_raised hraised (hdown.follows.accepting.symm.trans hclosed)
    exact ⟨hstays, fun c t hint ht => give_of_closed hstays c ht hint⟩

/-- A driver that was brought up to computing accepts tasks when it is torn down, and a give fails
for the lack of a context. One that was brought up wholly is stopped, also when its memory comes up
again. -/
theorem accepting_iff_of_tornDown_twice :
    let d : Driver := { config := .withWorkers 2, pool := .new (.withWorkers 2) 1 }
    let start := Runlevels.Observed.fresh [] (d, ())
    let half := (start.run ([] ++ .register (participantIn Unit) :: [.bringUpTo .computeOk])).call
      .tearDown
    let whole := (start.run ([] ++ .register (participantIn Unit) :: [.bringUpTo .userOk])).call
      .tearDown
    (Driver.new (.withWorkers 2) 1 = .ok d ∧ half.2 = .ok () ∧ whole.2 = .ok ()) ∧
      half.1.world.1.accepting = true ∧
      (half.1.world.1.give ⟨0⟩ ⟨5⟩ {}).2 = .error (.unknownContext ⟨0⟩) ∧
      whole.1.world.1.accepting = false ∧
      ((whole.1.run [.bringUpTo .memoryOk]).world.1.give ⟨0⟩ ⟨5⟩ {}).2 =
        .error (.notRunning "give") := by
  intro d start half whole
  have hnew : Driver.new (.withWorkers 2) 1 = .ok d := rfl
  have hothers : ∀ target, ∀ c ∈ [] ++ [(.bringUpTo target : Runlevels.Call (Driver × Unit))],
      ByOthers c := by
    intro target c hc
    rw [List.mem_singleton.1 hc]
    trivial
  have hhalf : half.2 = .ok () := by decide +kernel
  have hwhole : whole.2 = .ok () := by decide +kernel
  have hlatest : latest (Runlevels.told half.1.journal 0) = some .computeOk := by decide +kernel
  have hlatest' : latest (Runlevels.told whole.1.journal 0) ≠ some .computeOk := by decide +kernel
  have hraised : raised (whole.1.run [.bringUpTo .memoryOk]).journal 0 =
      raised whole.1.journal 0 := by decide +kernel
  have htorn := accepting_iff_of_tornDown hnew () [] [] [.bringUpTo .computeOk] (hothers _) hhalf
  have htorn' := accepting_iff_of_tornDown hnew () [] [] [.bringUpTo .userOk] (hothers _) hwhole
  -- from here on the two outcomes are names, so that nothing runs them again
  have hfold : ((Runlevels.Observed.fresh [] (d, ())).run
    ([] ++ .register (participantIn Unit) :: [.bringUpTo .computeOk])).call .tearDown = half := rfl
  have hfold' : ((Runlevels.Observed.fresh [] (d, ())).run
    ([] ++ .register (participantIn Unit) :: [.bringUpTo .userOk])).call .tearDown = whole := rfl
  rw [hfold] at htorn
  rw [hfold'] at htorn'
  clear hfold hfold'
  clear_value half whole
  obtain ⟨-, hopen, hgive, -⟩ := htorn
  obtain ⟨-, hclosed, -, hstays⟩ := htorn'
  have haccepting := hopen.2 hlatest
  have hstopped := Bool.eq_false_iff.2 (mt hclosed.1 hlatest')
  have hfails := hgive ⟨0⟩ ⟨5⟩ {} rfl
  rw [haccepting] at hfails
  have hlater := (hstays hstopped [.bringUpTo .memoryOk] (hothers _) hraised).2 ⟨0⟩ ⟨5⟩ {} rfl
  exact ⟨⟨hnew, hhalf, hwhole⟩, haccepting, hfails, hstopped, hlater⟩

end WorkStealing.Driver
