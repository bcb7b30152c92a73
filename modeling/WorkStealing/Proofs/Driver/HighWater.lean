import WorkStealing.Proofs.Driver.Refusals

/-!
# The largest load

A give counts its task in before it is known whether there is a place for the task, and counts it
out again if there is none. The largest load keeps what was counted in. It is therefore the largest
number of outstanding tasks after any call, or one more than the number at which a give was turned
away, whichever is larger (`Driver.maxLoad_eq_peak_or_overshoot`).

The number of outstanding tasks itself is right after every call, also where memory goes down: what
is reported done was held, and a driver never holds more than it counts (`History.Counted`).
-/

namespace WorkStealing.Driver

variable {d : Driver} {call : Call} {c : ContextId} {t : TaskHandle} {hint : Hint} {e : SchedError}

/-- Whether a call counts a task in, before it is known whether the task finds a place. -/
def countsIn (d : Driver) : Call → Bool
  | .give _ t _ => !t.isNone && d.accepting
  | .giveResolved _ t => d.resolver.isSome && !t.isNone && d.accepting
  | _ => false

/-- Whether a call counts a task in that finds no place. -/
def turnsAway (d : Driver) (call : Call) : Bool := d.countsIn call && (d.call call).2.1.isEmpty

/-! ### What each call counts -/

/-- The part of the books that the largest load is about. -/
def load (d : Driver) : Nat × Nat := (d.counters.outstanding, d.counters.maxLoad)

theorem load_take (d : Driver) (c : ContextId) : (d.take c).1.load = d.load := by
  rw [take]
  cases d.party c with
  | error e => rfl
  | ok found =>
      dsimp only
      cases d.pool.take found.2 found.1.cursor with
      | mk pool r =>
          obtain ⟨cursor, r⟩ := r
          cases r with
          | none => rfl
          | some taken =>
              show ((d.counters.recordTake taken.source).outstanding,
                (d.counters.recordTake taken.source).maxLoad) = d.load
              cases taken.source <;> rfl

theorem load_takeBatch (d : Driver) (c : ContextId) (most : Nat) :
    (takeBatch c most d).1.load = d.load :=
  takeBatch_induction (P := fun d' => d'.load = d.load)
    (fun d' hd' => (load_take d' c).trans hd') most rfl

theorem load_switchRunlevel (d : Driver) (level : RunLevel) (phase : Nat) (direction : Direction) :
    (switchRunlevel level phase direction d).1.load = d.load := by
  simp only [switchRunlevel]
  split
  · rw [allocateContexts]
    split <;> rfl
  all_goals rfl

/-- A give counts a task in once it is past the first checks; only a task that is placed stays
counted. -/
theorem load_give (h : d.pool.Linked) (c : ContextId) (t : TaskHandle) (hint : Hint) :
    (d.give c t hint).1.load =
      (d.outstanding + (ifOk (d.give c t hint).2 [t]).length,
        if !t.isNone && d.accepting then max d.counters.maxLoad (d.outstanding + 1)
        else d.counters.maxLoad) := by
  rcases give_cases h c t hint with
    ⟨pool, ctx, placement, hname, haccepting, -, -, hgive⟩ | ⟨e, counters, -, -, -, hgive⟩
  · rw [hgive, hname, haccepting]
    rfl
  · have herror : (d.give c t hint).2 = .error e := congrArg Prod.snd hgive
    have hrefused := give_eq_of_error h herror
    rw [hrefused, hgive]
    show (d.outstanding, _) = (d.outstanding + 0, _)
    cases hname : t.isNone with
    | true => simp [refused, hname]
    | false => cases haccepting : d.accepting <;> simp [refused, hname, haccepting]

/-- What a call does to the load follows from what it counts in, lets in and lets go. -/
theorem load_call (h : d.pool.Linked) (call : Call) :
    (d.call call).1.load =
      (d.outstanding + (d.call call).2.1.length - (d.call call).2.2.length,
        if d.countsIn call then max d.counters.maxLoad (d.outstanding + 1)
        else d.counters.maxLoad) := by
  cases call with
  | give c t hint => exact load_give h c t hint
  | giveResolved c t =>
      cases hresolver : d.resolver with
      | none =>
          simp only [Driver.call, countsIn, giveResolved, hresolver]
          rfl
      | some r =>
          simp only [Driver.call, countsIn, giveResolved, hresolver]
          exact load_give h c t (r.hintFor t)
  | take c => exact load_take d c
  | takeBatch c most => exact load_takeBatch d c most
  | done c t =>
      simp only [Driver.call]
      rcases done_cases d c t with ⟨ctx, source, ctx', pool, -, -, -, hdone⟩ | ⟨e, hdone⟩
      · rw [hdone]
        rfl
      · rw [hdone]
        rfl
  | registerContext c l =>
      simp only [Driver.call]
      rcases registerContext_cases d c l with ⟨ctx, ctx', -, -, hregister⟩ | ⟨e, hregister⟩
      · rw [hregister]
        rfl
      · rw [hregister]
        rfl
  | openContext l =>
      simp only [Driver.call]
      rcases openContext_cases d l with ⟨ctx, id, -, -, hopen⟩ | ⟨e, hopen⟩
      · rw [hopen]
        rfl
      · rw [hopen]
        rfl
  | createGroup key => rfl
  | retireGroup key => rfl
  | switchRunlevel level phase direction => exact load_switchRunlevel d level phase direction
  | resolve resolver => rfl
  | park doorkeeper => rfl

theorem ifOk_give_of_closed (h : (!t.isNone && d.accepting) = false) (c : ContextId)
    (hint : Hint) : ifOk (d.give c t hint).2 [t] = [] := by
  rw [give]
  by_cases hnone : t.isNone = true
  · rw [if_pos hnone]
    rfl
  · have hclosed : (!d.accepting) = true := by
      simpa [hnone] using h
    rw [if_neg hnone, if_pos hclosed]
    rfl

/-- A call that counts no task in lets none in. -/
theorem given_of_not_countsIn (h : d.countsIn call = false) : (d.call call).2.1 = [] := by
  cases call with
  | give c t hint => exact ifOk_give_of_closed h c hint
  | giveResolved c t =>
      rw [countsIn] at h
      cases hresolver : d.resolver with
      | none =>
          simp only [Driver.call, giveResolved, hresolver]
          rfl
      | some r =>
          rw [hresolver] at h
          simp only [Driver.call, giveResolved, hresolver]
          exact ifOk_give_of_closed h c (r.hintFor t)
  | _ => rfl

/-- A call that counts a task in reports none done, and lets the task in unless it turns it away. -/
theorem given_of_countsIn (h : d.countsIn call = true) :
    (d.call call).2.2 = [] ∧
      (d.call call).2.1.length = if d.turnsAway call then 0 else 1 := by
  rw [turnsAway, h, Bool.true_and]
  have hlength (r : Except SchedError Unit) (t : TaskHandle) :
      (ifOk r [t]).length = if (ifOk r [t]).isEmpty then 0 else 1 := by
    cases r <;> rfl
  cases call with
  | give c t hint => exact ⟨rfl, hlength _ t⟩
  | giveResolved c t => exact ⟨rfl, hlength _ t⟩
  | _ => cases h

/-- What a call does to the load: one more task that is placed, one more for a moment only, or
as many fewer as it reports done. -/
theorem load_call_cases (h : d.pool.Linked) (call : Call) :
    (d.turnsAway call = true ∧ (d.call call).1.load =
        (d.outstanding, max d.counters.maxLoad (d.outstanding + 1))) ∨
      (d.turnsAway call = false ∧ (d.call call).1.load =
        (d.outstanding + 1, max d.counters.maxLoad (d.outstanding + 1))) ∨
      (d.turnsAway call = false ∧ (d.call call).1.load =
        (d.outstanding - (d.call call).2.2.length, d.counters.maxLoad)) := by
  have hload := load_call h call
  cases hcounts : d.countsIn call with
  | false =>
      have haway : d.turnsAway call = false := by rw [turnsAway, hcounts, Bool.false_and]
      rw [hcounts, given_of_not_countsIn hcounts] at hload
      exact .inr (.inr ⟨haway, hload⟩)
  | true =>
      obtain ⟨hfinished, hgiven⟩ := given_of_countsIn hcounts
      rw [hcounts, hfinished, hgiven] at hload
      cases haway : d.turnsAway call with
      | true =>
          rw [haway] at hload
          exact .inl ⟨rfl, hload⟩
      | false =>
          rw [haway] at hload
          exact .inr (.inl ⟨rfl, hload⟩)

/-! ### Histories -/

namespace History

/-- The largest number of outstanding tasks before a row of calls and after each of them. -/
def peak (h : History) : List Call → Nat
  | [] => h.driver.outstanding
  | call :: rest => max h.driver.outstanding ((h.step call).peak rest)

/-- One more than the largest number of outstanding tasks at which a row of calls turned a task
away; 0 if it turned none away. -/
def overshoot (h : History) : List Call → Nat
  | [] => 0
  | call :: rest =>
    max (if h.driver.turnsAway call then h.driver.outstanding + 1 else 0)
      ((h.step call).overshoot rest)

/-- A driver that counts what came in and did not go, holds no more than that, and has seen at least
as many. -/
structure Counted (h : History) : Prop where
  tidy : h.driver.Tidy
  held : h.driver.held.card ≤ h.driver.outstanding
  balance : h.driver.outstanding + h.finished.length = h.given.length
  mark : h.driver.outstanding ≤ h.driver.counters.maxLoad

variable {h : History}

/-- What a call reports done was held, so the count does not stop short. -/
theorem finished_le (hcounted : h.Counted) (call : Call) :
    (h.driver.call call).1.held.card + (h.driver.call call).2.2.length ≤
      h.driver.held.card + (h.driver.call call).2.1.length := by
  have hcard := Multiset.card_le_card (within_call hcounted.tidy call).bound
  rw [Multiset.card_add, Multiset.card_add, Multiset.coe_card, Multiset.coe_card] at hcard
  exact hcard

theorem Counted.step (hcounted : h.Counted) (call : Call) : (h.step call).Counted := by
  obtain ⟨houtstanding, hmaxLoad⟩ :=
    Prod.mk.inj (load_call hcounted.tidy.linked call)
  have hfinished := finished_le hcounted call
  have hheld := hcounted.held
  have hbalance := hcounted.balance
  have hmark := hcounted.mark
  have hafter : (h.step call).driver = (h.driver.call call).1 := rfl
  have hgiven : (h.step call).given.length =
      (h.driver.call call).2.1.length + h.given.length := List.length_append
  have hreported : (h.step call).finished.length =
      (h.driver.call call).2.2.length + h.finished.length := List.length_append
  refine ⟨(within_call hcounted.tidy call).tidy, ?_, ?_, ?_⟩
  · rw [hafter, outstanding, houtstanding]
    omega
  · rw [hafter, hgiven, hreported, outstanding, houtstanding]
    omega
  · rw [hafter, outstanding]
    rcases load_call_cases hcounted.tidy.linked call with
      ⟨-, hload⟩ | ⟨-, hload⟩ | ⟨-, hload⟩ <;>
      obtain ⟨hafter, hmax⟩ := Prod.mk.inj hload <;> rw [hafter, hmax] <;> omega

theorem Counted.run (hcounted : h.Counted) (calls : List Call) : (h.run calls).Counted := by
  induction calls generalizing h with
  | nil => exact hcounted
  | cons call rest ih => exact ih (hcounted.step call)

theorem outstanding_le_peak (h : History) (calls : List Call) :
    h.driver.outstanding ≤ h.peak calls := by
  cases calls with
  | nil => exact le_refl _
  | cons call rest => exact le_max_left _ _

/-- The largest load after a row of calls is the one before, the peak or the overshoot, whichever is
the largest. -/
theorem maxLoad_run (hcounted : h.Counted) (calls : List Call) :
    (h.run calls).driver.counters.maxLoad =
      max h.driver.counters.maxLoad (max (h.peak calls) (h.overshoot calls)) := by
  -- induction on the calls still to come; a task that is placed shows in the peak of the rest
  induction calls generalizing h with
  | nil =>
      have hmark := hcounted.mark
      rw [run, List.foldl_nil, peak, overshoot]
      omega
  | cons call rest ih =>
      have hrest := ih (hcounted.step call)
      have hpeak := outstanding_le_peak (h.step call) rest
      have hmark := hcounted.mark
      have hafter : (h.step call).driver = (h.driver.call call).1 := rfl
      show ((h.step call).run rest).driver.counters.maxLoad = _
      rw [hrest, peak, overshoot]
      rw [hafter, outstanding] at hpeak
      rw [hafter]
      rcases load_call_cases hcounted.tidy.linked call with
        ⟨haway, hload⟩ | ⟨haway, hload⟩ | ⟨haway, hload⟩ <;>
        obtain ⟨houtstanding, hmax⟩ := Prod.mk.inj hload <;>
        rw [houtstanding] at hpeak <;> rw [hmax]
      · rw [if_pos haway]
        omega
      · rw [if_neg (Bool.eq_false_iff.1 haway)]
        omega
      · rw [if_neg (Bool.eq_false_iff.1 haway)]
        omega

/-- What no give that is turned away passes, the overshoot does not pass. -/
theorem overshoot_le_iff {m : Nat} (calls : List Call) :
    h.overshoot calls ≤ m ↔
      ∀ before call after, calls = before ++ call :: after →
        (h.run before).driver.turnsAway call = true →
          (h.run before).driver.outstanding < m := by
  induction calls generalizing h with
  | nil => simp [overshoot]
  | cons first rest ih =>
      rw [overshoot, max_le_iff, ih]
      constructor
      · rintro ⟨hfirst, hrest⟩ before call after hsplit haway
        cases before with
        | nil =>
            obtain ⟨rfl, rfl⟩ := List.cons.inj hsplit
            rw [run, List.foldl_nil] at haway ⊢
            rw [if_pos haway] at hfirst
            exact hfirst
        | cons x before =>
            obtain ⟨rfl, rfl⟩ := List.cons.inj hsplit
            exact hrest before call after rfl haway
      · intro hall
        refine ⟨?_, fun before call after hsplit haway => ?_⟩
        · split
          next haway => exact hall [] first rest rfl haway
          next => exact Nat.zero_le m
        · exact hall (first :: before) call after (by rw [hsplit]; rfl) haway

end History

/-- The largest load over every run of calls on a new driver, up, down or between. The number of
outstanding tasks is the gives that succeeded less the reports that did. The largest load is the
largest such number after any call, unless a give was turned away at a number so large: then it is
one more than that. A give that fails raises it exactly if the give is past the first checks and
nothing is left between the number of outstanding tasks and the largest load. -/
theorem maxLoad_eq_peak_or_overshoot {config : SchedulerConfig} {auto : Nat} {d₀ : Driver}
    (hnew : Driver.new config auto = .ok d₀) (calls : List Call) :
    let start : History := { driver := d₀ }
    let h := start.run calls
    let d := h.driver
    d.outstanding + h.finished.length = h.given.length ∧
      d.metrics.counters.maxLoad = max (start.peak calls) (start.overshoot calls) ∧
      (d.metrics.counters.maxLoad = start.peak calls ↔
        ∀ before call after, calls = before ++ call :: after →
          (start.run before).driver.turnsAway call = true →
            (start.run before).driver.outstanding < start.peak calls) ∧
      ∀ c t hint e, (d.give c t hint).2 = .error e →
        ((d.give c t hint).1.metrics.counters.maxLoad = d.metrics.counters.maxLoad ↔
          t.isNone = true ∨ d.accepting = false ∨ d.outstanding < d.metrics.counters.maxLoad) := by
  intro start h d
  obtain ⟨hsound, hheld, hcounters⟩ := sound_of_new hnew
  have hstart : start.Counted := by
    refine ⟨hsound.tidy, ?_, ?_, ?_⟩
    · rw [hheld]
      exact Nat.zero_le _
    · rw [outstanding, hcounters]
      rfl
    · rw [outstanding, hcounters]
  have hcounted : h.Counted := hstart.run calls
  have hmark : d.counters.maxLoad = max (start.peak calls) (start.overshoot calls) := by
    have hrun := History.maxLoad_run hstart calls
    rw [hcounters, Nat.zero_max] at hrun
    exact hrun
  refine ⟨hcounted.balance, hmark, ?_, ?_⟩
  · rw [← History.overshoot_le_iff, ← max_eq_left_iff]
    exact ⟨fun heq => hmark.symm.trans heq, fun heq => hmark.trans heq⟩
  · intro c t hint e he
    rw [give_eq_of_error hcounted.tidy.linked he]
    show (if t.isNone || !d.accepting then d.counters.maxLoad
      else max d.counters.maxLoad (d.outstanding + 1)) = d.counters.maxLoad ↔ _
    have hgate : (t.isNone || !d.accepting) = true ↔ t.isNone = true ∨ d.accepting = false := by
      rw [Bool.or_eq_true, Bool.not_eq_true']
    rw [← or_assoc, ← hgate]
    split
    next hclosed => exact ⟨fun _ => .inl hclosed, fun _ => rfl⟩
    next hopen =>
      rw [or_iff_right hopen, max_eq_left_iff]
      exact Iff.rfl

/-- One task is given, and a second one through a context that does not exist. The second is turned
away, and stays in the largest load. -/
theorem maxLoad_eq_two_of_one :
    let config : SchedulerConfig := .withWorkers 2
    let d₀ : Driver := { config := config, pool := .new config 2 }
    let calls : List Call :=
      [.switchRunlevel .memoryOk 0 .up, .switchRunlevel .computeOk 0 .up, .give ⟨0⟩ ⟨5⟩ {},
        .give ⟨9⟩ ⟨6⟩ {}]
    let start : History := { driver := d₀ }
    let d := (start.run calls).driver
    Driver.new config 2 = .ok d₀ ∧ d.outstanding = 1 ∧ start.peak calls = 1 ∧
      d.metrics.counters.maxLoad = 2 := by
  intro config d₀ calls start d
  have hnew : Driver.new config 2 = .ok d₀ := rfl
  obtain ⟨hbalance, hmark, -, -⟩ := maxLoad_eq_peak_or_overshoot hnew calls
  have hpeak : start.peak calls = 1 := by decide +kernel
  have hovershoot : start.overshoot calls = 2 := by decide +kernel
  have hgiven : (start.run calls).given.length = 1 := by decide +kernel
  have hfinished : (start.run calls).finished.length = 0 := by decide +kernel
  rw [hgiven, hfinished] at hbalance
  refine ⟨hnew, hbalance, hpeak, ?_⟩
  rw [hmark, hpeak, hovershoot]
  rfl

end WorkStealing.Driver
