import Mathlib.Data.Nat.ModEq
import WorkStealing.Proofs.Pool.Calls

/-!
# Takes as moves

A take of a pool in step yields a task by quiet moves and one departure, or it finds nothing. What
it has tried in vain is then known in full (`take_cases`): the worker's own queues are empty, no
group holds a task, and every other worker with tasks has repelled the thief once, which it could
do only below the limit (`Pool.Barren`).
-/

namespace WorkStealing

/-- The cyclic order names no position twice. -/
theorem nodup_cyclicFrom (start n : Nat) : (cyclicFrom start n).Nodup := by
  refine List.Nodup.map_on (fun i hi j hj hij => ?_) List.nodup_range
  -- two steps below `n` from one start that meet modulo `n` are equal
  rw [List.mem_range] at hi hj
  exact Nat.ModEq.eq_of_lt_of_lt (Nat.ModEq.add_left_cancel' start hij) hi hj

namespace Pool

/-- What a thief meets at a seat: the tasks in the worker's own queues, and the attempts that the
worker has repelled. -/
def guard (p : Pool) (k : Nat) : Option (List TaskHandle × Nat) :=
  (p.seats[k]?).map fun s => (s.lane.tasks, s.attempts)

/-- What an attempt in vain leaves at a victim: the same empty queues, or the same tasks behind one
more repelled attempt. -/
def Withstood (p q : Pool) (v : Nat) : Prop :=
  ∀ tasks n, p.guard v = some (tasks, n) →
    (tasks = [] ∧ q.guard v = some (tasks, n)) ∨
      (tasks ≠ [] ∧ n < p.maxRepels ∧ q.guard v = some (tasks, n + 1))

/-- The group noted at a seat, if any, holds nothing. -/
def BareAt (p : Pool) (v : Nat) : Prop :=
  ∀ i g, p.activeAt v = some i → p.groups.get? i = some g → g.tasks = []

/-- A row of victims tried in vain. -/
structure Missed (p q : Pool) (victims : List Nat) : Prop where
  quiet : Quiet p q
  groups : q.groups = p.groups
  active : ∀ k, q.activeAt k = p.activeAt k
  maxRepels : q.maxRepels = p.maxRepels
  bare : ∀ v ∈ victims, p.BareAt v
  spared : ∀ k, k ∉ victims → q.guard k = p.guard k
  tried : ∀ v ∈ victims, Withstood p q v

/-- A take by the worker at a position that found nothing anywhere. -/
structure Barren (p q : Pool) (w : Nat) : Prop where
  quiet : Quiet p q
  own : ∃ n, p.guard w = some ([], n) ∧ q.guard w = some ([], n)
  others : ∀ v, v ≠ w → Withstood p q v
  groups : q.groupTasks = []

variable {p q : Pool} {k v : Nat} {s s' : Seat} {i : ArenaIndex} {g : AffinityGroup}
  {w : Location}

theorem guard_of_seat (h : p.seats[k]? = some s) : p.guard k = some (s.lane.tasks, s.attempts) := by
  rw [guard, h, Option.map_some]

theorem guard_setSeat (h : p.seats[k]? = some s) (s' : Seat) (j : Nat) :
    (p.setSeat k s').guard j = if j = k then some (s'.lane.tasks, s'.attempts) else p.guard j := by
  have hlt := (List.getElem?_eq_some_iff.1 h).1
  simp only [guard, setSeat]
  by_cases hj : j = k
  · rw [if_pos hj, hj, List.getElem?_set_self hlt, Option.map_some]
  · rw [if_neg hj, List.getElem?_set_ne (Ne.symm hj)]

/-- A seat with the same tasks and attempts shows a thief the same. -/
theorem guard_setSeat_same (h : p.seats[k]? = some s) (s' : Seat)
    (hl : s'.lane.tasks = s.lane.tasks) (ha : s'.attempts = s.attempts) (j : Nat) :
    (p.setSeat k s').guard j = p.guard j := by
  rw [guard_setSeat h]
  by_cases hj : j = k
  · rw [if_pos hj, hj, guard_of_seat h, hl, ha]
  · rw [if_neg hj]

/-! ### Own sources -/

/-- A worker looks into the group that it drains and takes a task or lets go of the group. -/
theorem takeActive_cases (h : p.Linked) (w : Location) :
    (∃ taken, (p.takeActive w).2 = some taken ∧ Move p (.left taken) (p.takeActive w).1) ∨
      ((p.takeActive w).2 = none ∧ Quiet p (p.takeActive w).1 ∧
        (p.takeActive w).1.activeAt w.index = none ∧
        ∀ k, (p.takeActive w).1.guard k = p.guard k) := by
  rw [takeActive]
  cases hs : p.seat? w with
  | none =>
      have hactive : p.activeAt w.index = none := by
        rw [activeAt, show p.seats[w.index]? = none from hs, Option.bind_none]
      exact .inr ⟨rfl, .refl p, hactive, fun _ => rfl⟩
  | some s =>
      have hseat : p.seats[w.index]? = some s := hs
      cases ha : s.active with
      | none =>
          dsimp only
          rw [ha]
          exact .inr ⟨rfl, .refl p, (activeAt_of_seat hseat).trans ha, fun _ => rfl⟩
      | some i =>
          have hactive : p.activeAt w.index = some i := (activeAt_of_seat hseat).trans ha
          -- in a pool in step, the group noted at a seat exists and is drained by its worker
          obtain ⟨g, w', hg, hstage, hw⟩ := h.stage_of_activeAt hactive
          cases Location.index_injective hw
          dsimp only
          rw [ha]
          dsimp only
          rw [hg]
          dsimp only
          rcases g.drain_facts w with ⟨t, d, hpop, hdrain⟩ | ⟨hnil, -⟩
          · have htake : g.queue.takeAt? .tail = some (t, d) := hpop
            rw [hdrain]
            exact .inl ⟨_, rfl, Move.drained (g := g) hactive hg htake rfl⟩
          · -- found empty, the group is let go of
            have hdrain : g.drain w = ({ g with stage := .new }, none) := by
              rw [AffinityGroup.drain, (g.queue.pop?_eq_none_iff).2 hnil]
              simp only [hstage, ite_true]
            rw [hdrain]
            refine .inr ⟨rfl, .of_move (.released hseat ha hg hstage hnil), ?_, fun k => ?_⟩
            · exact (activeAt_setSeat (p := p.setGroup i { g with stage := .new }) hseat _ _).trans
                (if_pos rfl)
            · have hsame := guard_setSeat_same (p := p.setGroup i { g with stage := .new })
                hseat { s with active := none } rfl rfl k
              exact hsame

/-- Where no group waits, the search of staging changes nothing. -/
theorem adoptStaged_of_none (hpop : p.staging.pop? w.index = none) (budget : Nat) :
    adoptStaged w budget p = (p, none) := by
  unfold adoptStaged
  split
  · rfl
  · rw [hpop]

/-- The first group that waits is adopted and yields its newest task. -/
theorem adoptStaged_of_pop (h : p.Linked) (hseat : p.seats[w.index]? = some s) {staging : Staging}
    (hpop : p.staging.pop? w.index = some (i, staging)) :
    ∃ g t d, p.groups.get? i = some g ∧ g.stage = .staged ∧ g.queue.pop? = some (t, d) ∧
      adoptStaged w p.staging.size p =
        ((({ p with staging := staging } : Pool).setGroup i
            { g with stage := .active w, queue := d, inFlight := g.inFlight + 1 }).setSeat
          w.index { s with active := some i }, some { task := t, source := .staged i }) := by
  have hcopies := Staging.copies_pop? hpop i
  rw [if_pos rfl] at hcopies
  -- what was popped names a group that waits, and a group that waits holds a task
  obtain ⟨g, hg, hstage⟩ := h.staged_of_copies (i := i) (by omega)
  have hbusy : g.queue.tasks ≠ [] := (h.consistent i g hg).busy_of_staged hstage
  cases htake : g.queue.pop? with
  | none => exact absurd ((g.queue.pop?_eq_none_iff).1 htake) hbusy
  | some taken =>
      obtain ⟨t, d⟩ := taken
      have hadopt : g.adopt w = .ok { g with stage := .active w } :=
        (g.adopt_eq_ok_iff _ w).2 ⟨hstage, rfl⟩
      have hat : adoptAt { p with staging := staging } w i =
          ((({ p with staging := staging } : Pool).setGroup i
              { g with stage := .active w, queue := d, inFlight := g.inFlight + 1 }).setSeat
            w.index { s with active := some i }, some { task := t, source := .staged i }) := by
        rw [adoptAt]
        dsimp only
        rw [hg, show ({ p with staging := staging } : Pool).seat? w = some s from hseat]
        dsimp only
        rw [hadopt]
        simp only [AffinityGroup.drain, htake]
        rfl
      refine ⟨g, t, d, hg, hstage, htake, ?_⟩
      rw [Staging.size_pop? hpop, adoptStaged, hpop]
      dsimp only
      rw [hat]

/-- The first group that waits yields a task, so a worker that adopts none has found none that
waits. -/
theorem adoptStaged_cases (h : p.Linked) (hseat : p.seats[w.index]? = some s)
    (hfree : s.active = none) :
    (∃ taken, (adoptStaged w p.staging.size p).2 = some taken ∧
        Move p (.left taken) (adoptStaged w p.staging.size p).1) ∨
      (adoptStaged w p.staging.size p = (p, none) ∧ ∀ i, p.stageAt i ≠ some .staged) := by
  cases hpop : p.staging.pop? w.index with
  | none => exact .inr ⟨adoptStaged_of_none hpop _, h.not_staged hpop⟩
  | some found =>
      obtain ⟨i, staging⟩ := found
      obtain ⟨g, t, d, hg, hstage, htake, hadopt⟩ := adoptStaged_of_pop h hseat hpop
      rw [hadopt]
      exact .inl ⟨_, rfl, Move.adopted hseat hfree hpop hg hstage htake⟩

/-! ### Other workers -/

theorem stealFromGroup_cases (h : p.Linked) (hseat : p.seats[v]? = some s) :
    (∃ taken, (p.stealFromGroup v s).2 = some taken ∧
        Move p (.left taken) (p.stealFromGroup v s).1) ∨
      (p.stealFromGroup v s = (p, none) ∧ p.BareAt v) := by
  have hactive := activeAt_of_seat hseat
  rw [stealFromGroup]
  cases ha : s.active with
  | none =>
      refine .inr ⟨rfl, fun i g hi _ => ?_⟩
      rw [hactive, ha] at hi
      cases hi
  | some i =>
      rw [ha] at hactive
      obtain ⟨g, w, hg, hstage, -⟩ := h.stage_of_activeAt hactive
      dsimp only
      rw [hg]
      dsimp only
      rw [AffinityGroup.steal]
      cases htake : g.queue.steal? with
      | none =>
          -- the group at the seat is the one that was just found empty
          refine .inr ⟨rfl, fun j x hj hx => ?_⟩
          rw [hactive, Option.some.injEq] at hj
          rw [← hj, hg, Option.some.injEq] at hx
          rw [← hx]
          exact (g.queue.takeAt?_eq_none_iff .head).1 htake
      | some taken =>
          obtain ⟨t, d⟩ := taken
          have hhead : g.queue.takeAt? .head = some (t, d) := htake
          exact .inl ⟨_, rfl, Move.drained (g := g) hactive hg hhead rfl⟩

theorem Missed.refl (p : Pool) : Missed p p [] where
  quiet := .refl p
  groups := rfl
  active _ := rfl
  maxRepels := rfl
  bare _ hv := absurd hv List.not_mem_nil
  spared _ _ := rfl
  tried _ hv := absurd hv List.not_mem_nil

/-- A victim without tasks leaves everything as it is. -/
theorem Missed.passed (hnil : ∀ tasks n, p.guard v = some (tasks, n) → tasks = [])
    (hbare : p.BareAt v) : Missed p p [v] where
  quiet := .refl p
  groups := rfl
  active _ := rfl
  maxRepels := rfl
  bare _ hu := List.mem_singleton.1 hu ▸ hbare
  spared _ _ := rfl
  tried _ hu tasks n hguard := .inl ⟨hnil tasks n (List.mem_singleton.1 hu ▸ hguard), hguard⟩

/-- A victim with tasks counts the attempt. -/
theorem Missed.repelled {m : Pool} (hseat : p.seats[v]? = some s) (hbusy : s.lane.tasks ≠ [])
    (hlt : s.attempts < p.maxRepels)
    (hm : m = { p.setSeat v { s with attempts := s.attempts + 1 } with repels := p.repels + 1 })
    (hbare : m.BareAt v) : Missed p m [v] := by
  have hactive : ∀ k, m.activeAt k = p.activeAt k := by
    intro k
    rw [hm]
    exact activeAt_setSeat_same hseat { s with attempts := s.attempts + 1 } rfl k
  have hguard : ∀ k, m.guard k =
      if k = v then some (s.lane.tasks, s.attempts + 1) else p.guard k := by
    intro k
    rw [hm]
    exact guard_setSeat hseat { s with attempts := s.attempts + 1 } k
  -- only the guard of `v` differs between `p` and `m`
  refine ⟨.of_move (hm ▸ .repelled hseat hbusy hlt), by rw [hm]; rfl, hactive, by rw [hm]; rfl,
    fun u hu i g hi hg => ?_, fun k hk => ?_, fun u hu tasks n hmet => ?_⟩
  · rw [List.mem_singleton.1 hu, ← hactive] at hi
    exact hbare i g hi (by rw [hm]; exact hg)
  · exact (hguard k).trans (if_neg (by simpa using hk))
  · rw [List.mem_singleton.1 hu, guard_of_seat hseat, Option.some.injEq, Prod.mk.injEq] at hmet
    obtain ⟨rfl, rfl⟩ := hmet
    rw [List.mem_singleton.1 hu]
    exact .inr ⟨hbusy, hlt, (hguard v).trans (if_pos rfl)⟩

/-- One more victim, who is not yet in the row, tried first. -/
theorem Missed.cons {m : Pool} {victims : List Nat} (hv : v ∉ victims) (hfirst : Missed p m [v])
    (hrest : Missed m q victims) : Missed p q (v :: victims) where
  quiet := Relation.ReflTransGen.trans hfirst.quiet hrest.quiet
  groups := hrest.groups.trans hfirst.groups
  active k := (hrest.active k).trans (hfirst.active k)
  maxRepels := hrest.maxRepels.trans hfirst.maxRepels
  bare u hu i g hi hg := by
    rcases List.mem_cons.1 hu with rfl | hu
    · exact hfirst.bare u List.mem_cons_self i g hi hg
    · refine hrest.bare u hu i g ?_ ?_
      · rw [hfirst.active, hi]
      · rw [hfirst.groups, hg]
  spared k hk := by
    obtain ⟨hne, hk⟩ := not_or.1 (fun hor => hk (List.mem_cons.2 hor))
    rw [hrest.spared k hk, hfirst.spared k (by simpa using hne)]
  tried u hu tasks n hguard := by
    -- the later victims find the first one as its own attempt left it
    rcases List.mem_cons.1 hu with rfl | hu
    · rw [hrest.spared u hv]
      exact hfirst.tried u List.mem_cons_self tasks n hguard
    · have hne : u ≠ v := fun he => hv (he ▸ hu)
      rw [← hfirst.maxRepels]
      apply hrest.tried u hu tasks n
      rw [hfirst.spared u (by simpa using hne), hguard]

/-- One victim: its own queues repel the thief or yield a task, then its group is tried. -/
theorem stealFrom_cases (h : p.Linked) (v : Nat) :
    (∃ taken, (p.stealFrom v).2 = some taken ∧ Yields p (some taken) (p.stealFrom v).1) ∨
      ((p.stealFrom v).2 = none ∧ Missed p (p.stealFrom v).1 [v]) := by
  rw [stealFrom]
  cases hseat : p.seats[v]? with
  | none =>
      refine .inr ⟨rfl, .passed (fun tasks n hguard => ?_) fun i g hi _ => ?_⟩
      · rw [guard, hseat] at hguard
        cases hguard
      · rw [activeAt, hseat] at hi
        cases hi
  | some s =>
      dsimp only
      by_cases hempty : s.lane.isEmpty = true
      · rw [if_pos hempty]
        -- nothing of the victim's own to steal: its group is the last chance
        rcases stealFromGroup_cases h hseat with ⟨taken, hr, hm⟩ | ⟨hr, hbare⟩
        · exact .inl ⟨taken, hr, .of_move hm⟩
        · rw [hr]
          refine .inr ⟨rfl, .passed (fun tasks n hguard => ?_) hbare⟩
          rw [guard_of_seat hseat, Option.some.injEq, Prod.mk.injEq] at hguard
          rw [← hguard.1]
          exact (s.lane.isEmpty_iff).1 hempty
      · rw [if_neg hempty]
        have hbusy : s.lane.tasks ≠ [] := fun hnil => hempty ((s.lane.isEmpty_iff).2 hnil)
        by_cases hlimit : p.maxRepels ≤ s.attempts
        · rw [if_pos hlimit]
          -- the victim has repelled enough and gives up a task
          cases hremove : s.lane.remove .head with
          | mk lane found =>
              cases found with
              | none => exact absurd (Levels.tasks_eq_nil_of_remove hremove) hbusy
              | some found => exact .inl ⟨_, rfl, .of_move (.removed hseat hremove rfl)⟩
        · rw [if_neg hlimit]
          have hlt := Nat.lt_of_not_le hlimit
          -- the attempt is counted before the group is tried
          have hmove := Move.repelled hseat hbusy hlt
          have hlength := (List.getElem?_eq_some_iff.1 hseat).1
          have hseat' : ({ p.setSeat v { s with attempts := s.attempts + 1 } with
              repels := p.repels + 1 } : Pool).seats[v]? =
                some { s with attempts := s.attempts + 1 } := List.getElem?_set_self hlength
          rcases stealFromGroup_cases (hmove.linked h) hseat' with ⟨taken, hr, hm⟩ | ⟨hr, hbare⟩
          · exact .inl ⟨taken, hr, ⟨_, .of_move hmove, hm⟩⟩
          · rw [hr]
            exact .inr ⟨rfl, .repelled hseat hbusy hlt rfl hbare⟩

theorem stealAlong_cases (h : p.Linked) {victims : List Nat} (hnodup : victims.Nodup) :
    (∃ v taken, (stealAlong victims p).2 = some (v, taken) ∧
        Yields p (some taken) (stealAlong victims p).1) ∨
      ((stealAlong victims p).2 = none ∧ Missed p (stealAlong victims p).1 victims) := by
  -- induction on the row of victims; each is tried in the pool that the earlier ones left
  induction victims generalizing p with
  | nil => exact .inr ⟨rfl, .refl p⟩
  | cons v rest ih =>
      obtain ⟨hv, hrest⟩ := List.nodup_cons.1 hnodup
      rw [stealAlong]
      rcases stealFrom_cases h v with ⟨taken, hr, hyields⟩ | ⟨hr, hfirst⟩
      · cases hsteal : p.stealFrom v with
        | mk m found =>
            rw [hsteal] at hr hyields
            cases hr
            exact .inl ⟨v, taken, rfl, hyields⟩
      · cases hsteal : p.stealFrom v with
        | mk m found =>
            rw [hsteal] at hr hfirst
            cases hr
            dsimp only at hfirst ⊢
            rcases ih (hfirst.quiet.linked h) hrest with ⟨u, taken, hr, hyields⟩ | ⟨hr, hmissed⟩
            · exact .inl ⟨u, taken, hr, hyields.after hfirst.quiet⟩
            · exact .inr ⟨hr, hfirst.cons hv hmissed⟩

/-- The victims of a round are all other workers. -/
theorem mem_victims {w start n : Nat} :
    v ∈ (cyclicFrom start n).filter (· ≠ w) ↔ v < n ∧ v ≠ w := by
  rw [List.mem_filter, mem_cyclicFrom, decide_eq_true_eq]

/-- A round by a worker yields a task, or it has tried every other worker once. -/
theorem stealRound_cases (h : p.Linked) {w : Nat} (hw : w < p.workerCount) (cursor : StealCursor) :
    (∃ taken, (p.stealRound w cursor).2.2 = some taken ∧
        Yields p (some taken) (p.stealRound w cursor).1) ∨
      ((p.stealRound w cursor).2.2 = none ∧
        ∃ victims, (∀ v, v ∈ victims ↔ v < p.workerCount ∧ v ≠ w) ∧
          Missed p (p.stealRound w cursor).1 victims) := by
  rw [stealRound]
  dsimp only
  by_cases hn : p.workerCount < 2
  · rw [if_pos hn]
    -- a worker on its own has nobody to steal from
    refine .inr ⟨rfl, [], fun v => ?_, .refl p⟩
    simp only [List.not_mem_nil, false_iff]
    omega
  · rw [if_neg hn]
    have hnodup : ((cyclicFrom (firstVictim w p.workerCount cursor) p.workerCount).filter
        (· ≠ w)).Nodup := (nodup_cyclicFrom _ _).filter _
    have hcases := stealAlong_cases h hnodup
    cases hsteal : stealAlong ((cyclicFrom (firstVictim w p.workerCount cursor)
        p.workerCount).filter (· ≠ w)) p with
    | mk m found =>
        rw [hsteal] at hcases
        rcases hcases with ⟨v, taken, hr, hyields⟩ | ⟨hr, hmissed⟩
        · cases hr
          exact .inl ⟨taken, rfl, hyields⟩
        · cases hr
          exact .inr ⟨rfl, _, fun v => mem_victims, hmissed⟩

/-! ### The whole search -/

theorem seat_of_lt (hk : k < p.workerCount) : ∃ s, p.seats[k]? = some s :=
  ⟨_, List.getElem?_eq_getElem hk⟩

theorem lt_of_activeAt (hk : p.activeAt k = some i) : k < p.workerCount := by
  obtain ⟨s, hs, -⟩ := Option.bind_eq_some_iff.1 hk
  exact (List.getElem?_eq_some_iff.1 hs).1

/-- If no group waits and every drained one is empty, no group holds a task. -/
theorem groupTasks_eq_nil (h : p.Linked) (hstaged : ∀ i, p.stageAt i ≠ some .staged)
    (hbare : ∀ k, p.BareAt k) : p.groupTasks = [] := by
  apply List.flatMap_eq_nil_iff.2
  intro g hg
  rcases Arena.get?_or_of_mem_values h.beyond hg with ⟨i, hi⟩ | ⟨-, hnil⟩
  · -- each stage gives its own reason why the group is empty
    cases hstage : g.stage with
    | new => exact (h.consistent i g hi).empty_of_new hstage
    | staged => exact absurd ((stageAt_of_get? hi).trans (congrArg some hstage)) (hstaged i)
    | active w =>
        have hactive : p.activeAt w.index = some i :=
          (h.active w.index i).2 ⟨w, (stageAt_of_get? hi).trans (congrArg some hstage), rfl⟩
        exact hbare w.index i g hactive hi
  · -- a group past the slots that can be named was never given to
    exact hnil

/-- The part of a search that comes after a worker's own queues. -/
def takeAfield (p : Pool) (w : Location) (cursor : StealCursor) :
    Pool × StealCursor × Option Taken :=
  match p.takeActive w with
  | (q, some taken) => (q, cursor, some taken)
  | (q, none) =>
    match adoptStaged w q.staging.size q with
    | (q', some taken) => (q', cursor, some taken)
    | (q', none) => q'.stealRound w.index cursor

theorem take_of_found {lane : Levels} {t : TaskHandle} {level : Nat} {cursor : StealCursor}
    (hseat : p.seats[w.index]? = some s)
    (hremove : s.lane.remove .tail = (lane, some (t, level))) :
    p.take w cursor =
      (p.setSeat w.index { s with lane := lane }, { cursor with level := level },
        some { task := t, source := .own level }) := by
  rw [take, show p.seat? w = some s from hseat]
  simp only [hremove]

theorem take_of_empty {lane : Levels} {cursor : StealCursor} (hseat : p.seats[w.index]? = some s)
    (hremove : s.lane.remove .tail = (lane, none)) :
    p.take w cursor =
      (p.setSeat w.index { s with lane := lane, available := false }).takeAfield w cursor := by
  rw [take, show p.seat? w = some s from hseat]
  simp only [hremove]
  rfl

/-- Beyond its own queues a worker finds a task, or no group holds one and every other worker has
been tried. -/
theorem takeAfield_cases (h : p.Linked) (hw : w.index < p.workerCount) (cursor : StealCursor) :
    (∃ taken, (p.takeAfield w cursor).2.2 = some taken ∧
        Yields p (some taken) (p.takeAfield w cursor).1) ∨
      ((p.takeAfield w cursor).2.2 = none ∧ Quiet p (p.takeAfield w cursor).1 ∧
        (p.takeAfield w cursor).1.guard w.index = p.guard w.index ∧
        (∀ v, v ≠ w.index → Withstood p (p.takeAfield w cursor).1 v) ∧
        (p.takeAfield w cursor).1.groupTasks = []) := by
  rw [takeAfield]
  -- three sources in turn: the group at the seat, the groups that wait, the other workers
  rcases takeActive_cases h w with ⟨taken, hr, hmove⟩ | ⟨hr, hquiet, hfree, hsame⟩
  · cases htake : p.takeActive w with
    | mk q found =>
        rw [htake] at hr hmove
        cases hr
        exact .inl ⟨taken, rfl, .of_move hmove⟩
  · cases htake : p.takeActive w with
    | mk q found =>
        rw [htake] at hr hquiet hfree hsame
        cases hr
        dsimp only at hquiet hfree hsame ⊢
        have hq := hquiet.linked h
        have hwq : w.index < q.workerCount := hquiet.workerCount.symm ▸ hw
        obtain ⟨s, hseat⟩ := seat_of_lt hwq
        rcases adoptStaged_cases hq hseat ((activeAt_of_seat hseat).symm.trans hfree) with
            ⟨taken, hr, hmove⟩ | ⟨hr, hstaged⟩
        · cases hadopt : adoptStaged w q.staging.size q with
          | mk m found =>
              rw [hadopt] at hr hmove
              cases hr
              exact .inl ⟨taken, rfl, (Yields.of_move hmove).after hquiet⟩
        · rw [hr]
          rcases stealRound_cases hq hwq cursor with
              ⟨taken, hr, hyields⟩ | ⟨hr, victims, hvictims, hmissed⟩
          · exact .inl ⟨taken, hr, hyields.after hquiet⟩
          · refine .inr ⟨hr, Relation.ReflTransGen.trans hquiet hmissed.quiet, ?_, ?_, ?_⟩
            · rw [hmissed.spared w.index (fun hmem => ((hvictims _).1 hmem).2 rfl), hsame]
            · intro v hv tasks n hguard
              rw [← hsame] at hguard
              have hlt : v < q.workerCount := by
                obtain ⟨x, hx, -⟩ := Option.map_eq_some_iff.1 hguard
                exact (List.getElem?_eq_some_iff.1 hx).1
              rw [← hquiet.maxRepels]
              exact hmissed.tried v ((hvictims v).2 ⟨hlt, hv⟩) tasks n hguard
            · -- the thief drains no group, and every other worker was a victim
              have hbare : ∀ k, q.BareAt k := by
                intro k i g hi
                by_cases hk : k = w.index
                · rw [hk, hfree] at hi
                  cases hi
                · exact hmissed.bare k ((hvictims k).2 ⟨lt_of_activeAt hi, hk⟩) i g hi
              rw [groupTasks, hmissed.groups]
              exact groupTasks_eq_nil hq hstaged hbare

/-- A worker that exists takes a task or has searched everywhere. -/
theorem take_cases (h : p.Linked) (hw : w.index < p.workerCount) (cursor : StealCursor) :
    (∃ taken, (p.take w cursor).2.2 = some taken ∧ Yields p (some taken) (p.take w cursor).1) ∨
      ((p.take w cursor).2.2 = none ∧ Barren p (p.take w cursor).1 w.index) := by
  obtain ⟨s, hseat⟩ := seat_of_lt hw
  cases hremove : s.lane.remove .tail with
  | mk lane found =>
      cases found with
      | some found =>
          rw [take_of_found hseat hremove]
          exact .inl ⟨_, rfl, .of_move (.removed hseat hremove rfl)⟩
      | none =>
          have hnil := Levels.tasks_eq_nil_of_remove hremove
          have hlane : lane.tasks = s.lane.tasks := Levels.tasks_remove_none hremove
          have hrest := Move.rested hseat hremove
          -- resting shows a thief nothing new, so the search is judged from `p`
          have hguard := guard_setSeat_same hseat { s with lane := lane, available := false }
            hlane rfl
          rw [take_of_empty hseat hremove]
          have hwm : w.index < (p.setSeat w.index
              { s with lane := lane, available := false }).workerCount := by
            rw [workerCount_setSeat]
            exact hw
          rcases takeAfield_cases (hrest.linked h) hwm cursor with
              ⟨taken, hr, hyields⟩ | ⟨hr, hquiet, hown, hothers, hgroups⟩
          · exact .inl ⟨taken, hr, hyields.after (.of_move hrest)⟩
          · have hmine : p.guard w.index = some ([], s.attempts) := by
              rw [guard_of_seat hseat, hnil]
            refine .inr ⟨hr, Relation.ReflTransGen.head hrest hquiet,
              ⟨s.attempts, hmine, hown.trans ((hguard _).trans hmine)⟩, fun v hv tasks n hmet => ?_,
              hgroups⟩
            exact hothers v hv tasks n ((hguard v).trans hmet)

/-- A take changes nothing for a worker that does not exist. -/
theorem take_of_le (hw : p.workerCount ≤ w.index) (cursor : StealCursor) :
    p.take w cursor = (p, cursor, none) := by
  rw [take, show p.seat? w = none from List.getElem?_eq_none hw]

theorem take_yields (h : p.Linked) (w : Location) (cursor : StealCursor) :
    Yields p (p.take w cursor).2.2 (p.take w cursor).1 := by
  by_cases hw : w.index < p.workerCount
  · rcases take_cases h hw cursor with ⟨taken, hr, hyields⟩ | ⟨hr, hbarren⟩
    · rw [hr]
      exact hyields
    · rw [hr]
      exact hbarren.quiet
  · rw [take_of_le (Nat.le_of_not_lt hw)]
    exact .refl p

end Pool

end WorkStealing
