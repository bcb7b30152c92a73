import WorkStealing.Proofs.Pool.Counts
import WorkStealing.Proofs.Pool.SearchOrder

/-!
# Repelled steals

A worker with tasks repels a number of thieves before it gives one up, and counts them. The count
starts again with a give that lands at a worker who is not available, that is, whose own search has
found nothing in its queues since the last give before (`isAvailable_run`); a worker whose queues
were emptied without its noticing goes on counting (`give_keeps_attempts`). Between two such gives
the count is the number of thieves that came while there were tasks, up to the limit
(`attempts_run`), and exactly those below the limit are repelled (`repelling_restarts`).
-/

namespace WorkStealing

/-- Whether a give went into the own queues of a worker. -/
def landsAt (w : Location) : Except SchedError Placement → Bool
  | .ok (.worker v _) => v = w
  | _ => false

namespace Pool

/-- Whether the own queues of a worker hold anything. -/
def holds (p : Pool) (w : Location) : Bool := (p.seat? w).any fun s => !s.lane.isEmpty

/-- Whether a call makes a worker available or lets it rest: a give that lands in its queues, or a
search of its own that finds them empty. -/
def sign (p : Pool) (w : Location) : Call → Option Bool
  | .give giver t hint => if landsAt w (p.give giver t hint).2 then some true else none
  | .take u _ => if u = w ∧ w.index < p.workerCount ∧ p.holds w = false then some false else none
  | _ => none

/-- The signs in a row of calls. -/
def signs (w : Location) : Pool → List Call → List Bool
  | _, [] => []
  | p, call :: rest => (p.sign w call).toList ++ signs w (p.perform call) rest

/-- Whether a call lets a worker's count of attempts start again. -/
def resets (w : Location) (p : Pool) (call : Call) : Bool :=
  p.sign w call = some true && !p.isAvailable w

/-- Whether a call is an attempt to steal from a worker's own queues, which hold something. -/
def raids (w : Location) (p : Pool) : Call → Bool
  | .take u cursor => u.index < p.workerCount && (p.visited u cursor).contains w.index && p.holds w
  | _ => false

/-- How many calls of a row are such as a test asks for. -/
def countAlong (test : Pool → Call → Bool) : Pool → List Call → Nat
  | _, [] => 0
  | p, call :: rest => (if test p call then 1 else 0) + countAlong test (p.perform call) rest

/-- An attempt that leaves the worker's own queues as they were and is counted. -/
def Repelled (p : Pool) (w : Location) (call : Call) : Prop :=
  (p.perform call).levelsAt w.index = p.levelsAt w.index ∧
    (p.perform call).stealAttempts w = p.stealAttempts w + 1

/-- Whether the worker at a position counts as available. -/
def availableAt (p : Pool) (k : Nat) : Bool := ((p.seats[k]?).map Seat.available).getD false

variable {p q : Pool} {k : Nat} {s s' : Seat} {w u : Location} {i : ArenaIndex} {f : Find}
  {cursor : StealCursor}

theorem availableAt_of_seat (h : p.seats[k]? = some s) : p.availableAt k = s.available := by
  rw [availableAt, h, Option.map_some, Option.getD_some]

theorem availableAt_setSeat (h : p.seats[k]? = some s) (s' : Seat) (j : Nat) :
    (p.setSeat k s').availableAt j = if j = k then s'.available else p.availableAt j := by
  have hlt := (List.getElem?_eq_some_iff.1 h).1
  simp only [availableAt, setSeat]
  by_cases hj : j = k
  · rw [if_pos hj, hj, List.getElem?_set_self hlt, Option.map_some, Option.getD_some]
  · rw [if_neg hj, List.getElem?_set_ne (Ne.symm hj)]

theorem availableAt_setSeat_same (h : p.seats[k]? = some s) (hs : s'.available = s.available) :
    (p.setSeat k s').availableAt = p.availableAt := by
  funext j
  rw [availableAt_setSeat h]
  by_cases hj : j = k
  · rw [if_pos hj, hs, hj, availableAt_of_seat h]
  · rw [if_neg hj]

theorem holds_of_seat (h : p.seats[w.index]? = some s) : p.holds w = !s.lane.isEmpty := by
  rw [holds, show p.seat? w = some s from h]
  rfl

/-! ### Who is available -/

theorem availableAt_takeActive (p : Pool) (w : Location) :
    (p.takeActive w).1.availableAt = p.availableAt := by
  rw [takeActive]
  cases hseat : p.seat? w with
  | none => rfl
  | some s =>
      dsimp only
      cases s.active with
      | none => rfl
      | some i =>
          dsimp only
          cases p.groups.get? i with
          | none => exact availableAt_setSeat_same hseat rfl
          | some g =>
              dsimp only
              cases g.drain w with
              | mk g' found =>
                  cases found with
                  | some t => rfl
                  | none => exact availableAt_setSeat_same (p := p.setGroup i g') hseat rfl

theorem availableAt_adoptAt (p : Pool) (w : Location) (i : ArenaIndex) :
    (p.adoptAt w i).1.availableAt = p.availableAt := by
  rw [adoptAt]
  cases p.groups.get? i with
  | none => rfl
  | some g =>
      cases hseat : p.seat? w with
      | none => rfl
      | some s =>
          dsimp only
          cases g.adopt w with
          | error e => rfl
          | ok adopted =>
              dsimp only
              cases adopted.drain w with
              | mk g' found =>
                  cases found with
                  | some t => exact availableAt_setSeat_same (p := p.setGroup i g'.started) hseat rfl
                  | none => exact availableAt_setSeat_same (p := p.setGroup i g') hseat rfl

theorem availableAt_adoptStaged (w : Location) (budget : Nat) (p : Pool) :
    (adoptStaged w budget p).1.availableAt = p.availableAt := by
  induction budget generalizing p with
  | zero => rfl
  | succ budget ih =>
      rw [adoptStaged]
      cases p.staging.pop? w.index with
      | none => rfl
      | some popped =>
          obtain ⟨i, staging⟩ := popped
          have hadopt := availableAt_adoptAt { p with staging := staging } w i
          dsimp only
          cases hr : adoptAt { p with staging := staging } w i with
          | mk p' found =>
              rw [hr] at hadopt
              cases found with
              | some taken => exact hadopt
              | none => exact (ih p').trans hadopt

theorem availableAt_stealFromGroup (p : Pool) (v : Nat) (s : Seat) :
    (p.stealFromGroup v s).1.availableAt = p.availableAt := by
  rw [stealFromGroup]
  cases s.active with
  | none => rfl
  | some i =>
      dsimp only
      cases p.groups.get? i with
      | none => rfl
      | some g =>
          dsimp only
          cases g.steal with
          | mk g' found => cases found <;> rfl

theorem availableAt_stealFrom (p : Pool) (v : Nat) :
    (p.stealFrom v).1.availableAt = p.availableAt := by
  rw [stealFrom]
  cases hseat : p.seats[v]? with
  | none => rfl
  | some s =>
      dsimp only
      split
      · exact availableAt_stealFromGroup p v s
      · split
        · cases s.lane.remove .head with
          | mk lane found =>
              have hset : (p.setSeat v { s with lane := lane }).availableAt = p.availableAt :=
                availableAt_setSeat_same hseat rfl
              cases found with
              | some found => exact hset
              | none => exact (availableAt_stealFromGroup _ v _).trans hset
        · have hset : (p.setSeat v { s with attempts := s.attempts + 1 }).availableAt =
              p.availableAt := availableAt_setSeat_same hseat rfl
          exact (availableAt_stealFromGroup _ v _).trans hset

theorem availableAt_stealAlong (vs : List Nat) (p : Pool) :
    (stealAlong vs p).1.availableAt = p.availableAt := by
  induction vs generalizing p with
  | nil => rfl
  | cons v rest ih =>
      have hfirst := availableAt_stealFrom p v
      rw [stealAlong]
      cases hr : p.stealFrom v with
      | mk p' found =>
          rw [hr] at hfirst
          cases found with
          | some taken => exact hfirst
          | none => exact (ih p').trans hfirst

theorem availableAt_stealRound (p : Pool) (w : Nat) (cursor : StealCursor) :
    (p.stealRound w cursor).1.availableAt = p.availableAt := by
  rw [stealRound]
  dsimp only
  split
  · rfl
  · have halong := availableAt_stealAlong
      ((cyclicFrom (firstVictim w p.workerCount cursor) p.workerCount).filter (· ≠ w)) p
    split
    next p' v taken hr =>
      rw [hr] at halong
      exact halong
    next p' hr =>
      rw [hr] at halong
      exact halong

theorem availableAt_takeAfield (p : Pool) (w : Location) (cursor : StealCursor) :
    (p.takeAfield w cursor).1.availableAt = p.availableAt := by
  have hactive := availableAt_takeActive p w
  rw [takeAfield]
  cases hr : p.takeActive w with
  | mk q found =>
      rw [hr] at hactive
      cases found with
      | some taken => exact hactive
      | none =>
          have hstaged := (availableAt_adoptStaged w q.staging.size q).trans hactive
          dsimp only
          cases hr' : adoptStaged w q.staging.size q with
          | mk q' found =>
              rw [hr'] at hstaged
              cases found with
              | some taken => exact hstaged
              | none => exact (availableAt_stealRound q' w.index cursor).trans hstaged

/-- A search makes its own worker rest if that has nothing queued, and leaves all others as they
are. -/
theorem isAvailable_take (p : Pool) (u : Location) (cursor : StealCursor) (w : Location) :
    (p.take u cursor).1.isAvailable w =
      if u = w ∧ w.index < p.workerCount ∧ p.holds w = false then false else p.isAvailable w := by
  by_cases hu : u.index < p.workerCount
  · obtain ⟨s, hseat⟩ := seat_of_lt hu
    cases hremove : s.lane.remove .tail with
    | mk lane found =>
        cases found with
        | some found =>
            obtain ⟨t, level⟩ := found
            have hsame : (p.setSeat u.index { s with lane := lane }).availableAt = p.availableAt :=
              availableAt_setSeat_same hseat rfl
            rw [take_of_found hseat hremove, if_neg]
            · exact congrFun hsame w.index
            · rintro ⟨rfl, -, hbare⟩
              rw [holds_of_seat hseat, Bool.not_eq_false', Levels.isEmpty_iff,
                ← s.lane.remove_eq_none_iff .tail, hremove] at hbare
              cases hbare
        | none =>
            have hafter := availableAt_takeAfield
              (p.setSeat u.index { s with lane := lane, available := false }) u cursor
            have hbare : p.holds u = false := by
              rw [holds_of_seat hseat, Bool.not_eq_false', Levels.isEmpty_iff]
              exact Levels.tasks_eq_nil_of_remove hremove
            have hset := availableAt_setSeat hseat
              { s with lane := lane, available := false } w.index
            rw [take_of_empty hseat hremove]
            refine (congrFun hafter w.index).trans (hset.trans ?_)
            by_cases huw : u = w
            · subst huw
              rw [if_pos rfl, if_pos ⟨rfl, hu, hbare⟩]
            · rw [if_neg (fun h => huw (Location.index_injective h.symm)), if_neg (fun h => huw h.1)]
              rfl
  · rw [take_of_le (Nat.le_of_not_lt hu), if_neg]
    rintro ⟨rfl, hlt, -⟩
    exact hu hlt

/-! ### Gives -/

/-- A give changes the seat of the worker at whom it lands, or none. -/
theorem give_seats (p : Pool) (giver : Giver) (t : TaskHandle) (hint : Hint) :
    (∃ v level s lane, (p.give giver t hint).2 = .ok (.worker v level) ∧
        p.seats[v.index]? = some s ∧
        (p.give giver t hint).1.seats =
          (p.setSeat v.index
            { s with
              lane := lane, available := true,
              attempts := if s.available then s.attempts else 0 }).seats) ∨
      ((∀ w, landsAt w (p.give giver t hint).2 = false) ∧
        (p.give giver t hint).1.seats = p.seats) := by
  have hworker : p.give giver t hint = p.giveToWorker giver t hint ∨
      ∃ key i g, p.give giver t hint = p.giveToGroup key i g t := by
    unfold Pool.give
    dsimp only
    split
    next key i g hfound => exact .inr ⟨key, i, g, rfl⟩
    next => exact .inl rfl
  rcases hworker with hgive | ⟨key, i, g, hgive⟩
  · rw [hgive, giveToWorker]
    dsimp only
    cases hseat : p.seat? (p.target giver.location hint) with
    | none => exact .inr ⟨fun _ => rfl, rfl⟩
    | some s =>
        dsimp only
        split
        next => exact .inr ⟨fun _ => rfl, rfl⟩
        next used lane hput => exact .inl ⟨_, used, s, lane, rfl, hseat, rfl⟩
  · rw [hgive, giveToGroup]
    dsimp only
    refine .inr ⟨fun w => ?_, rfl⟩
    cases (g.insertWith t p.staging fun s => s.push key i).2.2 <;> rfl

theorem availableAt_congr (h : q.seats = p.seats) : q.availableAt = p.availableAt := by
  funext j
  rw [availableAt, h, availableAt]

theorem attemptsAt_congr (h : q.seats = p.seats) : q.attemptsAt = p.attemptsAt := by
  funext j
  rw [attemptsAt, h, attemptsAt]

/-- A give that lands at a worker makes it available; its count starts again if it was not. -/
theorem give_marks (p : Pool) (giver : Giver) (t : TaskHandle) (hint : Hint) (w : Location) :
    (p.give giver t hint).1.isAvailable w =
        (if landsAt w (p.give giver t hint).2 then true else p.isAvailable w) ∧
      (p.give giver t hint).1.stealAttempts w =
        (if landsAt w (p.give giver t hint).2 then
          if p.isAvailable w then p.stealAttempts w else 0
        else p.stealAttempts w) := by
  rcases give_seats p giver t hint with ⟨v, level, s, lane, hok, hseat, hseats⟩ | ⟨hnone, hseats⟩
  · have havailable := congrFun (availableAt_congr hseats) w.index
    have hattempts := congrFun (attemptsAt_congr hseats) w.index
    rw [availableAt_setSeat hseat] at havailable
    rw [attemptsAt_setSeat hseat] at hattempts
    by_cases hv : v = w
    · subst hv
      have hs : p.isAvailable v = s.available := availableAt_of_seat hseat
      have hn : p.stealAttempts v = s.attempts := attemptsAt_of_seat hseat
      rw [if_pos rfl] at havailable hattempts
      rw [hok, hs, hn]
      simp only [landsAt, decide_true, if_true]
      exact ⟨havailable, hattempts⟩
    · have hindex : w.index ≠ v.index := fun h => hv (Location.index_injective h.symm)
      rw [if_neg hindex] at havailable hattempts
      rw [hok]
      simp only [landsAt, hv, decide_false, Bool.false_eq_true, if_false]
      exact ⟨havailable, hattempts⟩
  · rw [hnone w]
    exact ⟨congrFun (availableAt_congr hseats) w.index, congrFun (attemptsAt_congr hseats) w.index⟩

/-! ### Any call -/

theorem seats_createGroup (p : Pool) (key : AffinityKey) :
    (p.createGroup key).1.seats = p.seats := by
  rw [createGroup]
  cases p.indexOf? key <;> rfl

theorem seats_retireGroup (p : Pool) (key : AffinityKey) :
    (p.retireGroup key).1.seats = p.seats := by
  rw [retireGroup]
  cases p.indexOf? key with
  | none => rfl
  | some i =>
      dsimp only
      cases p.groups.get? i with
      | none => rfl
      | some g =>
          dsimp only
          split <;> rfl

theorem seats_groupTaskDone (p : Pool) (i : ArenaIndex) : (p.groupTaskDone i).seats = p.seats := by
  rw [groupTaskDone]
  cases p.groups.get? i <;> rfl

theorem isAvailable_perform (p : Pool) (w : Location) (call : Call) :
    (p.perform call).isAvailable w = (p.sign w call).getD (p.isAvailable w) := by
  cases call with
  | give giver t hint =>
      refine (give_marks p giver t hint w).1.trans ?_
      rw [sign]
      split <;> rfl
  | take u cursor =>
      refine (isAvailable_take p u cursor w).trans ?_
      rw [sign]
      split <;> rfl
  | createGroup key => exact congrFun (availableAt_congr (p.seats_createGroup key)) w.index
  | retireGroup key => exact congrFun (availableAt_congr (p.seats_retireGroup key)) w.index
  | groupTaskDone i => exact congrFun (availableAt_congr (p.seats_groupTaskDone i)) w.index

/-- The last sign in a row of calls says whether a worker is available after it. -/
theorem isAvailable_run (p : Pool) (w : Location) (calls : List Call) :
    (p.run calls).isAvailable w = (p.signs w calls).getLast?.getD (p.isAvailable w) := by
  induction calls generalizing p with
  | nil => rfl
  | cons call rest ih =>
      refine (ih (p.perform call)).trans ?_
      rw [isAvailable_perform, signs, List.getLast?_append]
      cases (signs w (p.perform call) rest).getLast? with
      | some b => rfl
      | none => cases p.sign w call <;> rfl

theorem repelsAt_eq (p : Pool) (w : Location) :
    p.repelsAt w.index = (p.holds w && decide (p.stealAttempts w < p.maxRepels)) := by
  rw [repelsAt]
  cases hseat : p.seats[w.index]? with
  | none =>
      rw [levelsAt, hseat, holds, show p.seat? w = none from hseat]
      rfl
  | some s =>
      rw [any_levels_iff hseat, holds_of_seat hseat]
      rfl

/-- What a call does to a worker's count of attempts. -/
theorem stealAttempts_perform (h : p.Linked) (ho : p.Owned) (w : Location) (call : Call) :
    (p.perform call).stealAttempts w =
      if p.resets w call then 0
      else p.stealAttempts w +
        if p.raids w call = true ∧ p.stealAttempts w < p.maxRepels then 1 else 0 := by
  cases call with
  | give giver t hint =>
      refine (give_marks p giver t hint w).2.trans ?_
      rw [resets, sign]
      cases landsAt w (p.give giver t hint).2 <;> cases p.isAvailable w <;> simp [raids]
  | take u cursor =>
      have hreset : p.resets w (.take u cursor) = false := by
        rw [resets, sign]
        split <;> simp
      rw [hreset, if_neg Bool.false_ne_true]
      by_cases hu : u.index < p.workerCount
      · have hcount := (take_ordered_of_linked h ho hu cursor).attempts w.index
        have hiff : (w.index ∈ p.visited u cursor ∧ p.repelsAt w.index = true) ↔
            (p.raids w (.take u cursor) = true ∧ p.stealAttempts w < p.maxRepels) := by
          simp [repelsAt_eq, raids, hu, and_assoc]
        simp only [hiff] at hcount
        exact hcount
      · rw [perform, take_of_le (Nat.le_of_not_lt hu)]
        simp [raids, hu]
  | createGroup key =>
      have hsame : (p.perform (.createGroup key)).stealAttempts w = p.stealAttempts w :=
        congrFun (attemptsAt_congr (p.seats_createGroup key)) w.index
      rw [hsame]
      simp [resets, sign, raids]
  | retireGroup key =>
      have hsame : (p.perform (.retireGroup key)).stealAttempts w = p.stealAttempts w :=
        congrFun (attemptsAt_congr (p.seats_retireGroup key)) w.index
      rw [hsame]
      simp [resets, sign, raids]
  | groupTaskDone i =>
      have hsame : (p.perform (.groupTaskDone i)).stealAttempts w = p.stealAttempts w :=
        congrFun (attemptsAt_congr (p.seats_groupTaskDone i)) w.index
      rw [hsame]
      simp [resets, sign, raids]

theorem linked_perform (h : p.Linked) (call : Call) : (p.perform call).Linked := linked_run h [call]

theorem owned_perform (h : p.Linked) (ho : p.Owned) (call : Call) : (p.perform call).Owned :=
  (perform_induction h ho (fun _ _ _ hl hm hq => hm.owned hl hq) call).2

theorem owned_of_run (h : p.Linked) (ho : p.Owned) (calls : List Call) : (p.run calls).Owned :=
  (run_induction h ho (fun _ _ _ hl hm hq => hm.owned hl hq) calls).2

theorem maxRepels_perform (h : p.Linked) (call : Call) :
    (p.perform call).maxRepels = p.maxRepels := maxRepels_run h [call]

/-- Without a reset the count is the number of thieves that came, up to the limit. -/
theorem attempts_run (h : p.Linked) (ho : p.Owned) (hle : p.stealAttempts w ≤ p.maxRepels)
    (calls : List Call) (hnone : countAlong (resets w) p calls = 0) :
    (p.run calls).stealAttempts w =
      min p.maxRepels (p.stealAttempts w + countAlong (raids w) p calls) := by
  induction calls generalizing p with
  | nil =>
      show p.stealAttempts w = min p.maxRepels (p.stealAttempts w + 0)
      omega
  | cons call rest ih =>
      rw [countAlong] at hnone
      have hstep := stealAttempts_perform h ho w call
      have hreset : p.resets w call = false := by
        cases hr : p.resets w call with
        | false => rfl
        | true => simp [hr] at hnone
      have hmax := maxRepels_perform h call
      rw [hreset, if_neg Bool.false_ne_true] at hstep
      rw [countAlong]
      have hle' : (p.perform call).stealAttempts w ≤ (p.perform call).maxRepels := by
        rw [hstep, hmax]
        split <;> omega
      have hrest := ih (linked_perform h call) (owned_perform h ho call) hle' (by omega)
      rw [hmax, hstep] at hrest
      refine hrest.trans ?_
      cases hraid : p.raids w call with
      | true =>
          simp only [true_and, if_true]
          split <;> omega
      | false =>
          simp only [Bool.false_eq_true, false_and, if_false]
          omega

/-- No worker repels more thieves than it may. -/
theorem stealAttempts_le (h : p.Linked) (ho : p.Owned) (hle : p.stealAttempts w ≤ p.maxRepels)
    (calls : List Call) : (p.run calls).stealAttempts w ≤ p.maxRepels := by
  induction calls generalizing p with
  | nil => exact hle
  | cons call rest ih =>
      have hmax := maxRepels_perform h call
      have hstep := stealAttempts_perform h ho w call
      rw [← hmax]
      apply ih (linked_perform h call) (owned_perform h ho call)
      rw [hstep, hmax]
      split
      · exact Nat.zero_le _
      · split <;> omega

/-! ### Who is repelled -/

/-- Only a victim that has repelled as many thieves as it may gives up a task of its own. -/
theorem place_of_loot {v level : Nat} (h : p.lootFind? v = some f) (hf : f.place = .level k level) :
    k = v ∧ p.maxRepels ≤ p.attemptsAt v := by
  rcases Option.or_eq_some_iff.1 h with hown | ⟨-, hgroup⟩
  · split at hown
    next hmax =>
      obtain ⟨found, -, rfl⟩ := Option.map_eq_some_iff.1 hown
      cases hf
      exact ⟨rfl, hmax⟩
    next => cases hown
  · obtain ⟨i, -, hi⟩ := Option.bind_eq_some_iff.1 hgroup
    obtain ⟨t, -, rfl⟩ := Option.map_eq_some_iff.1 hi
    cases hf

/-- An attempt on a worker that may repel takes nothing from the worker's own queues. -/
theorem levelsAt_of_raids (h : p.Linked) (ho : p.Owned) (hraid : p.raids w (.take u cursor) = true)
    (hlt : p.stealAttempts w < p.maxRepels) :
    (p.take u cursor).1.levelsAt w.index = p.levelsAt w.index := by
  simp only [raids, Bool.and_eq_true, decide_eq_true_eq, List.contains_iff_mem] at hraid
  obtain ⟨⟨hu, hvisited⟩, -⟩ := hraid
  have hremoved := (take_ordered_of_linked h ho hu cursor).removed
  -- who comes to a victim has found nothing at home
  have hhome : p.homeFind? u = none := by
    cases hr : p.homeFind? u with
    | none => rfl
    | some f => simp [visited, hr] at hvisited
  rw [find?_of_home hhome] at hremoved
  cases hraided : p.raid? (p.victims u cursor) with
  | none =>
      rw [hraided] at hremoved
      exact congrFun (levelsAt_congr hremoved) w.index
  | some raided =>
      obtain ⟨v, f⟩ := raided
      rw [hraided] at hremoved
      obtain ⟨d, d', -, hswaps⟩ := hremoved
      apply List.ext_getElem?
      intro level
      apply hswaps.others (.level w.index level)
      intro hplace
      obtain ⟨rfl, hmax⟩ := place_of_loot (loot_of_raid? hraided) hplace.symm
      exact absurd hlt (Nat.not_lt.2 hmax)

theorem repelled_iff (h : p.Linked) (ho : p.Owned) (hraid : p.raids w (.take u cursor) = true) :
    p.Repelled w (.take u cursor) ↔ p.stealAttempts w < p.maxRepels := by
  have hstep := stealAttempts_perform h ho w (.take u cursor)
  have hreset : p.resets w (.take u cursor) = false := by
    rw [resets, sign]
    split <;> simp
  rw [hreset, if_neg Bool.false_ne_true] at hstep
  constructor
  · rintro ⟨-, hone⟩
    by_contra hge
    rw [if_neg (fun h => hge h.2)] at hstep
    omega
  · intro hlt
    rw [if_pos ⟨hraid, hlt⟩] at hstep
    exact ⟨levelsAt_of_raids h ho hraid hlt, hstep⟩

theorem seat_new {c : SchedulerConfig} {auto : Nat} (h : (new c auto).seats[k]? = some s) :
    s.available = false ∧ s.attempts = 0 := by
  rw [List.eq_of_mem_replicate (List.mem_of_getElem? h)]
  exact ⟨rfl, rfl⟩

theorem isAvailable_new (c : SchedulerConfig) (auto : Nat) (w : Location) :
    (new c auto).isAvailable w = false := by
  rw [isAvailable]
  cases hseat : (new c auto).seat? w with
  | none => rfl
  | some s => exact (seat_new hseat).1

theorem stealAttempts_new (c : SchedulerConfig) (auto : Nat) (w : Location) :
    (new c auto).stealAttempts w = 0 := by
  rw [stealAttempts]
  cases hseat : (new c auto).seat? w with
  | none => rfl
  | some s => exact (seat_new hseat).2

/-- Repelling restarts with new work that a worker waits for. After any run a worker is available
exactly if a give has landed in its own queues since its own search last found them empty, and it
holds nothing while it is not; it never counts more attempts than it may repel. A give that lands in
its queues leaves the count at zero if it was not available, whoever had emptied them, and as it was
otherwise; in the first case exactly as many of the attempts that follow on its own queues are
repelled, up to the next such give, as the configuration says. -/
theorem repelling_restarts (c : SchedulerConfig) (auto : Nat) (calls : List Call) (w : Location) :
    let p := (new c auto).run calls
    p.isAvailable w = ((new c auto).signs w calls).getLast?.getD false ∧
      (p.isAvailable w = false → p.holds w = false) ∧
      p.stealAttempts w ≤ c.maxStealRepels.toNat ∧
      ∀ giver t hint, landsAt w (p.give giver t hint).2 = true →
        let q := (p.give giver t hint).1
        q.stealAttempts w = (if p.isAvailable w then p.stealAttempts w else 0) ∧
          (p.isAvailable w = false → ∀ more, countAlong (resets w) q more = 0 → ∀ u cursor,
            (q.run more).raids w (.take u cursor) = true →
              ((q.run more).Repelled w (.take u cursor) ↔
                countAlong (raids w) q more < c.maxStealRepels.toNat)) := by
  intro p
  have hnew := linked_new c auto
  have hl : p.Linked := linked_run hnew calls
  have ho : p.Owned := owned_run c auto calls
  have hmax : p.maxRepels = c.maxStealRepels.toNat := maxRepels_run hnew calls
  have hzero := stealAttempts_new c auto w
  refine ⟨?_, ?_, ?_, ?_⟩
  · have hrun := isAvailable_run (new c auto) w calls
    rw [isAvailable_new] at hrun
    exact hrun
  · intro hrest
    have hrested : p.Rested := (rested_new c auto).run hnew calls
    cases hseat : p.seats[w.index]? with
    | none => rw [holds, show p.seat? w = none from hseat]; rfl
    | some s =>
        have havailable : s.available = false := (availableAt_of_seat hseat).symm.trans hrest
        rw [holds_of_seat hseat, Bool.not_eq_false', Levels.isEmpty_iff]
        exact hrested w.index s hseat (.inl havailable)
  · rw [← hmax, show p.maxRepels = (new c auto).maxRepels from maxRepels_run hnew calls]
    exact stealAttempts_le hnew (owned_run c auto []) (by omega) calls
  · intro giver t hint hlands q
    have hcount : q.stealAttempts w = if p.isAvailable w then p.stealAttempts w else 0 := by
      have hmarks := (give_marks p giver t hint w).2
      rw [hlands, if_pos rfl] at hmarks
      exact hmarks
    refine ⟨hcount, ?_⟩
    intro hrest more hnone u cursor hraid
    have hq : q.Linked := linked_perform hl (.give giver t hint)
    have hoq : q.Owned := owned_perform hl ho (.give giver t hint)
    have hqmax : q.maxRepels = c.maxStealRepels.toNat :=
      (maxRepels_perform hl (.give giver t hint)).trans hmax
    rw [hrest, if_neg Bool.false_ne_true] at hcount
    have hrun := attempts_run hq hoq (by omega) more hnone
    rw [repelled_iff (linked_run hq more) (owned_of_run hq hoq more) hraid, hrun,
      maxRepels_run hq more, hcount, hqmax]
    omega

/-- The first give to a new pool lands with a worker that is not available, which then repels one
thief and not a second. -/
theorem repelling_restarts_first :
    let c : SchedulerConfig := { workers := 2, maxStealRepels := 1 }
    let q := ((new c 1).give (.owner ⟨0⟩) ⟨1⟩ {}).1
    let theft : Call := .take ⟨1⟩ {}
    (landsAt ⟨0⟩ ((new c 1).give (.owner ⟨0⟩) ⟨1⟩ {}).2 = true ∧
        (new c 1).isAvailable ⟨0⟩ = false ∧ countAlong (resets ⟨0⟩) q [theft] = 0 ∧
        q.raids ⟨0⟩ theft = true ∧ (q.run [theft]).raids ⟨0⟩ theft = true) ∧
      q.Repelled ⟨0⟩ theft ∧ ¬ (q.run [theft]).Repelled ⟨0⟩ theft := by
  intro c q theft
  have hlands : landsAt ⟨0⟩ ((new c 1).give (.owner ⟨0⟩) ⟨1⟩ {}).2 = true := by decide +kernel
  have hrest : (new c 1).isAvailable ⟨0⟩ = false := by decide +kernel
  have hnone : countAlong (resets ⟨0⟩) q [theft] = 0 := by decide +kernel
  have hfirst : q.raids ⟨0⟩ theft = true := by decide +kernel
  have hsecond : (q.run [theft]).raids ⟨0⟩ theft = true := by decide +kernel
  obtain ⟨-, hrestart⟩ := (repelling_restarts c 1 [] ⟨0⟩).2.2.2 (.owner ⟨0⟩) ⟨1⟩ {} hlands
  have hquiet := hrestart hrest [] rfl ⟨1⟩ {} hfirst
  have hspent := hrestart hrest [theft] hnone ⟨1⟩ {} hsecond
  refine ⟨⟨hlands, hrest, hnone, hfirst, hsecond⟩, ?_, ?_⟩
  · exact hquiet.2 (by decide +kernel)
  · intro hrepelled
    exact absurd (hspent.1 hrepelled) (by decide +kernel)

/-- A worker that has repelled a thief, and whose queues were then emptied without its noticing, by
the thief or by its own hand, is still available: a give that lands in its empty queues leaves the
count where it was. -/
theorem give_keeps_attempts :
    let p := (new { workers := 2, maxStealRepels := 1 } 1).run
      [.give (.owner ⟨0⟩) ⟨1⟩ {}, .take ⟨1⟩ {}]
    let byThief := p.run [.take ⟨1⟩ {}]
    let byOwner := p.run [.take ⟨0⟩ {}]
    (byThief.holds ⟨0⟩ = false ∧ landsAt ⟨0⟩ (byThief.give (.owner ⟨0⟩) ⟨2⟩ {}).2 = true ∧
        (byThief.give (.owner ⟨0⟩) ⟨2⟩ {}).1.stealAttempts ⟨0⟩ = 1) ∧
      byOwner.holds ⟨0⟩ = false ∧ landsAt ⟨0⟩ (byOwner.give (.owner ⟨0⟩) ⟨2⟩ {}).2 = true ∧
        (byOwner.give (.owner ⟨0⟩) ⟨2⟩ {}).1.stealAttempts ⟨0⟩ = 1 := by
  decide +kernel

end Pool

end WorkStealing
