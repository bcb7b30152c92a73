import WorkStealing.Proofs.Pool.Victims

/-!
# The order of a search

What a worker's search finds is said here without the pools that it goes through (`Pool.find?`): the
owner's end of its own lowest level that is not empty, else the newest task of the group that it
drains, else the newest task of the group at the head of the first slot of staging that is not empty,
from its own slot on, else what the first victim that has anything for it gives up, in cyclic order
from the victim that its cursor names.

`Pool.Ordered` adds what the search leaves behind: the deque that the task stood in is without it and
all other deques are as they were, every victim that it came to and that could still repel it has
done so once, and staging, the groups noted at seats and the cursor have followed. `take_ordered`
states it for every run.
-/

namespace WorkStealing

/-- One index leaves the head of its slot. -/
def Staging.Sheds (s : Staging) (i : ArenaIndex) (s' : Staging) : Prop :=
  ∃ k q r, s.slots[k]? = some q ∧ q.toList = i :: r.toList ∧ s' = s.setSlot k r (s.size - 1)

namespace Pool

/-- What a worker finds in its own queues. -/
def ownFind? (p : Pool) (w : Location) : Option Find := p.levelFind? w.index .tail .own

/-- What a worker finds in the group that it drains. -/
def activeFind? (p : Pool) (w : Location) : Option Find :=
  (p.activeAt w.index).bind fun i => p.groupFind? i .tail (.active i)

/-- What a worker finds in staging. -/
def stagedFind? (p : Pool) (w : Location) : Option Find :=
  (p.staging.foremost? w.index).bind fun i => p.groupFind? i .tail (.staged i)

/-- What a worker finds without stealing. -/
def homeFind? (p : Pool) (w : Location) : Option Find :=
  (p.ownFind? w).or ((p.activeFind? w).or (p.stagedFind? w))

/-- All other workers, in the order in which a thief goes round them. -/
def victims (p : Pool) (w : Location) (cursor : StealCursor) : List Nat :=
  (cyclicFrom (firstVictim w.index p.workerCount cursor) p.workerCount).filter (· ≠ w.index)

/-- What a search finds. -/
def find? (p : Pool) (w : Location) (cursor : StealCursor) : Option Find :=
  (p.homeFind? w).or ((p.raid? (p.victims w cursor)).map Prod.snd)

/-- The victims that a search comes to. -/
def visited (p : Pool) (w : Location) (cursor : StealCursor) : List Nat :=
  if (p.homeFind? w).isSome then [] else p.visits (p.victims w cursor)

/-- Whether neither a worker's own queues nor the group that it drains has a task for it. -/
def seeks (p : Pool) (w : Location) : Bool := (p.ownFind? w).isNone && (p.activeFind? w).isNone

/-- The group noted at a worker after its search. -/
def activeAfter (p : Pool) (w : Location) : Option ArenaIndex :=
  if p.seeks w then p.staging.foremost? w.index else p.activeAt w.index

/-- The cursor after a search: the level is that of the queue with a worker that the task came from,
and the victim is the one that gave it up, or the next one if there was a round in vain. -/
def cursorAfter (p : Pool) (w : Location) (cursor : StealCursor) : StealCursor :=
  { victim :=
      if (p.homeFind? w).isSome ∨ p.workerCount < 2 then cursor.victim
      else
        match p.raid? (p.victims w cursor) with
        | some (v, _) => some v
        | none =>
          some (nextVictim w.index p.workerCount (firstVictim w.index p.workerCount cursor))
    level := ((p.find? w cursor).bind fun f => f.place.level?).getD cursor.level }

/-- A search in the order of its sources, with all that it leaves behind. -/
structure Ordered (p : Pool) (w : Location) (cursor : StealCursor)
    (r : Pool × StealCursor × Option Taken) : Prop where
  taken : r.2.2 = (p.find? w cursor).map Find.taken
  removed : Removes p (p.find? w cursor) r.1
  moved : r.2.1 = p.cursorAfter w cursor
  /-- Each victim that the search came to and that could repel it has done so once. -/
  attempts : ∀ k, r.1.attemptsAt k =
    p.attemptsAt k + if k ∈ p.visited w cursor ∧ p.repelsAt k then 1 else 0
  repels : r.1.repels = p.repels + (p.visited w cursor).countP p.repelsAt
  /-- A worker that has nothing of its own adopts the group at the head of the first slot. -/
  adopted : ∀ i, p.seeks w → p.staging.foremost? w.index = some i →
    (p.stagedFind? w).isSome ∧ p.staging.Sheds i r.1.staging
  /-- Otherwise staging stays as it is. -/
  unadopted : p.seeks w = false ∨ p.staging.foremost? w.index = none → r.1.staging = p.staging
  active : ∀ k, r.1.activeAt k = if k = w.index then p.activeAfter w else p.activeAt k

variable {p q m : Pool} {k v : Nat} {s : Seat} {i : ArenaIndex} {g : AffinityGroup} {w : Location}
  {cursor : StealCursor} {lane : Levels} {t : TaskHandle} {level : Nat} {side : End} {f : Find}

/-! ### A worker's own sources -/

/-- Pools in which a search meets the same, but for the groups noted at workers. -/
structure Alike (p q : Pool) : Prop where
  deques : q.deque? = p.deque?
  attempts : q.attemptsAt = p.attemptsAt
  repels : q.repels = p.repels
  maxRepels : q.maxRepels = p.maxRepels
  staging : q.staging = p.staging
  workerCount : q.workerCount = p.workerCount

theorem Alike.trans (h : Alike p m) (h' : Alike m q) : Alike p q :=
  ⟨h'.deques.trans h.deques, h'.attempts.trans h.attempts, h'.repels.trans h.repels,
    h'.maxRepels.trans h.maxRepels, h'.staging.trans h.staging, h'.workerCount.trans h.workerCount⟩

/-- A seat may change in all but its deques and its count of attempts. -/
theorem alike_setSeat (hseat : p.seats[k]? = some s) (s' : Seat)
    (hlevels : s'.lane.levels = s.lane.levels) (hattempts : s'.attempts = s.attempts) :
    Alike p (p.setSeat k s') :=
  ⟨deque?_congr (levelsAt_setSeat_same hseat s' hlevels) rfl,
    attemptsAt_setSeat_same hseat s' hattempts, rfl, rfl, rfl, workerCount_setSeat ..⟩

/-- A group may change in all but its queue. -/
theorem alike_setGroup {g' : AffinityGroup} (hg : p.groups.get? i = some g)
    (hqueue : g'.queue = g.queue) : Alike p (p.setGroup i g') :=
  ⟨deque?_congr rfl (queueAt?_set_same hg rfl hqueue), rfl, rfl, rfl, rfl, rfl⟩

/-- A worker has found nothing in the group that it drained, and drains none any more. -/
structure Spent (p : Pool) (w : Location) (q : Pool) : Prop extends Alike p q where
  others : ∀ k, k ≠ w.index → q.activeAt k = p.activeAt k
  free : q.activeAt w.index = none

/-- A worker takes the newest task of the group that it drains, or lets go of the group. -/
theorem takeActive_facts (ho : p.Owned) (hseat : p.seats[w.index]? = some s) :
    (∃ f i g', p.activeFind? w = some f ∧ p.takeActive w = (p.setGroup i g', some f.taken) ∧
        Removes p (some f) (p.setGroup i g')) ∨
      (p.activeFind? w = none ∧ (p.takeActive w).2 = none ∧ Spent p w (p.takeActive w).1) := by
  have hfree : (p.setSeat w.index { s with active := none }).activeAt w.index = none :=
    (activeAt_setSeat hseat _ _).trans (if_pos rfl)
  have hothers : ∀ k, k ≠ w.index →
      (p.setSeat w.index { s with active := none }).activeAt k = p.activeAt k :=
    fun k hk => (activeAt_setSeat hseat _ _).trans (if_neg hk)
  rw [activeFind?, activeAt_of_seat hseat, takeActive, show p.seat? w = some s from hseat]
  dsimp only
  cases hactive : s.active with
  | none =>
      have hnone : p.activeAt w.index = none := (activeAt_of_seat hseat).trans hactive
      exact .inr ⟨rfl, rfl, ⟨⟨rfl, rfl, rfl, rfl, rfl, rfl⟩, fun _ _ => rfl, hnone⟩⟩
  | some i =>
      dsimp only [Option.bind_some]
      cases hg : p.groups.get? i with
      | none =>
          exact .inr ⟨groupFind?_of_get?_none hg _ _, rfl,
            ⟨alike_setSeat hseat _ rfl rfl, hothers, hfree⟩⟩
      | some g =>
          dsimp only
          rcases g.drain_facts w with ⟨t, d, hpop, hdrain⟩ | ⟨hnil, -⟩
          · have htail : g.queue.takeAt? .tail = some (t, d) := hpop
            rw [hdrain]
            refine .inl ⟨_, i, _, groupFind?_of_takeAt? ho hg htail _, rfl, ?_⟩
            exact removes_group hg htail rfl rfl rfl
          · -- found empty, the group is let go of; its queue stays as it is
            obtain ⟨g', hdrain, hqueue⟩ : ∃ g', g.drain w = (g', none) ∧ g'.queue = g.queue := by
              rw [AffinityGroup.drain, (g.queue.pop?_eq_none_iff).2 hnil]
              refine ⟨_, rfl, ?_⟩
              split <;> rfl
            rw [hdrain]
            have hseat' : (p.setGroup i g').seats[w.index]? = some s := hseat
            have hseats := alike_setSeat hseat' { s with active := none } rfl rfl
            exact .inr ⟨groupFind?_of_empty hg hnil _ _, rfl,
              ⟨(alike_setGroup hg hqueue).trans hseats, hothers, hfree⟩⟩

/-! ### The whole search -/

/-- A task that is found without stealing: no victim is visited. -/
theorem Ordered.of_home {r : Pool × StealCursor × Option Taken} (hhome : p.homeFind? w = some f)
    (htaken : r.2.2 = some f.taken) (hremoves : Removes p (some f) r.1)
    (hmoved : r.2.1 = { cursor with level := (f.place.level?).getD cursor.level })
    (hattempts : r.1.attemptsAt = p.attemptsAt) (hrepels : r.1.repels = p.repels)
    (hadopted : ∀ i, p.seeks w → p.staging.foremost? w.index = some i →
      (p.stagedFind? w).isSome ∧ p.staging.Sheds i r.1.staging)
    (hunadopted : p.seeks w = false ∨ p.staging.foremost? w.index = none →
      r.1.staging = p.staging)
    (hactive : ∀ k, r.1.activeAt k = if k = w.index then p.activeAfter w else p.activeAt k) :
    Ordered p w cursor r := by
  have hfind : p.find? w cursor = some f := by rw [find?, hhome, Option.some_or]
  have hvisited : p.visited w cursor = [] := by rw [visited, hhome]; rfl
  refine ⟨by rw [hfind, htaken]; rfl, by rw [hfind]; exact hremoves, ?_, fun k => ?_, ?_, hadopted,
    hunadopted, hactive⟩
  · rw [hmoved, cursorAfter, hfind, hhome]
    rfl
  · simp [hvisited, hattempts]
  · simp [hvisited, hrepels]

/-- A task from a worker's own queues or from the group that it drains: the worker adopts nothing. -/
theorem Ordered.of_kept {r : Pool × StealCursor × Option Taken} (hhome : p.homeFind? w = some f)
    (hseeks : p.seeks w = false) (htaken : r.2.2 = some f.taken) (hremoves : Removes p (some f) r.1)
    (hmoved : r.2.1 = { cursor with level := (f.place.level?).getD cursor.level })
    (hattempts : r.1.attemptsAt = p.attemptsAt) (hrepels : r.1.repels = p.repels)
    (hstaging : r.1.staging = p.staging) (hactive : r.1.activeAt = p.activeAt) :
    Ordered p w cursor r := by
  refine .of_home hhome htaken hremoves hmoved hattempts hrepels (fun i hs => ?_)
    (fun _ => hstaging) fun k => ?_
  · rw [hseeks] at hs
    cases hs
  · rw [activeAfter, hseeks, hactive]
    by_cases hk : k = w.index
    · rw [if_pos hk, hk, if_neg (by simp)]
    · rw [if_neg hk]

/-- A worker on its own has no victims. -/
theorem victims_eq_nil (hw : w.index < p.workerCount) (hn : p.workerCount < 2) :
    p.victims w cursor = [] := by
  apply List.eq_nil_iff_forall_not_mem.2
  intro v hv
  obtain ⟨hlt, hne⟩ := mem_victims.1 hv
  omega

theorem find?_of_home (hhome : p.homeFind? w = none) :
    p.find? w cursor = (p.raid? (p.victims w cursor)).map Prod.snd := by
  rw [find?, hhome, Option.none_or]

/-- A round of the others, by what its row of victims gives up. The cursor follows it. -/
theorem stealRound_eq {found : Option (Nat × Taken)} (hw : w.index < p.workerCount)
    (hcount : q.workerCount = p.workerCount) (hhome : p.homeFind? w = none)
    (hsteal : stealAlong (p.victims w cursor) q = (m, found))
    (hfound : found = (p.raid? (p.victims w cursor)).map fun raided =>
      (raided.1, raided.2.taken)) :
    q.stealRound w.index cursor = (m, p.cursorAfter w cursor, found.map Prod.snd) := by
  have hfind : p.find? w cursor = (p.raid? (p.victims w cursor)).map Prod.snd := find?_of_home hhome
  rw [stealRound, hcount]
  dsimp only
  by_cases hn : p.workerCount < 2
  · rw [if_pos hn]
    have hnil : p.victims w cursor = [] := victims_eq_nil hw hn
    rw [hnil] at hsteal
    cases hsteal
    simp [cursorAfter, hn, hfind, hnil, raid?]
  · rw [if_neg hn]
    rw [victims] at hsteal
    rw [hsteal]
    cases hraid : p.raid? (p.victims w cursor) with
    | none =>
        rw [hraid] at hfound
        subst hfound
        simp [cursorAfter, hhome, hn, hfind, hraid]
    | some raided =>
        obtain ⟨v, f⟩ := raided
        rw [hraid] at hfound
        subst hfound
        simp [cursorAfter, hhome, hn, hfind, hraid, level?_of_loot (loot_of_raid? hraid)]

/-- A search that has come to the round of the others. -/
theorem Ordered.of_round (ho : p.Owned) (hw : w.index < p.workerCount) (hspent : Spent p w q)
    (hown : p.ownFind? w = none) (hactive : p.activeFind? w = none)
    (hnone : p.staging.foremost? w.index = none) :
    Ordered p w cursor (q.stealRound w.index cursor) := by
  have hstaged : p.stagedFind? w = none := by rw [stagedFind?, hnone]; rfl
  have hhome : p.homeFind? w = none := by rw [homeFind?, hown, hactive, hstaged]; rfl
  have hseeks : p.seeks w = true := by rw [seeks, hown, hactive]; rfl
  have hafter : p.activeAfter w = none := by rw [activeAfter, hseeks, if_pos rfl, hnone]
  have hvisited : p.visited w cursor = p.visits (p.victims w cursor) := by rw [visited, hhome]; rfl
  have hfind : p.find? w cursor = (p.raid? (p.victims w cursor)).map Prod.snd := find?_of_home hhome
  -- the thief leaves its own group, and looks at nothing else that has changed
  have hnodup : (p.victims w cursor).Nodup := (nodup_cyclicFrom _ _).filter _
  have hloot : ∀ v ∈ p.victims w cursor, q.lootFind? v = p.lootFind? v := by
    intro v hv
    exact lootFind?_congr hspent.deques (congrFun hspent.attempts v) hspent.maxRepels
      (hspent.others v (mem_victims.1 hv).2)
  have hrepelsAt : q.repelsAt = p.repelsAt :=
    funext fun k => repelsAt_congr hspent.deques (congrFun hspent.attempts k) hspent.maxRepels
  obtain ⟨hfound, hremoves, hvisit⟩ := stealAlong_facts (ho.congr hspent.deques) hnodup
  rw [raid?_congr hloot] at hfound hremoves
  rw [visits_congr hloot] at hvisit
  cases hsteal : stealAlong (p.victims w cursor) q with
  | mk m found =>
  rw [hsteal] at hfound hremoves hvisit
  rw [stealRound_eq hw hspent.workerCount hhome hsteal hfound]
  dsimp only at hfound
  refine ⟨?_, ?_, rfl, fun k => ?_, ?_, fun i _ hi => ?_, fun _ => ?_, fun k => ?_⟩
  · rw [hfind, hfound, Option.map_map, Option.map_map]
    rfl
  · rw [hfind]
    exact hremoves.congr hspent.deques
  · rw [hvisit.attempts, hspent.attempts, hrepelsAt, hvisited]
  · rw [hvisit.repels, hspent.repels, hrepelsAt, hvisited]
  · rw [hnone] at hi
    cases hi
  · exact hvisit.staging.trans hspent.staging
  · rw [hvisit.active]
    by_cases hk : k = w.index
    · rw [if_pos hk, hk, hspent.free, hafter]
    · rw [if_neg hk, hspent.others k hk]

theorem level?_of_groupFind? {source : Source} (h : p.groupFind? i side source = some f) :
    f.place.level? = none := by
  obtain ⟨t, -, rfl⟩ := Option.map_eq_some_iff.1 h
  rfl

/-- Where a search of staging finds nothing, every slot is empty. -/
theorem Linked.foremost?_eq_none (h : p.Linked) (hpop : p.staging.pop? k = none) :
    p.staging.foremost? k = none := by
  rw [Staging.foremost?_eq_none_iff]
  intro slot hslot
  rw [List.eq_nil_iff_forall_not_mem]
  intro i hi
  -- an index in a slot names a group that waits
  have hcopies := (Staging.copies_pos_iff _ _).2 ⟨slot, hslot, hi⟩
  obtain ⟨g, hg, hstage⟩ := h.staged_of_copies hcopies
  exact h.not_staged hpop i ((stageAt_of_get? hg).trans (congrArg some hstage))

theorem Linked.takeActive (h : p.Linked) (w : Location) : (p.takeActive w).1.Linked := by
  rcases takeActive_cases h w with ⟨taken, -, hmove⟩ | ⟨-, hquiet, -⟩
  · exact hmove.linked h
  · exact hquiet.linked h

/-- A worker that drains no group adopts the first one that waits, or goes on to the others. -/
theorem Ordered.of_spent (ho : p.Owned) (hw : w.index < p.workerCount) (hspent : Spent p w q)
    (hq : q.Linked) (hown : p.ownFind? w = none) (hactive : p.activeFind? w = none)
    (cursor : StealCursor) :
    Ordered p w cursor
      (match adoptStaged w q.staging.size q with
        | (q', some taken) => (q', cursor, some taken)
        | (q', none) => q'.stealRound w.index cursor) := by
  have hseeks : p.seeks w = true := by rw [seeks, hown, hactive]; rfl
  obtain ⟨s, hseat⟩ := seat_of_lt (hspent.workerCount.symm ▸ hw)
  cases hpop : q.staging.pop? w.index with
  | none =>
      rw [adoptStaged_of_none hpop]
      refine .of_round ho hw hspent hown hactive ?_
      rw [← hspent.staging]
      exact hq.foremost?_eq_none hpop
  | some found =>
      obtain ⟨i, staging⟩ := found
      obtain ⟨g, t, d, hg, hstage, htake, hadopt⟩ := adoptStaged_of_pop hq hseat hpop
      have hhead : p.staging.foremost? w.index = some i := by
        rw [← hspent.staging]
        exact Staging.foremost?_of_pop? hpop
      have htail : g.queue.takeAt? .tail = some (t, d) := htake
      have hfound : p.stagedFind? w = some
          { taken := { task := t, source := .staged i }, place := .group i, side := .tail } := by
        rw [stagedFind?, hhead, ← groupFind?_congr hspent.deques]
        exact groupFind?_of_takeAt? (ho.congr hspent.deques) hg htail _
      have hseat' : (({ q with staging := staging } : Pool).setGroup i
          { g with stage := .active w, queue := d, inFlight := g.inFlight + 1 }).seats[w.index]? =
            some s := hseat
      have hlevels := levelsAt_setSeat_same hseat' { s with active := some i } rfl
      have hattempts := attemptsAt_setSeat_same hseat' { s with active := some i } rfl
      rw [hadopt]
      refine .of_home (by rw [homeFind?, hown, hactive, hfound]; rfl) rfl
        ((removes_group hg htail rfl rfl hlevels).congr hspent.deques) rfl
        (hattempts.trans hspent.attempts) hspent.repels (fun j _ hj => ?_) (fun hor => ?_)
        fun k => ?_
      · rw [hhead] at hj
        cases hj
        obtain ⟨-, slot, ids, rest, hslot, hids, hset⟩ := Staging.pop?_facts hpop
        rw [hspent.staging] at hslot hset
        exact ⟨by rw [hfound]; rfl, slot, ids, rest, hslot, hids, hset⟩
      · rw [hseeks, hhead] at hor
        rcases hor with hor | hor <;> cases hor
      · rw [activeAfter, hseeks, if_pos rfl, hhead]
        refine (activeAt_setSeat hseat' _ k).trans ?_
        by_cases hk : k = w.index
        · rw [if_pos hk, if_pos hk]
        · rw [if_neg hk, if_neg hk]
          exact hspent.others k hk

/-- What comes after a worker's own queues. -/
theorem takeAfield_ordered (ho : p.Owned) (hw : w.index < p.workerCount) (hlike : Alike p m)
    (hactive : m.activeAt = p.activeAt) (hm : m.Linked) (hown : p.ownFind? w = none)
    (cursor : StealCursor) : Ordered p w cursor (m.takeAfield w cursor) := by
  obtain ⟨s, hseat⟩ := seat_of_lt (hlike.workerCount.symm ▸ hw)
  have hfind : m.activeFind? w = p.activeFind? w := by
    rw [activeFind?, activeFind?, hactive, groupFind?_congr hlike.deques]
  rw [takeAfield]
  rcases takeActive_facts (ho.congr hlike.deques) hseat with
    ⟨f, i, g', hfound, htake, hremoves⟩ | ⟨hfound, hnone, hspent⟩
  · -- the group that the worker drains has a task
    rw [hfind] at hfound
    obtain ⟨j, -, hj⟩ := Option.bind_eq_some_iff.1 hfound
    rw [htake]
    refine .of_kept (f := f) (by rw [homeFind?, hown, hfound]; rfl)
      (by rw [seeks, hown, hfound]; rfl) rfl (hremoves.congr hlike.deques) ?_ hlike.attempts
      hlike.repels hlike.staging hactive
    rw [level?_of_groupFind? hj]
    rfl
  · have hlinked := hm.takeActive w
    cases htake : m.takeActive w with
    | mk q found =>
        rw [htake] at hnone hspent hlinked
        cases hnone
        refine .of_spent ho hw ⟨hlike.trans hspent.toAlike, fun k hk => ?_, hspent.free⟩ hlinked hown
          (hfind.symm.trans hfound) cursor
        rw [hspent.others k hk, hactive]

/-- Every search of a pool in step goes through its sources in their order. -/
theorem take_ordered_of_linked (h : p.Linked) (ho : p.Owned) (hw : w.index < p.workerCount)
    (cursor : StealCursor) : Ordered p w cursor (p.take w cursor) := by
  obtain ⟨s, hseat⟩ := seat_of_lt hw
  cases hremove : s.lane.remove .tail with
  | mk lane found =>
      cases found with
      | some found =>
          obtain ⟨t, level⟩ := found
          have hown : p.ownFind? w = some
              { taken := { task := t, source := .own level }
                place := .level w.index level
                side := .tail } := levelFind?_of_remove hseat hremove .own
          have hremoves : Removes p (some
              { taken := { task := t, source := .own level }
                place := .level w.index level
                side := .tail }) (p.setSeat w.index { s with lane := lane }) :=
            swaps_remove hseat hremove
          rw [take_of_found hseat hremove]
          exact .of_kept (by rw [homeFind?, hown, Option.some_or]) (by rw [seeks, hown]; rfl) rfl
            hremoves rfl (attemptsAt_setSeat_same hseat _ rfl) rfl rfl
            (funext (activeAt_setSeat_same hseat { s with lane := lane } rfl))
      | none =>
          have hnil := Levels.tasks_eq_nil_of_remove hremove
          have hown : p.ownFind? w = none := levelFind?_of_empty hseat hnil _
          have hlevels : lane.levels = s.lane.levels := Levels.levels_remove_none hremove
          rw [take_of_empty hseat hremove]
          exact takeAfield_ordered ho hw
            (alike_setSeat hseat { s with lane := lane, available := false } hlevels rfl)
            (funext (activeAt_setSeat_same hseat { s with lane := lane, available := false } rfl))
            ((Move.rested hseat hremove).linked h) hown cursor

end Pool

end WorkStealing
