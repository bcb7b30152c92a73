import WorkStealing.Proofs.Pool.Places
import WorkStealing.Proofs.Queue.Foremost

/-!
# What a search finds at a victim

What the queues of a worker and of a group have for a search is said here on the pool as it is when
they are looked at: a task with its source, the deque that it stands in and the end that it is taken
from (`Find`). A victim gives up the oldest task of its lowest level that is not empty, if it has
repelled as many attempts as it may, and else the oldest task of the group that it drains
(`Pool.lootFind?`).

`stealFrom_facts` is the step for one victim: what it gives up leaves its place and nothing else
moves, and a victim that can repel the thief does so once. `stealAlong_facts` is the row of them, in
which the thief goes on up to the first victim that gives something up (`Pool.raid?`,
`Pool.visits`).
-/

namespace WorkStealing

/-- What a search finds: a task with its source, the deque that it stands in and the end that it is
taken from. -/
structure Find where
  taken : Taken
  place : Place
  side : End
deriving DecidableEq, Repr

/-- The level of a place with a worker. -/
def Place.level? : Place → Option Nat
  | .level _ n => some n
  | .group _ => none

namespace Pool

/-- The task at one end of the lowest level of a worker that is not empty. -/
def levelFind? (p : Pool) (k : Nat) (side : End) (source : Nat → Source) : Option Find :=
  (Levels.lowestTask? (p.levelsAt k) side).map fun found =>
    { taken := { task := found.1, source := source found.2 }
      place := .level k found.2
      side := side }

/-- The newest task of a group, or its oldest one. -/
def groupFind? (p : Pool) (i : ArenaIndex) (side : End) (source : Source) : Option Find :=
  ((p.queueAt? i).bind fun d =>
      match side with
      | .tail => d.tasks.getLast?
      | .head => d.tasks.head?).map fun t =>
    { taken := { task := t, source := source }, place := .group i, side := side }

/-- What a thief gets from a victim: the oldest task of its lowest level that is not empty, if it
has repelled as many attempts as it may, and else the oldest task of the group that it drains. -/
def lootFind? (p : Pool) (v : Nat) : Option Find :=
  (if p.maxRepels ≤ p.attemptsAt v then p.levelFind? v .head (.stolen (.ofIndex v)) else none).or
    ((p.activeAt v).bind fun i => p.groupFind? i .head (.stolenFromGroup (.ofIndex v) i))

/-- The first victim in a row that gives something up. -/
def raid? (p : Pool) (vs : List Nat) : Option (Nat × Find) :=
  vs.findSome? fun v => (p.lootFind? v).map fun f => (v, f)

/-- Whether a worker has tasks of its own and may repel one more thief. -/
def repelsAt (p : Pool) (k : Nat) : Bool :=
  (p.levelsAt k).any (fun d => !d.isEmpty) && decide (p.attemptsAt k < p.maxRepels)

/-- The victims in a row that a thief comes to: up to the first that gives something up. -/
def visits (p : Pool) : List Nat → List Nat
  | [] => []
  | v :: rest => v :: if (p.lootFind? v).isSome then [] else p.visits rest

/-- A found task leaves the deque that it stands in, at the end that it is taken from, and no other
deque changes. -/
def Removes (p : Pool) : Option Find → Pool → Prop
  | none, q => q.deque? = p.deque?
  | some f, q => ∃ d d', d.takeAt? f.side = some (f.taken.task, d') ∧ Swaps p f.place d d' q

/-- The victims in a row have been visited: one that could repel the thief has done so once. -/
structure Visited (p : Pool) (vs : List Nat) (q : Pool) : Prop where
  attempts : ∀ k, q.attemptsAt k = p.attemptsAt k + if k ∈ vs ∧ p.repelsAt k then 1 else 0
  repels : q.repels = p.repels + vs.countP p.repelsAt
  maxRepels : q.maxRepels = p.maxRepels
  active : q.activeAt = p.activeAt
  staging : q.staging = p.staging

variable {p q m : Pool} {k v : Nat} {s : Seat} {i : ArenaIndex} {g : AffinityGroup} {w : Location}
  {cursor : StealCursor} {lane : Levels} {t : TaskHandle} {level : Nat} {side : End} {f : Find}

/-! ### Levels and groups -/

theorem levelFind?_of_remove (hseat : p.seats[k]? = some s)
    (hremove : s.lane.remove side = (lane, some (t, level))) (source : Nat → Source) :
    p.levelFind? k side source =
      some { taken := { task := t, source := source level }, place := .level k level, side := side } := by
  rw [levelFind?, levelsAt_of_seat hseat, ← Levels.snd_remove, hremove]
  rfl

/-- A worker has a task for a search unless all of its levels are empty. -/
theorem levelFind?_eq_none_iff (p : Pool) (k : Nat) (side : End) (source : Nat → Source) :
    p.levelFind? k side source = none ↔ ∀ d ∈ p.levelsAt k, d.tasks = [] := by
  rw [levelFind?, Option.map_eq_none_iff, Levels.lowestTask?_eq_none_iff]

theorem levelFind?_of_empty (hseat : p.seats[k]? = some s) (hnil : s.lane.tasks = [])
    (source : Nat → Source) : p.levelFind? k side source = none := by
  rw [levelFind?_eq_none_iff, levelsAt_of_seat hseat]
  exact List.flatMap_eq_nil_iff.1 hnil

/-- A removal from a worker's queues takes out what stands at the place that it names. -/
theorem swaps_remove (hseat : p.seats[k]? = some s)
    (hremove : s.lane.remove side = (lane, some (t, level))) :
    ∃ d d', d.takeAt? side = some (t, d') ∧
      Swaps p (.level k level) d d' (p.setSeat k { s with lane := lane }) := by
  have hfound : (s.lane.remove side).2 = some (t, level) := by rw [hremove]
  obtain ⟨d, d', hd, htake, hlevels⟩ := Levels.levels_remove_some hfound
  rw [hremove] at hlevels
  exact ⟨d, d', htake, swaps_setSeat hseat hd hlevels⟩

theorem groupFind?_of_takeAt? (ho : p.Owned) (hg : p.groups.get? i = some g) {d : WorkDeque}
    (htake : g.queue.takeAt? side = some (t, d)) (source : Source) :
    p.groupFind? i side source =
      some { taken := { task := t, source := source }, place := .group i, side := side } := by
  have hqueue := queueAt?_of_get? hg
  have hnext := WorkDeque.next?_of_takeAt? htake
  rw [groupFind?, hqueue, Option.bind_some]
  cases side with
  | head => exact congrArg (Option.map _) hnext
  | tail =>
      -- with nothing injected, the newest task of the queue is the last of all
      have hnil := ho i _ hqueue
      rw [WorkDeque.next?, hnil, List.head?_nil, Option.or_none] at hnext
      dsimp only
      rw [WorkDeque.tasks, hnil, List.append_nil, hnext]
      rfl

/-- A group has a task for a search unless its queue is empty. -/
theorem groupFind?_eq_none_iff (p : Pool) (i : ArenaIndex) (side : End) (source : Source) :
    p.groupFind? i side source = none ↔ ∀ d, p.queueAt? i = some d → d.tasks = [] := by
  rw [groupFind?, Option.map_eq_none_iff, Option.bind_eq_none_iff]
  cases side <;> simp

theorem groupFind?_of_empty (hg : p.groups.get? i = some g) (hnil : g.tasks = []) (side : End)
    (source : Source) : p.groupFind? i side source = none := by
  rw [groupFind?_eq_none_iff, queueAt?_of_get? hg]
  rintro d ⟨rfl⟩
  exact hnil

/-- A removal from a group takes out what stands in its queue. -/
theorem removes_group {g' : AffinityGroup} {d : WorkDeque} {source : Source}
    (hg : p.groups.get? i = some g) (htake : g.queue.takeAt? side = some (t, d))
    (hq : q.groups = p.groups.set i g') (hd : g'.queue = d) (hlevels : q.levelsAt = p.levelsAt) :
    Removes p (some
      { taken := { task := t, source := source }, place := .group i, side := side }) q :=
  ⟨g.queue, g'.queue, hd ▸ htake, swaps_set hg hq hlevels⟩

theorem Removes.congr {found : Option Find} (h : Removes m found q) (hm : m.deque? = p.deque?) :
    Removes p found q := by
  cases found with
  | none => exact h.trans hm
  | some f =>
      obtain ⟨d, d', htake, hswaps⟩ := h
      refine ⟨d, d', htake, ⟨?_, hswaps.after, fun y hy => ?_⟩⟩
      · rw [← hm]
        exact hswaps.before
      · rw [← hm]
        exact hswaps.others y hy

theorem queueAt?_congr (h : m.deque? = p.deque?) : m.queueAt? = p.queueAt? :=
  funext fun i => congrFun h (.group i)

theorem levelsAt_congr (h : m.deque? = p.deque?) : m.levelsAt = p.levelsAt :=
  funext fun k => List.ext_getElem? fun level => congrFun h (.level k level)

theorem Owned.congr (ho : p.Owned) (h : m.deque? = p.deque?) : m.Owned := by
  intro i d hd
  rw [queueAt?_congr h] at hd
  exact ho i d hd

theorem groupFind?_congr (h : m.deque? = p.deque?) : m.groupFind? = p.groupFind? := by
  funext i side source
  rw [groupFind?, groupFind?, queueAt?_congr h]

theorem levelFind?_congr (h : m.deque? = p.deque?) : m.levelFind? = p.levelFind? := by
  funext k side source
  rw [levelFind?, levelFind?, levelsAt_congr h]

theorem groupFind?_of_get?_none (hg : p.groups.get? i = none) (side : End) (source : Source) :
    p.groupFind? i side source = none := by
  rw [groupFind?_eq_none_iff, queueAt?, hg]
  intro d hd
  cases hd

/-! ### One victim -/

theorem any_levels_iff (hseat : p.seats[k]? = some s) :
    (p.levelsAt k).any (fun d => !d.isEmpty) = !s.lane.isEmpty := by
  rw [levelsAt_of_seat hseat, Levels.isEmpty, List.not_all_eq_any_not]

theorem Visited.refl (p : Pool) : Visited p [] p :=
  ⟨fun k => by simp, by simp, rfl, rfl, rfl⟩

/-- A victim that repels nobody leaves no trace. -/
theorem Visited.of_not (hv : p.repelsAt v = false) (ha : q.attemptsAt = p.attemptsAt)
    (hr : q.repels = p.repels) (hm : q.maxRepels = p.maxRepels) (hactive : q.activeAt = p.activeAt)
    (hstaging : q.staging = p.staging) : Visited p [v] q := by
  refine ⟨fun k => ?_, ?_, hm, hactive, hstaging⟩
  · rw [ha, if_neg, Nat.add_zero]
    rintro ⟨hk, hrepels⟩
    rw [List.mem_singleton.1 hk, hv] at hrepels
    cases hrepels
  · rw [hr, List.countP_singleton, hv]
    rfl

/-- The group that a victim drains is the last chance. -/
theorem stealFromGroup_facts (ho : p.Owned) (hseat : p.seats[v]? = some s) :
    let loot := (p.activeAt v).bind fun i =>
      p.groupFind? i .head (.stolenFromGroup (Location.ofIndex v) i)
    (∃ f i g', loot = some f ∧ p.stealFromGroup v s = (p.setGroup i g', some f.taken) ∧
        Removes p (some f) (p.setGroup i g')) ∨
      (loot = none ∧ p.stealFromGroup v s = (p, none)) := by
  rw [activeAt_of_seat hseat, stealFromGroup]
  cases s.active with
  | none => exact .inr ⟨rfl, rfl⟩
  | some i =>
      dsimp only [Option.bind_some]
      cases hg : p.groups.get? i with
      | none => exact .inr ⟨groupFind?_of_get?_none hg _ _, rfl⟩
      | some g =>
          dsimp only
          rw [AffinityGroup.steal]
          cases htake : g.queue.steal? with
          | none =>
              exact .inr ⟨groupFind?_of_empty hg ((g.queue.steal?_eq_none_iff).1 htake) _ _, rfl⟩
          | some found =>
              obtain ⟨t, d⟩ := found
              have hhead : g.queue.takeAt? .head = some (t, d) := htake
              refine .inl ⟨_, i, _, groupFind?_of_takeAt? ho hg hhead _, rfl, ?_⟩
              exact removes_group hg hhead rfl rfl rfl

/-- The pool after a victim has repelled one attempt. -/
def rebuffed (p : Pool) (v : Nat) (s : Seat) : Pool :=
  { p.setSeat v { s with attempts := s.attempts + 1 } with repels := p.repels + 1 }

theorem deque?_rebuffed (hseat : p.seats[v]? = some s) : (p.rebuffed v s).deque? = p.deque? :=
  deque?_congr (levelsAt_setSeat_same hseat _ rfl) rfl

theorem visited_rebuffed (hseat : p.seats[v]? = some s) (hv : p.repelsAt v = true) :
    Visited p [v] (p.rebuffed v s) := by
  refine ⟨fun k => ?_, ?_, rfl, funext (activeAt_setSeat_same hseat _ rfl), rfl⟩
  · have hset := attemptsAt_setSeat hseat { s with attempts := s.attempts + 1 } k
    refine hset.trans ?_
    by_cases hk : k = v
    · rw [if_pos hk, hk, attemptsAt_of_seat hseat, if_pos ⟨List.mem_singleton_self v, hv⟩]
    · rw [if_neg hk, if_neg, Nat.add_zero]
      exact fun h => hk (List.mem_singleton.1 h.1)
  · rw [List.countP_singleton, hv]
    rfl

/-- After the attempt on a victim's own queues, its group is tried. -/
theorem visited_stealFromGroup (ho : p.Owned) (hvisit : Visited p [v] m)
    (hm : m.deque? = p.deque?) (hseat : m.seats[v]? = some s) :
    let loot := (p.activeAt v).bind fun i =>
      p.groupFind? i .head (.stolenFromGroup (Location.ofIndex v) i)
    (m.stealFromGroup v s).2 = loot.map Find.taken ∧ Removes p loot (m.stealFromGroup v s).1 ∧
      Visited p [v] (m.stealFromGroup v s).1 := by
  rw [← groupFind?_congr hm, ← hvisit.active]
  rcases stealFromGroup_facts (ho.congr hm) hseat with
    ⟨f, i, g', hloot, hsteal, hremoves⟩ | ⟨hloot, hsteal⟩
  · dsimp only at hloot ⊢
    rw [hloot, hsteal]
    refine ⟨rfl, hremoves.congr hm, ?_⟩
    exact ⟨hvisit.attempts, hvisit.repels, hvisit.maxRepels, hvisit.active, hvisit.staging⟩
  · dsimp only at hloot ⊢
    rw [hloot, hsteal]
    exact ⟨rfl, hm, hvisit⟩

/-- One victim gives up what it has for a thief, or repels it, or has nothing. -/
theorem stealFrom_facts (ho : p.Owned) (v : Nat) :
    (p.stealFrom v).2 = (p.lootFind? v).map Find.taken ∧
      Removes p (p.lootFind? v) (p.stealFrom v).1 ∧ Visited p [v] (p.stealFrom v).1 := by
  rw [stealFrom, lootFind?]
  cases hseat : p.seats[v]? with
  | none =>
      have hlevels : p.levelsAt v = [] := by rw [levelsAt, hseat]; rfl
      have hactive : p.activeAt v = none := by rw [activeAt, hseat]; rfl
      have hown : p.levelFind? v .head (.stolen (Location.ofIndex v)) = none := by
        rw [levelFind?, hlevels]
        rfl
      have hrepels : p.repelsAt v = false := by rw [repelsAt, hlevels]; rfl
      rw [hown, ite_self, hactive]
      exact ⟨rfl, rfl, .of_not hrepels rfl rfl rfl rfl rfl⟩
  | some s =>
      have hany := any_levels_iff hseat
      dsimp only
      rw [attemptsAt_of_seat hseat]
      by_cases hempty : s.lane.isEmpty = true
      · rw [if_pos hempty]
        have hnil := (s.lane.isEmpty_iff).1 hempty
        have hrepels : p.repelsAt v = false := by rw [repelsAt, hany, hempty]; rfl
        rw [levelFind?_of_empty hseat hnil, ite_self, Option.none_or]
        exact visited_stealFromGroup ho (.of_not hrepels rfl rfl rfl rfl rfl) rfl hseat
      · rw [if_neg hempty]
        by_cases hlimit : p.maxRepels ≤ s.attempts
        · rw [if_pos hlimit, if_pos hlimit]
          have hrepels : p.repelsAt v = false := by
            rw [repelsAt, attemptsAt_of_seat hseat, decide_eq_false (Nat.not_lt.2 hlimit),
              Bool.and_false]
          -- the victim has repelled enough and gives up a task
          cases hremove : s.lane.remove .head with
          | mk lane found =>
              cases found with
              | none =>
                  have hnil := Levels.tasks_eq_nil_of_remove hremove
                  exact absurd ((s.lane.isEmpty_iff).2 hnil) hempty
              | some found =>
                  obtain ⟨t, level⟩ := found
                  rw [levelFind?_of_remove hseat hremove, Option.some_or]
                  refine ⟨rfl, swaps_remove hseat hremove, ?_⟩
                  exact .of_not hrepels (attemptsAt_setSeat_same hseat _ rfl) rfl rfl
                    (funext (activeAt_setSeat_same hseat _ rfl)) rfl
        · rw [if_neg hlimit, if_neg hlimit, Option.none_or]
          have hrepels : p.repelsAt v = true := by
            rw [repelsAt, hany, attemptsAt_of_seat hseat, decide_eq_true (Nat.lt_of_not_le hlimit)]
            simpa using hempty
          have hlt := (List.getElem?_eq_some_iff.1 hseat).1
          have hseat' : (p.rebuffed v s).seats[v]? = some { s with attempts := s.attempts + 1 } :=
            List.getElem?_set_self hlt
          exact visited_stealFromGroup ho (visited_rebuffed hseat hrepels) (deque?_rebuffed hseat)
            hseat'

/-! ### A row of victims -/

theorem lootFind?_congr (hdeques : m.deque? = p.deque?)
    (hattempts : m.attemptsAt v = p.attemptsAt v) (hmax : m.maxRepels = p.maxRepels)
    (hactive : m.activeAt v = p.activeAt v) : m.lootFind? v = p.lootFind? v := by
  rw [lootFind?, lootFind?, hattempts, hmax, hactive, levelFind?_congr hdeques,
    groupFind?_congr hdeques]

theorem repelsAt_congr (hdeques : m.deque? = p.deque?)
    (hattempts : m.attemptsAt v = p.attemptsAt v) (hmax : m.maxRepels = p.maxRepels) :
    m.repelsAt v = p.repelsAt v := by
  rw [repelsAt, repelsAt, hattempts, hmax, levelsAt_congr hdeques]

/-- A victim that was not visited has repelled nobody. -/
theorem Visited.spared {vs : List Nat} (h : Visited p vs m) (hv : v ∉ vs) :
    m.attemptsAt v = p.attemptsAt v := by
  rw [h.attempts, if_neg (fun hmem => hv hmem.1), Nat.add_zero]

theorem Visited.cons {us : List Nat} (hfirst : Visited p [v] m) (hm : m.deque? = p.deque?)
    (hrest : Visited m us q) (hv : v ∉ us) : Visited p (v :: us) q := by
  -- the later victims are met as they were before the first visit
  have hsame : ∀ u ∈ us, m.repelsAt u = p.repelsAt u := by
    intro u hu
    have hspared := hfirst.spared fun h => hv (List.mem_singleton.1 h ▸ hu)
    exact repelsAt_congr hm hspared hfirst.maxRepels
  refine ⟨fun k => ?_, ?_, hrest.maxRepels.trans hfirst.maxRepels,
    hrest.active.trans hfirst.active, hrest.staging.trans hfirst.staging⟩
  · rw [hrest.attempts, hfirst.attempts]
    by_cases hk : k ∈ us
    · have hne : k ≠ v := fun h => hv (h ▸ hk)
      simp [hk, hne, hsame k hk]
    · simp [hk]
  · have hcount : us.countP m.repelsAt = us.countP p.repelsAt :=
      List.countP_congr fun u hu => by rw [hsame u hu]
    rw [hrest.repels, hfirst.repels, List.countP_singleton, List.countP_cons, hcount]
    omega

theorem visits_congr {us : List Nat} (h : ∀ u ∈ us, m.lootFind? u = p.lootFind? u) :
    m.visits us = p.visits us := by
  induction us with
  | nil => rfl
  | cons u rest ih =>
      rw [visits, visits, h u List.mem_cons_self,
        ih fun x hx => h x (List.mem_cons_of_mem _ hx)]

theorem raid?_congr {us : List Nat} (h : ∀ u ∈ us, m.lootFind? u = p.lootFind? u) :
    m.raid? us = p.raid? us := by
  induction us with
  | nil => rfl
  | cons u rest ih =>
      have hrest := ih fun x hx => h x (List.mem_cons_of_mem _ hx)
      rw [raid?] at hrest ⊢
      rw [raid?, List.findSome?_cons, List.findSome?_cons, h u List.mem_cons_self, hrest]
      rfl

theorem mem_of_mem_visits {us : List Nat} (h : v ∈ p.visits us) : v ∈ us := by
  induction us with
  | nil => exact h
  | cons u rest ih =>
      rw [visits] at h
      rcases List.mem_cons.1 h with rfl | h
      · exact List.mem_cons_self
      · split at h
        · cases h
        · exact List.mem_cons_of_mem _ (ih h)

/-- A row of victims, none of them twice: the thief goes on up to the first that gives something
up. -/
theorem stealAlong_facts (ho : p.Owned) {vs : List Nat} (hnodup : vs.Nodup) :
    (stealAlong vs p).2 = (p.raid? vs).map (fun found => (found.1, found.2.taken)) ∧
      Removes p ((p.raid? vs).map Prod.snd) (stealAlong vs p).1 ∧
      Visited p (p.visits vs) (stealAlong vs p).1 := by
  -- induction on the row; each victim is met in the pool that the earlier visits left
  induction vs generalizing p with
  | nil => exact ⟨rfl, rfl, .refl p⟩
  | cons v rest ih =>
      obtain ⟨hv, hrest⟩ := List.nodup_cons.1 hnodup
      obtain ⟨hfound, hremoves, hvisit⟩ := stealFrom_facts ho v
      rw [stealAlong, raid?, List.findSome?_cons, visits]
      cases hsteal : p.stealFrom v with
      | mk m found =>
          rw [hsteal] at hfound hremoves hvisit
          dsimp only at hfound hremoves hvisit
          cases hloot : p.lootFind? v with
          | some f =>
              rw [hloot] at hfound hremoves
              cases hfound
              exact ⟨rfl, hremoves, hvisit⟩
          | none =>
              rw [hloot] at hfound hremoves
              cases hfound
              have hm : m.deque? = p.deque? := hremoves
              have hsame : ∀ u ∈ rest, m.lootFind? u = p.lootFind? u := by
                intro u hu
                have hspared := hvisit.spared fun h => hv (List.mem_singleton.1 h ▸ hu)
                exact lootFind?_congr hm hspared hvisit.maxRepels (congrFun hvisit.active u)
              obtain ⟨hfound', hremoves', hvisit'⟩ := ih (ho.congr hm) hrest
              rw [raid?_congr hsame] at hfound' hremoves'
              rw [visits_congr hsame] at hvisit'
              refine ⟨hfound', hremoves'.congr hm, ?_⟩
              exact hvisit.cons hm hvisit' fun h => hv (mem_of_mem_visits h)

theorem loot_of_raid? {vs : List Nat} (h : p.raid? vs = some (v, f)) : p.lootFind? v = some f := by
  obtain ⟨u, -, hu⟩ := List.exists_of_findSome?_eq_some h
  obtain ⟨x, hx, heq⟩ := Option.map_eq_some_iff.1 hu
  cases heq
  exact hx

/-- The level that loot stands at is the one that its source names. -/
theorem level?_of_loot (h : p.lootFind? v = some f) :
    f.place.level? = stolenLevel? f.taken.source := by
  rcases Option.or_eq_some_iff.1 h with hown | ⟨-, hgroup⟩
  · split at hown
    · obtain ⟨found, -, rfl⟩ := Option.map_eq_some_iff.1 hown
      rfl
    · cases hown
  · obtain ⟨i, -, hi⟩ := Option.bind_eq_some_iff.1 hgroup
    obtain ⟨t, -, rfl⟩ := Option.map_eq_some_iff.1 hi
    rfl

end Pool

end WorkStealing
