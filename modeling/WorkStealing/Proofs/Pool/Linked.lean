import WorkStealing.Proofs.Pool.Move

/-!
# Groups, shelves and seats in step

A group's stage says where else its index stands: in staging if the group waits, at one seat if it
is drained, nowhere if it is new. `Pool.Linked` states this for look-ups through the arena, so it
needs no bound on the number of groups: a group whose slot has no number of its own is never found
and stays new and empty.

`Move.linked` carries the invariant over every move. All moves but those of whole groups go through
`Linked.congr`, which changes no stage, or `Linked.update`, which changes the one group it names.
-/

namespace WorkStealing.Pool

/-- Every index stands exactly where its group's stage says. -/
structure Linked (p : Pool) : Prop where
  arena : p.groups.WellFormed
  beyond : p.groups.Beyond fun g => g.stage = .new ∧ g.tasks = []
  consistent : ∀ i g, p.groups.get? i = some g → g.Consistent
  staged : ∀ i, p.staging.copies i = if p.stageAt i = some .staged then 1 else 0
  active : ∀ k i, p.activeAt k = some i ↔
    ∃ w : Location, p.stageAt i = some (.active w) ∧ w.index = k
  size : p.staging.size = p.groups.total waiting

variable {p q : Pool} {e : Event} {k : Nat} {s s' : Seat} {i : ArenaIndex} {g g' : AffinityGroup}

theorem activeAt_of_seat (h : p.seats[k]? = some s) : p.activeAt k = s.active := by
  rw [activeAt, h, Option.bind_some]

theorem stageAt_of_get? (h : p.groups.get? i = some g) : p.stageAt i = some g.stage := by
  rw [stageAt, h, Option.map_some]

theorem activeAt_setSeat (h : p.seats[k]? = some s) (s' : Seat) (j : Nat) :
    (p.setSeat k s').activeAt j = if j = k then s'.active else p.activeAt j := by
  have hlt := (List.getElem?_eq_some_iff.1 h).1
  simp only [activeAt, setSeat]
  by_cases hj : j = k
  · rw [if_pos hj, hj, List.getElem?_set_self hlt, Option.bind_some]
  · rw [if_neg hj, List.getElem?_set_ne (Ne.symm hj)]

/-- A seat that names the same group may replace another. -/
theorem activeAt_setSeat_same (h : p.seats[k]? = some s) (s' : Seat) (hs : s'.active = s.active)
    (j : Nat) :
    (p.setSeat k s').activeAt j = p.activeAt j := by
  rw [activeAt_setSeat h]
  by_cases hj : j = k
  · rw [if_pos hj, hs, hj, activeAt_of_seat h]
  · rw [if_neg hj]

theorem stageAt_setGroup (h : p.groups.get? i = some g) (g' : AffinityGroup) (j : ArenaIndex) :
    (p.setGroup i g').stageAt j = if j = i then some g'.stage else p.stageAt j := by
  simp only [stageAt, setGroup]
  rw [Arena.get?_set h]
  by_cases hj : j = i
  · rw [if_pos hj, if_pos hj, Option.map_some]
  · rw [if_neg hj, if_neg hj]

namespace Linked

/-- The group that a seat names is drained by that seat's worker. -/
theorem stage_of_activeAt (h : p.Linked) (hk : p.activeAt k = some i) :
    ∃ g w, p.groups.get? i = some g ∧ g.stage = .active w ∧ w.index = k := by
  obtain ⟨w, hstage, hw⟩ := (h.active k i).1 hk
  obtain ⟨g, hg, hs⟩ := Option.map_eq_some_iff.1 hstage
  exact ⟨g, w, hg, hs, hw⟩

/-- An index that stands in staging names a group that waits. -/
theorem staged_of_copies (h : p.Linked) (hi : 0 < p.staging.copies i) :
    ∃ g, p.groups.get? i = some g ∧ g.stage = .staged := by
  rw [h.staged] at hi
  by_cases hs : p.stageAt i = some .staged
  · exact Option.map_eq_some_iff.1 hs
  · rw [if_neg hs] at hi
    exact absurd hi (Nat.lt_irrefl 0)

/-- Where a search of staging finds nothing, no group waits. -/
theorem not_staged (h : p.Linked) (hpop : p.staging.pop? k = none) (i : ArenaIndex) :
    p.stageAt i ≠ some .staged := by
  intro hs
  obtain ⟨g, hg, hstage⟩ := Option.map_eq_some_iff.1 hs
  -- nothing is found if the size is zero or every slot is empty; a waiting group refutes both
  rcases Staging.pop?_eq_none hpop with hsize | hcopies
  · have hwait : waiting g ∈ p.groups.values.map waiting :=
      List.mem_map_of_mem (Arena.mem_values_of_get? hg)
    rw [h.size] at hsize
    have hzero := List.sum_eq_zero_iff_forall_eq_nat.1 hsize _ hwait
    rw [waiting, if_pos hstage] at hzero
    cases hzero
  · have hone := h.staged i
    rw [hcopies, if_pos hs] at hone
    cases hone

/-- New groups may come and go while staging and the groups noted at seats stay the same. -/
theorem reframe (h : p.Linked) (harena : q.groups.WellFormed)
    (hbeyond : q.groups.Beyond fun g => g.stage = .new ∧ g.tasks = [])
    (hconsistent : ∀ i g, q.groups.get? i = some g → g.Consistent)
    (hstages : ∀ j stage, stage ≠ .new → (q.stageAt j = some stage ↔ p.stageAt j = some stage))
    (htotal : q.groups.total waiting = p.groups.total waiting) (hstaging : q.staging = p.staging)
    (hactive : ∀ k, q.activeAt k = p.activeAt k) : q.Linked where
  arena := harena
  beyond := hbeyond
  consistent := hconsistent
  staged j := by
    rw [hstaging, h.staged]
    simp only [hstages j .staged (by simp)]
  active k j := by
    rw [hactive, h.active]
    simp only [hstages j (.active _) (by simp)]
  size := by rw [hstaging, h.size, htotal]

/-- What changes neither groups nor staging nor the groups noted at seats keeps all in step. -/
theorem congr (h : p.Linked) (hgroups : q.groups = p.groups) (hstaging : q.staging = p.staging)
    (hactive : ∀ k, q.activeAt k = p.activeAt k) : q.Linked := by
  refine h.reframe (hgroups ▸ h.arena) (hgroups ▸ h.beyond) (hgroups ▸ h.consistent)
    (fun j stage _ => ?_) (by rw [hgroups]) hstaging hactive
  rw [stageAt, stageAt, hgroups]

/-- A seat may change while it names the same group. -/
theorem setSeat (h : p.Linked) (hk : p.seats[k]? = some s) (hs : s'.active = s.active) :
    (p.setSeat k s').Linked :=
  h.congr rfl rfl (activeAt_setSeat_same hk s' hs)

/-- One group may change if staging and the seats follow its new stage and leave all other indices
alone. -/
theorem update (h : p.Linked) (hg : p.groups.get? i = some g)
    (hgroups : q.groups = p.groups.set i g') (hc : g'.Consistent)
    (hcopies : ∀ j, q.staging.copies j =
      if j = i then (if g'.stage = .staged then 1 else 0) else p.staging.copies j)
    (hsize : q.staging.size + waiting g = p.staging.size + waiting g')
    (hactive : ∀ k j, q.activeAt k = some j ↔
      if j = i then ∃ w : Location, g'.stage = .active w ∧ w.index = k
      else p.activeAt k = some j) : q.Linked := by
  -- seen through look-ups, one stage changes and all others stay
  have hstage : ∀ j, q.stageAt j = if j = i then some g'.stage else p.stageAt j := by
    intro j
    rw [← stageAt_setGroup hg, stageAt, hgroups]
    rfl
  refine ⟨?_, ?_, ?_, ?_, ?_, ?_⟩
  · rw [hgroups]
    exact Arena.wellFormed_set h.arena hg g'
  · rw [hgroups]
    exact Arena.beyond_set h.beyond i g'
  · -- in each clause the changed group answers for itself, the others as before
    intro j x hx
    rw [hgroups, Arena.get?_set hg] at hx
    by_cases hj : j = i
    · rw [if_pos hj, Option.some.injEq] at hx
      exact hx ▸ hc
    · rw [if_neg hj] at hx
      exact h.consistent j x hx
  · intro j
    rw [hcopies, hstage]
    by_cases hj : j = i
    · simp only [if_pos hj, Option.some.injEq]
    · rw [if_neg hj, if_neg hj]
      exact h.staged j
  · intro k j
    rw [hactive, hstage]
    by_cases hj : j = i
    · simp only [if_pos hj, Option.some.injEq]
    · simp only [if_neg hj]
      exact h.active k j
  · -- the size follows the one summand that changed
    have hsum := Arena.total_set waiting hg g'
    have hold := h.size
    rw [hgroups]
    omega

/-- A group may change in all but its stage. -/
theorem setGroup (h : p.Linked) (hg : p.groups.get? i = some g) (hs : g'.stage = g.stage)
    (hc : g'.Consistent) : (p.setGroup i g').Linked := by
  refine h.update hg rfl hc (fun j => ?_) ?_ fun k j => ?_
  · show p.staging.copies j = _
    by_cases hj : j = i
    · rw [if_pos hj, h.staged, hj, stageAt_of_get? hg, hs]
      simp only [Option.some.injEq]
    · rw [if_neg hj]
  · show p.staging.size + _ = _
    rw [waiting, waiting, hs]
  · show p.activeAt k = some j ↔ _
    by_cases hj : j = i
    · rw [if_pos hj, h.active, hj, stageAt_of_get? hg, hs]
      simp only [Option.some.injEq]
    · rw [if_neg hj]

/-- A new group, stored at a slot that can be named or past those, is in step with all others. -/
theorem create (h : p.Linked) (hg : g.stage = .new) (hnil : g.tasks = [])
    (directory : List (AffinityKey × ArenaIndex)) :
    ({ p with groups := (p.groups.insert g).2, directory := directory } : Pool).Linked := by
  have hc : g.Consistent := ⟨fun _ => hnil, fun hs => absurd (hg.symm.trans hs) (by simp)⟩
  refine h.reframe (Arena.wellFormed_insert h.arena g)
    (Arena.beyond_insert h.arena h.beyond ⟨hg, hnil⟩) (fun j x hx => ?_) (fun j stage hne => ?_) ?_
    rfl fun k => rfl
  · -- stored past the slots that can be named, the new group changes no look-up
    by_cases hlt : p.groups.nextPosition < 2 ^ 32
    · rw [Arena.get?_insert h.arena hlt] at hx
      by_cases hj : j = (p.groups.insert g).1
      · rw [if_pos hj, Option.some.injEq] at hx
        exact hx ▸ hc
      · rw [if_neg hj] at hx
        exact h.consistent j x hx
    · rw [Arena.get?_insert_of_le h.arena (Nat.le_of_not_lt hlt)] at hx
      exact h.consistent j x hx
  · show ((p.groups.insert g).2.get? j).map _ = some stage ↔ (p.groups.get? j).map _ = some stage
    by_cases hlt : p.groups.nextPosition < 2 ^ 32
    · rw [Arena.get?_insert h.arena hlt]
      by_cases hj : j = (p.groups.insert g).1
      · -- the new index named nothing before, and names a new group now
        rw [if_pos hj, hj, Arena.get?_index_insert h.arena hlt, Option.map_some, hg]
        simp [Ne.symm hne]
      · rw [if_neg hj]
    · rw [Arena.get?_insert_of_le h.arena (Nat.le_of_not_lt hlt)]
  · show (p.groups.insert g).2.total waiting = _
    rw [Arena.total_insert _ h.arena, waiting, hg]
    rfl

/-- A new group may go. -/
theorem retire {groups : Arena AffinityGroup} (h : p.Linked)
    (hr : p.groups.remove i = some (g, groups)) (hg : g.stage = .new)
    (directory : List (AffinityKey × ArenaIndex)) :
    ({ p with groups := groups, directory := directory } : Pool).Linked := by
  refine h.reframe (Arena.wellFormed_remove h.arena hr) (Arena.beyond_remove h.beyond hr)
    (fun j x hx => ?_) (fun j stage hne => ?_) ?_ rfl fun k => rfl
  · rw [Arena.get?_remove hr] at hx
    by_cases hj : j = i
    · rw [if_pos hj] at hx
      cases hx
    · rw [if_neg hj] at hx
      exact h.consistent j x hx
  · show (groups.get? j).map _ = some stage ↔ (p.groups.get? j).map _ = some stage
    rw [Arena.get?_remove hr]
    by_cases hj : j = i
    · -- the group that goes was new, and a new group is on no shelf and at no seat
      rw [if_pos hj, hj, (Arena.remove_eq_some hr).1, Option.map_some, hg]
      simp [Ne.symm hne]
    · rw [if_neg hj]
  · show groups.total waiting = _
    rw [Arena.total_remove _ hr, waiting, hg]
    rfl

/-- A new group that is staged with its first task. -/
theorem publish {staging : Staging} {key : AffinityKey} (h : p.Linked)
    (hg : p.groups.get? i = some g) (hnew : g.stage = .new)
    (hshelf : p.staging.push key i = .ok staging) (hg' : g'.stage = .staged)
    (hbusy : g'.tasks ≠ []) :
    ({ p with groups := p.groups.set i g', staging := staging } : Pool).Linked := by
  have hc : g'.Consistent := ⟨fun hs => absurd (hg'.symm.trans hs) (by simp), fun _ => hbusy⟩
  refine h.update hg rfl hc (fun j => ?_) ?_ fun k j => ?_
  · show staging.copies j = _
    -- one copy joins the shelf where there was none
    rw [Staging.copies_push hshelf]
    by_cases hj : j = i
    · rw [if_pos hj, if_pos hj, if_pos hg', hj, h.staged, stageAt_of_get? hg, hnew]
      simp
    · rw [if_neg hj, if_neg hj, add_zero]
  · show staging.size + _ = _
    rw [(Staging.push_facts hshelf).2.1, waiting, waiting, hnew, hg']
    simp
  · show p.activeAt k = some j ↔ _
    -- neither a new group nor a staged one is at a seat
    by_cases hj : j = i
    · rw [if_pos hj, hj, h.active, stageAt_of_get? hg, hnew, hg']
      simp
    · rw [if_neg hj]

/-- A drained group whose drainer lets go of it on finding it empty. -/
theorem release {w : Location} (h : p.Linked) (hseat : p.seats[w.index]? = some s)
    (hnoted : s.active = some i) (hg : p.groups.get? i = some g) (hstage : g.stage = .active w)
    (hnil : g.tasks = []) :
    ((p.setGroup i { g with stage := .new }).setSeat w.index { s with active := none }).Linked := by
  refine h.update hg rfl ⟨fun _ => hnil, fun hs => absurd hs (by simp)⟩ (fun j => ?_) ?_
    fun k j => ?_
  · show p.staging.copies j = _
    by_cases hj : j = i
    · rw [if_pos hj, hj, h.staged, stageAt_of_get? hg, hstage]
      simp
    · rw [if_neg hj]
  · show p.staging.size + _ = _
    rw [waiting, waiting, hstage]
    simp
  · rw [activeAt_setSeat (p := p.setGroup i { g with stage := .new }) hseat]
    show (if k = w.index then none else p.activeAt k) = some j ↔ _
    by_cases hk : k = w.index
    · -- the seat named the released group alone, so it names none now
      rw [if_pos hk, hk, activeAt_of_seat hseat, hnoted]
      by_cases hj : j = i
      · rw [if_pos hj]
        simp
      · rw [if_neg hj]
        simp [Ne.symm hj]
    · rw [if_neg hk]
      by_cases hj : j = i
      · rw [if_pos hj, hj, h.active, stageAt_of_get? hg, hstage]
        simp [Ne.symm hk]
      · rw [if_neg hj]

/-- A group that waits, adopted by a worker that drains none. -/
theorem adopt {w : Location} {staging : Staging} (h : p.Linked)
    (hseat : p.seats[w.index]? = some s) (hfree : s.active = none)
    (hshelf : p.staging.pop? w.index = some (i, staging)) (hg : p.groups.get? i = some g)
    (hwaits : g.stage = .staged) (hg' : g'.stage = .active w) :
    (({ p with staging := staging }.setGroup i g').setSeat w.index
      { s with active := some i }).Linked := by
  have hc : g'.Consistent :=
    ⟨fun hs => absurd (hg'.symm.trans hs) (by simp), fun hs => absurd (hg'.symm.trans hs) (by simp)⟩
  refine h.update hg rfl hc (fun j => ?_) ?_ fun k j => ?_
  · -- its one copy leaves the shelf
    have hpop := Staging.copies_pop? hshelf j
    show staging.copies j = _
    by_cases hj : j = i
    · rw [if_pos hj, hj, h.staged, stageAt_of_get? hg, hwaits, if_pos rfl] at hpop
      rw [if_pos hj, hg', hj]
      simp
      omega
    · rw [if_neg hj, add_zero] at hpop
      rw [if_neg hj, hpop]
  · have hpop := Staging.size_pop? hshelf
    show staging.size + _ = _
    rw [waiting, waiting, hwaits, hg', hpop]
    simp
  · have hact := activeAt_setSeat (p := ({ p with staging := staging } : Pool).setGroup i g') hseat
      { s with active := some i } k
    rw [hact]
    show (if k = w.index then some i else p.activeAt k) = some j ↔ _
    by_cases hk : k = w.index
    · -- the seat was free, so it names the adopted group and no other
      rw [if_pos hk, hk, activeAt_of_seat hseat, hfree]
      by_cases hj : j = i
      · rw [if_pos hj, hj, hg']
        simp
      · rw [if_neg hj]
        simp [Ne.symm hj]
    · rw [if_neg hk]
      by_cases hj : j = i
      · rw [if_pos hj, hj, h.active, stageAt_of_get? hg, hwaits, hg']
        simp [Ne.symm hk]
      · rw [if_neg hj]

end Linked

/-- Every move keeps the pool in step. -/
theorem Move.linked (m : Move p e q) (h : p.Linked) : q.Linked := by
  cases m with
  | queued seat put => exact h.setSeat seat rfl
  | removed seat found own => exact h.setSeat seat rfl
  | rested seat found => exact h.setSeat seat rfl
  | @repelled k s seat busy below =>
      have hseat : (p.setSeat k { s with attempts := s.attempts + 1 }).Linked := h.setSeat seat rfl
      exact hseat.congr rfl rfl fun _ => rfl
  | published found group new shelf put =>
      exact h.publish group new shelf rfl (WorkDeque.tasks_ne_nil_of_push put)
  | @joined key i g t d found group old put =>
      refine h.setGroup group rfl ⟨fun hs => absurd hs old, fun _ => ?_⟩
      exact WorkDeque.tasks_ne_nil_of_push put
  | @drained k i g side t d source seat group found origin =>
      -- a drained group is neither new nor staged, so nothing is asked of its queue
      obtain ⟨x, w, hx, hstage, -⟩ := h.stage_of_activeAt seat
      cases group.symm.trans hx
      refine h.setGroup group rfl ⟨fun hs => ?_, fun hs => ?_⟩
      · exact absurd (hstage.symm.trans hs) (by simp)
      · exact absurd (hstage.symm.trans hs) (by simp)
  | released seat noted group stage bare => exact h.release seat noted group stage bare
  | adopted seat free shelf group waits found => exact h.adopt seat free shelf group waits rfl
  | @finished i g group =>
      have hc := h.consistent i g group
      exact h.setGroup group rfl ⟨hc.empty_of_new, hc.busy_of_staged⟩
  | created fresh => exact h.create rfl rfl _
  | retired found gone idle => exact h.retire gone ((AffinityGroup.isIdle_iff _).1 idle).1 _
  | forgotten found gone => exact h.congr rfl rfl fun _ => rfl

/-- An empty pool is in step. -/
theorem linked_new (c : SchedulerConfig) (auto : Nat) : (new c auto).Linked where
  arena := Arena.wellFormed_empty
  beyond := Arena.beyond_empty
  consistent i g hg := by simp [new, Arena.get?] at hg
  staged i := by
    have hstage : (new c auto).stageAt i = none := by simp [new, stageAt, Arena.get?]
    rw [hstage]
    exact Staging.copies_new _ _ i
  active k i := by
    have hstage : (new c auto).stageAt i = none := by simp [new, stageAt, Arena.get?]
    have hseat : (new c auto).activeAt k = none := by
      apply Option.bind_eq_none_iff.2
      intro s hs
      rw [List.eq_of_mem_replicate (List.mem_of_getElem? hs)]
    rw [hstage, hseat]
    simp
  size := rfl

theorem tasks_new (c : SchedulerConfig) (auto : Nat) : (new c auto).tasks = [] := by
  refine List.append_eq_nil_iff.2 ⟨List.flatMap_eq_nil_iff.2 fun s hs => ?_, rfl⟩
  rw [List.eq_of_mem_replicate hs]
  exact Levels.tasks_new _ _

end WorkStealing.Pool
