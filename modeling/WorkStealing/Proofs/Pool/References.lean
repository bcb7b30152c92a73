import WorkStealing.Proofs.Pool.Affinity

/-!
# References to groups

A group counts the tasks that were taken from it and not yet reported done. Seen through the arena
this count is `Pool.references`, which is zero where an index names no group.

* `credits_take`: a take raises the count of the group that its task came from, and no other.
* `references_groupTaskDone`: a report lowers the count of the group it names, and no other.
* `Move.references_entered`, `Move.references_founded`: a give and a new group change no count.
* `references_retireGroup`: neither does the retirement of a group, which must have none.

The moves of a pool do not suffice for the first of these, since a row of quiet moves may contain
reports. The stages of a search are therefore followed one by one.
-/

namespace WorkStealing

/-- Whether a taken task came from the group that an index names. -/
def Taken.names (i : ArenaIndex) (h : Taken) : Bool := h.source.group? = some i

namespace Pool

/-- Tasks taken from the group that an index names and not yet done. -/
def references (p : Pool) (i : ArenaIndex) : Nat :=
  ((p.groups.get? i).map AffinityGroup.inFlight).getD 0

/-- A search that counts what it found at the group that it came from, and nothing else. -/
def Credits (p : Pool) (found : Option Taken) (q : Pool) : Prop :=
  ∀ i, q.references i = p.references i + found.toList.countP (Taken.names i)

variable {p q m : Pool} {i : ArenaIndex} {g g' : AffinityGroup} {r : Option Taken} {w : Location}

theorem references_of_get? (h : p.groups.get? i = some g) : p.references i = g.inFlight := by
  rw [references, h]
  rfl

theorem references_of_groups (h : q.groups = p.groups) (j : ArenaIndex) :
    q.references j = p.references j := by
  rw [references, references, h]

theorem references_setGroup (h : p.groups.get? i = some g) (g' : AffinityGroup) (j : ArenaIndex) :
    (p.setGroup i g').references j = if j = i then g'.inFlight else p.references j := by
  simp only [references, setGroup]
  rw [Arena.get?_set h]
  by_cases hj : j = i
  · simp only [if_pos hj, Option.map_some, Option.getD_some]
  · simp only [if_neg hj]

/-- A group may change in all but its count. -/
theorem references_setGroup_same (h : p.groups.get? i = some g) (hcount : g'.inFlight = g.inFlight)
    (j : ArenaIndex) : (p.setGroup i g').references j = p.references j := by
  rw [references_setGroup h]
  by_cases hj : j = i
  · rw [if_pos hj, hj, references_of_get? h, hcount]
  · rw [if_neg hj]

/-! ### Taking -/

namespace Credits

theorem of_groups (h : q.groups = p.groups) : Credits p none q := by
  intro j
  exact references_of_groups h j

theorem refl (p : Pool) : Credits p none p := of_groups rfl

/-- A search in vain may be followed by another search. -/
theorem after (h : Credits p none m) (h' : Credits m r q) : Credits p r q := by
  intro j
  rw [h' j, h j]
  rfl

/-- A task taken from a group is counted there. -/
theorem of_started {t : TaskHandle} {source : Source} (h : p.groups.get? i = some g)
    (hcount : g'.inFlight = g.inFlight) (hsource : source.group? = some i)
    (hgroups : q.groups = p.groups.set i g'.started) :
    Credits p (some { task := t, source := source }) q := by
  intro j
  have hset : q.references j = (p.setGroup i g'.started).references j :=
    references_of_groups hgroups j
  rw [hset, references_setGroup h, Option.toList_some, List.countP_singleton, Taken.names, hsource]
  by_cases hj : j = i
  · subst hj
    rw [if_pos rfl, references_of_get? h, AffinityGroup.started]
    simp [hcount]
  · simp [hj, Ne.symm hj]

/-- A task taken from a worker's own queues is counted nowhere. -/
theorem of_own {t : TaskHandle} {source : Source} (hsource : source.group? = none)
    (hgroups : q.groups = p.groups) : Credits p (some { task := t, source := source }) q := by
  intro j
  rw [references_of_groups hgroups, Option.toList_some, List.countP_singleton, Taken.names, hsource]
  simp

end Credits

/-- A drain takes nothing from the count. -/
theorem inFlight_drain (g : AffinityGroup) (w : Location) :
    (g.drain w).1.inFlight = g.inFlight := by
  rw [AffinityGroup.drain]
  split
  · rfl
  · split
    · rfl
    · rfl

theorem inFlight_steal (g : AffinityGroup) : g.steal.1.inFlight = g.inFlight := by
  rw [AffinityGroup.steal]
  split
  · rfl
  · rfl

theorem credits_takeActive (p : Pool) (w : Location) :
    Credits p (p.takeActive w).2 (p.takeActive w).1 := by
  rw [takeActive]
  cases p.seat? w with
  | none => exact .refl p
  | some s =>
      dsimp only
      cases s.active with
      | none => exact .refl p
      | some i =>
          dsimp only
          cases hg : p.groups.get? i with
          | none => exact .of_groups rfl
          | some g =>
              have hcount := inFlight_drain g w
              dsimp only
              cases hdrain : g.drain w with
              | mk g' found =>
                  rw [hdrain] at hcount
                  cases found with
                  | some t => exact .of_started hg hcount rfl rfl
                  | none =>
                      -- the group may have been let go of, its count stands
                      intro j
                      exact references_setGroup_same hg hcount j

theorem credits_adoptAt (p : Pool) (w : Location) (i : ArenaIndex) :
    Credits p (p.adoptAt w i).2 (p.adoptAt w i).1 := by
  rw [adoptAt]
  cases hg : p.groups.get? i with
  | none => exact .refl p
  | some g =>
      cases p.seat? w with
      | none => exact .refl p
      | some s =>
          dsimp only
          cases hadopt : g.adopt w with
          | error e => exact .refl p
          | ok adopted =>
              have hsame : adopted.inFlight = g.inFlight := by
                rw [((g.adopt_eq_ok_iff adopted w).1 hadopt).2]
              have hcount := (inFlight_drain adopted w).trans hsame
              dsimp only
              cases hdrain : adopted.drain w with
              | mk g' found =>
                  rw [hdrain] at hcount
                  cases found with
                  | some t => exact .of_started hg hcount rfl rfl
                  | none =>
                      intro j
                      exact references_setGroup_same hg hcount j

theorem credits_adoptStaged (w : Location) (budget : Nat) (p : Pool) :
    Credits p (adoptStaged w budget p).2 (adoptStaged w budget p).1 := by
  -- induction on the budget: each round pops one index from staging and tries to adopt its group
  induction budget generalizing p with
  | zero => exact .refl p
  | succ budget ih =>
      rw [adoptStaged]
      cases p.staging.pop? w.index with
      | none => exact .refl p
      | some found =>
          obtain ⟨i, staging⟩ := found
          have hpop : Credits p none { p with staging := staging } := .of_groups rfl
          have hadopt := credits_adoptAt { p with staging := staging } w i
          dsimp only
          cases hat : adoptAt { p with staging := staging } w i with
          | mk q r =>
              rw [hat] at hadopt
              cases r with
              | some taken => exact hpop.after hadopt
              | none => exact hpop.after (hadopt.after (ih q))

theorem credits_stealFromGroup (p : Pool) (v : Nat) (s : Seat) :
    Credits p (p.stealFromGroup v s).2 (p.stealFromGroup v s).1 := by
  rw [stealFromGroup]
  cases s.active with
  | none => exact .refl p
  | some i =>
      dsimp only
      cases hg : p.groups.get? i with
      | none => exact .refl p
      | some g =>
          have hcount := inFlight_steal g
          dsimp only
          cases hsteal : g.steal with
          | mk g' found =>
              rw [hsteal] at hcount
              cases found with
              | some t => exact .of_started hg hcount rfl rfl
              | none => exact .refl p

theorem credits_stealFrom (p : Pool) (v : Nat) :
    Credits p (p.stealFrom v).2 (p.stealFrom v).1 := by
  rw [stealFrom]
  cases p.seats[v]? with
  | none => exact .refl p
  | some s =>
      dsimp only
      split
      · exact credits_stealFromGroup p v s
      · split
        · cases s.lane.remove .head with
          | mk lane found =>
              have hseat : Credits p none (p.setSeat v { s with lane := lane }) := .of_groups rfl
              cases found with
              | some found => exact .of_own rfl rfl
              | none => exact hseat.after (credits_stealFromGroup _ v _)
        · have hrepel : Credits p none
              { p.setSeat v { s with attempts := s.attempts + 1 } with repels := p.repels + 1 } :=
            .of_groups rfl
          exact hrepel.after (credits_stealFromGroup _ v _)

theorem credits_stealAlong (victims : List Nat) (p : Pool) :
    Credits p ((stealAlong victims p).2.map Prod.snd) (stealAlong victims p).1 := by
  induction victims generalizing p with
  | nil => exact .refl p
  | cons v rest ih =>
      have hfirst := credits_stealFrom p v
      rw [stealAlong]
      cases hsteal : p.stealFrom v with
      | mk q r =>
          rw [hsteal] at hfirst
          cases r with
          | some taken => exact hfirst
          | none => exact hfirst.after (ih q)

theorem credits_stealRound (p : Pool) (w : Nat) (cursor : StealCursor) :
    Credits p (p.stealRound w cursor).2.2 (p.stealRound w cursor).1 := by
  rw [stealRound]
  dsimp only
  split
  · exact .refl p
  · have halong := credits_stealAlong
      ((cyclicFrom (firstVictim w p.workerCount cursor) p.workerCount).filter (· ≠ w)) p
    generalize stealAlong _ p = r at halong ⊢
    rcases r with ⟨q, _ | ⟨v, taken⟩⟩
    · exact halong
    · exact halong

/-- A take counts its task at the group that the task came from. -/
theorem credits_take (p : Pool) (w : Location) (cursor : StealCursor) :
    Credits p (p.take w cursor).2.2 (p.take w cursor).1 := by
  rw [take]
  cases p.seat? w with
  | none => exact .refl p
  | some s =>
      dsimp only
      cases s.lane.remove .tail with
      | mk lane found =>
          cases found with
          | some found => exact .of_own rfl rfl
          | none =>
              have hrest : Credits p none
                  (p.setSeat w.index { s with lane := lane, available := false }) := .of_groups rfl
              refine hrest.after ?_
              have hactive := credits_takeActive
                (p.setSeat w.index { s with lane := lane, available := false }) w
              dsimp only
              generalize takeActive _ w = first at hactive ⊢
              rcases first with ⟨q, _ | taken⟩
              · -- three sources in turn, each searched in what the last one left
                refine hactive.after ?_
                have hstaged := credits_adoptStaged w q.staging.size q
                dsimp only
                generalize adoptStaged w q.staging.size q = second at hstaged ⊢
                rcases second with ⟨q', _ | taken⟩
                · exact Credits.after hstaged (credits_stealRound q' w.index cursor)
                · exact hstaged
              · exact hactive

/-! ### Other calls -/

theorem references_groupTaskDone (p : Pool) (i j : ArenaIndex) :
    (p.groupTaskDone i).references j = if j = i then p.references i - 1 else p.references j := by
  rw [groupTaskDone]
  cases hg : p.groups.get? i with
  | none =>
      by_cases hj : j = i
      · -- where there is no group there is nothing to lower
        simp [hj, references, hg]
      · rw [if_neg hj]
  | some g =>
      show (p.setGroup i g.done).references j = _
      rw [references_setGroup hg, references_of_get? hg]
      rfl

/-- A task that enters is not yet taken. -/
theorem Move.references_entered {t : TaskHandle} (h : Move p (.entered t) q) (j : ArenaIndex) :
    q.references j = p.references j := by
  cases h with
  | queued seat put => exact references_of_groups rfl j
  | @published key i g t staging d found group new shelf put =>
      have hcount : ({ g with
          stage := .staged, stagings := g.stagings + 1, queue := d } : AffinityGroup).inFlight =
        g.inFlight := rfl
      exact references_setGroup_same group hcount j
  | @joined key i g t d found group old put =>
      have hcount : ({ g with queue := d } : AffinityGroup).inFlight = g.inFlight := rfl
      exact references_setGroup_same group hcount j

/-- A new group has no references, and its index had none before. -/
theorem Move.references_founded (hl : p.Linked) (h : Move p .founded q) (j : ArenaIndex) :
    q.references j = p.references j := by
  cases h with
  | @created key fresh =>
      show (((p.groups.insert _).2.get? j).map AffinityGroup.inFlight).getD 0 = p.references j
      by_cases hlt : p.groups.nextPosition < 2 ^ 32
      · rw [Arena.get?_insert hl.arena hlt]
        by_cases hj : j = (p.groups.insert (.new key p.dequeCapacity)).1
        · rw [if_pos hj, references, hj, Arena.get?_index_insert hl.arena hlt]
          rfl
        · rw [if_neg hj]
          rfl
      · -- a group past the slots that can be named changes no look-up
        rw [Arena.get?_insert_of_le hl.arena (Nat.le_of_not_lt hlt)]
        rfl

/-- Only a group without references goes, so no count changes. -/
theorem references_retireGroup (p : Pool) (key : AffinityKey) (j : ArenaIndex) :
    (p.retireGroup key).1.references j = p.references j := by
  rw [retireGroup]
  cases p.indexOf? key with
  | none => rfl
  | some i =>
      dsimp only
      cases hg : p.groups.get? i with
      | none => rfl
      | some g =>
          dsimp only
          by_cases hidle : g.isIdle = true
          · rw [if_pos hidle]
            cases hr : p.groups.remove i with
            | none => rfl
            | some removed =>
                obtain ⟨x, groups⟩ := removed
                show ((groups.get? j).map AffinityGroup.inFlight).getD 0 = p.references j
                rw [Arena.get?_remove hr]
                by_cases hj : j = i
                · rw [if_pos hj, hj, references_of_get? hg, ((g.isIdle_iff).1 hidle).2.2]
                  rfl
                · rw [if_neg hj]
                  rfl
          · rw [if_neg hidle]

/-! ### Retiring -/

/-- A pool that retires a key's group forgets that group and its key and nothing else; one that
refuses has a group for the key that is not idle, or none at all. -/
theorem retireGroup_cases (h : p.Indexed) (key : AffinityKey) :
    (∃ i g groups, p.indexOf? key = some i ∧ p.groups.get? i = some g ∧ g.isIdle = true ∧
        p.groups.remove i = some (g, groups) ∧
        p.retireGroup key =
          ({ p with groups := groups, directory := p.directory.filter fun e => e.1 ≠ key },
            .ok ())) ∨
      ((∀ i g, p.indexOf? key = some i → p.groups.get? i = some g → g.isIdle = false) ∧
        ∃ e, p.retireGroup key = (p, .error e)) := by
  rw [retireGroup]
  cases hi : p.indexOf? key with
  | none =>
      right
      refine ⟨?_, _, rfl⟩
      intro i g hfound
      cases hfound
  | some i =>
      -- a key that is listed leads to a group
      obtain ⟨g, hg, -⟩ := Option.map_eq_some_iff.1 ((h.index_iff key i).1 hi)
      dsimp only
      rw [hg]
      dsimp only
      by_cases hidle : g.isIdle = true
      · left
        cases hr : p.groups.remove i with
        | none =>
            rw [Arena.remove_eq_none_iff, hg] at hr
            cases hr
        | some removed =>
            obtain ⟨x, groups⟩ := removed
            have hx : x = g := Option.some.inj ((Arena.remove_eq_some hr).1.symm.trans hg)
            subst hx
            refine ⟨i, x, groups, rfl, hg, hidle, hr, ?_⟩
            rw [if_pos hidle]
            rfl
      · right
        refine ⟨?_, ?_⟩
        · intro j x hj hx
          cases hj
          rw [hg] at hx
          cases hx
          exact Bool.eq_false_iff.2 hidle
        · rw [if_neg hidle]
          exact ⟨_, rfl⟩

/-! ### Keys without a group -/

/-- The key of the group that a call may make. -/
def Call.foundedKey? : Call → Option AffinityKey
  | .createGroup key => some key
  | _ => none

theorem countP_createsGroup (calls : List Call) :
    calls.countP Call.createsGroup = (calls.filterMap Call.foundedKey?).length := by
  induction calls with
  | nil => rfl
  | cons call rest ih =>
      rw [List.countP_cons, ih, List.filterMap_cons]
      cases call with
      | createGroup key => rfl
      | _ => rfl

variable {key : AffinityKey}

/-- A task whose hint names a key without a group goes where it would go without the key. -/
theorem give_of_unlisted (hnone : p.indexOf? key = none) {hint : Hint}
    (hkey : hint.affinity = some key) (giver : Giver) (t : TaskHandle) :
    p.give giver t hint = p.give giver t { hint with affinity := none } := by
  have hleft : p.give giver t hint = p.giveToWorker giver t hint := by
    rw [give, hkey]
    simp [hnone]
  have hright : p.give giver t { hint with affinity := none } =
      p.giveToWorker giver t { hint with affinity := none } := by
    rw [give]
    simp
  rw [hleft, hright]
  rfl

/-- Only a move that makes a group lists a key. -/
theorem Move.unlisted {e : Event} (m : Move p e q) (he : e ≠ .founded)
    (hnone : p.indexOf? key = none) : q.indexOf? key = none := by
  -- the directory stays as it is, or loses a key
  have hfilter : ∀ other : AffinityKey,
      (p.directory.filter fun e => e.1 ≠ other).lookup key = none := by
    intro other
    rw [lookup_filter_ne]
    split
    · rfl
    · exact hnone
  cases m with
  | created fresh => exact absurd rfl he
  | retired found gone idle => exact hfilter _
  | forgotten found gone => exact hfilter _
  | _ => exact hnone

/-- What every move but one that makes a group keeps, a search keeps. -/
theorem Yields.keeps {P : Pool → Prop}
    (step : ∀ {p q : Pool} {e : Event}, Move p e q → e ≠ .founded → P p → P q)
    (hy : Yields p r q) (hp : P p) : P q := by
  have hquiet : ∀ {m : Pool}, Quiet p m → P m := by
    intro m hm
    induction hm with
    | refl => exact hp
    | tail _ hmove ih => exact step hmove (by simp) ih
  cases r with
  | none => exact hquiet hy
  | some taken =>
      obtain ⟨m, hm, hmove⟩ := hy
      exact step hmove (by simp) (hquiet hm)

/-- Only a call that makes a group for a key lists that key. -/
theorem unlisted_perform (h : p.Linked) {call : Call} (hcall : call.foundedKey? ≠ some key)
    (hnone : p.indexOf? key = none) : (p.perform call).indexOf? key = none := by
  have hstep : ∀ {p q : Pool} {e : Event}, Move p e q → e ≠ .founded →
      p.indexOf? key = none → q.indexOf? key = none :=
    fun m he => m.unlisted he
  cases call with
  | give giver t hint =>
      rcases give_cases h giver t hint with ⟨placed, -, hm⟩ | ⟨f, hf⟩
      · exact hm.unlisted (by simp) hnone
      · rw [perform, hf]
        exact hnone
  | take w cursor =>
      exact (take_yields h w cursor).keeps hstep hnone
  | createGroup other =>
      have hne : key ≠ other := by
        intro he
        exact hcall (congrArg some he.symm)
      rw [perform, createGroup]
      cases p.indexOf? other with
      | some i => exact hnone
      | none =>
          -- the directory gains another key
          show ((other, _) :: p.directory).lookup key = none
          rw [lookup_cons_eq_ite, if_neg hne]
          exact hnone
  | retireGroup other =>
      have hquiet : Yields p none (p.retireGroup other).1 := retireGroup_quiet p other
      exact hquiet.keeps hstep hnone
  | groupTaskDone i =>
      have hquiet : Yields p none (p.groupTaskDone i) := groupTaskDone_quiet p i
      exact hquiet.keeps hstep hnone

/-- A key stays without a group through every run that makes none for it. -/
theorem unlisted_run (h : p.Linked) {calls : List Call}
    (hcalls : key ∉ calls.filterMap Call.foundedKey?) (hnone : p.indexOf? key = none) :
    (p.run calls).indexOf? key = none := by
  induction calls generalizing p with
  | nil => exact hnone
  | cons call rest ih =>
      have hmem : ∀ call' ∈ call :: rest, call'.foundedKey? ≠ some key := by
        intro call' hcall' hkey
        exact hcalls (List.mem_filterMap.2 ⟨call', hcall', hkey⟩)
      refine ih (linked_run h [call]) ?_ ?_
      · intro hrest
        obtain ⟨call', hcall', hkey⟩ := List.mem_filterMap.1 hrest
        exact hmem call' (List.mem_cons_of_mem _ hcall') hkey
      · exact unlisted_perform h (hmem call List.mem_cons_self) hnone

end Pool

end WorkStealing
