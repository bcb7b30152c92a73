import WorkStealing.Proofs.Pool.Run

/-!
# Affinity groups in their places

Four parts of a pool speak of affinity groups: the directory of keys, the arena, the staging slots
and the seats. `affinity_run` says that they agree after every run of calls. `Pool.Placed` is the
part that goes by indices, `Pool.Keyed` the part that goes by keys.

An index has 32 bits for the slot of its group. The part that goes by keys therefore speaks of
pools whose slots all have numbers (`Arena.Addressable`), that is, which never had more than
`2 ^ 32` groups at once; slots are reused, so any number of groups may have come and gone. A run
that makes no more than `2 ^ 32` groups in all cannot leave this bound (`length_slots_run`).
-/

namespace WorkStealing.Pool

/-- The key of the group that an index names. -/
def keyAt (p : Pool) (i : ArenaIndex) : Option AffinityKey :=
  (p.groups.get? i).map AffinityGroup.key

/-- Where a group stands, by its stage. -/
structure Placed (p : Pool) : Prop where
  staged_iff : ∀ i g, p.groups.get? i = some g → (g.stage = .staged ↔ p.staging.copies i = 1)
  busy_of_staged : ∀ i g, p.groups.get? i = some g → g.stage = .staged → g.tasks ≠ []
  active_iff : ∀ i g, p.groups.get? i = some g →
    ((∃ w, g.stage = .active w) ↔ ∃! k, p.activeAt k = some i)
  drainer : ∀ i g k, p.groups.get? i = some g → p.activeAt k = some i →
    ∃ w : Location, g.stage = .active w ∧ w.index = k
  new_facts : ∀ i g, p.groups.get? i = some g → g.stage = .new →
    p.staging.copies i = 0 ∧ (∀ k, p.activeAt k ≠ some i) ∧ g.tasks = []
  size : p.staging.size = p.groups.values.countP fun g => g.stage = .staged
  live_of_copies : ∀ i, 0 < p.staging.copies i → ∃ g, p.groups.get? i = some g
  live_of_active : ∀ k i, p.activeAt k = some i → ∃ g, p.groups.get? i = some g

/-- The directory and the arena hold the same groups, one for each key, and a group that waits
stands in the slot of its key. -/
structure Keyed (p : Pool) : Prop where
  index_iff : ∀ key i, p.indexOf? key = some i ↔ ∃ g, p.groups.get? i = some g ∧ g.key = key
  stored : ∀ g ∈ p.groups.values, ∃ i, p.indexOf? g.key = some i ∧ p.groups.get? i = some g
  slot : ∀ i g, p.groups.get? i = some g → g.stage = .staged →
    ∃ d, p.staging.slots[p.staging.slotFor g.key]? = some d ∧ i ∈ d.toList
  slot_unique : ∀ i g k d, p.groups.get? i = some g → p.staging.slots[k]? = some d →
    i ∈ d.toList → k = p.staging.slotFor g.key

/-- What every move keeps of the above, by look-ups alone. -/
structure Indexed (p : Pool) : Prop where
  index_iff : ∀ key i, p.indexOf? key = some i ↔ p.keyAt i = some key
  slot : ∀ i key k d, p.keyAt i = some key → p.staging.slots[k]? = some d → i ∈ d.toList →
    k = p.staging.slotFor key

variable {p q : Pool} {e : Event} {i : ArenaIndex} {g g' : AffinityGroup}

theorem keyAt_of_get? (h : p.groups.get? i = some g) : p.keyAt i = some g.key := by
  rw [keyAt, h, Option.map_some]

theorem keyAt_setGroup (h : p.groups.get? i = some g) (hk : g'.key = g.key) (j : ArenaIndex) :
    (p.setGroup i g').keyAt j = p.keyAt j := by
  simp only [keyAt, setGroup]
  rw [Arena.get?_set h]
  by_cases hj : j = i
  · rw [if_pos hj, hj, h, Option.map_some, Option.map_some, hk]
  · rw [if_neg hj]

/-! ### By index -/

theorem total_waiting (groups : Arena AffinityGroup) :
    groups.total waiting = groups.values.countP fun g => g.stage = .staged := by
  rw [Arena.total]
  induction groups.values with
  | nil => rfl
  | cons g rest ih =>
      rw [List.map_cons, List.sum_cons, ih, List.countP_cons, waiting, add_comm]
      simp only [decide_eq_true_eq]

/-- A pool in step has every group in its place. -/
theorem Linked.placed (h : p.Linked) : p.Placed where
  staged_iff i g hg := by
    have hcopies := h.staged i
    simp only [stageAt_of_get? hg, Option.some.injEq] at hcopies
    rw [hcopies]
    by_cases hs : g.stage = .staged
    · simp [hs]
    · simp [hs]
  busy_of_staged i g hg := (h.consistent i g hg).busy_of_staged
  active_iff i g hg := by
    constructor
    · rintro ⟨w, hw⟩
      refine ⟨w.index, (h.active _ i).2 ⟨w, ?_, rfl⟩, fun k hk => ?_⟩
      · rw [stageAt_of_get? hg, hw]
      · -- two seats that name the group have the same worker, namely its drainer
        obtain ⟨u, hu, hk⟩ := (h.active k i).1 hk
        rw [stageAt_of_get? hg, hw, Option.some.injEq, Stage.active.injEq] at hu
        rw [← hk, hu]
    · rintro ⟨k, hk, -⟩
      obtain ⟨w, hw, -⟩ := (h.active k i).1 hk
      rw [stageAt_of_get? hg, Option.some.injEq] at hw
      exact ⟨w, hw⟩
  drainer i g k hg hk := by
    obtain ⟨w, hw, hindex⟩ := (h.active k i).1 hk
    rw [stageAt_of_get? hg, Option.some.injEq] at hw
    exact ⟨w, hw, hindex⟩
  new_facts i g hg hnew := by
    refine ⟨?_, ?_, (h.consistent i g hg).empty_of_new hnew⟩
    · rw [h.staged, stageAt_of_get? hg, hnew]
      simp
    · intro k hk
      obtain ⟨w, hw, -⟩ := (h.active k i).1 hk
      rw [stageAt_of_get? hg, hnew] at hw
      cases hw
  size := by rw [h.size, total_waiting]
  live_of_copies i hi := by
    obtain ⟨g, hg, -⟩ := h.staged_of_copies hi
    exact ⟨g, hg⟩
  live_of_active k i hk := by
    obtain ⟨g, w, hg, -⟩ := h.stage_of_activeAt hk
    exact ⟨g, hg⟩

/-! ### By key -/

/-- Only a new group can take up a slot; other moves replace a value or vacate its slot. -/
theorem Move.length_slots (m : Move p e q) (he : e ≠ .founded) :
    q.groups.slots.length = p.groups.slots.length := by
  cases m with
  | published found group new shelf put => exact Arena.length_slots_set ..
  | joined found group old put => exact Arena.length_slots_set ..
  | drained seat group found origin => exact Arena.length_slots_set ..
  | released seat noted group stage bare => exact Arena.length_slots_set ..
  | adopted seat free shelf group waits found => exact Arena.length_slots_set ..
  | finished group => exact Arena.length_slots_set ..
  | created fresh => exact absurd rfl he
  | retired found gone idle => exact Arena.length_slots_remove gone
  | _ => rfl

/-- No move gives a slot up, so slots that have numbers had them all along. -/
theorem Move.addressable (hw : p.groups.WellFormed) (m : Move p e q)
    (h : q.groups.Addressable) : p.groups.Addressable := by
  have hle : p.groups.slots.length ≤ q.groups.slots.length := by
    by_cases he : e = .founded
    · subst he
      cases m with
      | created fresh => exact (Arena.length_slots_insert hw _).1
    · exact Nat.le_of_eq (m.length_slots he).symm
  exact Nat.le_trans hle h

/-- A call takes up a slot only if it makes a group, and then at most one. -/
theorem length_slots_perform (h : p.Linked) (call : Call) :
    (p.perform call).groups.slots.length ≤
      p.groups.slots.length + if call.createsGroup then 1 else 0 := by
  cases call with
  | give giver t hint =>
      rcases give_cases h giver t hint with ⟨placed, -, hm⟩ | ⟨f, hf⟩
      · exact Nat.le_of_eq (hm.length_slots (by simp))
      · rw [perform, hf]
        exact Nat.le_refl _
  | take w cursor =>
      exact Nat.le_of_eq ((take_yields h w cursor).unchanged Move.length_slots)
  | createGroup key =>
      rcases createGroup_cases p key with hsame | hm
      · rw [perform, hsame]
        exact Nat.le_succ _
      · rw [perform]
        generalize (p.createGroup key).1 = q at hm
        cases hm with
        | created fresh => exact Arena.length_slots_insert_le h.arena _
  | retireGroup key =>
      exact Nat.le_of_eq ((retireGroup_quiet p key).unchanged fun hm => hm.length_slots (by simp))
  | groupTaskDone i =>
      exact Nat.le_of_eq ((groupTaskDone_quiet p i).unchanged fun hm => hm.length_slots (by simp))

/-- A run takes up at most as many slots as it makes groups. -/
theorem length_slots_run (h : p.Linked) (calls : List Call) :
    (p.run calls).groups.slots.length ≤
      p.groups.slots.length + calls.countP Call.createsGroup := by
  induction calls generalizing p with
  | nil => exact Nat.le_refl _
  | cons call rest ih =>
      have hcall := length_slots_perform h call
      have hrest : ((p.perform call).run rest).groups.slots.length ≤
          (p.perform call).groups.slots.length + rest.countP Call.createsGroup :=
        ih (linked_run h [call])
      rw [List.countP_cons]
      show ((p.perform call).run rest).groups.slots.length ≤ _
      omega

theorem Indexed.congr (h : p.Indexed) (hdirectory : q.directory = p.directory)
    (hkey : ∀ j, q.keyAt j = p.keyAt j) (hstaging : q.staging = p.staging) : q.Indexed where
  index_iff key j := by
    rw [hkey, ← h.index_iff, indexOf?, hdirectory]
    rfl
  slot j key k d hj := by
    rw [hstaging]
    exact h.slot j key k d ((hkey j).symm.trans hj)

theorem Indexed.publish {staging : Staging} {key : AffinityKey} (h : p.Indexed)
    (hfound : p.indexOf? key = some i) (hg : p.groups.get? i = some g) (hk : g'.key = g.key)
    (hshelf : p.staging.push key i = .ok staging) :
    ({ p with groups := p.groups.set i g', staging := staging } : Pool).Indexed := by
  have hkey := keyAt_setGroup hg hk
  have hcount := Staging.slotCount_push hshelf
  obtain ⟨-, -, x, hx, -, hslots⟩ := Staging.push_facts hshelf
  refine ⟨fun key j => (h.index_iff key j).trans (by rw [← hkey]; rfl),
    fun j key' k d hj hd hmem => ?_⟩
  have hj' : p.keyAt j = some key' := (hkey j).symm.trans hj
  show k = key'.id.toNat % staging.slotCount
  rw [hcount]
  -- only the slot of the key has changed, and there only the new index came in
  by_cases hslot : p.staging.slotFor key = k
  · have hlt := (List.getElem?_eq_some_iff.1 hx).1
    rw [← hslot]
    simp only [hslots, ← hslot, List.getElem?_set_self hlt, Option.some.injEq] at hd
    rw [← hd, Deque.toList_push, List.mem_append, List.mem_singleton] at hmem
    rcases hmem with hmem | rfl
    · exact h.slot j key' _ x hj' hx hmem
    · -- the index that came in carries the key of this very slot
      rw [(h.index_iff key j).1 hfound, Option.some.injEq] at hj'
      rw [hj']
      rfl
  · simp only [hslots, List.getElem?_set_ne hslot] at hd
    exact h.slot j key' k d hj' hd hmem

theorem Indexed.adopt {staging : Staging} {k : Nat} (h : p.Indexed) (hg : p.groups.get? i = some g)
    (g' : AffinityGroup) (hk : g'.key = g.key) (hshelf : p.staging.pop? k = some (i, staging)) :
    ({ p with staging := staging }.setGroup i g').Indexed := by
  have hkey := keyAt_setGroup hg hk
  have hcount := Staging.slotCount_pop? hshelf
  obtain ⟨-, k', x, r, hx, hlist, rfl⟩ := Staging.pop?_facts hshelf
  refine ⟨fun key j => (h.index_iff key j).trans (by rw [← hkey]; rfl),
    fun j key' u d hj hd hmem => ?_⟩
  have hj' : p.keyAt j = some key' := (hkey j).symm.trans hj
  show u = key'.id.toNat % (p.staging.setSlot k' r _).slotCount
  rw [hcount]
  -- what is left in the slot of the adopted group stood there before
  by_cases hu : k' = u
  · have hlt := (List.getElem?_eq_some_iff.1 hx).1
    have hr : (p.staging.slots.set k' r)[u]? = some d := hd
    rw [← hu, List.getElem?_set_self hlt, Option.some.injEq] at hr
    apply h.slot j key' u x hj' (hu ▸ hx)
    rw [hlist, hr]
    exact List.mem_cons_of_mem i hmem
  · have hr : (p.staging.slots.set k' r)[u]? = some d := hd
    rw [List.getElem?_set_ne hu] at hr
    exact h.slot j key' u d hj' hr hmem

theorem lookup_cons_eq_ite {α β : Type} [DecidableEq α] (x : α × β) (xs : List (α × β)) (b : α) :
    (x :: xs).lookup b = if b = x.1 then some x.2 else xs.lookup b := by
  rw [List.lookup_cons]
  by_cases hb : b = x.1
  · rw [if_pos hb, beq_iff_eq.2 hb]
  · rw [if_neg hb, beq_false_of_ne hb]

theorem lookup_filter_ne {α β : Type} [DecidableEq α] (xs : List (α × β)) (a b : α) :
    (xs.filter fun e => e.1 ≠ a).lookup b = if b = a then none else xs.lookup b := by
  induction xs with
  | nil => simp
  | cons x rest ih =>
      by_cases hx : x.1 = a
      · rw [List.filter_cons_of_neg (by simpa using hx), ih, lookup_cons_eq_ite]
        by_cases hb : b = a
        · rw [if_pos hb, if_pos hb]
        · rw [if_neg hb, if_neg hb, if_neg (fun he => hb (he.trans hx))]
      · rw [List.filter_cons_of_pos (by simpa using hx), lookup_cons_eq_ite, lookup_cons_eq_ite, ih]
        by_cases hb : b = a
        · rw [if_pos hb, if_neg (fun he => hx (he.symm.trans hb)), if_pos hb]
        · rw [if_neg hb, if_neg hb]

/-- A group that is stored at a slot that can be named brings its key. -/
theorem keyAt_insert (h : p.Linked) (hlt : p.groups.nextPosition < 2 ^ 32) (g : AffinityGroup)
    (j : ArenaIndex) :
    ((p.groups.insert g).2.get? j).map AffinityGroup.key =
      if j = (p.groups.insert g).1 then some g.key else p.keyAt j := by
  rw [Arena.get?_insert h.arena hlt]
  by_cases hj : j = (p.groups.insert g).1
  · rw [if_pos hj, if_pos hj, Option.map_some]
  · rw [if_neg hj, if_neg hj]
    rfl

/-- A group that goes takes its key along. -/
theorem keyAt_remove {groups : Arena AffinityGroup} (h : p.groups.remove i = some (g, groups))
    (j : ArenaIndex) :
    (groups.get? j).map AffinityGroup.key = if j = i then none else p.keyAt j := by
  rw [Arena.get?_remove h]
  by_cases hj : j = i
  · rw [if_pos hj, if_pos hj, Option.map_none]
  · rw [if_neg hj, if_neg hj]
    rfl

theorem Indexed.create {key : AffinityKey} (h : p.Indexed) (hl : p.Linked)
    (hlt : p.groups.nextPosition < 2 ^ 32) (hfresh : p.indexOf? key = none) :
    ({ p with
        groups := (p.groups.insert (.new key p.dequeCapacity)).2
        directory := (key, (p.groups.insert (.new key p.dequeCapacity)).1) :: p.directory } :
      Pool).Indexed := by
  generalize hnew : AffinityGroup.new key p.dequeCapacity = g
  have hgkey : g.key = key := by rw [← hnew]; rfl
  have hgone := Arena.get?_index_insert hl.arena hlt g
  have hkey := keyAt_insert hl hlt g
  rw [hgkey] at hkey
  constructor
  · intro key' j
    show ((key, (p.groups.insert g).1) :: p.directory).lookup key' = some j ↔
      ((p.groups.insert g).2.get? j).map AffinityGroup.key = some key'
    rw [hkey, lookup_cons_eq_ite]
    show (if key' = key then some (p.groups.insert g).1 else p.indexOf? key') = some j ↔ _
    -- the new index goes with the new key, both unknown before
    by_cases hj : j = (p.groups.insert g).1
    · -- no key led to the new index before
      have hnone : p.indexOf? key' ≠ some j := by
        intro hlook
        have hat := (h.index_iff key' j).1 hlook
        rw [keyAt, hj, hgone] at hat
        cases hat
      rw [if_pos hj]
      by_cases hk : key' = key
      · simp [hk, hj]
      · rw [if_neg hk]
        simp [hnone, Ne.symm hk]
    · rw [if_neg hj, ← h.index_iff]
      by_cases hk : key' = key
      · rw [if_pos hk, hk, hfresh]
        simp [Ne.symm hj]
      · rw [if_neg hk]
  · intro j key' k d hj hd hmem
    have hat : (if j = (p.groups.insert g).1 then some key else p.keyAt j) = some key' :=
      (hkey j).symm.trans hj
    by_cases hjnew : j = (p.groups.insert g).1
    · -- the new index stands in no slot, since it named nothing before
      have hpos : 0 < p.staging.copies j :=
        (Staging.copies_pos_iff _ _).2 ⟨d, List.mem_of_getElem? hd, hmem⟩
      obtain ⟨x, hx, -⟩ := hl.staged_of_copies hpos
      rw [hjnew, hgone] at hx
      cases hx
    · rw [if_neg hjnew] at hat
      exact h.slot j key' k d hat hd hmem

theorem Indexed.retire {key : AffinityKey} {groups : Arena AffinityGroup} (h : p.Indexed)
    (hfound : p.indexOf? key = some i) (hgone : p.groups.remove i = some (g, groups)) :
    ({ p with groups := groups, directory := p.directory.filter fun e => e.1 ≠ key } :
      Pool).Indexed := by
  have hkey := keyAt_remove hgone
  constructor
  · intro key' j
    show (p.directory.filter fun e => e.1 ≠ key).lookup key' = some j ↔
      (groups.get? j).map AffinityGroup.key = some key'
    rw [lookup_filter_ne, hkey]
    -- the key and the index go together, so no other key led to that index
    by_cases hk : key' = key
    · subst hk
      by_cases hj : j = i
      · simp [hj]
      · rw [if_pos rfl, if_neg hj, ← h.index_iff, hfound]
        simp [Ne.symm hj]
    · rw [if_neg hk]
      by_cases hj : j = i
      · rw [if_pos hj, hj]
        have hne : ¬ p.directory.lookup key' = some i := by
          intro hl
          have hat := (h.index_iff key' i).1 hl
          rw [(h.index_iff key i).1 hfound, Option.some.injEq] at hat
          exact hk hat.symm
        simp [hne]
      · rw [if_neg hj, ← h.index_iff]
        rfl
  · intro j key' k d hj hd hmem
    have hat : (if j = i then none else p.keyAt j) = some key' := (hkey j).symm.trans hj
    by_cases hji : j = i
    · rw [if_pos hji] at hat
      cases hat
    · rw [if_neg hji] at hat
      exact h.slot j key' k d hat hd hmem

/-- Every move keeps the directory and the slots, while slots have numbers. -/
theorem Move.indexed (hl : p.Linked) (m : Move p e q) (ha : q.groups.Addressable)
    (h : p.Indexed) : q.Indexed := by
  -- moves of seats and of queues leave keys alone
  cases m with
  | queued seat put => exact h.congr rfl (fun _ => rfl) rfl
  | removed seat found own => exact h.congr rfl (fun _ => rfl) rfl
  | rested seat found => exact h.congr rfl (fun _ => rfl) rfl
  | repelled seat busy below => exact h.congr rfl (fun _ => rfl) rfl
  | published found group new shelf put => exact h.publish found group rfl shelf
  | joined found group old put => exact h.congr rfl (keyAt_setGroup group rfl) rfl
  | drained seat group found origin => exact h.congr rfl (keyAt_setGroup group rfl) rfl
  | released seat noted group stage bare => exact h.congr rfl (keyAt_setGroup group rfl) rfl
  | @adopted w i s g t staging d seat free shelf group waits found =>
      have hadopt := h.adopt group
        { g with stage := .active w, queue := d, inFlight := g.inFlight + 1 } rfl shelf
      exact hadopt.congr rfl (fun _ => rfl) rfl
  | finished group => exact h.congr rfl (keyAt_setGroup group rfl) rfl
  | @created key fresh =>
      refine h.create hl ?_ fresh
      exact Nat.lt_of_lt_of_le (Arena.length_slots_insert hl.arena _).2 ha
  | retired found gone idle => exact h.retire found gone
  | forgotten found gone =>
      -- a key never leads to a group that is gone, so this move does not occur here
      have hat := (h.index_iff _ _).1 found
      rw [keyAt, gone] at hat
      cases hat

theorem indexed_new (c : SchedulerConfig) (auto : Nat) : (new c auto).Indexed where
  index_iff key i := by simp [indexOf?, keyAt, new, Arena.get?]
  slot i key k d hi := by simp [keyAt, new, Arena.get?] at hi

/-- Where slots have numbers, the invariant says all that is said of keys. -/
theorem Indexed.keyed (h : p.Indexed) (hl : p.Linked) (ha : p.groups.Addressable) : p.Keyed where
  index_iff key i := (h.index_iff key i).trans Option.map_eq_some_iff
  stored g hg := by
    -- no slot lies past those that can be named
    have hbeyond : p.groups.Beyond fun _ => False := by
      intro k s v hk hs _
      have hlt := (List.getElem?_eq_some_iff.1 hs).1
      exact absurd (Nat.lt_of_lt_of_le hlt ha) (Nat.not_lt.2 hk)
    rcases Arena.get?_or_of_mem_values hbeyond hg with ⟨i, hi⟩ | hfalse
    · exact ⟨i, (h.index_iff g.key i).2 (keyAt_of_get? hi), hi⟩
    · exact hfalse.elim
  slot i g hg hs := by
    -- its one copy stands in some slot, and that slot is the one of its key
    have hone := (hl.placed.staged_iff i g hg).1 hs
    have hpos : 0 < p.staging.copies i := by omega
    obtain ⟨d, hd, hmem⟩ := (Staging.copies_pos_iff _ _).1 hpos
    obtain ⟨k, hk⟩ := List.mem_iff_getElem?.1 hd
    refine ⟨d, ?_, hmem⟩
    rw [← h.slot i g.key k d (keyAt_of_get? hg) hk hmem]
    exact hk
  slot_unique i g k d hg hd hmem := h.slot i g.key k d (keyAt_of_get? hg) hd hmem

/-- After every run of calls, by anyone in any order and whether or not they succeed, the directory,
the arena, the staging slots and the seats agree about every affinity group, as long as an index can
name every slot; it takes more than `2 ^ 32` new groups to get past that. -/
theorem affinity_run (c : SchedulerConfig) (auto : Nat) (calls : List Call) :
    ((new c auto).run calls).Placed ∧
      (((new c auto).run calls).groups.Addressable → ((new c auto).run calls).Keyed) ∧
      (calls.countP Call.createsGroup ≤ 2 ^ 32 → ((new c auto).run calls).groups.Addressable) := by
  have hrun := run_induction (P := fun q => q.groups.Addressable → q.Indexed)
    (linked_new c auto) (fun _ => indexed_new c auto)
    (fun p q e hl hm hp ha => hm.indexed hl ha (hp (hm.addressable hl.arena ha))) calls
  have hslots := length_slots_run (linked_new c auto) calls
  rw [show (new c auto).groups.slots.length = 0 from rfl, Nat.zero_add] at hslots
  exact ⟨hrun.1.placed, fun ha => (hrun.2 ha).keyed hrun.1 ha, fun hle => Nat.le_trans hslots hle⟩

/-- A group that has been founded and given a task waits in a staging slot, once, under its key. -/
theorem affinity_run_staged :
    let calls : List Call :=
      [.createGroup ⟨7⟩, .give (.owner ⟨0⟩) ⟨5⟩ (Hint.ofAffinity ⟨7⟩)]
    let p := (new { workers := 2 } 1).run calls
    calls.countP Call.createsGroup ≤ 2 ^ 32 ∧ p.groups.Addressable ∧ p.Keyed ∧
      ∃ i g, p.indexOf? ⟨7⟩ = some i ∧ p.groups.get? i = some g ∧ g.stage = .staged ∧
        p.staging.copies i = 1 := by
  intro calls p
  obtain ⟨hplaced, hkeyed, hroom⟩ := affinity_run { workers := 2 } 1 calls
  have hfew : calls.countP Call.createsGroup ≤ 2 ^ 32 := by decide
  have ha : p.groups.Addressable := hroom hfew
  have hk : p.Keyed := hkeyed ha
  have hindex : p.indexOf? ⟨7⟩ = some ⟨0, 0⟩ := by decide +kernel
  obtain ⟨g, hg, -⟩ := (hk.index_iff ⟨7⟩ ⟨0, 0⟩).1 hindex
  have hstage : (p.groups.get? ⟨0, 0⟩).map AffinityGroup.stage = some .staged := by decide +kernel
  rw [hg, Option.map_some, Option.some_inj] at hstage
  exact ⟨hfew, ha, hk, ⟨0, 0⟩, g, hindex, hg, hstage, (hplaced.staged_iff _ g hg).1 hstage⟩

end WorkStealing.Pool
