import WorkStealing.Proofs.Runlevel.Walks

/-!
# The current level

A manager names one level as the current one. It is meant to be the highest level that is up, with
all levels below it, at every participant (`Observed.Tops`), but the manager sets it as its walks
pass from level to level, also where a walk only repeats what is up already, and leaves it alone
where a walk stops. `current_exact_iff` says after which calls it is the highest level all the same.

Participants are never more than one phase apart (`Observed.Abreast`), so the switch at which a walk
stops fixes which levels are whole: on the way up those below its level (`bringUpTo_refused`), on
the way down at least those (`tearDown_refused`).
-/

namespace WorkStealing

namespace RunLevel

theorem rank_of_below? {l b : RunLevel} (h : l.below? = some b) : b.rank + 1 = l.rank := by
  cases l <;> cases h <;> rfl

theorem eq_of_below?_eq_none {l : RunLevel} (h : l.below? = none) : l = .configParse := by
  cases l with
  | configParse => rfl
  | _ => cases h

end RunLevel

namespace Runlevels

variable {σ : Type} {heights : Nat → Nat} {level : RunLevel} {phase n : Nat}

namespace Observed

/-- Every phase of a level and of those below it was last switched up at every participant. -/
def Whole (o : Observed σ) (level : RunLevel) : Prop :=
  ∀ k, k < o.manager.participants.length → ∀ l : RunLevel, l.rank ≤ level.rank →
    ∀ phase, phase < o.manager.phases l →
      stands o.journal { participant := k, level := l, phase := phase } = true

/-- The highest level that is whole, if any is. -/
def Tops (o : Observed σ) : Option RunLevel → Prop
  | some level => o.Whole level ∧ ∀ l, o.Whole l → l.rank ≤ level.rank
  | none => ∀ l, ¬ o.Whole l

/-- The manager names the highest level that is whole. -/
def IsExact (o : Observed σ) : Prop := o.Tops o.manager.current

/-- The level of the switch at which a call is refused: the last that is told in it. -/
def refusedAt (o : Observed σ) (c : Call σ) : Option RunLevel :=
  match (o.call c).2 with
  | .ok () => none
  | .error _ => (o.call c).1.journal.head?.map fun t => t.mark.level

end Observed

/-- The level that a call is to bring up. -/
def Call.target? : Call σ → Option RunLevel
  | .bringUpTo target => some target
  | .bringUp => some .userOk
  | _ => none

/-! ### What is whole -/

namespace Observed

variable {o : Observed σ}

/-- A level is whole if every participant has come as far as it needs. -/
theorem whole_iff (hs : Stacked o.manager o.journal heights) (level : RunLevel) :
    o.Whole level ↔
      ∀ k, k < o.manager.participants.length → o.manager.extent level ≤ heights k := by
  constructor
  · intro h k hk
    by_contra hlt
    have hlt' : heights k < (o.manager.order.take (o.manager.extent level)).length := by
      rw [take_extent]
      exact Nat.lt_of_not_le hlt
    rw [List.length_take] at hlt'
    -- the next phase of this participant belongs to the level and is not up
    have hnext : o.manager.order[heights k]? = some o.manager.order[heights k] :=
      List.getElem?_eq_getElem (by omega)
    generalize o.manager.order[heights k] = x at hnext
    obtain ⟨l, phase⟩ := x
    have hrank := (lt_extent_iff hnext level).1 (Nat.lt_of_not_le hlt)
    have hup := h k hk l hrank phase (mem_order (List.mem_of_getElem? hnext))
    rw [hs.stands_iff, mem_take_iff o.manager.nodup_order hnext] at hup
    exact Nat.lt_irrefl _ hup
  · intro h k hk l hrank phase hphase
    rw [hs.stands_iff]
    apply List.take_subset_take_left o.manager.order (h k hk)
    rw [take_extent]
    exact mem_through.2 ⟨hrank, hphase⟩

/-- All levels below one that every participant has come to are whole. -/
theorem whole_below (hs : Stacked o.manager o.journal heights)
    (hn : o.manager.order[n]? = some (level, phase))
    (hall : ∀ k, k < o.manager.participants.length → n ≤ heights k) {l : RunLevel}
    (hlt : l.rank < level.rank) : o.Whole l := by
  rw [whole_iff hs]
  intro k hk
  have hextent := (lt_extent_iff hn l).not.2 (Nat.not_le.2 hlt)
  exact Nat.le_trans (Nat.le_of_not_lt hextent) (hall k hk)

/-- A level that is whole ends no later than where any participant is. -/
theorem extent_le_of_whole (hs : Stacked o.manager o.journal heights) {l : RunLevel}
    (hwhole : o.Whole l) {k : Nat} (hk : k < o.manager.participants.length)
    (hheight : heights k ≤ n) : o.manager.extent l ≤ n :=
  Nat.le_trans ((whole_iff hs l).1 hwhole k hk) hheight

/-- Where nothing is up at the participants, no level is whole. -/
theorem not_whole (hs : Stacked o.manager o.journal heights) (hps : o.manager.participants ≠ [])
    (hphases : ∀ l, 0 < o.manager.phases l)
    (hempty : ∀ k, k < o.manager.participants.length → heights k = 0) (l : RunLevel) :
    ¬ o.Whole l := by
  intro hwhole
  have hfirst := List.length_pos_iff.2 hps
  obtain ⟨i, hi⟩ := exists_index (hphases l)
  have hneeds := (lt_extent_iff hi l).2 (Nat.le_refl _)
  have hle := extent_le_of_whole hs hwhole hfirst (Nat.le_of_eq (hempty 0 hfirst))
  omega

/-- With the highest level that is whole known, the current one is exact if it is this. -/
theorem Tops.isExact_iff {top : Option RunLevel} (h : o.Tops top) :
    o.IsExact ↔ o.manager.current = top := by
  rw [IsExact]
  cases hcurrent : o.manager.current with
  | none =>
      cases top with
      | none => exact iff_of_true h rfl
      | some level => exact iff_of_false (fun hnone => hnone level h.1) nofun
  | some l =>
      cases top with
      | none => exact iff_of_false (fun hsome => h l hsome.1) nofun
      | some level =>
          rw [Option.some.injEq]
          constructor
          · intro hl
            exact RunLevel.rank_injective (Nat.le_antisymm (h.2 l hl.1) (hl.2 level h.1))
          · rintro rfl
            exact h

/-- Levels are whole up to one if all lower ones are and it and higher ones are not. -/
theorem tops_below? (h : ∀ l, o.Whole l ↔ l.rank < level.rank) : o.Tops level.below? := by
  cases hbelow : level.below? with
  | none =>
      intro l hwhole
      have hlt := (h l).1 hwhole
      rw [RunLevel.eq_of_below?_eq_none hbelow] at hlt
      exact Nat.not_lt_zero _ hlt
  | some b =>
      have hrank := RunLevel.rank_of_below? hbelow
      refine ⟨(h b).2 (by omega), ?_⟩
      intro l hwhole
      have hlt := (h l).1 hwhole
      omega

/-- The participants have come equally far, up to one phase. -/
def Abreast (o : Observed σ) : Prop :=
  ∃ heights, Stacked o.manager o.journal heights ∧ Close o.manager.participants.length heights

/-! ### Bring-up -/

/-- A bring-up that succeeds leaves its target current and whole, and higher levels as they were. -/
theorem bringUpTo_ok (habreast : o.Abreast) (hphases : ∀ l, 0 < o.manager.phases l)
    {target : RunLevel} (hok : (o.call (.bringUpTo target)).2 = .ok ()) :
    let after := (o.call (.bringUpTo target)).1
    after.manager.current = some target ∧ after.Whole target ∧
      ∀ l, target.rank < l.rank → (after.Whole l ↔ o.Whole l) := by
  intro after
  obtain ⟨heights, hs, -⟩ := habreast
  refine ⟨?_, ?_, ?_⟩
  · have hwalk : (walk (o.manager.bringUpMoves target) o.manager o.world).2.2 = .ok () := hok
    have hcurrent := current_walk hwalk
    rw [bringUpMoves, o.manager.levelled_bringUp.reached_all] at hcurrent
    refine hcurrent.trans ?_
    cases target <;> rfl
  · obtain ⟨heights', htracked, hup⟩ := stacked_bringUpTo o.world hs target
    have hs' : Stacked after.manager after.journal heights' := htracked.stacked
    have hparticipants : after.manager.participants = _ := htracked.participants
    have horder : after.manager.order = _ := htracked.order_eq
    have hcounts : after.manager.phaseCounts = _ := htracked.phaseCounts
    intro k hk l hrank phase hphase
    rw [hparticipants] at hk
    rw [phases, hcounts] at hphase
    rw [hs'.stands_iff, horder]
    exact hup hok k hk l phase hrank hphase
  · obtain ⟨rest, hsplit⟩ := o.manager.order_split target
    obtain ⟨heights', htracked, -, hprogresses, -⟩ :=
      stacked_walk (o.manager.bringUpMoves target) o.world hs (fun k _ => Nat.zero_le _)
        (Nat.zero_le _) (o.manager.switches_bringUpMoves target) hsplit
    have hs' : Stacked after.manager after.journal heights' := htracked.stacked
    have hparticipants : after.manager.participants = _ := htracked.participants
    have hcounts : after.manager.phaseCounts = _ := htracked.phaseCounts
    intro l hlt
    have hextent : after.manager.extent l = o.manager.extent l := by
      simp only [extent, through, phases, hcounts]
    have hhigher : o.manager.extent target < o.manager.extent l := extent_lt (hphases l) hlt
    rw [whole_iff hs', whole_iff hs, hextent, hparticipants]
    refine forall₂_congr fun k hk => ?_
    rcases hprogresses k with hsame | ⟨hfurther, i, x, hi, hx, hgoal⟩
    · rw [hsame]
    · -- who has moved came no further than the target
      have hlow := (lt_extent_iff hi target).2 (mem_through.1 hx).1
      rw [Direction.goal] at hgoal
      rw [Direction.Reached] at hfurther
      omega

/-- A bring-up that is refused at a level leaves the lower ones whole and no others. -/
theorem bringUpTo_refused (habreast : o.Abreast) {target : RunLevel} {e : SchedError}
    (herror : (o.call (.bringUpTo target)).2 = .error e) :
    let after := (o.call (.bringUpTo target)).1
    ∃ level, o.refusedAt (.bringUpTo target) = some level ∧
      (∀ l, after.Whole l ↔ l.rank < level.rank) ∧
      after.manager.current =
        if level = .configParse then o.manager.current else level.below? := by
  intro after
  obtain ⟨heights, hs, hclose⟩ := habreast
  obtain ⟨rest, hsplit⟩ := o.manager.order_split target
  obtain ⟨level, heights', htracked, -, hhead, ⟨n, phase, hn, hall, k, hk, hheight⟩, hcurrent⟩ :=
    stopped_walk o.world hs hclose (fun k _ => Nat.zero_le _) (Nat.zero_le _)
      (o.manager.switches_bringUpMoves target) hsplit herror
  have hs' : Stacked after.manager after.journal heights' := htracked.stacked
  have horder : after.manager.order = _ := htracked.order_eq
  have hparticipants : after.manager.participants = _ := htracked.participants
  rw [← horder] at hn
  rw [← hparticipants] at hall hk
  refine ⟨level, ?_, ?_, ?_⟩
  · rw [refusedAt, herror]
    exact hhead
  · intro l
    constructor
    · intro hwhole
      have hle := extent_le_of_whole hs' hwhole hk (Nat.le_of_eq hheight)
      exact Nat.not_le.1 ((lt_extent_iff hn l).not.1 (Nat.not_lt.2 hle))
    · exact whole_below hs' hn hall
  · obtain ⟨done, phase, later, hmoves, hcurrent⟩ := hcurrent
    exact hcurrent.trans (reached_bringUp hmoves)

/-- When a bring-up leaves the current level exact. -/
theorem bringUpTo_exact_iff (habreast : o.Abreast) (hphases : ∀ l, 0 < o.manager.phases l)
    (target : RunLevel) :
    let after := (o.call (.bringUpTo target)).1
    (o.refusedAt (.bringUpTo target) = none →
      after.manager.current = some target ∧ after.Whole target ∧
        (after.IsExact ↔ ∀ l, o.Whole l → l.rank ≤ target.rank)) ∧
      ∀ level, o.refusedAt (.bringUpTo target) = some level →
        after.manager.current =
            (if level = .configParse then o.manager.current else level.below?) ∧
          after.Tops level.below? ∧
          (after.IsExact ↔ (level = .configParse → o.manager.current = none)) := by
  intro after
  cases hanswer : (o.call (.bringUpTo target)).2 with
  | ok u =>
      have hnone : o.refusedAt (.bringUpTo target) = none := by
        rw [refusedAt, hanswer]
      obtain ⟨hcurrent, hwhole, hhigher⟩ := bringUpTo_ok habreast hphases hanswer
      rw [hnone]
      refine ⟨fun _ => ⟨hcurrent, hwhole, ?_⟩, nofun⟩
      rw [IsExact, show after.manager.current = _ from hcurrent]
      refine (and_iff_right hwhole).trans (forall_congr' fun l => ?_)
      by_cases hlt : target.rank < l.rank
      · rw [hhigher l hlt]
      · exact iff_of_true (fun _ => Nat.le_of_not_lt hlt) fun _ => Nat.le_of_not_lt hlt
  | error e =>
      obtain ⟨level, hrefused, hwhole, hcurrent⟩ := bringUpTo_refused habreast hanswer
      have htops : after.Tops level.below? := tops_below? hwhole
      rw [hrefused]
      refine ⟨nofun, ?_⟩
      rintro _ ⟨rfl⟩
      refine ⟨hcurrent, htops, ?_⟩
      rw [htops.isExact_iff, show after.manager.current = _ from hcurrent]
      by_cases hlowest : level = .configParse
      · subst hlowest
        rw [if_pos rfl]
        exact ⟨fun hnone _ => hnone, fun hnone => hnone rfl⟩
      · rw [if_neg hlowest]
        exact iff_of_true rfl fun h => absurd h hlowest

/-! ### Tear-down -/

/-- A tear-down that succeeds leaves no level whole and none current. -/
theorem tearDown_ok (habreast : o.Abreast) (hps : o.manager.participants ≠ [])
    (hphases : ∀ l, 0 < o.manager.phases l) (hok : (o.call .tearDown).2 = .ok ()) :
    let after := (o.call .tearDown).1
    after.manager.current = none ∧ after.Tops none := by
  intro after
  obtain ⟨heights, hs, -⟩ := habreast
  obtain ⟨heights', htracked, hempty⟩ := stacked_tearDown o.world hs
  have hparticipants : after.manager.participants = _ := htracked.participants
  have hcounts : after.manager.phaseCounts = _ := htracked.phaseCounts
  constructor
  · have hwalk : (walk o.manager.tearDownMoves o.manager o.world).2.2 = .ok () := hok
    have hcurrent := current_walk hwalk
    rw [tearDownMoves, o.manager.levelled_tearDown.reached_all] at hcurrent
    exact hcurrent
  · apply not_whole (o := after) htracked.stacked
    · rw [hparticipants]
      exact hps
    · simp only [phases, hcounts]
      exact hphases
    · rw [hparticipants]
      exact hempty hok

/-- A tear-down that is refused at a level leaves the lower ones whole and no higher ones. -/
theorem tearDown_refused (habreast : o.Abreast) (hphases : ∀ l, 0 < o.manager.phases l)
    {e : SchedError} (herror : (o.call .tearDown).2 = .error e) :
    let after := (o.call .tearDown).1
    ∃ level, o.refusedAt .tearDown = some level ∧
      (∀ l, l.rank < level.rank → after.Whole l) ∧ (∀ l, after.Whole l → l.rank ≤ level.rank) ∧
      after.manager.current = if level = .userOk then o.manager.current else some level := by
  intro after
  obtain ⟨heights, hs, hclose⟩ := habreast
  obtain ⟨level, heights', htracked, hclose', hhead, ⟨n, phase, hn, -, k, hk, hheight⟩, hcurrent⟩ :=
    stopped_walk o.world hs hclose (fun k _ => hs.reached_length k) (Nat.le_refl _)
      o.manager.switches_tearDownMoves (Direction.ahead_length _) herror
  have hs' : Stacked after.manager after.journal heights' := htracked.stacked
  have hcounts : after.manager.phaseCounts = _ := htracked.phaseCounts
  have horder : after.manager.order = _ := htracked.order_eq
  have hparticipants : after.manager.participants = _ := htracked.participants
  rw [← horder] at hn
  rw [← hparticipants] at hclose' hk
  rw [Direction.start] at hheight
  refine ⟨level, ?_, ?_, ?_, ?_⟩
  · rw [refusedAt, herror]
    exact hhead
  · intro l
    apply whole_below hs' hn
    -- nobody is more than the phase that is refused below the one that refuses it
    intro j hj
    have hbelow := hclose' k j hk hj
    omega
  · intro l hwhole
    by_contra hlt
    have hphase : 0 < after.manager.phases l := by
      rw [phases, hcounts]
      exact hphases l
    have hhigher : after.manager.extent level < after.manager.extent l :=
      extent_lt hphase (Nat.lt_of_not_le hlt)
    have hneeds := (lt_extent_iff hn level).2 (Nat.le_refl _)
    have hle := extent_le_of_whole hs' hwhole hk (Nat.le_of_eq hheight)
    omega
  · obtain ⟨done, phase, later, hmoves, hcurrent⟩ := hcurrent
    exact hcurrent.trans (reached_tearDown hmoves)

/-- When a tear-down leaves the current level exact. -/
theorem tearDown_exact_iff (habreast : o.Abreast) (hps : o.manager.participants ≠ [])
    (hphases : ∀ l, 0 < o.manager.phases l) :
    let after := (o.call .tearDown).1
    (o.refusedAt .tearDown = none → after.manager.current = none ∧ after.IsExact) ∧
      ∀ level, o.refusedAt .tearDown = some level →
        after.manager.current = (if level = .userOk then o.manager.current else some level) ∧
          (∀ l, l.rank < level.rank → after.Whole l) ∧
          (∀ l, after.Whole l → l.rank ≤ level.rank) ∧
          (after.IsExact ↔
            if level = .userOk then after.Tops o.manager.current else after.Whole level) := by
  intro after
  cases hanswer : (o.call .tearDown).2 with
  | ok u =>
      have hnone : o.refusedAt .tearDown = none := by
        rw [refusedAt, hanswer]
      obtain ⟨hcurrent, htops⟩ := tearDown_ok habreast hps hphases hanswer
      rw [hnone]
      exact ⟨fun _ => ⟨hcurrent, htops.isExact_iff.2 hcurrent⟩, nofun⟩
  | error e =>
      obtain ⟨level, hrefused, hlower, hhigher, hcurrent⟩ :=
        tearDown_refused habreast hphases hanswer
      rw [hrefused]
      refine ⟨nofun, ?_⟩
      rintro _ ⟨rfl⟩
      refine ⟨hcurrent, hlower, hhigher, ?_⟩
      rw [IsExact, show after.manager.current = _ from hcurrent]
      by_cases hhighest : level = .userOk
      · rw [if_pos hhighest, if_pos hhighest]
      · rw [if_neg hhighest, if_neg hhighest]
        exact and_iff_left hhigher

/-! ### Rows of calls -/

theorem abreast_of_tracked {c : Call σ}
    (htracked : Tracked o.manager (o.manager.call o.world c)
      (o.manager.watched.call o.toWatched (c.watched o.manager.participants.length)) heights)
    (hclose : Close o.manager.participants.length heights) : (o.call c).1.Abreast := by
  have hparticipants : (o.call c).1.manager.participants = _ := htracked.participants
  refine ⟨heights, htracked.stacked, ?_⟩
  rw [hparticipants]
  exact hclose

theorem abreast_bringUpTo (h : o.Abreast) (target : RunLevel) :
    (o.call (.bringUpTo target)).1.Abreast := by
  obtain ⟨heights, hs, hclose⟩ := h
  obtain ⟨rest, hsplit⟩ := o.manager.order_split target
  obtain ⟨heights', htracked, hclose', -⟩ :=
    stacked_walk (o.manager.bringUpMoves target) o.world hs (fun k _ => Nat.zero_le _)
      (Nat.zero_le _) (o.manager.switches_bringUpMoves target) hsplit
  exact abreast_of_tracked (c := .bringUpTo target) htracked (hclose' hclose)

theorem abreast_tearDown (h : o.Abreast) : (o.call .tearDown).1.Abreast := by
  obtain ⟨heights, hs, hclose⟩ := h
  obtain ⟨heights', htracked, hclose', -⟩ :=
    stacked_walk o.manager.tearDownMoves o.world hs (fun k _ => hs.reached_length k)
      (Nat.le_refl _) o.manager.switches_tearDownMoves (Direction.ahead_length _)
  exact abreast_of_tracked (c := .tearDown) htracked (hclose' hclose)

theorem abreast_call (h : o.Abreast) {c : Call σ} (hc : c.registered = []) :
    (o.call c).1.Abreast := by
  cases c with
  | register p => cases hc
  | bringUpTo target => exact abreast_bringUpTo h target
  | bringUp => exact abreast_bringUpTo h .userOk
  | tearDown => exact abreast_tearDown h
  | outside change => exact h

theorem run_concat (o : Observed σ) (calls : List (Call σ)) (c : Call σ) :
    o.run (calls ++ [c]) = ((o.run calls).call c).1 := List.foldl_concat ..

theorem abreast_run (h : o.Abreast) {calls : List (Call σ)}
    (hcalls : ∀ c ∈ calls, c.registered = []) : (o.run calls).Abreast := by
  induction calls generalizing o with
  | nil => exact h
  | cons c rest ih =>
      obtain ⟨hc, hrest⟩ := List.forall_mem_cons.1 hcalls
      exact ih (abreast_call h hc) hrest

/-- A manager with its participants registered and its levels split, each into at least one
phase. -/
def started (counts : List (RunLevel × Nat)) (world : σ) (ps : List (Participant σ)) : Observed σ :=
  (fresh (counts.map fun x => (x.1, max x.2 1)) world).run (ps.map .register)

variable {counts : List (RunLevel × Nat)} {world : σ} {ps : List (Participant σ)}

theorem phases_pos {l : RunLevel}
    (hcounts : o.manager.phaseCounts = counts.map fun x => (x.1, max x.2 1)) :
    0 < o.manager.phases l := by
  rw [phases, hcounts]
  clear hcounts
  induction counts with
  | nil => exact Nat.one_pos
  | cons x rest ih =>
      rw [List.map_cons, List.lookup_cons]
      cases l == x.1 with
      | true => exact Nat.le_max_right x.2 1
      | false => exact ih

/-- Registering participants tells nobody anything. -/
theorem stacked_registers (hs : Stacked o.manager o.journal heights) (ps : List (Participant σ)) :
    let after := o.run (ps.map .register)
    Stacked after.manager after.journal heights ∧ after.manager.current = o.manager.current ∧
      after.manager.phaseCounts = o.manager.phaseCounts ∧
      after.manager.participants = o.manager.participants ++ ps := by
  induction ps generalizing o with
  | nil => exact ⟨hs, rfl, rfl, (List.append_nil _).symm⟩
  | cons p rest ih =>
      obtain ⟨hs', hcurrent, hcounts, hparticipants⟩ :=
        ih (o := (o.call (.register p)).1) ⟨hs.marks, hs.nested⟩
      refine ⟨hs', hcurrent, hcounts, hparticipants.trans ?_⟩
      exact List.append_assoc o.manager.participants [p] rest

end Observed

/-- The current level. For every row of bring-ups and tear-downs of a manager with participants that
refuse any switch at any time, the current level is exact, that is the highest one that is whole, at
the start and after

* a bring-up that succeeds, if no level above its target was whole before;
* a bring-up that is refused, unless at the lowest level while some level was current;
* a tear-down that succeeds;
* a tear-down that is refused, if the level where it stops is whole still or, where this is the
  highest, if the level that was current before is the highest that is whole.

In all other cases it is not. -/
theorem current_exact_iff (counts : List (RunLevel × Nat)) (world : σ) (ps : List (Participant σ))
    (hps : ps ≠ []) (calls : List (Call σ)) (hcalls : ∀ c ∈ calls, c.registered = []) :
    let start := Observed.started counts world ps
    let o := start.run calls
    start.IsExact ∧
      (∀ c target, c.target? = some target →
        let after := (o.call c).1
        (o.refusedAt c = none →
          after.manager.current = some target ∧ after.Whole target ∧
            (after.IsExact ↔ ∀ l, o.Whole l → l.rank ≤ target.rank)) ∧
          ∀ level, o.refusedAt c = some level →
            after.manager.current =
                (if level = .configParse then o.manager.current else level.below?) ∧
              after.Tops level.below? ∧
              (after.IsExact ↔ (level = .configParse → o.manager.current = none))) ∧
      let after := (o.call .tearDown).1
      (o.refusedAt .tearDown = none → after.manager.current = none ∧ after.IsExact) ∧
        ∀ level, o.refusedAt .tearDown = some level →
          after.manager.current =
              (if level = .userOk then o.manager.current else some level) ∧
            (∀ l, l.rank < level.rank → after.Whole l) ∧
            (∀ l, after.Whole l → l.rank ≤ level.rank) ∧
            (after.IsExact ↔
              if level = .userOk then after.Tops o.manager.current else after.Whole level) := by
  intro start o
  obtain ⟨hs, hcurrent, hcounts, hregistered⟩ := Observed.stacked_registers
    (Observed.stacked_fresh (counts.map fun x => (x.1, max x.2 1)) world) ps
  have hparticipants : o.manager.participants = ps := by
    have hall := start.participants_run calls
    rw [List.flatMap_eq_nil_iff.2 hcalls, List.append_nil] at hall
    exact hall.trans hregistered
  have hphases : ∀ l, 0 < o.manager.phases l := by
    intro l
    exact Observed.phases_pos ((Observed.stacked_run hs calls).2.trans hcounts)
  have habreast : o.Abreast :=
    Observed.abreast_run ⟨_, hs, fun _ _ _ _ => Nat.zero_le 1⟩ hcalls
  refine ⟨?_, ?_, ?_⟩
  · have htops : start.Tops none := by
      apply Observed.not_whole hs
      · rw [hregistered]
        exact hps
      · intro l
        exact Observed.phases_pos hcounts
      · intro k _
        rfl
    exact htops.isExact_iff.2 hcurrent
  · intro c target htarget
    have hcall : o.call c = o.call (.bringUpTo target) := by
      cases c with
      | bringUpTo l =>
          cases htarget
          rfl
      | bringUp =>
          cases htarget
          rfl
      | _ => cases htarget
    have hrefused : o.refusedAt c = o.refusedAt (.bringUpTo target) := by
      rw [Observed.refusedAt, hcall, Observed.refusedAt]
    rw [hcall, hrefused]
    exact Observed.bringUpTo_exact_iff habreast hphases target
  · rw [← hparticipants] at hps
    exact Observed.tearDown_exact_iff habreast hps hphases

/-- With everything up, a bring-up to the lowest level makes that the current one although higher
levels are whole. -/
theorem current_exact_iff_lowest :
    let p : Participant Unit := { name := "a", switch := fun _ _ _ w => (w, .ok ()) }
    let o := (Observed.started [] () [p]).run [.bringUp]
    let after := (o.call (.bringUpTo .configParse)).1
    o.Whole .userOk ∧ after.manager.current = some .configParse ∧ ¬ after.IsExact := by
  intro p
  have hps : [p] ≠ [] := List.cons_ne_nil p []
  obtain ⟨-, hfirst, -⟩ := current_exact_iff [] () [p] hps [] nofun
  obtain ⟨-, hsecond, -⟩ := current_exact_iff [] () [p] hps [.bringUp] (by simp [Call.registered])
  obtain ⟨-, hwhole, -⟩ := (hfirst .bringUp .userOk rfl).1 (by decide +kernel)
  rw [← Observed.run_concat, List.nil_append] at hwhole
  obtain ⟨hcurrent, -, hexact⟩ :=
    (hsecond (.bringUpTo .configParse) .configParse rfl).1 (by decide +kernel)
  refine ⟨hwhole, hcurrent, ?_⟩
  rw [hexact]
  intro hlow
  exact absurd (hlow .userOk hwhole) (by decide)

end Runlevels

end WorkStealing
