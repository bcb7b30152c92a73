import WorkStealing.Proofs.Runlevel.Journal

/-!
# Nested bring-up and tear-down

A switch stops at the first participant that refuses it, so some participants have a phase up that
others have not, and a later bring-up, to whatever target, or a tear-down sets out from there. Each
participant sees a nested history all the same (`nested_run`).

One lemma for each part of a call, from the inside out: telling participants of one switch
(`stacked_tell`), a row of moves along the order (`stacked_walk`), and the two kinds of walk
(`stacked_bringUpTo`, `stacked_tearDown`). They hold in both directions at once, because a walk that
has come to some height has left no participant behind (`Direction.Reached`), so that a phase which
is news to a participant is the next one for it. What the inner two say is put together step by step
(`Switched`, `Walked`): that watching changes nothing, how far everybody has come, and that
participants which were never more than a phase apart stay so (`Close`).
-/

namespace WorkStealing.Runlevels

variable {σ : Type} {m : Runlevels σ} {w : σ} {journal : List Telling} {heights : Nat → Nat}
  {direction : Direction} {level : RunLevel} {phase n : Nat}

/-! ### Calls -/

/-- A part of a call made with and without watching: the same for the manager, for the world and for
the caller, and what was told in it keeps the histories nested. -/
structure Tracked (m : Runlevels σ) (plain : Runlevels σ × σ × Except SchedError Unit)
    (watching : Runlevels (Watched σ) × Watched σ × Except SchedError Unit)
    (heights : Nat → Nat) : Prop where
  manager : watching.1 = plain.1.watched
  world : watching.2.1.world = plain.2.1
  answer : watching.2.2 = plain.2.2
  participants : plain.1.participants = m.participants
  phaseCounts : plain.1.phaseCounts = m.phaseCounts
  stacked : Stacked plain.1 watching.2.1.journal heights

namespace Tracked

variable {plain : Runlevels σ × σ × Except SchedError Unit}
  {watching : Runlevels (Watched σ) × Watched σ × Except SchedError Unit} {m' : Runlevels σ}

theorem refl (h : Stacked m journal heights) (w : σ) (r : Except SchedError Unit) :
    Tracked m (m, w, r) (m.watched, { world := w, journal := journal }, r) heights where
  manager := rfl
  world := rfl
  answer := rfl
  participants := rfl
  phaseCounts := rfl
  stacked := h

/-- Later parts may start from a manager with other marks. -/
theorem of_same (h : Tracked m' plain watching heights)
    (hparticipants : m'.participants = m.participants)
    (hphases : m'.phaseCounts = m.phaseCounts) : Tracked m plain watching heights :=
  { h with
    participants := h.participants.trans hparticipants
    phaseCounts := h.phaseCounts.trans hphases }

theorem order_eq (h : Tracked m plain watching heights) : plain.1.order = m.order := by
  simp only [order, phases, h.phaseCounts]

/-- Only the journal is not told by the call without watching. -/
theorem exists_journal (h : Tracked m plain watching heights) :
    ∃ journal, watching =
      (plain.1.watched, { world := plain.2.1, journal := journal }, plain.2.2) := by
  obtain ⟨mw, ⟨world, journal⟩, r⟩ := watching
  obtain ⟨hmanager, hworld, hanswer, -⟩ := h
  dsimp only at hmanager hworld hanswer
  subst hmanager hworld hanswer
  exact ⟨journal, rfl⟩

end Tracked

theorem switch_watched {p : Participant σ} {w' : σ} {r : Except SchedError Unit}
    (h : p.switch level phase direction w = (w', r)) (position : Nat) (journal : List Telling) :
    (p.watched position).switch level phase direction { world := w, journal := journal } =
      ({ world := w'
         journal :=
          { mark := { participant := position, level := level, phase := phase }
            direction := direction, accepted := r.isOk } :: journal }, r) := by
  rw [Participant.watched]
  simp only [h]

theorem order_note (m : Runlevels σ) (mark : PhaseMark) (direction : Direction) :
    (m.note mark direction).order = m.order := by
  cases direction with
  | up => rfl
  | down => rfl

theorem participants_note (m : Runlevels σ) (mark : PhaseMark) (direction : Direction) :
    (m.note mark direction).participants = m.participants := by
  cases direction with
  | up => rfl
  | down => rfl

theorem phaseCounts_note (m : Runlevels σ) (mark : PhaseMark) (direction : Direction) :
    (m.note mark direction).phaseCounts = m.phaseCounts := by
  cases direction with
  | up => rfl
  | down => rfl

theorem watched_note (m : Runlevels σ) (mark : PhaseMark) (direction : Direction) :
    (m.note mark direction).watched = m.watched.note mark direction := by
  cases direction with
  | up => rfl
  | down => rfl

theorem isDue_watched (m : Runlevels σ) (mark : PhaseMark) (direction : Direction) :
    m.watched.isDue mark direction = m.isDue mark direction := by
  cases direction with
  | up => rfl
  | down => rfl

/-- The participants that a switch goes through at move from where it starts to where it leads, and
the others stay where they are. -/
def Advances (direction : Direction) (n : Nat) (heights heights' : Nat → Nat) : Prop :=
  ∀ k, heights' k = heights k ∨ heights k = direction.start n ∧ heights' k = direction.goal n

/-- No two of the first participants are more than one phase apart. -/
def Close (count : Nat) (heights : Nat → Nat) : Prop :=
  ∀ j k, j < count → k < count → heights j ≤ heights k + 1

/-- A switch that all have come as far as leaves them close together. -/
theorem Close.advances {count : Nat} {heights' : Nat → Nat} (h : Close count heights)
    (hreached : ∀ k, k < count → direction.Reached (direction.start n) (heights k))
    (hadvances : Advances direction n heights heights') : Close count heights' := by
  intro j k hj hk
  have hclose := h j k hj hk
  have hreachedj := hreached j hj
  have hreachedk := hreached k hk
  have hmovej := hadvances j
  have hmovek := hadvances k
  cases direction with
  | up =>
      dsimp only [Direction.start, Direction.goal, Direction.Reached] at *
      omega
  | down =>
      dsimp only [Direction.start, Direction.goal, Direction.Reached] at *
      omega

/-- The participants that some switch of a row goes through at come further in its direction, to
where one of these leads, and the others stay where they are. -/
def Progresses (direction : Direction) (order xs : List (RunLevel × Nat))
    (heights heights' : Nat → Nat) : Prop :=
  ∀ k, heights' k = heights k ∨ direction.Reached (heights k) (heights' k) ∧
    ∃ i x, order[i]? = some x ∧ x ∈ xs ∧ heights' k = direction.goal i

/-- A switch and then a row of them. -/
theorem Progresses.cons {order xs : List (RunLevel × Nat)} {x : RunLevel × Nat}
    {heights₁ heights₂ : Nat → Nat} (hlater : Progresses direction order xs heights₁ heights₂)
    (hn : order[n]? = some x) (hadvances : Advances direction n heights heights₁) :
    Progresses direction order (x :: xs) heights heights₂ := by
  intro k
  rcases hadvances k with hsame | ⟨hstart, hgoal⟩
  · rcases hlater k with hsame' | ⟨hfurther, i, y, hi, hy, hgoal⟩
    · exact .inl (hsame'.trans hsame)
    · rw [hsame] at hfurther
      exact .inr ⟨hfurther, i, y, hi, List.mem_cons_of_mem x hy, hgoal⟩
  · rw [hstart]
    rcases hlater k with hsame | ⟨hfurther, i, y, hi, hy, hgoal'⟩
    · rw [hsame, hgoal]
      exact .inr ⟨Direction.reached_start_goal, n, x, hn, List.mem_cons_self, rfl⟩
    · rw [hgoal] at hfurther
      exact .inr ⟨Direction.reached_start_goal.trans hfurther, i, y, hi,
        List.mem_cons_of_mem x hy, hgoal'⟩

/-- What holds of a position and of a number of later ones. -/
theorem forall_positions_succ {P : Nat → Prop} {position count : Nat} (hfirst : P position)
    (hlater : ∀ k, position + 1 ≤ k → k < position + 1 + count → P k) :
    ∀ k, position ≤ k → k < position + (count + 1) → P k := by
  intro k hle hlt
  rcases Nat.eq_or_lt_of_le hle with rfl | hlt'
  · exact hfirst
  · apply hlater k hlt'
    omega

/-- What one switch does at a number of participants from a position on. Those before stay where they
are, and after it all of the number have come as far as it leads, unless one refused. -/
structure Switched (m : Runlevels σ) (direction : Direction) (n position count : Nat)
    (plain : Runlevels σ × σ × Except SchedError Unit)
    (watching : Runlevels (Watched σ) × Watched σ × Except SchedError Unit)
    (heights heights' : Nat → Nat) : Prop where
  tracked : Tracked m plain watching heights'
  below : ∀ k, k < position → heights' k = heights k
  advances : Advances direction n heights heights'
  goal : plain.2.2 = .ok () → ∀ k, position ≤ k → k < position + count →
    direction.Reached (direction.goal n) (heights' k)

namespace Switched

variable {plain : Runlevels σ × σ × Except SchedError Unit}
  {watching : Runlevels (Watched σ) × Watched σ × Except SchedError Unit}
  {heights' : Nat → Nat} {position count : Nat}

theorem nobody (hs : Stacked m journal heights) (w : σ) :
    Switched m direction n position 0 (m, w, .ok ())
      (m.watched, { world := w, journal := journal }, .ok ()) heights heights where
  tracked := .refl hs w _
  below _ _ := rfl
  advances _ := .inl rfl
  goal _ _ hle hlt := absurd hlt (Nat.not_lt.2 hle)

/-- The first of them refuses, and nobody else is told. -/
theorem refused (hs : Stacked m journal heights) (hn : m.order[n]? = some (level, phase))
    (hk : heights position = direction.start n) (w : σ) (e : SchedError) :
    Switched m direction n position count (m, w, .error e)
      (m.watched,
        { world := w
          journal :=
            { mark := { participant := position, level := level, phase := phase }
              direction := direction, accepted := false } :: journal }, .error e)
      heights heights where
  tracked := .refl (hs.refused hn hk) w _
  below _ _ := rfl
  advances _ := .inl rfl
  goal hok := by cases hok

/-- The first of them lets it through and comes to the goal, and then the rest are told. -/
theorem accepted {mark : PhaseMark} (hk : heights position = direction.start n)
    (h : Switched (m.note mark direction) direction n (position + 1) count plain watching
      (Function.update heights position (direction.goal n)) heights') :
    Switched m direction n position (count + 1) plain watching heights heights' := by
  have hhere : heights' position = direction.goal n := by
    rw [h.below position (Nat.lt_succ_self position), Function.update_self]
  refine ⟨h.tracked.of_same (participants_note ..) (phaseCounts_note ..), ?_, ?_, ?_⟩
  · intro k hlt
    rw [h.below k (Nat.lt_succ_of_lt hlt), Function.update_of_ne (Nat.ne_of_lt hlt)]
  · intro k
    by_cases hposition : k = position
    · rw [hposition]
      exact .inr ⟨hk, hhere⟩
    · have hmove := h.advances k
      rw [Function.update_of_ne hposition] at hmove
      exact hmove
  · intro hok
    apply forall_positions_succ _ (h.goal hok)
    rw [hhere]
    exact Direction.reached_goal

/-- The first of them is at the goal already, so that only the rest are told. -/
theorem skipped (hgoal : direction.Reached (direction.goal n) (heights position))
    (h : Switched m direction n (position + 1) count plain watching heights heights') :
    Switched m direction n position (count + 1) plain watching heights heights' := by
  refine ⟨h.tracked, ?_, h.advances, ?_⟩
  · intro k hlt
    exact h.below k (Nat.lt_succ_of_lt hlt)
  · intro hok
    apply forall_positions_succ _ (h.goal hok)
    rw [h.below position (Nat.lt_succ_self position)]
    exact hgoal

theorem reached (h : Switched m direction n 0 m.participants.length plain watching heights heights')
    (hok : plain.2.2 = .ok ()) {k : Nat} (hk : k < plain.1.participants.length) :
    direction.Reached (direction.goal n) (heights' k) := by
  rw [h.tracked.participants] at hk
  exact h.goal hok k (Nat.zero_le k) (by omega)

end Switched

/-- Participants that have come as far as a phase are told of it if it is the next one for them. -/
theorem stacked_tell (hn : m.order[n]? = some (level, phase)) (ps : List (Participant σ))
    (position : Nat) (w : σ) (hs : Stacked m journal heights)
    (hreached : ∀ k, position ≤ k → k < position + ps.length →
      direction.Reached (direction.start n) (heights k)) :
    ∃ heights', Switched m direction n position ps.length
      (tell level phase direction ps position m w)
      (tell level phase direction (watchFrom position ps) position m.watched
        { world := w, journal := journal }) heights heights' := by
  -- induction on the participants still to be told
  induction ps generalizing m w journal heights position with
  | nil => exact ⟨heights, .nobody hs w⟩
  | cons p rest ih =>
      rw [List.length_cons] at hreached ⊢
      have hhere := hreached position (Nat.le_refl _) (by omega)
      have hrest : ∀ k, position + 1 ≤ k → k < position + 1 + rest.length →
          direction.Reached (direction.start n) (heights k) := by
        intro k hle hlt
        exact hreached k (Nat.le_of_succ_le hle) (by omega)
      have hdue := hs.isDue_iff hn position direction
      rw [tell, watchFrom, tell, isDue_watched]
      by_cases hnews : m.isDue { participant := position, level := level, phase := phase } direction
      · rw [if_pos hnews, if_pos hnews]
        have hk := Direction.eq_start hhere (hdue.1 hnews)
        cases hswitch : p.switch level phase direction w with
        | mk w' r =>
            rw [switch_watched hswitch]
            cases r with
            | error e => exact ⟨heights, .refused hs hn hk w' e⟩
            | ok u =>
                -- the rest are where they were
                have hn' := hn
                rw [← order_note m
                  { participant := position, level := level, phase := phase } direction] at hn'
                have hrest' : ∀ k, position + 1 ≤ k → k < position + 1 + rest.length →
                    direction.Reached (direction.start n)
                      (Function.update heights position (direction.goal n) k) := by
                  intro k hle hlt
                  rw [Function.update_of_ne (by omega)]
                  exact hrest k hle hlt
                obtain ⟨heights', hlater⟩ :=
                  ih hn' (position + 1) w' (hs.accepted hn hk) hrest'
                rw [watched_note] at hlater
                exact ⟨heights', hlater.accepted hk⟩
      · rw [if_neg hnews, if_neg hnews]
        obtain ⟨heights', hlater⟩ := ih hn (position + 1) w hs hrest
        exact ⟨heights', hlater.skipped (not_not.1 (mt hdue.2 hnews))⟩

/-- The phase that a move switches, and in which direction. -/
def switched? : RunlevelMove → Option ((RunLevel × Nat) × Direction)
  | .switch level phase direction => some ((level, phase), direction)
  | .reach _ => none

/-- What a walk along the order does, that passes some of its phases and then has others ahead. The
participants move in its direction only, and it leaves them close together. -/
structure Walked (m : Runlevels σ) (direction : Direction) (xs rest : List (RunLevel × Nat))
    (plain : Runlevels σ × σ × Except SchedError Unit)
    (watching : Runlevels (Watched σ) × Watched σ × Except SchedError Unit)
    (heights heights' : Nat → Nat) : Prop where
  tracked : Tracked m plain watching heights'
  close : Close m.participants.length heights → Close m.participants.length heights'
  progresses : Progresses direction m.order xs heights heights'
  goal : plain.2.2 = .ok () →
    ∃ n', n' ≤ m.order.length ∧ direction.ahead m.order n' = rest ∧
      ∀ k, k < m.participants.length → direction.Reached n' (heights' k)

namespace Walked

variable {plain : Runlevels σ × σ × Except SchedError Unit}
  {watching : Runlevels (Watched σ) × Watched σ × Except SchedError Unit}
  {heights' heights₁ : Nat → Nat} {xs rest : List (RunLevel × Nat)} {x : RunLevel × Nat}

/-- The first switch is refused. -/
theorem refused {m' : Runlevels σ} {w' : σ} {e : SchedError} (hn : m.order[n]? = some x)
    (hreached : ∀ k, k < m.participants.length → direction.Reached (direction.start n) (heights k))
    (h : Switched m direction n 0 m.participants.length (m', w', .error e) watching heights
      heights') :
    Walked m direction (x :: xs) rest (m', w', .error e) watching heights heights' where
  tracked := h.tracked
  close hclose := hclose.advances hreached h.advances
  progresses := .cons (fun _ => .inl rfl) hn h.advances
  goal hok := by cases hok

/-- The first switch goes through, and the walk goes on from there. -/
theorem cons {first : Runlevels σ × σ × Except SchedError Unit}
    {watchingFirst : Runlevels (Watched σ) × Watched σ × Except SchedError Unit}
    (hn : m.order[n]? = some x)
    (hreached : ∀ k, k < m.participants.length → direction.Reached (direction.start n) (heights k))
    (h : Switched m direction n 0 m.participants.length first watchingFirst heights heights₁)
    (hlater : Walked first.1 direction xs rest plain watching heights₁ heights') :
    Walked m direction (x :: xs) rest plain watching heights heights' := by
  obtain ⟨htracked, hclose, hprogresses, hgoal⟩ := hlater
  rw [h.tracked.participants] at hclose hgoal
  rw [h.tracked.order_eq] at hprogresses hgoal
  refine ⟨htracked.of_same h.tracked.participants h.tracked.phaseCounts, ?_,
    hprogresses.cons hn h.advances, hgoal⟩
  intro hbefore
  exact hclose (hbefore.advances hreached h.advances)

end Walked

/-- A walk along the order from a height that all participants have come to. -/
theorem stacked_walk (moves : List RunlevelMove) (w : σ) (hs : Stacked m journal heights)
    (hreached : ∀ k, k < m.participants.length → direction.Reached n (heights k))
    (hn : n ≤ m.order.length) {xs rest : List (RunLevel × Nat)}
    (hmoves : moves.filterMap switched? = xs.map fun x => (x, direction))
    (hahead : direction.ahead m.order n = xs ++ rest) :
    ∃ heights', Walked m direction xs rest (walk moves m w)
      (walk moves m.watched { world := w, journal := journal }) heights heights' := by
  -- induction on the moves; each switch leads from one height to the next
  induction moves generalizing m w journal heights n xs with
  | nil =>
      have hxs : xs = [] := by
        rw [List.filterMap_nil] at hmoves
        exact List.map_eq_nil_iff.1 hmoves.symm
      subst hxs
      exact ⟨heights, .refl hs w _, id, fun _ => .inl rfl, fun _ => ⟨n, hn, hahead, hreached⟩⟩
  | cons move moves ih =>
      cases move with
      | reach level =>
          have hs' : Stacked { m with current := level } journal heights :=
            ⟨hs.marks, hs.nested⟩
          obtain ⟨heights', htracked, hclose, hprogresses, hok⟩ :=
            ih w hs' hreached hn hmoves hahead
          exact ⟨heights', htracked.of_same rfl rfl, hclose, hprogresses, hok⟩
      | switch level phase toward =>
          cases xs with
          | nil => cases hmoves
          | cons x xs =>
              rw [List.filterMap_cons, switched?, List.map_cons] at hmoves
              obtain ⟨hx, hlater⟩ := List.cons.inj hmoves
              obtain ⟨rfl, rfl⟩ := Prod.mk.inj hx
              obtain ⟨i, rfl, hi, hgoal, hahead⟩ := Direction.of_ahead hn hahead
              obtain ⟨heights₁, hfirst⟩ :=
                stacked_tell hi m.participants 0 w hs fun k _ hk => hreached k (by omega)
              obtain ⟨journal₁, hwatching⟩ := hfirst.tracked.exists_journal
              have hwatched : m.watched.participants = watchFrom 0 m.participants := rfl
              rw [walk, walk, switch, switch, hwatched, hwatching]
              rw [hwatching] at hfirst
              generalize tell level phase toward m.participants 0 m w = plain at hfirst ⊢
              obtain ⟨m₁, w₁, r⟩ := plain
              cases r with
              | error e => exact ⟨heights₁, .refused hi hreached hfirst⟩
              | ok u =>
                  have horder : m₁.order = m.order := hfirst.tracked.order_eq
                  rw [← horder] at hgoal hahead
                  obtain ⟨heights', hrest⟩ := ih w₁ hfirst.tracked.stacked
                    (fun k hk => hfirst.reached rfl hk) hgoal hlater hahead
                  exact ⟨heights', .cons hi hreached hfirst hrest⟩

/-! ### Whole calls -/

theorem order_split (m : Runlevels σ) (target : RunLevel) :
    ∃ rest, m.order = ((RunLevel.all.filter fun l => l.rank ≤ target.rank).flatMap fun l =>
      (List.range (m.phases l)).map fun phase => (l, phase)) ++ rest := by
  have hall : RunLevel.all = (RunLevel.all.filter fun l => l.rank ≤ target.rank) ++
      RunLevel.all.filter fun l => ¬ l.rank ≤ target.rank := by
    cases target <;> decide
  refine ⟨(RunLevel.all.filter fun l => ¬ l.rank ≤ target.rank).flatMap fun l =>
    (List.range (m.phases l)).map fun phase => (l, phase), ?_⟩
  rw [← List.flatMap_append, ← hall]
  rfl

theorem switches_bringUpMoves (m : Runlevels σ) (target : RunLevel) :
    (m.bringUpMoves target).filterMap switched? =
      ((RunLevel.all.filter fun l => l.rank ≤ target.rank).flatMap fun l =>
        (List.range (m.phases l)).map fun phase => (l, phase)).map fun x => (x, .up) := by
  rw [bringUpMoves, List.filterMap_flatMap, List.map_flatMap]
  congr 1
  funext l
  have hswitch : (switched? ∘ fun phase => RunlevelMove.switch l phase .up) =
      some ∘ ((fun x => (x, Direction.up)) ∘ fun phase => (l, phase)) := rfl
  rw [List.filterMap_append, List.filterMap_map, List.map_map, hswitch, List.filterMap_eq_map]
  exact List.append_nil _

theorem switches_tearDownMoves (m : Runlevels σ) :
    m.tearDownMoves.filterMap switched? = m.order.reverse.map fun x => (x, .down) := by
  rw [tearDownMoves, List.filterMap_flatMap, order, List.reverse_flatMap, List.map_flatMap]
  congr 1
  funext l
  have hswitch : (switched? ∘ fun phase => RunlevelMove.switch l phase .down) =
      some ∘ ((fun x => (x, Direction.down)) ∘ fun phase => (l, phase)) := rfl
  rw [List.filterMap_append, List.filterMap_map, hswitch, List.filterMap_eq_map,
    Function.comp_apply, ← List.map_reverse, List.map_map]
  exact List.append_nil _

/-- A bring-up sets out from wherever its participants are. If it succeeds, all phases up to its
target are up at every participant. -/
theorem stacked_bringUpTo (w : σ) (hs : Stacked m journal heights) (target : RunLevel) :
    ∃ heights', Tracked m (m.bringUpTo target w)
        (m.watched.bringUpTo target { world := w, journal := journal }) heights' ∧
      ((m.bringUpTo target w).2.2 = .ok () → ∀ k, k < m.participants.length →
        ∀ level phase, level.rank ≤ target.rank → phase < m.phases level →
          (level, phase) ∈ m.order.take (heights' k)) := by
  obtain ⟨rest, hsplit⟩ := m.order_split target
  have hahead : Direction.up.ahead m.order 0 = _ := hsplit
  obtain ⟨heights', htracked, -, -, hok⟩ := stacked_walk (m.bringUpMoves target) w hs
    (fun k _ => Nat.zero_le _) (Nat.zero_le _) (m.switches_bringUpMoves target) hahead
  refine ⟨heights', htracked, ?_⟩
  intro hbring k hk level phase hlevel hphase
  obtain ⟨n', -, hrest, hreached⟩ := hok hbring
  -- the walk has passed the levels up to the target and nothing else
  have hpassed := List.append_cancel_right
    ((List.take_append_drop n' m.order).trans (hsplit.trans (congrArg _ hrest.symm)))
  apply List.take_subset_take_left m.order (hreached k hk)
  rw [hpassed]
  apply List.mem_flatMap.2
  refine ⟨level, List.mem_filter.2 ⟨level.mem_all, decide_eq_true hlevel⟩, ?_⟩
  exact List.mem_map.2 ⟨phase, List.mem_range.2 hphase, rfl⟩

/-- A tear-down that succeeds leaves nothing up. -/
theorem stacked_tearDown (w : σ) (hs : Stacked m journal heights) :
    ∃ heights', Tracked m (m.tearDown w)
        (m.watched.tearDown { world := w, journal := journal }) heights' ∧
      ((m.tearDown w).2.2 = .ok () → ∀ k, k < m.participants.length → heights' k = 0) := by
  obtain ⟨heights', htracked, -, -, hok⟩ :=
    stacked_walk m.tearDownMoves w hs (fun k _ => hs.reached_length k) (Nat.le_refl _)
      m.switches_tearDownMoves (Direction.ahead_length m.order)
  refine ⟨heights', htracked, ?_⟩
  intro htear k hk
  obtain ⟨n', -, hrest, hreached⟩ := hok htear
  -- the walk has passed the whole order, so no height is left
  have hle : heights' k ≤ n' := hreached k hk
  have hheight := (htracked.stacked.nested k).height_le
  rw [htracked.order_eq] at hheight
  rw [Direction.ahead, List.reverse_eq_nil_iff, List.take_eq_nil_iff] at hrest
  rcases hrest with hzero | hnil
  · omega
  · rw [hnil, List.length_nil] at hheight
    exact Nat.eq_zero_of_le_zero hheight

theorem watchFrom_append (ps qs : List (Participant σ)) (position : Nat) :
    watchFrom position (ps ++ qs) =
      watchFrom position ps ++ watchFrom (position + ps.length) qs := by
  induction ps generalizing position with
  | nil => rfl
  | cons p rest ih =>
      rw [List.cons_append, watchFrom, watchFrom, ih, List.length_cons, List.cons_append,
        Nat.add_assoc, Nat.add_comm 1]

theorem watched_register (m : Runlevels σ) (p : Participant σ) :
    (m.register p).watched = m.watched.register (p.watched m.participants.length) := by
  simp only [register, watched, watchFrom_append, watchFrom, Nat.zero_add]

namespace Observed

variable {o : Observed σ}

/-- Watching changes nothing for the manager, the world and the caller. -/
def Unaffected (o : Observed σ) (c : Call σ) : Prop :=
  o.manager.watched.call o.toWatched (c.watched o.manager.participants.length) =
    ((o.call c).1.manager.watched, (o.call c).1.toWatched, (o.call c).2)

theorem unaffected_of_tracked {c : Call σ}
    (h : Tracked o.manager (o.manager.call o.world c)
      (o.manager.watched.call o.toWatched (c.watched o.manager.participants.length)) heights) :
    o.Unaffected c ∧ Stacked (o.call c).1.manager (o.call c).1.journal heights ∧
      (o.call c).1.manager.phaseCounts = o.manager.phaseCounts := by
  refine ⟨?_, h.stacked, h.phaseCounts⟩
  obtain ⟨journal, hwatching⟩ := h.exists_journal
  rw [Unaffected, hwatching]
  have hcall : (o.call c).1.toWatched =
      { world := (o.manager.call o.world c).2.1
        journal := (o.manager.watched.call o.toWatched
          (c.watched o.manager.participants.length)).2.1.journal } := rfl
  rw [hcall, hwatching]
  rfl

/-- Every call keeps the manager's marks and the participants' histories in step. -/
theorem stacked_call (hs : Stacked o.manager o.journal heights) (c : Call σ) :
    o.Unaffected c ∧ (∃ heights', Stacked (o.call c).1.manager (o.call c).1.journal heights') ∧
      (o.call c).1.manager.phaseCounts = o.manager.phaseCounts := by
  cases c with
  | register p =>
      refine ⟨?_, ⟨heights, hs.marks, hs.nested⟩, rfl⟩
      show (o.manager.watched.register _, _, _) = ((o.manager.register p).watched, _, _)
      rw [watched_register]
      rfl
  | bringUpTo target =>
      obtain ⟨heights', htracked, -⟩ := stacked_bringUpTo o.world hs target
      obtain ⟨hsame, hs', hphases⟩ := unaffected_of_tracked (c := .bringUpTo target) htracked
      exact ⟨hsame, ⟨heights', hs'⟩, hphases⟩
  | bringUp =>
      obtain ⟨heights', htracked, -⟩ := stacked_bringUpTo o.world hs .userOk
      obtain ⟨hsame, hs', hphases⟩ := unaffected_of_tracked (c := .bringUp) htracked
      exact ⟨hsame, ⟨heights', hs'⟩, hphases⟩
  | tearDown =>
      obtain ⟨heights', htracked, -⟩ := stacked_tearDown o.world hs
      obtain ⟨hsame, hs', hphases⟩ := unaffected_of_tracked (c := .tearDown) htracked
      exact ⟨hsame, ⟨heights', hs'⟩, hphases⟩
  | outside change => exact ⟨rfl, ⟨heights, hs⟩, rfl⟩

theorem stacked_run (hs : Stacked o.manager o.journal heights) (calls : List (Call σ)) :
    (∃ heights', Stacked (o.run calls).manager (o.run calls).journal heights') ∧
      (o.run calls).manager.phaseCounts = o.manager.phaseCounts := by
  induction calls generalizing o heights with
  | nil => exact ⟨⟨heights, hs⟩, rfl⟩
  | cons c rest ih =>
      obtain ⟨-, ⟨heights', hs'⟩, hphases⟩ := stacked_call hs c
      obtain ⟨hrest, hphases'⟩ := ih hs'
      exact ⟨hrest, hphases'.trans hphases⟩

/-- A manager without participants, with any phases, in any world. -/
def fresh (phaseCounts : List (RunLevel × Nat)) (world : σ) : Observed σ where
  manager := { phaseCounts := phaseCounts }
  world := world

theorem stacked_fresh (phaseCounts : List (RunLevel × Nat)) (world : σ) :
    Stacked (fresh phaseCounts world).manager (fresh phaseCounts world).journal fun _ => 0 where
  marks _ := rfl
  nested _ := .start

end Observed

/-! ### What participants keep -/

/-- What no mark has a part in, telling participants leaves as it is. -/
theorem tell_of_note {α : Type} (f : Runlevels σ → α)
    (hf : ∀ m mark direction, f (m.note mark direction) = f m) (ps : List (Participant σ))
    (position : Nat) (m : Runlevels σ) (w : σ) :
    f (tell level phase direction ps position m w).1 = f m := by
  induction ps generalizing position m w with
  | nil => rfl
  | cons p rest ih =>
      rw [tell]
      split
      · cases p.switch level phase direction w with
        | mk w' r =>
            cases r with
            | ok u => exact (ih _ _ _).trans (hf ..)
            | error e => rfl
      · exact ih _ _ _

theorem participants_tell (ps : List (Participant σ)) (position : Nat) (m : Runlevels σ) (w : σ) :
    (tell level phase direction ps position m w).1.participants = m.participants :=
  tell_of_note participants participants_note ps position m w

theorem tell_keeps {P : σ → Prop} {ps : List (Participant σ)}
    (hkeep : ∀ p ∈ ps, ∀ level phase direction w, P w → P (p.switch level phase direction w).1)
    (position : Nat) (m : Runlevels σ) (hw : P w) :
    P (tell level phase direction ps position m w).2.1 := by
  induction ps generalizing position m w with
  | nil => exact hw
  | cons p rest ih =>
      have hrest : ∀ q ∈ rest, ∀ level phase direction w, P w →
          P (q.switch level phase direction w).1 := by
        intro q hq
        exact hkeep q (List.mem_cons_of_mem p hq)
      have hswitch := hkeep p List.mem_cons_self level phase direction w hw
      rw [tell]
      split
      · cases hp : p.switch level phase direction w with
        | mk w' r =>
            rw [hp] at hswitch
            cases r with
            | ok u => exact ih hrest _ _ hswitch
            | error e => exact hswitch
      · exact ih hrest _ _ hw

/-- What every switch of every participant keeps, a row of moves keeps. -/
theorem walk_keeps {P : σ → Prop} (moves : List RunlevelMove) {m : Runlevels σ}
    (hkeep : ∀ p ∈ m.participants, ∀ level phase direction w, P w →
      P (p.switch level phase direction w).1) (hw : P w) :
    P (walk moves m w).2.1 ∧ (walk moves m w).1.participants = m.participants := by
  induction moves generalizing m w with
  | nil => exact ⟨hw, rfl⟩
  | cons move moves ih =>
      cases move with
      | reach level => exact ih hkeep hw
      | switch level phase direction =>
          have hswitch : P (m.switch level phase direction w).2.1 := tell_keeps hkeep 0 m hw
          have hsame : (m.switch level phase direction w).1.participants = m.participants :=
            participants_tell m.participants 0 m w
          rw [walk]
          generalize m.switch level phase direction w = result at hswitch hsame ⊢
          obtain ⟨m', w', r⟩ := result
          cases r with
          | error e => exact ⟨hswitch, hsame⟩
          | ok u =>
              dsimp only at hswitch hsame ⊢
              rw [← hsame] at hkeep ⊢
              exact ih hkeep hswitch

/-- The participants that a call adds. -/
def Call.registered : Call σ → List (Participant σ)
  | .register p => [p]
  | _ => []

/-- What every switch and every change from outside keep, a call keeps. -/
theorem call_keeps {P : σ → Prop} {m : Runlevels σ}
    (hkeep : ∀ p ∈ m.participants, ∀ level phase direction w, P w →
      P (p.switch level phase direction w).1) (c : Call σ)
    (houtside : ∀ change, c = .outside change → ∀ w, P w → P (change w)) (hw : P w) :
    P (m.call w c).2.1 ∧
      (m.call w c).1.participants = m.participants ++ c.registered := by
  cases c with
  | register p => exact ⟨hw, rfl⟩
  | bringUpTo target =>
      obtain ⟨hworld, hsame⟩ := walk_keeps (m.bringUpMoves target) hkeep hw
      exact ⟨hworld, hsame.trans (List.append_nil _).symm⟩
  | bringUp =>
      obtain ⟨hworld, hsame⟩ := walk_keeps (m.bringUpMoves .userOk) hkeep hw
      exact ⟨hworld, hsame.trans (List.append_nil _).symm⟩
  | tearDown =>
      obtain ⟨hworld, hsame⟩ := walk_keeps m.tearDownMoves hkeep hw
      exact ⟨hworld, hsame.trans (List.append_nil _).symm⟩
  | outside change => exact ⟨houtside change rfl w hw, (List.append_nil _).symm⟩

theorem mem_watchFrom {ps : List (Participant σ)} {position : Nat} {q : Participant (Watched σ)}
    (h : q ∈ watchFrom position ps) :
    ∃ (k : Nat) (p : Participant σ), ps[k]? = some p ∧ q = p.watched (position + k) := by
  induction ps generalizing position with
  | nil => cases h
  | cons p rest ih =>
      rw [watchFrom, List.mem_cons] at h
      rcases h with rfl | h
      · exact ⟨0, p, rfl, rfl⟩
      · obtain ⟨k, x, hx, rfl⟩ := ih h
        refine ⟨k + 1, x, hx, ?_⟩
        rw [Nat.add_assoc, Nat.add_comm 1]

namespace Observed

variable {o : Observed σ}

/-- What every watched switch and every change from outside keep, a call keeps. -/
theorem call_keeps {P : Watched σ → Prop} (hs : Stacked o.manager o.journal heights)
    (hkeep : ∀ (k : Nat) (p : Participant σ), o.manager.participants[k]? = some p →
      ∀ level phase direction w, P w → P ((p.watched k).switch level phase direction w).1)
    (c : Call σ)
    (houtside : ∀ change, c = .outside change → ∀ w, P w → P { w with world := change w.world })
    (hw : P o.toWatched) : P (o.call c).1.toWatched := by
  obtain ⟨hsame, -⟩ := stacked_call hs c
  have hwatched : ∀ p ∈ o.manager.watched.participants, ∀ level phase direction w, P w →
      P (p.switch level phase direction w).1 := by
    intro q hq
    obtain ⟨k, p, hp, rfl⟩ := mem_watchFrom hq
    rw [Nat.zero_add]
    exact hkeep k p hp
  have hcall := Runlevels.call_keeps hwatched (c.watched o.manager.participants.length)
    (by
      intro change hchange
      cases c with
      | outside f =>
          cases hchange
          exact houtside f rfl
      | _ => cases hchange) hw
  rw [hsame] at hcall
  exact hcall.1

theorem participants_call (o : Observed σ) (c : Call σ) :
    (o.call c).1.manager.participants = o.manager.participants ++ c.registered :=
  (Runlevels.call_keeps (P := fun _ => True) (fun _ _ _ _ _ _ _ => trivial) c
    (fun _ _ _ _ => trivial) trivial).2

theorem participants_run (o : Observed σ) (calls : List (Call σ)) :
    (o.run calls).manager.participants =
      o.manager.participants ++ calls.flatMap Call.registered := by
  induction calls generalizing o with
  | nil => exact (List.append_nil _).symm
  | cons c rest ih =>
      have hrest := ih (o.call c).1
      rw [participants_call, List.append_assoc, ← List.flatMap_cons] at hrest
      exact hrest

/-- What was told stays told. -/
theorem journal_run (hs : Stacked o.manager o.journal heights) (calls : List (Call σ)) :
    ∃ later, (o.run calls).journal = later ++ o.journal := by
  induction calls generalizing o heights with
  | nil => exact ⟨[], rfl⟩
  | cons c rest ih =>
      obtain ⟨-, ⟨heights', hs'⟩, -⟩ := stacked_call hs c
      obtain ⟨later', hrest⟩ := ih hs'
      obtain ⟨later, hcall⟩ := call_keeps (P := fun w => ∃ later, w.journal = later ++ o.journal) hs
        (by
          rintro k p - level phase direction w ⟨later, hlater⟩
          exact ⟨_ :: later, congrArg (_ :: ·) hlater⟩)
        c (fun _ _ _ hw => hw) ⟨[], rfl⟩
      refine ⟨later' ++ later, ?_⟩
      rw [List.append_assoc, ← hcall]
      exact hrest

end Observed

/-- Nested bring-up and tear-down. After every row of registrations, bring-ups to any target and
tear-downs, with participants that refuse any switch at any time and a world that changes in
between, each participant has seen a nested history. The phases that are up at it are the first ones
of the order, as many as the history says, and a tear-down that succeeds leaves none. Watching the
participants has changed nothing. -/
theorem nested_run (phaseCounts : List (RunLevel × Nat)) (world : σ) (calls : List (Call σ)) :
    let o := (Observed.fresh phaseCounts world).run calls
    (∀ k, ∃ height, Nested o.manager.order k (told o.journal k) height ∧
        ∀ level phase, stands o.journal { participant := k, level := level, phase := phase } = true ↔
          (level, phase) ∈ o.manager.order.take height) ∧
      (∀ mark, mark ∈ o.manager.up ↔ stands o.journal mark = true) ∧
      ((o.call .tearDown).2 = .ok () → ∀ k, k < o.manager.participants.length →
        ∀ level phase, stands (o.call .tearDown).1.journal
          { participant := k, level := level, phase := phase } = false) ∧
      o.manager.phaseCounts = phaseCounts ∧ ∀ c, o.Unaffected c := by
  intro o
  obtain ⟨⟨heights, hs⟩, hphases⟩ :=
    Observed.stacked_run (Observed.stacked_fresh phaseCounts world) calls
  refine ⟨?_, ?_, ?_, hphases, ?_⟩
  · intro k
    exact ⟨heights k, hs.nested k, hs.stands_iff k⟩
  · intro mark
    rw [← hs.marks, List.contains_iff_mem]
  · intro hok k hk level phase
    obtain ⟨heights', htracked, hempty⟩ := stacked_tearDown o.world hs
    obtain ⟨-, hs', -⟩ := Observed.unaffected_of_tracked (c := .tearDown) htracked
    rw [Bool.eq_false_iff, ne_eq, hs'.stands_iff, hempty hok k hk, List.take_zero]
    exact List.not_mem_nil
  · intro c
    exact (Observed.stacked_call hs c).1

/-- A bring-up that the second of two participants refuses leaves a phase up at the first only, and
a tear-down from there takes it down again. -/
theorem nested_run_refused :
    let a : Participant Unit := { name := "a", switch := fun _ _ _ w => (w, .ok ()) }
    let b : Participant Unit :=
      { name := "b"
        switch := fun level _ direction w =>
          if level = .networkOk ∧ direction = .up then (w, .error (.notRunning "link"))
          else (w, .ok ()) }
    let o := (Observed.fresh [] ()).run [.register a, .register b, .bringUp]
    let mark (k : Nat) : PhaseMark := { participant := k, level := .networkOk, phase := 0 }
    stands o.journal (mark 0) = true ∧ stands o.journal (mark 1) = false ∧
      (o.call .tearDown).2 = .ok () ∧
      ∀ k, k < 2 → ∀ level phase, stands (o.call .tearDown).1.journal
        { participant := k, level := level, phase := phase } = false := by
  intro a b
  have hboth : ((Observed.fresh [] ()).run
      [.register a, .register b, .bringUp]).manager.participants = [a, b] :=
    Observed.participants_run ..
  obtain ⟨-, -, htear, -⟩ := nested_run [] () [.register a, .register b, .bringUp]
  rw [hboth] at htear
  exact ⟨by decide +kernel, by decide +kernel, by decide +kernel, htear (by decide +kernel)⟩

end WorkStealing.Runlevels
