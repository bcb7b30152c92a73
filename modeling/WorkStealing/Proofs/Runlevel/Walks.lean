import WorkStealing.Proofs.Runlevel.Nesting

/-!
# Walks that stop

A walk that fails has made some moves and stopped at a switch that a participant refused
(`exists_refused`). Where this is says most of what is known afterwards: all participants have come
as far as the switch starts, and the one that refuses it no further (`stopped_walk`); how far that
is in levels, as the order tells which phases a level needs (`lt_extent_iff`); and which level the
manager has set as the current one by then, as a walk sets one after each level
(`Levelled.reached_before`).
-/

namespace WorkStealing.Runlevels

variable {σ : Type} {m : Runlevels σ} {w : σ} {journal : List Telling} {heights : Nat → Nat}
  {direction : Direction} {level : RunLevel} {phase n : Nat} {moves : List RunlevelMove}

/-! ### Levels along the order -/

/-- The phases of a level and of those below it. -/
def through (m : Runlevels σ) (level : RunLevel) : List (RunLevel × Nat) :=
  (RunLevel.all.filter fun l => l.rank ≤ level.rank).flatMap fun l =>
    (List.range (m.phases l)).map fun phase => (l, phase)

/-- How far the order has to be up for a level to be whole. -/
def extent (m : Runlevels σ) (level : RunLevel) : Nat := (m.through level).length

theorem mem_through {x : RunLevel × Nat} :
    x ∈ m.through level ↔ x.1.rank ≤ level.rank ∧ x.2 < m.phases x.1 := by
  obtain ⟨l, phase⟩ := x
  simp only [through, List.mem_flatMap, List.mem_filter, decide_eq_true_eq, List.mem_map,
    List.mem_range, Prod.mk.injEq]
  constructor
  · rintro ⟨a, ⟨-, hrank⟩, b, hb, rfl, rfl⟩
    exact ⟨hrank, hb⟩
  · rintro ⟨hrank, hphase⟩
    exact ⟨l, ⟨l.mem_all, hrank⟩, phase, hphase, rfl, rfl⟩

theorem take_extent (m : Runlevels σ) (level : RunLevel) :
    m.order.take (m.extent level) = m.through level := by
  obtain ⟨rest, hsplit⟩ := m.order_split level
  rw [hsplit]
  exact List.take_left

theorem mem_order {x : RunLevel × Nat} (h : x ∈ m.order) : x.2 < m.phases x.1 := by
  obtain ⟨l, -, hx⟩ := List.mem_flatMap.1 h
  obtain ⟨phase, hphase, rfl⟩ := List.mem_map.1 hx
  exact List.mem_range.1 hphase

/-- The phases that a level needs are those of its own and of lower levels. -/
theorem lt_extent_iff (hn : m.order[n]? = some (level, phase)) (l : RunLevel) :
    n < m.extent l ↔ level.rank ≤ l.rank := by
  rw [← mem_take_iff m.nodup_order hn, take_extent, mem_through]
  exact and_iff_left (mem_order (List.mem_of_getElem? hn))

theorem index_unique {x : RunLevel × Nat} {i j : Nat} (hi : m.order[i]? = some x)
    (hj : m.order[j]? = some x) : i = j := by
  obtain ⟨hlt, hx⟩ := List.getElem?_eq_some_iff.1 hi
  obtain ⟨hlt', hx'⟩ := List.getElem?_eq_some_iff.1 hj
  exact m.nodup_order.getElem_inj_iff.1 (hx.trans hx'.symm)

theorem exists_index (hphase : phase < m.phases level) :
    ∃ i : Nat, m.order[i]? = some (level, phase) := by
  have hmem : (level, phase) ∈ m.order := List.mem_flatMap.2
    ⟨level, level.mem_all, List.mem_map.2 ⟨phase, List.mem_range.2 hphase, rfl⟩⟩
  exact List.getElem?_of_mem hmem

/-- A level with a phase needs more than a lower level does. -/
theorem extent_lt {l : RunLevel} (hphase : 0 < m.phases l) (hlt : level.rank < l.rank) :
    m.extent level < m.extent l := by
  obtain ⟨i, hi⟩ := exists_index hphase
  have hbelow := (lt_extent_iff hi level).not.2 (Nat.not_le.2 hlt)
  have habove := (lt_extent_iff hi l).2 (Nat.le_refl _)
  omega

/-! ### Where a walk stops -/

/-- The level that a move makes the current one. -/
def reached? : RunlevelMove → Option (Option RunLevel)
  | .reach level => some level
  | .switch .. => none

theorem current_note (m : Runlevels σ) (mark : PhaseMark) (direction : Direction) :
    (m.note mark direction).current = m.current := by
  cases direction with
  | up => rfl
  | down => rfl

theorem current_tell (ps : List (Participant σ)) (position : Nat) (m : Runlevels σ) (w : σ) :
    (tell level phase direction ps position m w).1.current = m.current :=
  tell_of_note current current_note ps position m w

/-- A walk that succeeds leaves the level current that it reached last. -/
theorem current_walk (hok : (walk moves m w).2.2 = .ok ()) :
    (walk moves m w).1.current = (moves.filterMap reached?).getLast?.getD m.current := by
  induction moves generalizing m w with
  | nil => rfl
  | cons move moves ih =>
      cases move with
      | reach level =>
          rw [walk] at hok ⊢
          rw [ih hok, List.filterMap_cons, reached?, List.getLast?_cons]
          rfl
      | switch level phase direction =>
          have hcurrent : (m.switch level phase direction w).1.current = m.current :=
            current_tell m.participants 0 m w
          rw [walk] at hok ⊢
          generalize m.switch level phase direction w = result at hok hcurrent ⊢
          obtain ⟨m', w', r⟩ := result
          cases r with
          | error e => cases hok
          | ok u =>
              dsimp only at hok hcurrent ⊢
              rw [ih hok, hcurrent, List.filterMap_cons, reached?]

/-- Rows of moves, one for each level, that switch phases of this level only. -/
def Levelled (switches : RunLevel → List RunlevelMove) : Prop :=
  ∀ l, ∀ move ∈ switches l, ∃ phase direction, move = .switch l phase direction

namespace Levelled

variable {switches : RunLevel → List RunlevelMove} {goal : RunLevel → Option RunLevel}

theorem reached_nil (h : Levelled switches) (l : RunLevel) :
    (switches l).filterMap reached? = [] := by
  rw [List.filterMap_eq_nil_iff]
  intro move hmove
  obtain ⟨phase, direction, rfl⟩ := h l move hmove
  rfl

/-- A walk through levels reaches what goes with each of them. -/
theorem reached_all (h : Levelled switches) (levels : List RunLevel) :
    (levels.flatMap fun l => switches l ++ [.reach (goal l)]).filterMap reached? =
      levels.map goal := by
  rw [List.filterMap_flatMap, List.map_eq_flatMap]
  congr 1
  funext l
  rw [List.filterMap_append, h.reached_nil]
  rfl

/-- Before a switch of a level a walk through levels has reached what goes with those before. -/
theorem reached_before (h : Levelled switches) {levels : List RunLevel}
    {done rest : List RunlevelMove}
    (hmoves : (levels.flatMap fun l => switches l ++ [.reach (goal l)]) =
      done ++ .switch level phase direction :: rest) :
    ∃ passed later, levels = passed ++ level :: later ∧
      done.filterMap reached? = passed.map goal := by
  induction levels generalizing done with
  | nil =>
      rw [List.flatMap_nil] at hmoves
      cases List.append_eq_nil_iff.1 hmoves.symm with
      | intro _ hnil => cases hnil
  | cons l levels ih =>
      rw [List.flatMap_cons, List.append_assoc] at hmoves
      rcases List.append_eq_append_iff.1 hmoves with ⟨done', rfl, hlater⟩ | ⟨ahead, hlevel, hrest⟩
      · -- all switches of this level are made, so the level is reached
        cases done' with
        | nil => cases hlater
        | cons move done' =>
            obtain ⟨rfl, htail⟩ := List.cons.inj hlater
            obtain ⟨passed, later, rfl, hpassed⟩ := ih htail
            refine ⟨l :: passed, later, rfl, ?_⟩
            rw [List.filterMap_append, h.reached_nil, List.filterMap_cons, reached?, hpassed]
            rfl
      · cases ahead with
        | nil => cases hrest
        | cons move ahead =>
            obtain ⟨rfl, -⟩ := List.cons.inj hrest
            have hmem : .switch level phase direction ∈ switches l := by
              rw [hlevel]
              exact List.mem_append_right done List.mem_cons_self
            obtain ⟨_, _, hmove⟩ := h l _ hmem
            cases hmove
            have hnone := h.reached_nil level
            rw [hlevel, List.filterMap_append, List.append_eq_nil_iff] at hnone
            exact ⟨[], levels, rfl, hnone.1⟩

end Levelled

theorem levelled_bringUp (m : Runlevels σ) :
    Levelled fun l => (List.range (m.phases l)).map fun phase => .switch l phase .up := by
  intro l move hmove
  obtain ⟨phase, -, rfl⟩ := List.mem_map.1 hmove
  exact ⟨phase, .up, rfl⟩

theorem levelled_tearDown (m : Runlevels σ) :
    Levelled fun l => (List.range (m.phases l)).reverse.map fun phase => .switch l phase .down := by
  intro l move hmove
  obtain ⟨phase, -, rfl⟩ := List.mem_map.1 hmove
  exact ⟨phase, .down, rfl⟩

theorem eq_takeWhile {levels passed later : List RunLevel} (hnodup : levels.Nodup)
    (h : levels = passed ++ level :: later) : passed = levels.takeWhile (· ≠ level) := by
  rw [h] at hnodup ⊢
  have hnotin : level ∉ passed := fun hmem =>
    (List.nodup_append.1 hnodup).2.2 level hmem level List.mem_cons_self rfl
  rw [List.takeWhile_append_of_pos, List.takeWhile_cons_of_neg, List.append_nil]
  · simp
  · intro l hl
    exact decide_eq_true (ne_of_mem_of_not_mem hl hnotin)

/-- What a bring-up has reached before a switch of a level is the level below. -/
theorem reached_bringUp {target : RunLevel} {done rest : List RunlevelMove}
    (h : m.bringUpMoves target = done ++ .switch level phase direction :: rest) :
    (done.filterMap reached?).getLast?.getD m.current =
      if level = .configParse then m.current else level.below? := by
  obtain ⟨passed, later, hlevels, hreached⟩ := m.levelled_bringUp.reached_before h
  have hnodup : RunLevel.all.Nodup := by decide
  have hmem : level ∈ RunLevel.all.filter fun l => l.rank ≤ target.rank := by
    rw [hlevels]
    exact List.mem_append_right passed List.mem_cons_self
  have hpassed := eq_takeWhile (hnodup.filter _) hlevels
  rw [hreached, hpassed]
  cases target <;> cases level <;> first | rfl | exact absurd hmem (by decide)

/-- What a tear-down has reached before a switch of a level is the level itself, unless it is the
first to go down. -/
theorem reached_tearDown {done rest : List RunlevelMove}
    (h : m.tearDownMoves = done ++ .switch level phase direction :: rest) :
    (done.filterMap reached?).getLast?.getD m.current =
      if level = .userOk then m.current else some level := by
  obtain ⟨passed, later, hlevels, hreached⟩ := m.levelled_tearDown.reached_before h
  have hnodup : RunLevel.all.reverse.Nodup := by decide
  rw [hreached, eq_takeWhile hnodup hlevels]
  cases level <;> rfl

/-- A walk that fails stops at a switch, and the moves before it go through. -/
theorem exists_refused {e : SchedError} (herror : (walk moves m w).2.2 = .error e) :
    ∃ done level phase direction rest m₁ w₁,
      moves = done ++ .switch level phase direction :: rest ∧
        walk done m w = (m₁, w₁, .ok ()) ∧
        (m₁.switch level phase direction w₁).2.2 = .error e := by
  induction moves generalizing m w with
  | nil => cases herror
  | cons move moves ih =>
      cases move with
      | reach level =>
          obtain ⟨done, l, phase, direction, rest, m₁, w₁, rfl, hdone, hrefused⟩ := ih herror
          exact ⟨.reach level :: done, l, phase, direction, rest, m₁, w₁, rfl, hdone, hrefused⟩
      | switch level phase direction =>
          rw [walk] at herror
          cases hswitch : m.switch level phase direction w with
          | mk m' result =>
              obtain ⟨w', r⟩ := result
              rw [hswitch] at herror
              cases r with
              | error e' =>
                  refine ⟨[], level, phase, direction, moves, m, w, rfl, rfl, ?_⟩
                  rw [hswitch]
                  exact herror
              | ok u =>
                  obtain ⟨done, l, p, d, rest, m₁, w₁, rfl, hdone, hrefused⟩ := ih herror
                  refine ⟨.switch level phase direction :: done, l, p, d, rest, m₁, w₁, rfl, ?_,
                    hrefused⟩
                  rw [walk, hswitch]
                  exact hdone

/-- The walk ends with the switch that is refused. -/
theorem walk_eq_switch {done rest : List RunlevelMove} {m₁ : Runlevels σ} {w₁ : σ} {e : SchedError}
    (hdone : walk done m w = (m₁, w₁, .ok ()))
    (hrefused : (m₁.switch level phase direction w₁).2.2 = .error e) :
    walk (done ++ .switch level phase direction :: rest) m w =
      m₁.switch level phase direction w₁ := by
  rw [walk_append, hdone]
  dsimp only
  rw [walk]
  generalize m₁.switch level phase direction w₁ = result at hrefused ⊢
  obtain ⟨m', w', r⟩ := result
  cases r with
  | ok u => cases hrefused
  | error e' => rfl

/-- What is told last in a switch that is refused is the refusal. -/
theorem head?_refused (journal : List Telling) {ps : List (Participant σ)} {position : Nat}
    {e : SchedError} (hrefused : (tell level phase direction ps position m w).2.2 = .error e) :
    ∃ k, k < position + ps.length ∧
      (tell level phase direction (watchFrom position ps) position m.watched
        { world := w, journal := journal }).2.1.journal.head? =
          some
            { mark := { participant := k, level := level, phase := phase }
              direction := direction, accepted := false } := by
  induction ps generalizing position m w journal with
  | nil => cases hrefused
  | cons p rest ih =>
      rw [tell] at hrefused
      rw [List.length_cons, Nat.add_comm rest.length, ← Nat.add_assoc]
      rw [watchFrom, tell, isDue_watched]
      by_cases hnews : m.isDue { participant := position, level := level, phase := phase } direction
      · rw [if_pos hnews] at hrefused ⊢
        cases hswitch : p.switch level phase direction w with
        | mk w' r =>
            rw [hswitch] at hrefused
            rw [switch_watched hswitch]
            cases r with
            | error e' => exact ⟨position, by omega, rfl⟩
            | ok u =>
                dsimp only at hrefused ⊢
                rw [← watched_note]
                exact ih _ hrefused
      · rw [if_neg hnews] at hrefused ⊢
        exact ih _ hrefused

/-- Whoever refused a switch just now has come no further than where it starts. -/
theorem Stacked.height_of_refused (hs : Stacked m journal heights) {k : Nat}
    (hhead : journal.head? =
      some
        { mark := { participant := k, level := level, phase := phase }
          direction := direction, accepted := false }) :
    ∃ n, m.order[n]? = some (level, phase) ∧ heights k = direction.start n := by
  obtain ⟨rest, rfl⟩ := List.head?_eq_some_iff.1 hhead
  have hnested := hs.nested k
  rw [told_cons, if_pos rfl] at hnested
  generalize heights k = height at hnested ⊢
  generalize told rest k = history at hnested
  cases hnested with
  | up _ below next => exact ⟨_, next, rfl⟩
  | down _ above last => exact ⟨_, last, rfl⟩

/-- In a switch that is refused all have come as far as it starts, and the one that refuses it no
further. -/
theorem refused_switch (hn : m.order[n]? = some (level, phase)) (hs : Stacked m journal heights)
    (hclose : Close m.participants.length heights)
    (hreached : ∀ k, k < m.participants.length → direction.Reached (direction.start n) (heights k))
    {e : SchedError} (hrefused : (m.switch level phase direction w).2.2 = .error e) :
    let watching := m.watched.switch level phase direction { world := w, journal := journal }
    ∃ heights', Tracked m (m.switch level phase direction w) watching heights' ∧
      Close m.participants.length heights' ∧
      watching.2.1.journal.head?.map (fun t => t.mark.level) = some level ∧
      (∀ k, k < m.participants.length → direction.Reached (direction.start n) (heights' k)) ∧
      ∃ k, k < m.participants.length ∧ heights' k = direction.start n := by
  intro watching
  obtain ⟨heights', htracked, -, hadvances, -⟩ :=
    stacked_tell hn m.participants 0 w hs fun k _ hk => hreached k (by omega)
  obtain ⟨k, hk, hhead⟩ := head?_refused journal hrefused
  refine ⟨heights', htracked, hclose.advances hreached hadvances, congrArg _ hhead, ?_,
    k, by omega, ?_⟩
  · intro j hj
    rcases hadvances j with hsame | ⟨-, hgoal⟩
    · rw [hsame]
      exact hreached j hj
    · rw [hgoal]
      exact Direction.reached_start_goal
  · obtain ⟨i, hi, hheight⟩ := htracked.stacked.height_of_refused hhead
    rw [htracked.order_eq] at hi
    rw [hheight, index_unique hi hn]

/-- A walk that is stopped at a level: all have come as far as the switch that is refused, and the
one that refuses it no further. -/
structure Stopped (m : Runlevels σ) (plain : Runlevels σ × σ × Except SchedError Unit)
    (watching : Runlevels (Watched σ) × Watched σ × Except SchedError Unit)
    (moves : List RunlevelMove) (direction : Direction) (level : RunLevel)
    (heights : Nat → Nat) : Prop where
  tracked : Tracked m plain watching heights
  close : Close m.participants.length heights
  head : watching.2.1.journal.head?.map (fun t => t.mark.level) = some level
  place : ∃ (n phase : Nat), m.order[n]? = some (level, phase) ∧
    (∀ k, k < m.participants.length → direction.Reached (direction.start n) (heights k)) ∧
    ∃ k, k < m.participants.length ∧ heights k = direction.start n
  current : ∃ done phase rest, moves = done ++ .switch level phase direction :: rest ∧
    plain.1.current = (done.filterMap reached?).getLast?.getD m.current

/-- A walk along the order that fails is stopped at a level. -/
theorem stopped_walk (w : σ) (hs : Stacked m journal heights)
    (hclose : Close m.participants.length heights)
    (hreached : ∀ k, k < m.participants.length → direction.Reached n (heights k))
    (hn : n ≤ m.order.length) {xs rest : List (RunLevel × Nat)}
    (hmoves : moves.filterMap switched? = xs.map fun x => (x, direction))
    (hahead : direction.ahead m.order n = xs ++ rest) {e : SchedError}
    (herror : (walk moves m w).2.2 = .error e) :
    ∃ level heights', Stopped m (walk moves m w)
      (walk moves m.watched { world := w, journal := journal }) moves direction level heights' := by
  obtain ⟨done, level, phase, toward, later, m₁, w₁, rfl, hdone, hrefused⟩ := exists_refused herror
  rw [List.filterMap_append, List.filterMap_cons, switched?] at hmoves
  obtain ⟨passed, ahead, rfl, hpassed, hnext⟩ := List.append_eq_map_iff.1 hmoves
  obtain ⟨x, after, rfl, hx, -⟩ := List.map_eq_cons_iff.1 hnext
  obtain ⟨rfl, rfl⟩ := Prod.mk.inj hx
  rw [List.append_assoc] at hahead
  -- the moves before the refusal lead all to where the refused switch starts
  obtain ⟨heights₁, htracked, hclose₁, -, hok⟩ :=
    stacked_walk done w hs hreached hn hpassed.symm hahead
  have hthrough : (walk done m w).2.2 = .ok () := by
    rw [hdone]
  have hcurrent := current_walk hthrough
  rw [walk_eq_switch hdone hrefused]
  rw [hdone] at htracked hok hcurrent
  obtain ⟨n', hn', hahead', hreached'⟩ := hok rfl
  obtain ⟨i, rfl, hi, -, -⟩ := Direction.of_ahead hn' hahead'
  obtain ⟨journal₁, hwatching⟩ := htracked.exists_journal
  rw [hwatching] at htracked
  have hparticipants : m₁.participants = m.participants := htracked.participants
  have hphases : m₁.phaseCounts = m.phaseCounts := htracked.phaseCounts
  have horder : m₁.order = m.order := htracked.order_eq
  have hsame : (m₁.switch level phase direction w₁).1.current = m₁.current :=
    current_tell m₁.participants 0 m₁ w₁
  rw [← horder] at hi
  rw [← hparticipants] at hclose hclose₁ hreached'
  obtain ⟨heights₂, htracked₂, hclose₂, hhead, hall, hrefuser⟩ :=
    refused_switch hi htracked.stacked (hclose₁ hclose) hreached' hrefused
  rw [walk_eq_switch hwatching (htracked₂.answer.trans hrefused)]
  rw [hparticipants] at hclose₂ hall hrefuser
  rw [horder] at hi
  exact ⟨level, heights₂, htracked₂.of_same hparticipants hphases, hclose₂, hhead,
    ⟨i, phase, hi, hall, hrefuser⟩, ⟨done, phase, later, rfl, hsame.trans hcurrent⟩⟩

end WorkStealing.Runlevels
