import Mathlib.Data.List.Nodup
import WorkStealing.Runlevel.Basic

/-!
# What participants are told

What a participant sees of bring-up and tear-down is what a wrapper around it writes down
(`Participant.watched`). `Nested` says of such a history that phases came up in order and went down
in reverse, and how many are up; these are the first ones of the order (`Nested.stands_iff`).

The manager keeps marks instead of heights. `Stacked` relates the two: what is marked is what is up,
and every history is nested. A switch in either direction leads from one height to the next
(`Direction.start`, `Direction.goal`), and it is news to a participant that has not come as far as
it leads (`Stacked.isDue_iff`).
-/

namespace WorkStealing

/-- One switch that a participant was told of, and whether it went through. -/
structure Telling where
  mark : PhaseMark
  direction : Direction
  accepted : Bool
deriving DecidableEq, Repr

/-- A world with what was told to the participants, the latest first. -/
structure Watched (σ : Type) where
  world : σ
  journal : List Telling := []

variable {σ : Type}

/-- A participant that writes down what it is told. -/
def Participant.watched (position : Nat) (p : Participant σ) : Participant (Watched σ) where
  name := p.name
  switch level phase direction w :=
    match p.switch level phase direction w.world with
    | (world, r) =>
      ({ world := world
         journal :=
          { mark := { participant := position, level := level, phase := phase }
            direction := direction
            accepted := r.isOk } :: w.journal }, r)

namespace Runlevels

/-- What one participant was told. -/
def told (journal : List Telling) (position : Nat) : List Telling :=
  journal.filter fun t => t.mark.participant = position

/-- Whether a phase is up at a participant: the latest switch of it that went through was upward. -/
def stands (journal : List Telling) (mark : PhaseMark) : Bool :=
  match journal.find? fun t => t.accepted && t.mark = mark with
  | some t => t.direction = .up
  | none => false

/-- The phases of all levels, in the order in which they come up. -/
def order (m : Runlevels σ) : List (RunLevel × Nat) :=
  RunLevel.all.flatMap fun l => (List.range (m.phases l)).map fun phase => (l, phase)

/-- A history of one participant, the latest first, in which phases come up in order and go down in
reverse, and the number of phases that it leaves up. A switch that does not go through changes
nothing. -/
inductive Nested (order : List (RunLevel × Nat)) (position : Nat) : List Telling → Nat → Prop
  | start : Nested order position [] 0
  | up {history : List Telling} {height : Nat} {level : RunLevel} {phase : Nat} (accepted : Bool)
      (below : Nested order position history height)
      (next : order[height]? = some (level, phase)) :
      Nested order position
        ({ mark := { participant := position, level := level, phase := phase }
           direction := .up, accepted := accepted } :: history)
        (if accepted then height + 1 else height)
  | down {history : List Telling} {height : Nat} {level : RunLevel} {phase : Nat}
      (accepted : Bool) (above : Nested order position history (height + 1))
      (last : order[height]? = some (level, phase)) :
      Nested order position
        ({ mark := { participant := position, level := level, phase := phase }
           direction := .down, accepted := accepted } :: history)
        (if accepted then height else height + 1)

/-- What is asked of a manager, and what happens to the world in between. -/
inductive Call (σ : Type) where
  | register (p : Participant σ)
  | bringUpTo (target : RunLevel)
  | bringUp
  | tearDown
  | outside (change : σ → σ)

/-- The manager and the world after a call. -/
def call (m : Runlevels σ) (w : σ) : Call σ → Runlevels σ × σ × Except SchedError Unit
  | .register p => (m.register p, w, .ok ())
  | .bringUpTo target => m.bringUpTo target w
  | .bringUp => m.bringUp w
  | .tearDown => m.tearDown w
  | .outside change => (m, change w, .ok ())

/-! ### Watching -/

/-- Watch participants, from a position on. -/
def watchFrom : Nat → List (Participant σ) → List (Participant (Watched σ))
  | _, [] => []
  | position, p :: rest => p.watched position :: watchFrom (position + 1) rest

/-- The same manager with all its participants watched. -/
def watched (m : Runlevels σ) : Runlevels (Watched σ) where
  participants := watchFrom 0 m.participants
  phaseCounts := m.phaseCounts
  up := m.up
  current := m.current

/-- A call of a manager that watches its participants; a new one comes after those it has. -/
def Call.watched (position : Nat) : Call σ → Call (Watched σ)
  | .register p => .register (p.watched position)
  | .bringUpTo target => .bringUpTo target
  | .bringUp => .bringUp
  | .tearDown => .tearDown
  | .outside change => .outside fun w => { w with world := change w.world }

/-- A manager, its world, and what was told to its participants. -/
structure Observed (σ : Type) extends Watched σ where
  manager : Runlevels σ

namespace Observed

/-- What is observed after a call, and the answer to the call. -/
def call (o : Observed σ) (c : Call σ) : Observed σ × Except SchedError Unit :=
  let (m, w, r) := o.manager.call o.world c
  let watched := o.manager.watched.call o.toWatched (c.watched o.manager.participants.length)
  ({ manager := m, world := w, journal := watched.2.1.journal }, r)

/-- What is observed after a row of calls. -/
def run (o : Observed σ) (calls : List (Call σ)) : Observed σ :=
  calls.foldl (fun o c => (o.call c).1) o

end Observed

end Runlevels

/-! ### Directions -/

namespace Direction

/-- The height from which the phase at a position of the order can be switched. -/
def start : Direction → Nat → Nat
  | .up, n => n
  | .down, n => n + 1

/-- The height to which a switch of the phase at a position of the order leads. -/
def goal : Direction → Nat → Nat
  | .up, n => n + 1
  | .down, n => n

/-- Whether a height is at least as far in a direction as another. -/
def Reached : Direction → Nat → Nat → Prop
  | .up, n, height => n ≤ height
  | .down, n, height => height ≤ n

/-- What is left of an order from a height on. -/
def ahead : Direction → List (RunLevel × Nat) → Nat → List (RunLevel × Nat)
  | .up, order, n => order.drop n
  | .down, order, n => (order.take n).reverse

variable {direction : Direction} {n height : Nat}

theorem eq_start (h : direction.Reached (direction.start n) height)
    (hnot : ¬ direction.Reached (direction.goal n) height) : height = direction.start n := by
  cases direction with
  | up =>
      simp only [Reached, start, goal] at h hnot ⊢
      omega
  | down =>
      simp only [Reached, start, goal] at h hnot ⊢
      omega

theorem reached_goal : direction.Reached (direction.goal n) (direction.goal n) := by
  cases direction with
  | up => exact Nat.le_refl _
  | down => exact Nat.le_refl _

theorem reached_start_goal : direction.Reached (direction.start n) (direction.goal n) := by
  cases direction with
  | up => exact Nat.le_succ _
  | down => exact Nat.le_succ _

theorem Reached.trans {a b c : Nat} (h : direction.Reached a b) (h' : direction.Reached b c) :
    direction.Reached a c := by
  cases direction with
  | up => exact Nat.le_trans h h'
  | down => exact Nat.le_trans h' h

/-- The phase just ahead is the one that can be switched. -/
theorem of_ahead {order rest : List (RunLevel × Nat)} {x : RunLevel × Nat}
    (hle : n ≤ order.length) (h : direction.ahead order n = x :: rest) :
    ∃ i, n = direction.start i ∧ order[i]? = some x ∧ direction.goal i ≤ order.length ∧
      direction.ahead order (direction.goal i) = rest := by
  cases direction with
  | up =>
      have hx : order[n]? = some x := by
        rw [← List.head?_drop]
        exact congrArg List.head? h
      have hlt := (List.getElem?_eq_some_iff.1 hx).1
      refine ⟨n, rfl, hx, hlt, ?_⟩
      rw [ahead] at h
      rw [ahead, goal, ← List.tail_drop, h]
      rfl
  | down =>
      cases n with
      | zero =>
          rw [ahead, List.take_zero] at h
          cases h
      | succ n =>
          have hn : order[n]? = some order[n] := List.getElem?_eq_getElem hle
          rw [ahead, List.take_add_one, hn, Option.toList_some, List.reverse_append] at h
          cases h
          exact ⟨n, rfl, hn, Nat.le_of_succ_le hle, rfl⟩

/-- The way down from the top is the whole order in reverse. -/
theorem ahead_length (order : List (RunLevel × Nat)) :
    down.ahead order order.length = order.reverse ++ [] := by
  rw [ahead, List.take_length, List.append_nil]

end Direction

namespace Runlevels

variable {m : Runlevels σ} {w : σ} {journal history : List Telling} {heights : Nat → Nat}
  {order : List (RunLevel × Nat)} {direction : Direction} {level : RunLevel} {phase n height : Nat}
  {k position : Nat}

/-! ### Histories -/

theorem told_cons (t : Telling) (journal : List Telling) (k : Nat) :
    told (t :: journal) k = if t.mark.participant = k then t :: told journal k
      else told journal k := by
  rw [told, List.filter_cons]
  simp only [decide_eq_true_eq]
  rfl

theorem stands_cons (t : Telling) (journal : List Telling) (mark : PhaseMark) :
    stands (t :: journal) mark =
      if t.accepted = true ∧ t.mark = mark then decide (t.direction = .up)
      else stands journal mark := by
  rw [stands, List.find?_cons]
  by_cases h : t.accepted = true ∧ t.mark = mark
  · rw [if_pos h]
    simp [h.1, h.2]
  · rw [if_neg h]
    have hfalse : (t.accepted && decide (t.mark = mark)) = false := by
      simpa using h
    rw [hfalse]
    rfl

/-- Whether a phase is up at a participant is a matter of that participant's own history. -/
theorem stands_told (journal : List Telling) (mark : PhaseMark) :
    stands (told journal mark.participant) mark = stands journal mark := by
  induction journal with
  | nil => rfl
  | cons t rest ih =>
      rw [told_cons, stands_cons]
      by_cases hk : t.mark.participant = mark.participant
      · rw [if_pos hk, stands_cons, ih]
      · rw [if_neg hk, ih, if_neg]
        rintro ⟨-, rfl⟩
        exact hk rfl

theorem mem_take_iff (hnodup : order.Nodup) {x : RunLevel × Nat} (hn : order[n]? = some x)
    (height : Nat) : x ∈ order.take height ↔ n < height := by
  obtain ⟨hlt, rfl⟩ := List.getElem?_eq_some_iff.1 hn
  rw [List.mem_take_iff_getElem]
  constructor
  · rintro ⟨i, hi, hx⟩
    -- a phase stands in the order only once
    have hin := (hnodup.getElem_inj_iff).1 hx
    omega
  · intro h
    exact ⟨n, by omega, rfl⟩

theorem mem_take_succ {x : RunLevel × Nat} (hn : order[n]? = some x) (y : RunLevel × Nat) :
    y ∈ order.take (n + 1) ↔ y ∈ order.take n ∨ y = x := by
  rw [List.take_add_one, hn, List.mem_append, Option.toList_some, List.mem_singleton]

namespace Nested

/-- Both kinds of switch lead from where they can be made to where they lead. -/
theorem switched (h : Nested order k history (direction.start n))
    (hn : order[n]? = some (level, phase)) (accepted : Bool) :
    Nested order k
      ({ mark := { participant := k, level := level, phase := phase }
         direction := direction, accepted := accepted } :: history)
      (if accepted then direction.goal n else direction.start n) := by
  cases direction with
  | up => exact .up accepted h hn
  | down => exact .down accepted h hn

theorem height_le (h : Nested order k history height) : height ≤ order.length := by
  induction h with
  | start => exact Nat.zero_le _
  | up accepted below next ih =>
      have hlt := (List.getElem?_eq_some_iff.1 next).1
      cases accepted with
      | true => exact hlt
      | false => exact ih
  | down accepted above last ih =>
      cases accepted with
      | true => exact Nat.le_of_succ_le ih
      | false => exact ih

/-- The phases that are up at a participant are the first ones of the order. -/
theorem stands_iff (hnodup : order.Nodup) (h : Nested order k history height)
    (level : RunLevel) (phase : Nat) :
    stands history { participant := k, level := level, phase := phase } = true ↔
      (level, phase) ∈ order.take height := by
  -- one case per kind of switch; only one that goes through has an effect
  induction h with
  | start => simp [stands]
  | @up history height l p accepted below next ih =>
      rw [stands_cons]
      cases accepted with
      | false => simpa using ih
      | true =>
          simp only [if_true, mem_take_succ next, true_and, PhaseMark.mk.injEq]
          by_cases hx : l = level ∧ p = phase
          · simp [hx]
          · have hne : ¬ (level, phase) = (l, p) := by
              rintro ⟨⟩
              exact hx ⟨rfl, rfl⟩
            rw [if_neg hx, ih]
            simp only [hne, or_false]
  | @down history height l p accepted above last ih =>
      rw [stands_cons]
      cases accepted with
      | false => simpa using ih
      | true =>
          simp only [if_true, true_and, PhaseMark.mk.injEq]
          by_cases hx : l = level ∧ p = phase
          · obtain ⟨rfl, rfl⟩ := hx
            simp [mem_take_iff hnodup last]
          · have hne : ¬ (level, phase) = (l, p) := by
              rintro ⟨⟩
              exact hx ⟨rfl, rfl⟩
            rw [if_neg hx, ih, mem_take_succ last]
            simp only [hne, or_false]

end Nested

theorem nodup_order (m : Runlevels σ) : m.order.Nodup := by
  have hlevels : RunLevel.all.Nodup := by decide
  rw [order, List.nodup_flatMap]
  constructor
  · intro l _
    exact List.nodup_range.map fun a b h => (Prod.mk.inj h).2
  · refine hlevels.imp ?_
    intro a b hab x hx hx'
    obtain ⟨_, -, rfl⟩ := List.mem_map.1 hx
    obtain ⟨_, -, h⟩ := List.mem_map.1 hx'
    exact hab (Prod.mk.inj h).1.symm

/-- Higher levels come later. -/
theorem pairwise_order (m : Runlevels σ) : m.order.Pairwise fun x y => x.1.rank ≤ y.1.rank := by
  have hlevels : RunLevel.all.Pairwise fun a b => a.rank < b.rank := by decide
  rw [order, List.pairwise_flatMap]
  constructor
  · intro l _
    rw [List.pairwise_map]
    exact List.pairwise_of_forall fun _ _ => Nat.le_refl _
  · refine hlevels.imp ?_
    intro a b hab x hx y hy
    obtain ⟨_, -, rfl⟩ := List.mem_map.1 hx
    obtain ⟨_, -, rfl⟩ := List.mem_map.1 hy
    exact Nat.le_of_lt hab

/-! ### The manager's marks -/

/-- The manager has marked what is up at its participants, and each of them has seen a nested
history. -/
structure Stacked (m : Runlevels σ) (journal : List Telling) (heights : Nat → Nat) : Prop where
  marks : ∀ mark, m.up.contains mark = stands journal mark
  nested : ∀ k, Nested m.order k (told journal k) (heights k)

namespace Stacked

theorem stands_iff (h : Stacked m journal heights) (k : Nat) (level : RunLevel) (phase : Nat) :
    stands journal { participant := k, level := level, phase := phase } = true ↔
      (level, phase) ∈ m.order.take (heights k) := by
  rw [← stands_told]
  exact (h.nested k).stands_iff m.nodup_order level phase

/-- All have come as far as the way down from the top starts. -/
theorem reached_length (h : Stacked m journal heights) (k : Nat) :
    Direction.down.Reached m.order.length (heights k) :=
  (h.nested k).height_le

/-- A switch is news to the participants that have not come as far as it leads. -/
theorem isDue_iff (h : Stacked m journal heights) (hn : m.order[n]? = some (level, phase))
    (k : Nat) (direction : Direction) :
    m.isDue { participant := k, level := level, phase := phase } direction = true ↔
      ¬ direction.Reached (direction.goal n) (heights k) := by
  have hstands := h.stands_iff k level phase
  rw [mem_take_iff m.nodup_order hn, ← h.marks] at hstands
  cases direction with
  | up =>
      rw [isDue, Bool.not_eq_true', ← Bool.not_eq_true, hstands]
      exact Iff.rfl
  | down =>
      rw [isDue, hstands]
      exact Nat.not_le.symm

/-- A participant was told of the switch that it can make next. -/
theorem written (h : Stacked m journal heights) (hn : m.order[n]? = some (level, phase))
    (hk : heights k = direction.start n) (accepted : Bool) :
    let t : Telling :=
      { mark := { participant := k, level := level, phase := phase }
        direction := direction, accepted := accepted }
    ∀ j, Nested m.order j (told (t :: journal) j)
      (Function.update heights k (if accepted then direction.goal n else direction.start n) j) := by
  intro t j
  have hold := h.nested j
  rw [told_cons]
  by_cases hj : k = j
  · subst hj
    rw [if_pos rfl, Function.update_self]
    rw [hk] at hold
    exact hold.switched hn accepted
  · rw [if_neg hj, Function.update_of_ne (Ne.symm hj)]
    exact hold

/-- A switch that a participant refuses leaves the marks as they are. -/
theorem refused (h : Stacked m journal heights) (hn : m.order[n]? = some (level, phase))
    (hk : heights k = direction.start n) :
    Stacked m
      ({ mark := { participant := k, level := level, phase := phase }
         direction := direction, accepted := false } :: journal) heights where
  marks mark := by
    rw [h.marks, stands_cons, if_neg]
    rintro ⟨hfalse, -⟩
    cases hfalse
  nested j := by
    have hnested := h.written hn hk false j
    have hsame : Function.update heights k (direction.start n) = heights := by
      rw [← hk, Function.update_eq_self]
    simp only [Bool.false_eq_true, if_false, hsame] at hnested
    exact hnested

/-- A switch that goes through is noted. -/
theorem accepted (h : Stacked m journal heights) (hn : m.order[n]? = some (level, phase))
    (hk : heights k = direction.start n) :
    Stacked (m.note { participant := k, level := level, phase := phase } direction)
      ({ mark := { participant := k, level := level, phase := phase }
         direction := direction, accepted := true } :: journal)
      (Function.update heights k (direction.goal n)) where
  marks mark := by
    rw [stands_cons]
    cases direction with
    | up =>
        rw [note, List.contains_cons, h.marks]
        by_cases hmark : ({ participant := k, level := level, phase := phase } : PhaseMark) = mark
        · simp [hmark]
        · simp [hmark, Ne.symm hmark]
    | down =>
        rw [note, ← h.marks]
        by_cases hmark : ({ participant := k, level := level, phase := phase } : PhaseMark) = mark
        · simp [hmark]
        · simp [hmark, Ne.symm hmark]
  nested j := by
    have horder : (m.note { participant := k, level := level, phase := phase } direction).order =
        m.order := by
      cases direction with
      | up => rfl
      | down => rfl
    rw [horder]
    exact h.written hn hk true j

end Stacked

end Runlevels

end WorkStealing
