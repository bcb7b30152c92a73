import WorkStealing.Proofs.Cluster.Selection

/-!
# The pace of rounds

How many searches lie between two rounds. As long as no request fails, every `gap`-th search after a
round starts the next one, whatever is answered in between; a failure makes the next search start a
round (`Rounds.rounds_paced`).

`due` counts the searches up to and including the one that starts a round. It moves along a circle
of length `gap`, one place a search; a failure sends it to the last place. `Tame` keeps the throttle
between the values that it starts from, and with it within its machine word.
-/

namespace WorkStealing.Rounds

variable {r : Rounds} {requester : Option Location} {l : Location} {n : Neighbor} {e : Event}

namespace Event

def isSearch : Event → Bool
  | .search _ => true
  | _ => false

def isFailure : Event → Bool
  | .failure _ _ => true
  | _ => false

end Event

/-- How many of the events are searches. -/
def searches (events : List Event) : Nat := events.countP Event.isSearch

/-- The searches up to and including the one that starts the next round. -/
def due (r : Rounds) : Nat := (max 1 r.throttle).toNat

/-- The searches from one round up to and including the one that starts the next, as long as
nothing fails. -/
def gap (r : Rounds) : Nat := (max 1 r.pace).toNat

/-- The throttle is one of the values that it takes between two rounds. -/
def Tame (r : Rounds) : Prop := min 0 r.pace ≤ r.throttle ∧ r.throttle ≤ max 1 r.pace

/-- A value of a signed machine word. -/
def InWord (z : Int) : Prop := Int64.minValue.toInt ≤ z ∧ z ≤ Int64.maxValue.toInt

/-! ### What each event does to the throttle -/

@[simp] theorem factor_step (r : Rounds) (e : Event) : (r.step e).factor = r.factor := by
  cases e with
  | search requester =>
      rcases r.exhausted_facts requester with ⟨-, h⟩ | ⟨-, h⟩
      · rw [step, h]
      · rw [step, h]
        rfl
  | answer l response => rfl
  | lateAnswer l response => rfl
  | failure l unreachable => rfl

@[simp] theorem pace_step (r : Rounds) (e : Event) : (r.step e).pace = r.pace := by
  rw [pace, pace, factor_step, ← length_locations, ← length_locations, locations_step]

@[simp] theorem gap_step (r : Rounds) (e : Event) : (r.step e).gap = r.gap := by
  rw [gap, gap, pace_step]

@[simp] theorem pace_run (r : Rounds) (events : List Event) : (r.run events).pace = r.pace := by
  induction events generalizing r with
  | nil => rfl
  | cons e rest ih => exact (ih (r.step e)).trans (pace_step r e)

theorem gap_pos (r : Rounds) : 0 < r.gap := by
  rw [gap]
  omega

theorem due_pos (r : Rounds) : 0 < r.due := by
  rw [due]
  omega

theorem startsRound_search (r : Rounds) (requester : Option Location) :
    r.startsRound (.search requester) = decide (r.due = 1) := by
  rw [startsRound, due, decide_eq_decide]
  omega

theorem due_search (r : Rounds) (requester : Option Location) :
    (r.step (.search requester)).due = if r.due = 1 then r.gap else r.due - 1 := by
  have h := r.throttle_exhausted requester
  rw [due, due, gap, step, h]
  split <;> split <;> omega

theorem due_failure (r : Rounds) (l : Location) (unreachable : Bool) :
    (r.step (.failure l unreachable)).due = 1 := rfl

/-- Answers do not move the throttle. -/
theorem due_step (hsearch : e.isSearch = false) (hfailure : e.isFailure = false) :
    (r.step e).due = r.due := by
  cases e with
  | search requester => cases hsearch
  | answer l response => rfl
  | lateAnswer l response => rfl
  | failure l unreachable => cases hfailure

/-- Once the next search starts a round, only a search can change that. -/
theorem due_run_of_quiet {events : List Event} (hdue : r.due = 1)
    (hquiet : ∀ e ∈ events, e.isSearch = false) : (r.run events).due = 1 := by
  induction events generalizing r with
  | nil => exact hdue
  | cons e rest ih =>
      obtain ⟨he, hrest⟩ := List.forall_mem_cons.1 hquiet
      refine ih ?_ hrest
      cases hfailure : e.isFailure with
      | false => exact (due_step he hfailure).trans hdue
      | true =>
          cases e with
          | failure l unreachable => exact due_failure r l unreachable
          | search | answer | lateAnswer => cases hfailure

/-! ### The throttle stays tame -/

theorem Tame.step (h : r.Tame) (e : Event) : (r.step e).Tame := by
  rw [Tame] at h ⊢
  rw [pace_step]
  cases e with
  | search requester =>
      have hthrottle := r.throttle_exhausted requester
      rw [Rounds.step, hthrottle]
      split <;> omega
  | answer l response => exact h
  | lateAnswer l response => exact h
  | failure l unreachable =>
      have hthrottle : (r.step (.failure l unreachable)).throttle = 1 := rfl
      omega

theorem Tame.run (h : r.Tame) (events : List Event) : (r.run events).Tame := by
  induction events generalizing r with
  | nil => exact h
  | cons e rest ih => exact ih (h.step e)

theorem tame_new (ls : List Location) (factor : UInt32) : (new ls factor).Tame := by
  have hthrottle : (new ls factor).throttle = 1 := rfl
  rw [Tame, hthrottle]
  omega

theorem Tame.due_le_gap (h : r.Tame) : r.due ≤ r.gap := by
  have hle := h.2
  rw [due, gap]
  omega

/-! ### Rounds without failures -/

/-- Without failures every `gap`-th search starts a round, counted from the place on the circle
where the run begins. -/
theorem started_eq (htame : r.Tame) {events : List Event}
    (hfailures : ∀ e ∈ events, e.isFailure = false) :
    r.started events = (searches events + (r.gap - r.due)) / r.gap := by
  -- induction on the events; a search moves the place by one, and past the end starts a round
  induction events generalizing r with
  | nil =>
      have hpos := r.due_pos
      have hgap := r.gap_pos
      rw [started, searches, List.countP_nil, Nat.zero_add, Nat.div_eq_of_lt (by omega)]
  | cons e rest ih =>
      obtain ⟨he, hrest⟩ := List.forall_mem_cons.1 hfailures
      have hle := htame.due_le_gap
      have hpos := r.due_pos
      have htail := ih (htame.step e) hrest
      rw [gap_step] at htail
      cases hsearch : e.isSearch with
      | false =>
          have hnone : r.startsRound e = false := by
            cases e with
            | search requester => cases hsearch
            | answer | lateAnswer | failure => rfl
          have hcount : searches (e :: rest) = searches rest :=
            List.countP_cons_of_neg (by rw [hsearch]; exact Bool.false_ne_true)
          rw [started, hnone, Bool.toNat_false, Nat.zero_add, htail, due_step hsearch he, hcount]
      | true =>
          have hcount : searches (e :: rest) = searches rest + 1 :=
            List.countP_cons_of_pos hsearch
          cases e with
          | answer | lateAnswer | failure => cases hsearch
          | search requester =>
              rw [started, htail, hcount, startsRound_search, due_search]
              by_cases hdue : r.due = 1
              · rw [if_pos hdue, Nat.sub_self, Nat.add_zero, decide_eq_true hdue, Bool.toNat_true,
                  hdue, Nat.add_comm 1, ← Nat.add_div_right _ r.gap_pos]
                congr 1
                omega
              · rw [if_neg hdue, decide_eq_false hdue, Bool.toNat_false, Nat.zero_add]
                congr 1
                omega

theorem started_append (r : Rounds) (before after : List Event) :
    r.started (before ++ after) = r.started before + (r.run before).started after := by
  induction before generalizing r with
  | nil => rw [List.nil_append, started, Nat.zero_add, run, List.foldl_nil]
  | cons e rest ih =>
      rw [List.cons_append, started, started, ih (r.step e), Nat.add_assoc]
      rfl

theorem searches_append (before after : List Event) :
    searches (before ++ after) = searches before + searches after :=
  List.countP_append

/-- After a round the next one is a whole gap away. -/
theorem due_round (hstarts : r.startsRound (.search requester)) :
    (r.step (.search requester)).due = (r.step (.search requester)).gap := by
  rw [startsRound_search, decide_eq_true_iff] at hstarts
  rw [due_search, if_pos hstarts, gap_step]

section Stretch

/-! A stretch of a run that begins right after a round, and in which no request fails. -/

variable (htame : r.Tame) (hround : r.due = r.gap) {between : List Event}
  (hfailures : ∀ e ∈ between, e.isFailure = false)

include htame hround hfailures

theorem started_round : r.started between = searches between / r.gap := by
  rw [started_eq htame hfailures, hround, Nat.sub_self, Nat.add_zero]

theorem searches_lt_gap (hnone : r.started between = 0) : searches between < r.gap := by
  rw [started_round htame hround hfailures] at hnone
  exact (Nat.div_eq_zero_iff_lt r.gap_pos).1 hnone

/-- The search that comes after a stretch in which no round starts does so itself exactly at the end
of the gap. -/
theorem startsRound_run_iff (hnone : r.started between = 0) (requester : Option Location) :
    (r.run between).startsRound (.search requester) ↔ searches between = r.gap - 1 := by
  have hgap := r.gap_pos
  have hlt := searches_lt_gap htame hround hfailures hnone
  -- the stretch with one more search has started a round if and only if that search does
  have hlonger : r.started (between ++ [.search requester]) = (searches between + 1) / r.gap := by
    rw [started_round htame hround, searches_append]
    · rfl
    · intro e he
      rcases List.mem_append.1 he with hmem | hmem
      · exact hfailures e hmem
      · rw [List.mem_singleton.1 hmem]
        rfl
  rw [started_append, hnone, Nat.zero_add, started, started, Nat.add_zero] at hlonger
  constructor
  · intro hstarts
    rw [hstarts, Bool.toNat_true] at hlonger
    have hle := (Nat.one_le_div_iff hgap).1 hlonger.le
    omega
  · intro hcount
    rw [hcount, Nat.sub_add_cancel hgap, Nat.div_self hgap] at hlonger
    exact Bool.toNat_eq_one.1 hlonger

end Stretch

/-! ### After a failure -/

/-- The neighbor of a name owes no answer. -/
def IsIdle (r : Rounds) (l : Location) : Prop :=
  ∀ n ∈ r.neighbors, n.location = l → n.status = .idle

/-- Only a search can change that. -/
theorem IsIdle.run (h : r.IsIdle l) {events : List Event}
    (hquiet : ∀ e ∈ events, e.isSearch = false) : (r.run events).IsIdle l := by
  induction events generalizing r with
  | nil => exact h
  | cons e rest ih =>
      obtain ⟨he, hrest⟩ := List.forall_mem_cons.1 hquiet
      refine ih ?_ hrest
      cases e with
      | search requester => cases he
      | answer l' response => exact forall_update h (fun _ => rfl) fun _ _ => rfl
      | lateAnswer l' response => exact forall_update h (fun _ => rfl) fun _ hidle => hidle
      | failure l' unreachable => exact forall_update h (fun _ => rfl) fun _ _ => rfl

theorem isIdle_failed (r : Rounds) (l : Location) (unreachable : Bool) :
    (r.failed l unreachable).IsIdle l := by
  intro n' hn' heq
  obtain ⟨n, hn, rfl⟩ := mem_update hn'
  by_cases hname : n.location = l
  · rw [if_pos hname]
    rfl
  · rw [if_neg hname] at heq
    exact absurd heq hname

/-- A search that is not throttled asks every idle neighbor but the requester, if it accepts. -/
theorem IsIdle.asked (h : r.IsIdle n.location) (hstarts : r.startsRound (.search requester))
    (hn : n ∈ r.neighbors) (haccepting : n.accepting = true)
    (hrequester : requester ≠ some n.location) : n.location ∈ (r.exhausted requester).2 := by
  have hdue : r.throttle ≤ 1 := by simpa [startsRound] using hstarts
  rcases r.exhausted_facts requester with ⟨hthrottled, -⟩ | ⟨-, hround⟩
  · exact absurd hdue (by omega)
  · rw [hround]
    exact mem_selected_iff.2 ⟨hrequester, n, hn, rfl, h n hn rfl, haccepting⟩

/-- The first search after a failure starts a round. -/
theorem startsRound_of_failure (r : Rounds) (l : Location) (unreachable : Bool)
    {between : List Event} (hquiet : ∀ e ∈ between, e.isSearch = false)
    (requester : Option Location) :
    ((r.step (.failure l unreachable)).run between).startsRound (.search requester) := by
  rw [startsRound_search, decide_eq_true_iff]
  exact due_run_of_quiet (due_failure r l unreachable) hquiet

/-! ### The pace -/

theorem pace_run_new (ls : List Location) (factor : UInt32) (events : List Event) :
    ((new ls factor).run events).pace = factor.toNat * ((ls.eraseDups.length : Int) - 1) := by
  have hcount : (new ls factor).neighbors.length = ls.eraseDups.length := List.length_map _
  rw [pace_run, pace, hcount]
  rfl

/-- What the throttle starts from after a round, in natural numbers where somebody can be asked. -/
theorem pace_cases (ls : List Location) (factor : UInt32) :
    (factor.toNat : Int) * ((ls.eraseDups.length : Int) - 1) =
        ((factor.toNat * (ls.eraseDups.length - 1) : Nat) : Int) ∨
      (ls.eraseDups.length = 0 ∧
        (factor.toNat : Int) * ((ls.eraseDups.length : Int) - 1) = -factor.toNat) := by
  cases ls.eraseDups.length with
  | zero => exact .inr ⟨rfl, by simp⟩
  | succ k => exact .inl (by simp)

theorem gap_run_new (ls : List Location) (factor : UInt32) (events : List Event) :
    ((new ls factor).run events).gap = max 1 (factor.toNat * (ls.eraseDups.length - 1)) := by
  rw [gap, pace_run_new]
  rcases pace_cases ls factor with hpace | ⟨hnobody, hpace⟩
  · rw [hpace]
    omega
  · rw [hpace, hnobody, Nat.zero_sub, Nat.mul_zero]
    omega

/-- The throttle and all that it is set to are values of a signed machine word, as long as the pace
is. -/
theorem Tame.inWord (h : r.Tame) (hlow : -(2 ^ 32) < r.pace) (hhigh : r.pace < 2 ^ 63) :
    InWord r.throttle ∧ InWord (r.throttle - 1) ∧ InWord r.pace := by
  have hmin : Int64.minValue.toInt = -(2 ^ 63) := rfl
  have hmax : Int64.maxValue.toInt = 2 ^ 63 - 1 := rfl
  obtain ⟨hlower, hupper⟩ := h
  refine ⟨⟨?_, ?_⟩, ⟨?_, ?_⟩, ?_, ?_⟩ <;> omega

theorem inWord_run_new {ls : List Location} {factor : UInt32}
    (hrange : factor.toNat * (ls.eraseDups.length - 1) < 2 ^ 63) (events : List Event) :
    let r := (new ls factor).run events
    InWord r.throttle ∧ InWord (r.throttle - 1) ∧ InWord r.pace := by
  have hpace := pace_run_new ls factor events
  have hfactor := factor.toNat_lt
  refine ((tame_new ls factor).run events).inWord ?_ ?_ <;>
    rcases pace_cases ls factor with hcase | ⟨-, hcase⟩ <;> omega

/-- The pace of the rounds of a node, over every run of its events. The first search starts a round.
From one round to the next, while no request fails, there are exactly `gap - 1` searches that ask
nobody, whatever is answered. After a failure the next search starts a round, and it asks the node
whose request failed, as long as that is a neighbor that accepts requests and not the requester. The
throttle stays a value of its machine word. -/
theorem rounds_paced (ls : List Location) (factor : UInt32)
    (hrange : factor.toNat * (ls.eraseDups.length - 1) < 2 ^ 63) (events : List Event) :
    let r := (new ls factor).run events
    let gap := max 1 (factor.toNat * (ls.eraseDups.length - 1))
    ((∀ e ∈ events, e.isSearch = false) → ∀ requester,
        r.startsRound (.search requester)) ∧
      (∀ requester between, r.startsRound (.search requester) →
        (∀ e ∈ between, e.isFailure = false) →
        let after := r.step (.search requester)
        after.started between = searches between / gap ∧
          (after.started between = 0 → searches between < gap ∧ ∀ next,
            (after.run between).startsRound (.search next) ↔ searches between = gap - 1)) ∧
      (∀ l unreachable between requester, (∀ e ∈ between, e.isSearch = false) →
        let after := (r.step (.failure l unreachable)).run between
        after.startsRound (.search requester) ∧
          (requester ≠ some l → (∃ n ∈ after.neighbors, n.location = l ∧ n.accepting = true) →
            l ∈ (after.exhausted requester).2)) ∧
      InWord r.throttle ∧ InWord (r.throttle - 1) ∧ InWord r.pace := by
  dsimp only
  refine ⟨fun hquiet requester => ?_, fun requester between hstarts hfailures => ?_,
    fun l unreachable between requester hquiet => ?_, inWord_run_new hrange events⟩
  · rw [startsRound_search, decide_eq_true_iff]
    exact due_run_of_quiet rfl hquiet
  · have htame := ((tame_new ls factor).run events).step (.search requester)
    have hround := due_round hstarts
    rw [← gap_run_new ls factor events, ← gap_step _ (.search requester)]
    exact ⟨started_round htame hround hfailures, fun hnone =>
      ⟨searches_lt_gap htame hround hfailures hnone,
        startsRound_run_iff htame hround hfailures hnone⟩⟩
  · have hstarts :=
      startsRound_of_failure ((new ls factor).run events) l unreachable hquiet requester
    refine ⟨hstarts, ?_⟩
    rintro hrequester ⟨n, hn, rfl, haccepting⟩
    have hidle := (isIdle_failed ((new ls factor).run events) n.location unreachable).run hquiet
    exact hidle.asked hstarts hn haccepting hrequester

/-- Three neighbors and a factor of two put three quiet searches between rounds, with an answer on
the way; a failure makes the next search ask the node that failed again. -/
theorem rounds_paced_three :
    let ls : List Location := [⟨1⟩, ⟨2⟩, ⟨1⟩, ⟨3⟩]
    let between : List Event :=
      [.search none, .answer ⟨3⟩ { responder := ⟨3⟩ }, .search (some ⟨2⟩), .search none]
    let after := (new ls 2).step (.search none)
    let failed := after.step (.failure ⟨2⟩ false)
    (2 : UInt32).toNat * (ls.eraseDups.length - 1) < 2 ^ 63 ∧
      (new ls 2).startsRound (.search none) = true ∧ after.started between = 0 ∧
      (after.run between).startsRound (.search none) = true ∧
      failed.startsRound (.search none) = true ∧ ⟨2⟩ ∈ (failed.exhausted none).2 := by
  intro ls between after failed
  have hrange : (2 : UInt32).toNat * (ls.eraseDups.length - 1) < 2 ^ 63 := by decide
  obtain ⟨hfirst, hspaced, -, -⟩ := rounds_paced ls 2 hrange []
  obtain ⟨-, -, hfailed, -⟩ := rounds_paced ls 2 hrange [.search none]
  have hstarts : (new ls 2).startsRound (.search none) = true := hfirst (by simp) none
  obtain ⟨hcount, hnext⟩ := hspaced none between hstarts (by decide)
  have hnone : after.started between = 0 := hcount.trans (by decide)
  have hagain := hfailed ⟨2⟩ false [] none (by simp)
  exact ⟨hrange, hstarts, hnone, ((hnext hnone).2 none).2 (by decide), hagain.1,
    hagain.2 (by decide) (by decide)⟩

end WorkStealing.Rounds
