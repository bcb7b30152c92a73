import Mathlib.Data.List.Rotate
import WorkStealing.Proofs.Cluster.Requests

/-!
# What a round selects

The rounds of a node in any row of events: searches on behalf of anybody, answers, late answers and
failures, also of nodes that are no neighbors. A search is throttled, or it asks each neighbor that
may be asked, in the order of the neighbors from where the rounds so far have come to
(`Rounds.search_selects`).

A round is defined at one stroke. Asking the neighbors one after the other, each by its record when
its turn comes, does the same (`Rounds.scan_eq`), as no neighbor has more than one turn.
-/

namespace WorkStealing.Rounds

variable {r : Rounds} {requester : Option Location} {l : Location} {n : Neighbor}

/-! ### Runs -/

/-- What can happen to the rounds of a node. -/
inductive Event where
  | search (requester : Option Location)
  | answer (l : Location) (response : TakeResponse)
  | lateAnswer (l : Location) (response : TakeResponse)
  | failure (l : Location) (unreachable : Bool)

/-- The rounds after an event. -/
def step (r : Rounds) : Event → Rounds
  | .search requester => (r.exhausted requester).1
  | .answer l response => (r.answered l response).1
  | .lateAnswer l response => (r.answeredLate l response).1
  | .failure l unreachable => r.failed l unreachable

def run (r : Rounds) (events : List Event) : Rounds := events.foldl step r

/-- Whether an event is a search that is not throttled. -/
def startsRound (r : Rounds) : Event → Bool
  | .search _ => r.throttle ≤ 1
  | _ => false

/-- How many rounds a run starts. -/
def started (r : Rounds) : List Event → Nat
  | [] => 0
  | e :: rest => (r.startsRound e).toNat + (r.step e).started rest

/-- The neighbors stay the same. -/
@[simp] theorem locations_step (r : Rounds) (e : Event) : (r.step e).locations = r.locations := by
  cases e with
  | search requester => exact locations_exhausted r requester
  | answer l response => exact locations_answered r l response
  | lateAnswer l response => exact locations_answeredLate r l response
  | failure l unreachable => exact locations_failed r l unreachable

@[simp] theorem locations_run (r : Rounds) (events : List Event) :
    (r.run events).locations = r.locations := by
  induction events generalizing r with
  | nil => rfl
  | cons e rest ih => exact (ih (r.step e)).trans (locations_step r e)

theorem length_locations (r : Rounds) : r.locations.length = r.neighbors.length :=
  List.length_map _

/-- The next round begins one neighbor further after each round, and nothing else moves it. -/
theorem nextVictim_step (hsome : r.locations ≠ []) (e : Event) :
    (r.step e).nextVictim =
      if r.startsRound e then (r.nextVictim + 1) % r.locations.length else r.nextVictim := by
  cases e with
  | search requester =>
      have hneighbors : ¬ r.neighbors.isEmpty = true := by
        rw [List.isEmpty_iff]
        exact fun hnone => hsome (congrArg (List.map Neighbor.location) hnone)
      rw [length_locations]
      rcases r.exhausted_facts requester with ⟨hthrottled, h⟩ | ⟨hdue, h⟩
      · rw [step, h, startsRound, if_neg (by simpa using hthrottled)]
      · rw [step, h, startsRound, if_pos (by simpa using hdue)]
        exact if_neg hneighbors
  | answer l response => rfl
  | lateAnswer l response => rfl
  | failure l unreachable => rfl

/-- Where the next round begins says how many rounds there have been, up to full turns. -/
theorem nextVictim_run (hsome : r.locations ≠ []) {k : Nat}
    (h : r.nextVictim = k % r.locations.length) (events : List Event) :
    (r.run events).nextVictim = (k + r.started events) % r.locations.length := by
  -- induction on the events still to come; each round moves the count and the place by one
  induction events generalizing r k with
  | nil => exact h
  | cons e rest ih =>
      have hstep := nextVictim_step hsome e
      rw [← locations_step r e] at hsome
      rw [started, ← locations_step r e]
      show ((r.step e).run rest).nextVictim = _
      cases hstarts : r.startsRound e with
      | true =>
          rw [hstarts, if_pos rfl, h, Nat.mod_add_mod, ← locations_step r e] at hstep
          rw [ih hsome hstep, Bool.toNat_true, Nat.add_assoc]
      | false =>
          rw [hstarts, if_neg Bool.false_ne_true, h, ← locations_step r e] at hstep
          rw [ih hsome hstep, Bool.toNat_false, Nat.zero_add]

/-! ### Selecting -/

/-- Whether a node may be asked on behalf of a requester: it is another one than the requester, and
a neighbor that is idle and accepts requests. -/
def MayAsk (r : Rounds) (requester : Option Location) (l : Location) : Prop :=
  requester ≠ some l ∧
    ∃ n ∈ r.neighbors, n.location = l ∧ n.status = .idle ∧ n.accepting = true

instance (r : Rounds) (requester : Option Location) (l : Location) :
    Decidable (r.MayAsk requester l) :=
  inferInstanceAs (Decidable (_ ∧ ∃ n ∈ r.neighbors, _))

theorem mem_selected_iff : l ∈ r.selected requester ↔ r.MayAsk requester l := by
  rw [mem_selected, MayAsk]
  simp only [Neighbor.isSelectable, Bool.and_eq_true, decide_eq_true_eq]
  constructor
  · rintro ⟨n, hn, ⟨⟨hidle, haccepting⟩, hrequester⟩, rfl⟩
    exact ⟨hrequester, n, hn, rfl, hidle, haccepting⟩
  · rintro ⟨hrequester, n, hn, rfl, hidle, haccepting⟩
    exact ⟨n, hn, ⟨⟨hidle, haccepting⟩, hrequester⟩, rfl⟩

theorem inTurn_eq (r : Rounds) : r.inTurn = r.neighbors.rotate r.nextVictim := by
  rw [inTurn, List.rotateLeft, List.rotate_eq_drop_append_take_mod]
  split
  next hshort =>
    -- a row of one neighbor is in turn from wherever it begins
    have hzero : r.nextVictim % r.neighbors.length = 0 ∨ r.neighbors = [] := by
      rcases Nat.le_one_iff_eq_zero_or_eq_one.1 hshort with hnone | hone
      · exact .inr (List.length_eq_zero_iff.1 hnone)
      · rw [hone]
        exact .inl (Nat.mod_one _)
    rcases hzero with hzero | hnil
    · rw [hzero, List.drop_zero, List.take_zero, List.append_nil]
    · rw [hnil, List.drop_nil, List.take_nil, List.append_nil]
  next => rfl

/-- A round asks whoever may be asked, in turn. -/
theorem selected_eq (h : r.locations.Nodup) (requester : Option Location) :
    r.selected requester =
      (r.locations.rotate r.nextVictim).filter fun l => r.MayAsk requester l := by
  rw [selected, inTurn_eq, locations, ← List.map_rotate, List.filter_map]
  congr 1
  apply List.filter_congr
  intro n hn
  -- a neighbor is meant by its name alone
  have hmem : n.location ∈ r.selected requester ↔ n.isSelectable requester = true :=
    location_mem_selected h (List.mem_rotate.1 hn)
  rw [mem_selected_iff] at hmem
  exact (Bool.eq_iff_iff.2 (decide_eq_true_iff.trans hmem)).symm

/-- A round marks whom it asks, and nobody else. -/
theorem neighbors_round (h : r.locations.Nodup) (requester : Option Location) :
    (r.round requester).neighbors =
      r.neighbors.map fun n => if n.location ∈ r.selected requester then n.asked else n := by
  apply List.map_congr_left
  intro n hn
  have hmem : n.location ∈ r.selected requester ↔ n.isSelectable requester = true :=
    location_mem_selected h hn
  by_cases hselect : n.isSelectable requester = true
  · rw [if_pos hselect, if_pos (hmem.2 hselect)]
  · rw [if_neg hselect, if_neg (mt hmem.1 hselect)]

/-! ### One neighbor after the other -/

/-- The turn of the neighbor at a position: it is asked if its record allows that. -/
def turn (requester : Option Location) (s : List Neighbor × List Location) (i : Nat) :
    List Neighbor × List Location :=
  match s.1[i]? with
  | some n => if n.isSelectable requester then (s.1.set i n.asked, s.2 ++ [n.location]) else s
  | none => s

/-- Give each neighbor its turn, from where the next round begins: the records after that, and whom
was asked. -/
def scan (r : Rounds) (requester : Option Location) : List Neighbor × List Location :=
  (cyclicFrom r.nextVictim r.neighbors.length).foldl (turn requester) (r.neighbors, [])

/-- The neighbor at a position, if it may be asked. -/
def candidate? (requester : Option Location) (ns : List Neighbor) (i : Nat) : Option Location :=
  ns[i]?.bind fun n => if n.isSelectable requester then some n.location else none

/-- A turn changes the record at its own position only. -/
theorem turn_eq (requester : Option Location) (ns : List Neighbor) (asked : List Location)
    (i : Nat) :
    turn requester (ns, asked) i =
      (ns.modify i fun n => if n.isSelectable requester then n.asked else n,
        asked ++ (candidate? requester ns i).toList) := by
  rw [turn, candidate?]
  dsimp only
  cases hi : ns[i]? with
  | none =>
      rw [List.modify_eq_self (List.getElem?_eq_none_iff.1 hi), Option.bind_none,
        Option.toList_none, List.append_nil]
  | some n =>
      obtain ⟨hlt, hget⟩ := List.getElem?_eq_some_iff.1 hi
      rw [List.modify_eq_set_getElem?, hi, Option.map_eq_map, Option.map_some, Option.getD_some,
        Option.bind_some]
      dsimp only
      split
      · rfl
      · rw [← hget, List.set_getElem_self, Option.toList_none, List.append_nil]

/-- Turns at different positions do not meet: each finds the record that stood there at first. -/
theorem foldl_turn (requester : Option Location) (positions : List Nat) (h : positions.Nodup)
    (ns : List Neighbor) (asked : List Location) :
    let s := positions.foldl (turn requester) (ns, asked)
    (∀ j, s.1[j]? = ns[j]?.map fun n =>
        if j ∈ positions ∧ n.isSelectable requester then n.asked else n) ∧
      s.2 = asked ++ positions.filterMap (candidate? requester ns) := by
  induction positions generalizing ns asked with
  | nil => simp
  | cons i rest ih =>
      obtain ⟨hi, hrest⟩ := List.nodup_cons.1 h
      rw [List.foldl_cons, turn_eq]
      obtain ⟨hrecords, hasked⟩ := ih hrest
        (ns.modify i fun n => if n.isSelectable requester then n.asked else n)
        (asked ++ (candidate? requester ns i).toList)
      refine ⟨?_, ?_⟩
      · intro j
        rw [hrecords, List.getElem?_modify]
        cases ns[j]? with
        | none => rfl
        | some n =>
            by_cases hij : i = j
            · subst hij
              simp [hi]
            · simp [hij, Ne.symm hij]
      · have hsame : ∀ j ∈ rest, candidate? requester
            (ns.modify i fun n => if n.isSelectable requester then n.asked else n) j =
              candidate? requester ns j := by
          intro j hj
          have hij : i ≠ j := fun heq => hi (heq ▸ hj)
          rw [candidate?, candidate?, List.getElem?_modify_ne _ _ hij]
        rw [hasked, List.append_assoc, List.filterMap_congr hsame, List.filterMap_cons]
        cases candidate? requester ns i with
        | none => rfl
        | some l => rfl

/-- The positions in turn hold the neighbors in turn. -/
theorem filterMap_candidate (r : Rounds) (requester : Option Location) :
    (cyclicFrom r.nextVictim r.neighbors.length).filterMap (candidate? requester r.neighbors) =
      r.selected requester := by
  have hturn : (cyclicFrom r.nextVictim r.neighbors.length).map (r.neighbors[·]?) =
      r.inTurn.map some := by
    rw [inTurn_eq]
    apply List.ext_getElem
    · simp [cyclicFrom]
    · intro k hk hk'
      have hlt : k < r.neighbors.length := by simpa [cyclicFrom] using hk
      have hpos : (r.nextVictim + k) % r.neighbors.length < r.neighbors.length :=
        Nat.mod_lt _ (Nat.zero_lt_of_lt hlt)
      simp [cyclicFrom, List.getElem_rotate, Nat.add_comm k, hpos]
  have hcandidate : candidate? requester r.neighbors =
      (fun m : Option Neighbor => m.bind fun n =>
        if n.isSelectable requester then some n.location else none) ∘ (r.neighbors[·]?) := rfl
  rw [hcandidate, ← List.filterMap_map, hturn, List.filterMap_map, selected]
  rw [← List.filterMap_eq_map, List.filterMap_filter]
  rfl

/-- Asking the neighbors one after the other comes to what a round does at one stroke. -/
theorem scan_eq (r : Rounds) (requester : Option Location) :
    r.scan requester = ((r.round requester).neighbors, r.selected requester) := by
  obtain ⟨hrecords, hasked⟩ := foldl_turn requester
    (cyclicFrom r.nextVictim r.neighbors.length) (nodup_cyclicFrom _ _) r.neighbors []
  rw [List.nil_append, filterMap_candidate] at hasked
  refine Prod.ext ?_ hasked
  apply List.ext_getElem?
  intro j
  show _ = (r.neighbors.map _)[j]?
  rw [scan, hrecords, List.getElem?_map]
  apply Option.map_congr
  intro n hn
  have hlt : j < r.neighbors.length := (List.getElem?_eq_some_iff.1 hn).1
  simp only [mem_cyclicFrom, hlt, true_and]

/-! ### What a search does -/

/-- The names stay those without doubles, and the next round begins as many names on as there have
been rounds. -/
theorem run_new_facts (ls : List Location) (factor : UInt32) (events : List Event) :
    let r := (new ls factor).run events
    r.locations = ls.eraseDups ∧ r.locations.Nodup ∧
      r.locations.rotate r.nextVictim =
        ls.eraseDups.rotate ((new ls factor).started events % ls.eraseDups.length) := by
  have hlocations : ((new ls factor).run events).locations = ls.eraseDups :=
    (locations_run _ _).trans (locations_new ls factor)
  refine ⟨hlocations, hlocations ▸ nodup_eraseDups ls, ?_⟩
  rw [hlocations]
  by_cases hnone : ls.eraseDups = []
  · rw [hnone, List.rotate_nil, List.rotate_nil]
  · have hsome : (new ls factor).locations ≠ [] := by
      rw [locations_new]
      exact hnone
    have hstart : (new ls factor).nextVictim = 0 % (new ls factor).locations.length :=
      (Nat.zero_mod _).symm
    rw [nextVictim_run hsome hstart, Nat.zero_add, locations_new]

/-- After any events, a search counts the throttle down and nothing else, or it asks whoever may be
asked: each once, in the order of the names, from as many places on as there have been rounds.
Those whom it asks owe an answer and have one request more; no other record changes. The records
and the row of those asked are the ones that come of giving each neighbor its turn. -/
theorem search_selects (ls : List Location) (factor : UInt32) (events : List Event)
    (requester : Option Location) :
    let r := (new ls factor).run events
    let names := ls.eraseDups
    let rounds := (new ls factor).started events
    r.locations = names ∧
      ((1 < r.throttle ∧
          r.exhausted requester = ({ r with throttle := r.throttle - 1 }, [])) ∨
        (r.throttle ≤ 1 ∧ ∃ r' asked, r.exhausted requester = (r', asked) ∧
          asked = (names.rotate (rounds % names.length)).filter
            (fun l => r.MayAsk requester l) ∧
          asked.Nodup ∧ (∀ l, l ∈ asked ↔ r.MayAsk requester l) ∧
          r'.neighbors = r.neighbors.map (fun n =>
            if n.location ∈ asked then
              { n with status := .requested, requestsSent := n.requestsSent + 1 }
            else n) ∧
          (r'.neighbors, asked) = r.scan requester)) := by
  obtain ⟨hlocations, hnodup, hturn⟩ := run_new_facts ls factor events
  refine ⟨hlocations, ?_⟩
  rcases exhausted_facts ((new ls factor).run events) requester with hthrottled | ⟨hdue, hround⟩
  · exact .inl hthrottled
  · refine .inr ⟨hdue, _, _, hround, ?_, nodup_selected hnodup, fun l => mem_selected_iff,
      neighbors_round hnodup requester, (scan_eq _ requester).symm⟩
    rw [← hturn]
    exact selected_eq hnodup requester

end WorkStealing.Rounds
