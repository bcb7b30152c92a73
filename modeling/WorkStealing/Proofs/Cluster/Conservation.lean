import WorkStealing.Proofs.Cluster.Ledger

/-!
# What a network keeps

In every run of a network each task that was given from outside is held by a node, on the way,
reported done or lost, and it is lost exactly where an answer arrives that finds too little room
(`Ledger.conserved_iff_fits`). What the network's own scheduler does is such a run
(`Ledger.reaches_runUntil`).
-/

namespace WorkStealing.Ledger

variable {l m : Ledger} {w : Network}

/-! ### The scheduler's runs -/

/-- A network that is reached by events of its own, after which nothing is on the way. -/
def Reaches (l : Ledger) (w : Network) : Prop :=
  ∃ events, (∀ e ∈ events, e.keepsUp = true) ∧ (l.run events).network = w ∧
    (l.run events).carried = [] ∧ (l.run events).given = l.given ∧
    (l.run events).finished = l.finished

theorem Reaches.refl (hcarried : l.carried = []) : l.Reaches l.network :=
  ⟨[], fun _ he => absurd he List.not_mem_nil, rfl, hcarried, rfl, rfl⟩

/-- An event that only changes the network. -/
theorem reaches_step (hcarried : l.carried = []) {e : Event} (hup : e.keepsUp = true)
    (hstep : l.step e = { l with network := w }) : l.Reaches w := by
  have hrun : l.run [e] = { l with network := w } := hstep
  refine ⟨[e], ?_, ?_⟩
  · intro x hx
    rw [List.mem_singleton.1 hx]
    exact hup
  · rw [hrun]
    exact ⟨rfl, hcarried, rfl, rfl⟩

/-- An answer that arrives at once is the end of an exchange. -/
theorem reaches_endAt (hcarried : l.carried = []) (i : Nat) : l.Reaches (l.network.endAt i) := by
  cases hx : l.network.underway[i]? with
  | none =>
      have hend : l.network.endAt i = l.network := by simp only [Network.endAt, hx]
      rw [hend]
      exact .refl hcarried
  | some x =>
      let w : Network := { l.network with
        underway := l.network.underway.eraseIdx i
        clock := max l.network.clock x.due }
      -- nothing else is on the way, so the answer that was sent is the one that arrives
      have hanswer : l.step (.answer i) =
          { l with network := (w.reply x).1, carried := [(w.reply x).2] } := by
        simp only [step, hx, hcarried, List.nil_append, w]
      have hrun : l.run [.answer i, .conclude 0] =
          ({ l with network := (w.reply x).1, carried := [(w.reply x).2] } : Ledger).step
            (.conclude 0) :=
        congrArg (step · (.conclude 0)) hanswer
      refine ⟨[.answer i, .conclude 0], ?_, ?_⟩
      · intro e he
        rcases List.mem_pair.1 he with rfl | rfl <;> rfl
      · rw [hrun, Network.endAt_eq hx]
        exact ⟨rfl, rfl, rfl, rfl⟩

/-- The event whose turn it is lets nothing in from outside. -/
theorem reaches_next (hcarried : l.carried = []) {limit : Nat}
    (h : l.network.next? limit = some w) : l.Reaches w := by
  rw [Network.next?] at h
  -- an exchange ends, time passes, or an exchange begins
  split at h
  next =>
    split at h
    next i _ =>
      cases h
      exact reaches_endAt hcarried i
    next =>
      split at h
      next =>
        obtain ⟨time, -, rfl⟩ := Option.map_eq_some_iff.1 h
        exact reaches_step hcarried (e := .moveTo time) rfl rfl
      next =>
        cases h
        exact reaches_step hcarried (e := .begin 0) rfl rfl
  next => cases h

theorem Reaches.trans {events : List Event} (hup : ∀ e ∈ events, e.keepsUp = true)
    (hgiven : (l.run events).given = l.given) (hfinished : (l.run events).finished = l.finished)
    (h : (l.run events).Reaches w) : l.Reaches w := by
  obtain ⟨rest, hrest, hnetwork, hcarried, hgiven', hfinished'⟩ := h
  have hrun : l.run (events ++ rest) = (l.run events).run rest := List.foldl_append
  refine ⟨events ++ rest, ?_, ?_⟩
  · intro e he
    rcases List.mem_append.1 he with hfirst | hlater
    · exact hup e hfirst
    · exact hrest e hlater
  · rw [hrun]
    exact ⟨hnetwork, hcarried, hgiven'.trans hgiven, hfinished'.trans hfinished⟩

/-- Whatever the scheduler does up to a time, it is a run of events. -/
theorem reaches_runUntil (hcarried : l.carried = []) (limit events : Nat) :
    l.Reaches (Network.runUntil limit events l.network) := by
  -- induction on the number of events; each begins with nothing on the way, as the last one ended
  induction events generalizing l with
  | zero => exact .refl hcarried
  | succ events ih =>
      rw [Network.runUntil]
      split
      next w' hnext =>
        obtain ⟨first, hup, rfl, hnone, hgiven, hfinished⟩ := reaches_next hcarried hnext
        exact .trans hup hgiven hfinished (ih hnone)
      next =>
        split
        · exact reaches_step hcarried (e := .moveTo limit) rfl rfl
        · exact .refl hcarried

/-! ### Conservation -/

theorem balanced_of_fresh {nodes : List Node} (hfresh : ∀ n ∈ nodes, n.IsFresh)
    (hnames : (nodes.map Node.id).Nodup) :
    ({ network := { nodes := nodes } } : Ledger).Balanced where
  sound := ⟨hnames, fun n hn => (hfresh n hn).sound.1⟩
  faithful x hx := absurd hx List.not_mem_nil
  balance := by
    have hzero : ({ nodes := nodes } : Network).held = 0 := by
      apply List.sum_eq_zero
      intro x hx
      obtain ⟨n, hn, rfl⟩ := List.mem_map.1 hx
      exact (hfresh n hn).sound.2
    rw [hzero]
    rfl

/-- The counts of outstanding tasks say how many tasks the nodes hold. -/
theorem Balanced.outstanding (h : l.Balanced) : l.outstanding = l.network.held.card := by
  have hup := h.sound.up
  rw [Ledger.outstanding, Network.held]
  generalize l.network.nodes = nodes at hup
  induction nodes with
  | nil => rfl
  | cons n rest ih =>
      have hfirst : n.outstanding = n.driver.held.card :=
        (hup n List.mem_cons_self).sound.outstanding
      rw [List.map_cons, List.sum_cons, List.map_cons, List.sum_cons, Multiset.card_add, hfirst,
        ih fun m hm => hup m (List.mem_cons_of_mem n hm)]

/-- Every task given from outside is held by a node, on the way, lost or reported done, each as
often as it was given, after every run of events in any order: calls of the drivers that leave them
up, triggers, shutdowns, nodes that become reachable or not, delays, and exchanges that begin, are
answered and end. With nothing on the way the nodes hold exactly what was given and not reported
done, and their counts say so, if and only if every answer that arrived found room for all its
tasks. -/
theorem conserved_iff_fits {nodes : List Node} (hfresh : ∀ n ∈ nodes, n.IsFresh)
    (hnames : (nodes.map Node.id).Nodup) {events : List Event}
    (hup : ∀ e ∈ events, e.keepsUp = true) :
    let start : Ledger := { network := { nodes := nodes } }
    let l := start.run events
    (l.given : Multiset TaskHandle) =
        l.network.held + l.carrying + (l.lost : Multiset TaskHandle) + l.finished ∧
      (l.carried = [] →
        l.outstanding + l.lost.length + l.finished.length = l.given.length ∧
        ((l.given : Multiset TaskHandle) = l.network.held + l.finished ↔ start.AllFit events) ∧
        (l.outstanding + l.finished.length = l.given.length ↔ start.AllFit events)) := by
  intro start l
  have hbalanced : l.Balanced := (balanced_of_fresh hfresh hnames).run hup
  -- the ledger begins without losses, so what it has lost was lost in this run
  have hlost : l.lost = [] ↔ start.AllFit events := by
    obtain ⟨more, hmore, hall⟩ := lost_run start events
    rw [← hall, show l.lost = more ++ [] from hmore, List.append_nil]
  refine ⟨hbalanced.balance, ?_⟩
  intro hcarried
  have hcarrying : l.carrying = 0 := by
    rw [carrying, hcarried]
    rfl
  have hbalance := hbalanced.balance
  rw [hcarrying, add_zero] at hbalance
  -- the balance, counted
  have hcount : l.outstanding + l.lost.length + l.finished.length = l.given.length := by
    have hcard := congrArg Multiset.card hbalance
    rw [Multiset.card_add, Multiset.card_add, ← hbalanced.outstanding] at hcard
    exact hcard.symm
  have hnil : l.lost = [] ↔ l.lost.length = 0 := List.length_eq_zero_iff.symm
  refine ⟨hcount, ?_, ?_⟩
  · -- cancelling what is held and what is done leaves the losses
    rw [← hlost]
    constructor
    · intro heq
      rw [hbalance] at heq
      exact (Multiset.coe_eq_zero _).1 (add_eq_left.1 (add_right_cancel heq))
    · intro hempty
      rw [hbalance, hempty]
      exact congrArg (· + _) (add_zero _)
  · rw [← hlost, hnil]
    omega

/-- Two tasks are given to one node. Its neighbor, whose queue holds one task, asks for work: both
tasks leave with the answer, and the second finds no room. -/
theorem conserved_iff_fits_pair :
    let node (id neighbor : Location) (c : SchedulerConfig) : Node :=
      (Node.join id ({ config := c, pool := .new c 1 } : Driver).started.1 [neighbor] {}).toOption.getD
        default
    let nodes : List Node :=
      [node ⟨0⟩ ⟨1⟩ { workers := 1, dequeCapacity := 1 }, node ⟨1⟩ ⟨0⟩ { workers := 1 }]
    let events : List Event :=
      [.call ⟨1⟩ (.give ⟨0⟩ ⟨5⟩ {}), .call ⟨1⟩ (.give ⟨0⟩ ⟨6⟩ {}), .trigger ⟨0⟩ none, .begin 0,
        .answer 0, .conclude 0]
    let start : Ledger := { network := { nodes := nodes } }
    let l := start.run events
    ((∀ n ∈ nodes, n.IsFresh) ∧ (nodes.map Node.id).Nodup ∧ ∀ e ∈ events, e.keepsUp = true) ∧
      l.carried.isEmpty = true ∧ l.given = [⟨6⟩, ⟨5⟩] ∧ l.finished = [] ∧ l.lost = [⟨5⟩] ∧
      l.outstanding = 1 ∧ ¬ start.AllFit events := by
  intro node nodes events start l
  have hfresh : ∀ n ∈ nodes, n.IsFresh := by
    intro n hn
    rcases List.mem_pair.1 hn with rfl | rfl
    · exact ⟨{ workers := 1, dequeCapacity := 1 }, 1, _, none, none, ⟨0⟩, [⟨1⟩], {}, rfl, rfl⟩
    · exact ⟨{ workers := 1 }, 1, _, none, none, ⟨1⟩, [⟨0⟩], {}, rfl, rfl⟩
  have hnames : (nodes.map Node.id).Nodup := by decide +kernel
  have hup : ∀ e ∈ events, e.keepsUp = true := by decide +kernel
  have hcarried : l.carried.isEmpty = true := by decide +kernel
  have hgiven : l.given = [⟨6⟩, ⟨5⟩] := by decide +kernel
  have hfinished : l.finished = [] := by decide +kernel
  have hlost : l.lost = [⟨5⟩] := by decide +kernel
  obtain ⟨-, hkept⟩ := conserved_iff_fits hfresh hnames hup
  obtain ⟨hcount, -, hiff⟩ := hkept (List.isEmpty_iff.1 hcarried)
  have houtstanding : l.outstanding = 1 := by
    have hsum : l.outstanding + l.lost.length + l.finished.length = l.given.length := hcount
    rw [hlost, hfinished, hgiven] at hsum
    exact Nat.succ.inj hsum
  refine ⟨⟨hfresh, hnames, hup⟩, hcarried, hgiven, hfinished, hlost, houtstanding, ?_⟩
  intro hall
  have hequal : l.outstanding + l.finished.length = l.given.length := hiff.2 hall
  rw [houtstanding, hfinished, hgiven] at hequal
  cases hequal

end WorkStealing.Ledger
