import WorkStealing.Proofs.Cluster.DryNetworks

/-!
# Searches that go in circles

A node with a single neighbor starts a round with every search, whatever its factor is, since its
throttle starts from the factor times no others. Where every node asks one other that does not ask
it back, a search is handed on from node to node for ever (`Ledger.Circles.unbounded`).
-/

namespace WorkStealing

namespace Node

variable {n n' : Node} {l u v : Location} {requester : Option Location} {asked : List Location}

/-- A node that is up and hands every search on to those of its neighbors that are idle. -/
structure Relays (n : Node) : Prop where
  chunkSize : 0 < n.chunkSize.toNat
  up : n.shuttingDown = false
  throttle : n.rounds.throttle ≤ 1
  accepting : ∀ m ∈ n.rounds.neighbors, m.accepting = true

namespace Relays

/-- A search leaves a node with one neighbor as ready as before. -/
theorem searches (h : n.Relays) (hone : n.rounds.locations = [u])
    (hsearch : n.Searches requester n' asked) : n'.Relays := by
  obtain ⟨m, hneighbors, -⟩ := List.map_eq_singleton_iff.1 hone
  have hrounds : n'.rounds.throttle ≤ 1 ∧ ∀ k ∈ n'.rounds.neighbors, k.accepting = true := by
    rcases hsearch.rounds with hquiet | hsearched
    · rw [(Prod.mk.inj hquiet).1]
      exact ⟨h.throttle, h.accepting⟩
    · rw [show n'.rounds = (n.rounds.exhausted requester).1 from congrArg Prod.fst hsearched]
      rcases n.rounds.exhausted_facts requester with ⟨hthrottled, -⟩ | ⟨-, heq⟩
      · exact absurd h.throttle (Int.not_le.2 hthrottled)
      · rw [heq]
        constructor
        · show n.rounds.pace ≤ 1
          rw [Rounds.pace, hneighbors]
          simp
        · intro k hk
          obtain ⟨k', hk', rfl⟩ := List.mem_map.1 hk
          split
          · exact h.accepting k' hk'
          · exact h.accepting k' hk'
  constructor
  · rw [hsearch.terms]
    exact h.chunkSize
  · rw [hsearch.terms]
    exact h.up
  · exact hrounds.1
  · exact hrounds.2

/-- An answer of a neighbor that stays leaves a node as ready as before. -/
theorem conclude (h : n.Relays) {outcome : Except ClusterError Message} {response : TakeResponse}
    (hr : responseOf outcome = .ok response) (hstays : response.shuttingDown = false) :
    (n.conclude l outcome).Relays := by
  rw [conclude_of_ok hr]
  refine ⟨h.chunkSize, h.up, h.throttle, ?_⟩
  intro m hm
  obtain ⟨m', hm', rfl⟩ := Rounds.mem_update hm
  split
  · simp [Neighbor.received, Neighbor.settled, h.accepting m' hm', hstays]
  · exact h.accepting m' hm'

/-- The one neighbor of a node is asked, unless it is busy or the search is made on its behalf. -/
theorem asks (h : n.Relays) (hone : n.rounds.locations = [u])
    (hidle : ∀ m ∈ n.rounds.neighbors, m.status = .idle) (hother : v ≠ u) :
    (n.rounds.exhausted (some v)).2 = [u] := by
  obtain ⟨m, hneighbors, hm⟩ := List.map_eq_singleton_iff.1 hone
  have hmem : m ∈ n.rounds.neighbors := by
    rw [hneighbors]
    exact List.mem_singleton.2 rfl
  have hturn : n.rounds.inTurn = [m] := by
    apply List.perm_singleton.1
    rw [← hneighbors]
    exact n.rounds.perm_inTurn
  have hselect : m.isSelectable (some v) = true := by
    simp [Neighbor.isSelectable, hidle m hmem, h.accepting m hmem, hm, hother]
  rcases n.rounds.exhausted_facts (some v) with ⟨hthrottled, -⟩ | ⟨-, heq⟩
  · exact absurd h.throttle (Int.not_le.2 hthrottled)
  · rw [heq]
    simp [Rounds.selected, hturn, hselect, hm]

/-- A node without tasks hands a search on to its one neighbor. -/
theorem respond (h : n.Relays) (hup : n.Sound) (hempty : n.driver.held = 0)
    (hone : n.rounds.locations = [u]) (hidle : ∀ m ∈ n.rounds.neighbors, m.status = .idle)
    (hother : v ≠ u) {request : Message} {most : UInt32} (hmost : 0 < most.toNat)
    (htopic : request.topic = TakeRequest.topic)
    (htake : request.takeRequest? = some { requester := v, maxTasks := most }) (time : Timestamp) :
    (n.respond request time).1.Relays ∧
      (n.respond request time).1.rounds.requestsSent = n.rounds.requestsSent + 1 ∧
      askedFor (n.respond request time).2 = [u] := by
  have hlimit : 0 < (min most n.chunkSize).toNat := by
    show 0 < (if most ≤ n.chunkSize then most else n.chunkSize).toNat
    split
    · exact hmost
    · exact h.chunkSize
  have hsearch : n.drySearch { requester := v, maxTasks := most } = n.rounds.exhausted (some v) :=
    if_pos ⟨h.up, hlimit⟩
  have hasks := h.asks hone hidle hother
  have hrelays := h.searches hone (n.searches_respond request time)
  obtain ⟨driver, hrespond⟩ := respond_dry hup hempty htopic htake time
  rw [hsearch] at hrespond
  refine ⟨hrelays, ?_, ?_⟩
  · rw [hrespond]
    show (n.rounds.exhausted (some v)).1.requestsSent = _
    rw [n.rounds.requestsSent_exhausted, hasks]
    rfl
  · rw [hrespond]
    exact hasks

end Relays

end Node

namespace Ledger

variable {next : Location → Location} {v : Location} {l : Ledger}

/-- A ledger without tasks in which every node asks one other, which does not ask it back, and the
only open exchange waits: that of one node with the next. -/
structure Circles (next : Location → Location) (v : Location) (l : Ledger) : Prop where
  dry : l.Dry
  ring : ∀ s ∈ l.network.sites,
    s.neighbors = [next s.id] ∧ next (next s.id) ≠ s.id ∧ next s.id ∈ l.network.sites.map Site.id
  calm : l.network.delays = [] ∧ l.network.down = [] ∧ l.network.dropped = []
  relays : ∀ n ∈ l.network.nodes, n.Relays
  waiting : l.network.waiting = [(v, next v)]
  underway : l.network.underway = []
  carried : l.carried = []

/-- One exchange from its beginning to its end. -/
def turn : List Event := [.begin 0, .answer 0, .conclude 0]

theorem isInternal_turn : ∀ e ∈ turn, e.isInternal = true := by decide

namespace Circles

theorem site (h : Circles next v l) {n : Node} (hn : n ∈ l.network.nodes) :
    n.rounds.locations = [next n.id] ∧ next (next n.id) ≠ n.id ∧
      next n.id ∈ l.network.nodes.map Node.id := by
  obtain ⟨hone, hback, hnext⟩ := h.ring n.site (List.mem_map_of_mem hn)
  rw [Network.sites, List.map_map] at hnext
  exact ⟨hone, hback, hnext⟩

theorem exchanges (h : Circles next v l) : l.exchanges = {(v, next v)} := by
  rw [Ledger.exchanges, h.waiting, h.underway, h.carried]
  rfl

theorem exists_node (h : Circles next v l) :
    ∃ n, l.network.node? v = some n ∧ n.rounds.locations = [next v] ∧ next (next v) ≠ v ∧
      ∃ m, l.network.node? (next v) = some m := by
  have hmem : (v, next v) ∈ l.exchanges := by
    rw [h.exchanges]
    exact Multiset.mem_singleton_self _
  obtain ⟨n, hn, -⟩ := h.dry.orderly.tracked.exists_node hmem
  obtain ⟨rfl, hnode⟩ := Network.node?_eq_some hn
  obtain ⟨hone, hback, hnext⟩ := h.site hnode
  exact ⟨n, hn, hone, hback, Network.exists_node?_of_mem hnext⟩

theorem next_ne (h : Circles next v l) : next v ≠ v := by
  obtain ⟨-, -, -, hback, -⟩ := h.exists_node
  intro heq
  rw [heq, heq] at hback
  exact hback rfl

/-- The exchange that waits begins. -/
theorem begun (h : Circles next v l) :
    ∃ (x : Exchange) (most : UInt32), 0 < most.toNat ∧ x.asker = v ∧ x.target = next v ∧
      x.timeout = none ∧ x.request.topic = TakeRequest.topic ∧
      x.request.takeRequest? = some { requester := v, maxTasks := most } ∧
      l.step (.begin 0) = { l with
        network := { l.network with
          waiting := []
          underway := [x]
          serial := l.network.serial + 1 } } := by
  obtain ⟨n, hn, -, -, m, hm⟩ := h.exists_node
  obtain ⟨hdelays, hdown, hdropped⟩ := h.calm
  let w : Network := { l.network with waiting := [] }
  have hreach : w.isReachable (next v) = true := by
    show (!l.network.down.contains (next v) && !l.network.dropped.contains (next v) &&
      (l.network.node? (next v)).isSome) = true
    rw [hdown, hdropped, hm]
    rfl
  obtain ⟨x, hasker, htarget, hrequest, htimeout, hstart⟩ :=
    Network.start_of_reachable (w := w) hn hreach
  have hnone : x.timeout = none := by
    rw [htimeout, Network.delay?, show w.delays = [] from hdelays]
    rfl
  have hbegin : l.network.beginAt 0 = w.start v (next v) := by
    rw [Network.beginAt, h.waiting]
    rfl
  obtain ⟨rfl, hnode⟩ := Network.node?_eq_some hn
  refine ⟨x, n.chunkSize, (h.relays n hnode).chunkSize, hasker, htarget, hnone, ?_, ?_, ?_⟩
  · rw [hrequest]
    rfl
  · rw [hrequest]
    exact Message.takeRequest?_of_payload rfl
  · show ({ l with network := l.network.beginAt 0 } : Ledger) = _
    rw [hbegin, hstart]
    have hunderway : w.underway ++ [x] = [x] := congrArg (· ++ [x]) h.underway
    rw [hunderway]

/-- The target of the exchange has nothing to give and asks the next node. -/
theorem answered (h : Circles next v l) :
    let m := l.run [.begin 0, .answer 0]
    m.network.waiting = [(next v, next (next v))] ∧ m.network.underway = [] ∧
      (∀ n ∈ m.network.nodes, n.Relays) ∧ m.network.requests = l.network.requests + 1 ∧
      ∃ d response, m.carried = [d] ∧ Node.responseOf d.outcome = .ok response ∧
        response.shuttingDown = false := by
  intro m
  obtain ⟨-, -, -, hback, n, hn⟩ := h.exists_node
  obtain ⟨x, most, hmost, hasker, htarget, htimeout, htopic, htake, hbegun⟩ := h.begun
  obtain ⟨hid, hnode⟩ := Network.node?_eq_some hn
  obtain ⟨hone, -, -⟩ := h.site hnode
  have hup : n.Sound := h.dry.balanced.sound.up n hnode
  have hempty : n.driver.held = 0 := h.dry.held_node hnode
  have hidle : ∀ k ∈ n.rounds.neighbors, k.status = .idle := by
    intro k hk
    refine (h.dry.orderly.tracked.tracks n hnode).idle hk ?_
    rw [h.exchanges, hid, ← Multiset.cons_zero, Network.targetsOf_cons_of_ne h.next_ne]
    exact Multiset.notMem_zero _
  rw [hid] at hone
  obtain ⟨hrelays, hsent, hasks⟩ := (h.relays n hnode).respond hup hempty hone hidle (Ne.symm hback)
    hmost htopic htake Network.timestamp
  -- the network when the exchange ends
  let w : Network := { l.network with
    waiting := []
    underway := []
    serial := l.network.serial + 1
    clock := max l.network.clock x.due }
  have hanswered : m = { l with
      network := (w.answer x).1
      carried := l.carried ++ [(w.reply x).2] } := by
    show (l.step (.begin 0)).step (.answer 0) = _
    rw [hbegun]
    rfl
  have hnext : (w.answer x).1 = (w.setNode (n.respond x.request Network.timestamp).1).ask (next v)
      [next (next v)] := by
    rw [Network.fst_answer htimeout, htarget, Network.respond_eq (w := w) hn, hasks]
  have hresponse := Network.answer_dry (w := w) (htarget ▸ hn) hup hempty
    ⟨htopic, by rw [Node.requesterOf, htake, hasker]; rfl⟩ htimeout
  have hsum := Network.sum_setNode (w := w) (fun k => k.rounds.requestsSent)
    h.dry.orderly.tracked.names hn (n.searches_respond x.request Network.timestamp).id
  rw [hanswered, hnext]
  refine ⟨rfl, rfl, Network.forall_setNode (w := w) h.relays hrelays, ?_, (w.reply x).2, _, ?_,
    hresponse, (h.relays n hnode).up⟩
  · rw [hsent] at hsum
    show ((w.setNode (n.respond x.request Network.timestamp).1).nodes.map
      fun k => k.rounds.requestsSent).sum = (w.nodes.map fun k => k.rounds.requestsSent).sum + 1
    omega
  · exact congrArg (· ++ [(w.reply x).2]) h.carried

/-- After a turn the search has come one node further, by one more request. -/
theorem turned (h : Circles next v l) :
    Circles next (next v) (l.run turn) ∧
      (l.run turn).network.requests = l.network.requests + 1 := by
  obtain ⟨hwaiting, hunderway, hrelays, hrequests, d, response, hcarried, hresponse, hstays⟩ :=
    h.answered
  let m := l.run [.begin 0, .answer 0]
  have horderly : m.Orderly := h.dry.orderly.run _
  have hlayout : (l.run turn).network.layout = l.network.layout :=
    layout_run h.dry.orderly isInternal_turn
  have hi : m.carried[0]? = some d := by
    rw [show m.carried = [d] from hcarried]
    rfl
  -- the asker is a node of the network, whoever it is
  obtain ⟨n, hn, -⟩ := horderly.tracked.exists_node
    (mem_exchanges.2 (.inr (.inr ⟨d, List.mem_of_getElem? hi, rfl⟩)))
  have hturn : l.run turn = { m with
      network := m.network.setNode (n.conclude d.target d.outcome)
      carried := []
      lost := d.tasks.drop (m.network.roomFor d) ++ m.lost } := by
    have hrest : m.carried.eraseIdx 0 = [] := congrArg (List.eraseIdx · 0) hcarried
    show m.step (.conclude 0) = _
    simp only [step, hi, Network.conclude, hn, hrest]
  have hready := (hrelays n (Network.node?_eq_some hn).2).conclude (l := d.target) hresponse hstays
  have hsum := Network.sum_setNode (fun k => k.rounds.requestsSent) horderly.tracked.names hn
    (n.conclude_rounds d.target d.outcome).1
  rw [n.requestsSent_conclude] at hsum
  refine ⟨⟨h.dry.run isInternal_turn, ?_, ?_, ?_, ?_, ?_, ?_⟩, ?_⟩
  · rw [show (l.run turn).network.sites = l.network.sites from
      congrArg Network.Layout.sites hlayout]
    exact h.ring
  · obtain ⟨hdelays, hdown, hdropped⟩ := h.calm
    exact ⟨(congrArg Network.Layout.delays hlayout).trans hdelays,
      (congrArg Network.Layout.down hlayout).trans hdown,
      (congrArg Network.Layout.dropped hlayout).trans hdropped⟩
  · rw [hturn]
    exact Network.forall_setNode hrelays hready
  · rw [hturn]
    exact hwaiting
  · rw [hturn]
    exact hunderway
  · rw [hturn]
  · rw [← hrequests, hturn]
    exact Nat.add_right_cancel hsum

/-- There is no bound on the requests of a search that goes in circles. -/
theorem unbounded (h : Circles next v l) :
    ¬ ∃ bound, ∀ events : List Event, (∀ e ∈ events, e.isInternal = true) →
      (l.run events).network.requests ≤ bound := by
  -- every number of turns is a run
  have hturns (k : Nat) : ∃ events : List Event, (∀ e ∈ events, e.isInternal = true) ∧
      l.network.requests + k ≤ (l.run events).network.requests := by
    induction k generalizing v l with
    | zero => exact ⟨[], fun _ he => absurd he List.not_mem_nil, le_refl _⟩
    | succ k ih =>
        obtain ⟨hnext, hmore⟩ := h.turned
        obtain ⟨events, hinternal, hcount⟩ := ih hnext
        refine ⟨turn ++ events, ?_, ?_⟩
        · intro e he
          rcases List.mem_append.1 he with hturn | hrest
          · exact isInternal_turn e hturn
          · exact hinternal e hrest
        · have hrun : l.run (turn ++ events) = (l.run turn).run events := List.foldl_append
          rw [hrun]
          omega
  rintro ⟨bound, hbound⟩
  obtain ⟨events, hinternal, hcount⟩ := hturns (bound + 1)
  have hle := hbound events hinternal
  omega

end Circles

/-- Three nodes, each of which asks the next one only, with the usual factor. The search of the
first goes around among them for ever. -/
theorem ring_unbounded :
    let node (id neighbor : Location) : Node :=
      (Node.join id ({ config := { workers := 1 }, pool := .new { workers := 1 } 1 } :
        Driver).started.1 [neighbor] {}).toOption.getD default
    let nodes : List Node := [node ⟨0⟩ ⟨1⟩, node ⟨1⟩ ⟨2⟩, node ⟨2⟩ ⟨0⟩]
    let l : Ledger := { network := { nodes := nodes } }
    ((∀ n ∈ nodes, n.IsFresh) ∧ (nodes.map Node.id).Nodup) ∧
      (∀ n ∈ nodes, n.rounds.factor = 20) ∧ l.network.held = 0 ∧
      ¬ ∃ bound, ∀ events : List Event, (∀ e ∈ events, e.isInternal = true) →
        ((l.step (.trigger ⟨0⟩ none)).run events).network.requests ≤ bound := by
  intro node nodes l
  have hfresh : ∀ n ∈ nodes, n.IsFresh := by
    intro n hn
    simp only [nodes, List.mem_cons, List.not_mem_nil, or_false] at hn
    rcases hn with rfl | rfl | rfl
    · exact ⟨{ workers := 1 }, 1, _, none, none, ⟨0⟩, [⟨1⟩], {}, rfl, rfl⟩
    · exact ⟨{ workers := 1 }, 1, _, none, none, ⟨1⟩, [⟨2⟩], {}, rfl, rfl⟩
    · exact ⟨{ workers := 1 }, 1, _, none, none, ⟨2⟩, [⟨0⟩], {}, rfl, rfl⟩
  have hnames : (nodes.map Node.id).Nodup := by decide +kernel
  have hfactor : ∀ n ∈ nodes, n.rounds.factor = 20 := by decide +kernel
  have hheld : l.network.held = 0 := by decide +kernel
  have hdry : l.Dry := ⟨orderly_of_fresh hfresh hnames, balanced_of_fresh hfresh hnames, hheld, rfl⟩
  let next : Location → Location := fun v => ⟨(v.id + 1) % 3⟩
  have hcircles : Circles next ⟨0⟩ (l.step (.trigger ⟨0⟩ none)) := by
    refine ⟨hdry.trigger ⟨0⟩ none, ?_, ?_, ?_, ?_, ?_, ?_⟩
    · decide +kernel
    · decide +kernel
    · have hready : ∀ n ∈ (l.step (.trigger ⟨0⟩ none)).network.nodes, 0 < n.chunkSize.toNat ∧
          n.shuttingDown = false ∧ n.rounds.throttle ≤ 1 ∧
          ∀ m ∈ n.rounds.neighbors, m.accepting = true := by decide +kernel
      intro n hn
      obtain ⟨hchunk, hup, hthrottle, haccepting⟩ := hready n hn
      exact ⟨hchunk, hup, hthrottle, haccepting⟩
    · decide +kernel
    · decide +kernel
    · decide +kernel
  exact ⟨⟨hfresh, hnames⟩, hfactor, hheld, hcircles.unbounded⟩

end Ledger

end WorkStealing
