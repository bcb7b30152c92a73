import Mathlib.Algebra.Order.BigOperators.Group.List
import Mathlib.Data.Multiset.OrderedMonoid
import WorkStealing.Proofs.Cluster.OpenExchanges

/-!
# Networks without tasks

In a network that holds no task every request makes its target search in turn and is answered
without tasks (`Node.respond_dry`, `Network.answer_dry`). What the network does by itself brings no
task in (`Ledger.Dry.run`), and it changes neither who asks whom, nor how long answers take, nor who
can be reached (`Ledger.layout_run`).
-/

namespace WorkStealing

/-! ### Counted requests -/

namespace Rounds

variable {r : Rounds} {l : Location}

/-- The requests sent to all neighbors. -/
def requestsSent (r : Rounds) : Nat := (r.neighbors.map Neighbor.requestsSent).sum

/-- A search counts a request for each neighbor that it asks. -/
theorem requestsSent_exhausted (r : Rounds) (requester : Option Location) :
    (r.exhausted requester).1.requestsSent =
      r.requestsSent + (r.exhausted requester).2.length := by
  rcases r.exhausted_facts requester with ⟨-, h⟩ | ⟨-, h⟩
  · rw [h]
    rfl
  · have hlength : (r.selected requester).length =
        r.neighbors.countP fun n => n.isSelectable requester := by
      rw [selected, List.length_map, ← List.countP_eq_length_filter]
      exact r.perm_inTurn.countP_eq _
    rw [h, hlength, requestsSent, requestsSent, round]
    -- induction on the neighbors, each of which is asked or left alone
    induction r.neighbors with
    | nil => rfl
    | cons n rest ih =>
        simp only [List.map_cons, List.sum_cons, List.countP_cons, ih]
        split
        · simp only [Neighbor.asked]
          omega
        · omega

theorem requestsSent_update {f : Neighbor → Neighbor}
    (hf : ∀ m, (f m).requestsSent = m.requestsSent) :
    (r.update l f).requestsSent = r.requestsSent := by
  rw [requestsSent, requestsSent, update, List.map_map]
  congr 1
  apply List.map_congr_left
  intro m _
  simp only [Function.comp]
  split
  · exact hf m
  · rfl

end Rounds

/-! ### Sites -/

/-- What about a node stays the same while it asks and answers. -/
structure Site where
  id : Location
  neighbors : List Location
  factor : UInt32
  timeoutMs : Nat
deriving DecidableEq

/-- How many searches it takes to start the next round. -/
def Site.span (s : Site) : Nat := max (s.factor.toNat * (s.neighbors.length - 1)) 1

namespace Node

variable {n n' : Node} {requester : Option Location} {asked : List Location} {l : Location}
  {outcome : Except ClusterError Message} {request : Message} {take : TakeRequest}

def site (n : Node) : Site where
  id := n.id
  neighbors := n.rounds.locations
  factor := n.rounds.factor
  timeoutMs := n.timeoutMs

/-- The throttle starts from the span of the node, unless there is nobody to ask. -/
theorem span_site (n : Node) : (max n.rounds.pace 1).toNat = n.site.span := by
  rw [Rounds.pace]
  show _ = max (n.rounds.factor.toNat * (n.rounds.locations.length - 1)) 1
  rw [Rounds.locations, List.length_map]
  cases n.rounds.neighbors.length with
  | zero =>
      rw [Nat.zero_sub, Nat.mul_zero]
      omega
  | succ k =>
      have hpred : ((k + 1 : Nat) : Int) - 1 = (k : Int) := by omega
      rw [hpred, Nat.add_sub_cancel, ← Int.natCast_mul]
      omega

theorem Searches.site (h : n.Searches requester n' asked) : n'.site = n.site := by
  have hrounds : n'.rounds.locations = n.rounds.locations ∧ n'.rounds.factor = n.rounds.factor := by
    rcases h.rounds with hquiet | hsearch
    · rw [(Prod.mk.inj hquiet).1]
      exact ⟨rfl, rfl⟩
    · have hlocations := n.rounds.locations_exhausted requester
      have hfactor : (n.rounds.exhausted requester).1.factor = n.rounds.factor := by
        rcases n.rounds.exhausted_facts requester with ⟨-, h⟩ | ⟨-, h⟩
        · rw [h]
        · rw [h]
          rfl
      rw [← hsearch] at hlocations hfactor
      exact ⟨hlocations, hfactor⟩
  rw [h.terms]
  simp only [Node.site, hrounds]

theorem conclude_of_ok {response : TakeResponse} (h : responseOf outcome = .ok response) :
    n.conclude l outcome =
      { n with rounds := (n.rounds.answered l response).1 }.adopt (Rounds.kept response) := by
  rw [conclude, h]
  rfl

theorem conclude_of_error {e : ClusterError} (h : responseOf outcome = .error e) :
    n.conclude l outcome = { n with rounds := n.rounds.failed l e.isUnreachable } := by
  rw [conclude, h]

theorem site_conclude (n : Node) (l : Location) (outcome : Except ClusterError Message) :
    (n.conclude l outcome).site = n.site := by
  cases h : responseOf outcome with
  | ok response =>
      have hlocations := n.rounds.locations_answered l response
      rw [conclude_of_ok h]
      simp only [site, adopt, hlocations]
      rfl
  | error e =>
      have hlocations := n.rounds.locations_failed l e.isUnreachable
      rw [conclude_of_error h]
      simp only [site, hlocations]
      rfl

theorem requestsSent_conclude (n : Node) (l : Location) (outcome : Except ClusterError Message) :
    (n.conclude l outcome).rounds.requestsSent = n.rounds.requestsSent := by
  have hsame : ∀ m : Neighbor, (concluded outcome m).requestsSent = m.requestsSent := by
    intro m
    rw [concluded]
    split <;> rfl
  rw [Rounds.requestsSent, (n.conclude_rounds l outcome).2]
  exact Rounds.requestsSent_update hsame

/-! ### One node -/

/-- The search that a request sets off at a node without tasks. -/
def drySearch (n : Node) (take : TakeRequest) : Rounds × List Location :=
  if n.shuttingDown = false ∧ 0 < (min take.maxTasks n.chunkSize).toNat then
    n.rounds.exhausted (some take.requester)
  else (n.rounds, [])

/-- A node without tasks answers with none, and searches unless nothing was asked for. -/
theorem respond_dry (h : n.Sound) (hdry : n.driver.held = 0)
    (htopic : request.topic = TakeRequest.topic) (htake : request.takeRequest? = some take)
    (time : Timestamp) :
    ∃ driver, n.respond request time =
      ({ n with driver := driver, rounds := (n.drySearch take).1 }, .ok {
        reply := n.replyTo request time { responder := n.id, shuttingDown := n.shuttingDown }
        asked := (n.drySearch take).2 }) := by
  rw [respond, handOut, if_neg (not_not_intro htopic), htake, drySearch]
  dsimp only
  by_cases hup : n.shuttingDown = true
  · have hclosing : TakeResponse.closing n.id =
        { responder := n.id, shuttingDown := n.shuttingDown } := by
      rw [hup]
      rfl
    have hquiet : ¬ (n.shuttingDown = false ∧ 0 < (min take.maxTasks n.chunkSize).toNat) := by
      rw [hup]
      simp
    rw [if_pos hup, if_neg hquiet, hclosing]
    exact ⟨n.driver, rfl⟩
  · have hbatch := h.takeBatch_dry hdry (min take.maxTasks n.chunkSize).toNat
    rw [if_neg hup]
    cases htaken : Driver.takeBatch n.context (min take.maxTasks n.chunkSize).toNat n.driver with
    | mk driver r =>
        rw [htaken] at hbatch
        rw [show r = .ok [] from hbatch]
        refine ⟨driver, ?_⟩
        rw [Bool.not_eq_true] at hup
        by_cases hlimit : 0 < (min take.maxTasks n.chunkSize).toNat
        · simp [hlimit, trigger, hup, settle]
        · simp [hlimit, hup, settle]

end Node

/-! ### All nodes -/

namespace Network

variable {w : Network} {n n' : Node} {id : Location} {x : Exchange}

/-- The requests sent by all nodes. -/
def requests (w : Network) : Nat := (w.nodes.map fun n => n.rounds.requestsSent).sum

def sites (w : Network) : List Site := w.nodes.map Node.site

theorem sites_setNode (hnames : (w.nodes.map Node.id).Nodup) (hn : w.node? id = some n)
    (hsite : n'.site = n.site) : (w.setNode n').sites = w.sites := by
  obtain ⟨-, hmem⟩ := node?_eq_some hn
  rw [sites, setNode, List.map_map]
  apply List.map_congr_left
  intro m hm
  simp only [Function.comp]
  split
  next hid =>
    -- only the node whose place is taken has that name
    have hname : m.id = n.id := hid.trans (congrArg Site.id hsite)
    rw [hsite, List.inj_on_of_nodup_map hnames hm hmem hname]
  next => rfl

/-- What a network does not change by itself: who asks whom, how long answers take and who cannot
be reached. -/
structure Layout where
  sites : List Site
  delays : List (Location × Nat)
  down : List Location
  dropped : List Location

def layout (w : Network) : Layout where
  sites := w.sites
  delays := w.delays
  down := w.down
  dropped := w.dropped

theorem layout_setNode (hnames : (w.nodes.map Node.id).Nodup) (hn : w.node? id = some n)
    (hsite : n'.site = n.site) : (w.setNode n').layout = w.layout := by
  rw [layout, sites_setNode hnames hn hsite]
  rfl

theorem layout_conclude (hnames : (w.nodes.map Node.id).Nodup) (asker target : Location)
    (outcome : Except ClusterError Message) :
    (w.conclude asker target outcome).layout = w.layout := by
  rw [conclude]
  cases hn : w.node? asker with
  | none => rfl
  | some n => exact layout_setNode hnames hn (n.site_conclude target outcome)

theorem layout_trigger (hnames : (w.nodes.map Node.id).Nodup) (id : Location)
    (requester : Option Location) : (w.trigger id requester).1.layout = w.layout := by
  rw [trigger]
  cases hn : w.node? id with
  | none => rfl
  | some n => exact layout_setNode hnames hn (n.searches_trigger requester).site

theorem layout_beginAt (hnames : (w.nodes.map Node.id).Nodup) (i : Nat) :
    (w.beginAt i).layout = w.layout := by
  rw [beginAt]
  cases w.waiting[i]? with
  | none => rfl
  | some pair =>
      obtain ⟨asker, target⟩ := pair
      let w₀ : Network := { w with waiting := w.waiting.eraseIdx i }
      show (w₀.start asker target).layout = w₀.layout
      rw [start]
      cases w₀.node? asker with
      | none => rfl
      | some n =>
          dsimp only
          cases w₀.dispatch n target with
          | error e => exact layout_conclude (w := w₀) hnames asker target (.error e)
          | ok x => rfl

theorem layout_answer (hnames : (w.nodes.map Node.id).Nodup) (x : Exchange) :
    (w.answer x).1.layout = w.layout := by
  cases htimeout : x.timeout with
  | some ms =>
      rw [answer, htimeout]
  | none =>
      rw [fst_answer htimeout]
      cases hn : w.node? x.target with
      | none => rw [respond_of_unknown hn]
      | some n =>
          rw [respond_eq hn]
          exact layout_setNode hnames hn (n.searches_respond x.request timestamp).site

/-- An exchange with a node that has no tasks ends with an answer. -/
theorem answer_dry (hn : w.node? x.target = some n) (hup : n.Sound) (hdry : n.driver.held = 0)
    (hgenuine : x.IsGenuine) (htimeout : x.timeout = none) :
    Node.responseOf (w.answer x).2 =
      .ok { responder := n.id, shuttingDown := n.shuttingDown } := by
  obtain ⟨take, htake, -⟩ := Option.map_eq_some_iff.1 hgenuine.2
  obtain ⟨driver, hrespond⟩ := Node.respond_dry hup hdry hgenuine.1 htake timestamp
  let response : TakeResponse := { responder := n.id, shuttingDown := n.shuttingDown }
  have hread : Node.responseOf (transmit (n.replyTo x.request timestamp response)) = .ok response :=
    responseOf_transmit rfl rfl rfl (Nat.zero_lt_succ _) (TakeResponse.isLegible_of_nil rfl)
  rw [snd_answer htimeout, snd_respond hn, hrespond]
  simp only [Except.map, Except.bind]
  exact hread

end Network

namespace Ledger

variable {l : Ledger} {e : Event}

/-- Whether an event is the network's own, so that it needs nobody outside. -/
def Event.isInternal : Event → Bool
  | .moveTo _ | .begin _ | .answer _ | .conclude _ => true
  | _ => false

/-- A ledger in order, with no task on any node or on the way. -/
structure Dry (l : Ledger) : Prop where
  orderly : l.Orderly
  balanced : l.Balanced
  held : l.network.held = 0
  carrying : l.carrying = 0

theorem Event.keepsUp_of_isInternal (he : e.isInternal = true) : e.keepsUp = true := by
  cases e <;> first | rfl | cases he

theorem given_step (l : Ledger) (he : e.isInternal = true) :
    (l.step e).given = l.given ∧ (l.step e).finished = l.finished := by
  cases e with
  | moveTo time => exact ⟨rfl, rfl⟩
  | begin i => exact ⟨rfl, rfl⟩
  | answer i =>
      rw [step]
      cases l.network.underway[i]? <;> exact ⟨rfl, rfl⟩
  | conclude i =>
      rw [step]
      cases l.carried[i]? <;> exact ⟨rfl, rfl⟩
  | _ => cases he

namespace Dry

/-- Nothing comes in by an event of the network's own. -/
theorem step (h : l.Dry) (he : e.isInternal = true) : (l.step e).Dry := by
  have hbalanced := h.balanced.step (Event.keepsUp_of_isInternal he)
  obtain ⟨hgiven, hfinished⟩ := given_step l he
  obtain ⟨more, hlost, -⟩ := lost_step l e
  have hbefore := h.balanced.balance
  have hafter := hbalanced.balance
  rw [h.held, h.carrying, add_zero, zero_add] at hbefore
  rw [hgiven, hfinished, hlost, hbefore, ← Multiset.coe_add] at hafter
  -- what stood on the books before stands there still, which leaves no room for anything else
  have hzero :
      (l.step e).network.held + (l.step e).carrying + (more : Multiset TaskHandle) = 0 := by
    apply add_right_cancel (b := (l.lost : Multiset TaskHandle) + l.finished)
    calc (l.step e).network.held + (l.step e).carrying + (more : Multiset TaskHandle) +
          ((l.lost : Multiset TaskHandle) + l.finished)
        = (l.step e).network.held + (l.step e).carrying +
            ((more : Multiset TaskHandle) + l.lost) + l.finished := by ac_rfl
      _ = 0 + ((l.lost : Multiset TaskHandle) + l.finished) := by rw [zero_add, ← hafter]
  have hnone := add_eq_zero.1 (add_eq_zero.1 hzero).1
  exact ⟨h.orderly.step e, hbalanced, hnone.1, hnone.2⟩

/-- No node holds anything. -/
theorem held_node (h : l.Dry) {n : Node} (hn : n ∈ l.network.nodes) : n.driver.held = 0 :=
  List.sum_eq_zero_iff.1 h.held _ (List.mem_map_of_mem hn)

end Dry

theorem layout_step (h : l.Orderly) (he : e.isInternal = true) :
    (l.step e).network.layout = l.network.layout := by
  have hnames := h.tracked.names
  cases e with
  | moveTo time => rfl
  | begin i => exact Network.layout_beginAt hnames i
  | answer i =>
      rw [step]
      cases l.network.underway[i]? with
      | none => rfl
      | some x =>
          exact Network.layout_answer (w := { l.network with
            underway := l.network.underway.eraseIdx i
            clock := max l.network.clock x.due }) hnames x
  | conclude i =>
      rw [step]
      cases l.carried[i]? with
      | none => rfl
      | some x => exact Network.layout_conclude hnames x.asker x.target x.outcome
  | _ => cases he

theorem Dry.run (h : l.Dry) {events : List Event} (he : ∀ e ∈ events, e.isInternal = true) :
    (l.run events).Dry := by
  induction events generalizing l with
  | nil => exact h
  | cons e rest ih =>
      exact ih (h.step (he e List.mem_cons_self)) fun x hx => he x (List.mem_cons_of_mem e hx)

theorem layout_run (h : l.Orderly) {events : List Event}
    (he : ∀ e ∈ events, e.isInternal = true) :
    (l.run events).network.layout = l.network.layout := by
  induction events generalizing l with
  | nil => rfl
  | cons e rest ih =>
      have hrest := ih (h.step e) fun x hx => he x (List.mem_cons_of_mem e hx)
      exact hrest.trans (layout_step h (he e List.mem_cons_self))

/-- A search lets no task in. -/
theorem Dry.trigger (h : l.Dry) (id : Location) (requester : Option Location) :
    (l.step (.trigger id requester)).Dry := by
  have hbooks := Network.books_trigger h.balanced.sound id requester
  have hheld : (l.network.trigger id requester).1.held = l.network.held :=
    add_right_cancel hbooks.balance
  exact ⟨h.orderly.step _, h.balanced.step rfl, hheld.trans h.held, h.carrying⟩

theorem dry_of_fresh {nodes : List Node} (hfresh : ∀ n ∈ nodes, n.IsFresh)
    (hnames : (nodes.map Node.id).Nodup) {events : List Event}
    (hup : ∀ e ∈ events, e.keepsUp = true) :
    let l := ({ network := { nodes := nodes } } : Ledger).run events
    l.network.held = 0 → l.carrying = 0 → l.Dry := by
  intro l hheld hcarrying
  have horderly : l.Orderly := (orderly_of_fresh hfresh hnames).run events
  have hbalanced : l.Balanced := (balanced_of_fresh hfresh hnames).run hup
  exact ⟨horderly, hbalanced, hheld, hcarrying⟩

end Ledger

end WorkStealing
