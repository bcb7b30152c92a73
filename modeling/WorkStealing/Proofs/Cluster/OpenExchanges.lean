import WorkStealing.Proofs.Cluster.Conservation
import WorkStealing.Proofs.Cluster.Requests
import WorkStealing.Proofs.Wire.RoundTrip

/-!
# Open exchanges

An exchange is open from the search that asks for it until its end: it waits, is underway, or its
answer is on the way. A node knows its open exchanges by the neighbors that it has marked as
requested, while the network keeps them in three rows. The two agree after every run
(`Ledger.Orderly.run`), and what is underway are the askers' own requests.
-/

namespace WorkStealing

open Wire.MessagePack

/-- What stands at a position of a row comes on top of the rest. -/
theorem cons_coe_eraseIdx {α : Type} {xs : List α} {i : Nat} {x : α} (h : xs[i]? = some x) :
    (xs : Multiset α) = x ::ₘ (xs.eraseIdx i : Multiset α) := by
  obtain ⟨hlt, hget⟩ := List.getElem?_eq_some_iff.1 h
  have hperm := List.getElem_cons_eraseIdx_perm hlt
  rw [hget] at hperm
  exact (Multiset.coe_eq_coe.2 hperm).symm

/-! ### Over the wire -/

/-- An answer without tasks is never too long. -/
theorem TakeResponse.isLegible_of_nil {r : TakeResponse} (h : r.tasks = []) :
    r.isLegible = true := by
  have hresponder := length_encodeNat_le r.responder.id.toNat
  have hlength : r.toBytes.length = 1 + ((encodeNat r.responder.id.toNat).length + 2) := by
    simp [toBytes, parts, encode, encodeItems, h, Location.toDatum, listHead]
    omega
  rw [isLegible, decide_eq_true_eq]
  omega

namespace Network

variable {w : Network} {n : Node}

/-- Every request arrives as it was sent. -/
theorem transmit_request (n : Node) (id : Uuid) :
    transmit (n.request timestamp id) = .ok (n.request timestamp id) := by
  have htopic : TakeRequest.topic.toUTF8.toList.length < 0x100000000 :=
    Nat.lt_of_le_of_lt (Text.length_toUTF8_le _) (by decide)
  have hvalid : timestamp.isValid = true := by decide
  have hwritable : timestamp.isWritable = true := by decide
  have hsendable : (n.request timestamp id).Sendable :=
    ⟨htopic, TakeRequest.length_toBytes_lt _, hvalid⟩
  rw [transmit_of_some hsendable.ofBytes?_toBytes, Message.written_eq_self_iff.2 hwritable]

/-- A request begins if its target can be reached, whatever is in it. -/
theorem dispatch_eq (w : Network) (asker : Node) (target : Location) :
    w.dispatch asker target =
      if w.isReachable target then
        .ok {
          number := w.serial
          asker := asker.id
          target := target
          request := asker.request timestamp (.ofNat w.serial)
          due := w.clock +
            (timeout? asker.timeoutMs (w.delay? target)).getD ((w.delay? target).getD 0)
          timeout := timeout? asker.timeoutMs (w.delay? target) }
      else .error (.unreachable target) := by
  rw [dispatch, transmit_request]

/-- What arrives is the target's reply as it comes out at the other end. -/
theorem snd_answer {x : Exchange} (htimeout : x.timeout = none) :
    (w.answer x).2 = (w.respond x.target x.request).2.bind transmit := by
  rw [answer, htimeout]
  dsimp only
  cases w.respond x.target x.request with
  | mk w' r =>
      cases r with
      | ok reply => simp only [Except.bind]
      | error e => rfl

/-- An exchange whose target can be reached is underway, with the asker's own request. -/
theorem start_of_reachable {asker target : Location} (hn : w.node? asker = some n)
    (hreach : w.isReachable target = true) :
    ∃ x : Exchange, x.asker = asker ∧ x.target = target ∧
      x.request = n.request timestamp (.ofNat w.serial) ∧
      x.timeout = timeout? n.timeoutMs (w.delay? target) ∧
      w.start asker target = { w with underway := w.underway ++ [x], serial := w.serial + 1 } := by
  simp only [start, hn, dispatch_eq, if_pos hreach]
  exact ⟨_, (node?_eq_some hn).1, rfl, rfl, rfl, rfl⟩

/-- A node that answers asks whom it searches with. -/
theorem respond_eq {id : Location} (hn : w.node? id = some n) (request : Message) :
    (w.respond id request).1 =
      (w.setNode (n.respond request timestamp).1).ask id
        (Node.askedFor (n.respond request timestamp).2) := by
  simp only [respond, hn]
  cases n.respond request timestamp with
  | mk n' r =>
      cases r with
      | ok handout => rfl
      | error e =>
          exact (ask_nil (w.setNode n') id).symm

theorem respond_of_unknown {id : Location} (hn : w.node? id = none) (request : Message) :
    w.respond id request = (w, .error (.unreachable id)) := by
  simp only [respond, hn]

theorem snd_respond {id : Location} (hn : w.node? id = some n) (request : Message) :
    (w.respond id request).2 = (n.respond request timestamp).2.map Handout.reply := by
  simp only [respond, hn]
  cases n.respond request timestamp with
  | mk n' r => cases r <;> rfl

/-- An answer does to the network what the target does. -/
theorem fst_answer {x : Exchange} (htimeout : x.timeout = none) :
    (w.answer x).1 = (w.respond x.target x.request).1 := by
  rw [answer, htimeout]
  dsimp only
  cases w.respond x.target x.request with
  | mk w' r => cases r <;> rfl

/-- An exchange whose target cannot be reached has failed at once. -/
theorem start_of_unreachable {asker target : Location} (hn : w.node? asker = some n)
    (hreach : w.isReachable target = false) :
    w.start asker target = w.conclude asker target (.error (.unreachable target)) := by
  simp only [start, hn, dispatch_eq, hreach, Bool.false_eq_true, if_false]

/-- The end of an exchange changes nodes only. -/
theorem exists_nodes_conclude (w : Network) (asker target : Location)
    (outcome : Except ClusterError Message) :
    ∃ nodes, w.conclude asker target outcome = { w with nodes := nodes } := by
  rw [conclude]
  cases w.node? asker with
  | none => exact ⟨_, rfl⟩
  | some n => exact ⟨_, rfl⟩

end Network

namespace Node

variable {n n' : Node}

theorem requesterOf_request (n : Node) (time : Timestamp) (id : Uuid) :
    requesterOf (n.request time id) = some n.id := by
  rw [requesterOf, Message.takeRequest?_of_payload rfl]
  rfl

/-- What is settled after an answer has nothing to do with the rounds. -/
theorem searches_respond (n : Node) (request : Message) (time : Timestamp) :
    Searches n (requesterOf request) (n.respond request time).1
      (askedFor (n.respond request time).2) := by
  have hsearch := n.searches_handOut request time
  rw [respond]
  cases hout : n.handOut request time with
  | mk n' r =>
      rw [hout] at hsearch
      obtain ⟨hterms, hrounds⟩ := hsearch
      cases r with
      | error e => exact ⟨hterms, hrounds⟩
      | ok handout =>
          let driver := (n'.settle handout.tasks).driver
          exact ⟨congrArg (fun m : Node => { m with driver := driver }) hterms, hrounds⟩

/-! ### One node and its open exchanges -/

/-- A node whose open exchanges are with these neighbors, whatever its past. -/
def Tracks (n : Node) (pending : Multiset Location) : Prop :=
  ∃ a : Asker, a.node = n ∧ (a.unfinished : Multiset Location) = pending ∧ a.Tallied

namespace Tracks

variable {pending : Multiset Location} {l : Location}

/-- The neighbor of an open exchange is marked as requested. -/
theorem requested (h : n.Tracks pending) (hl : l ∈ pending) :
    ∃ m ∈ n.rounds.neighbors, m.location = l ∧ m.status = .requested := by
  obtain ⟨a, rfl, rfl, htallied⟩ := h
  obtain ⟨m, hm, rfl⟩ := List.mem_map.1 (htallied.known l hl)
  exact ⟨m, hm, rfl, (htallied.records m hm).status.2 hl⟩

/-- No two open exchanges of a node are with one neighbor. -/
theorem nodup (h : n.Tracks pending) : pending.Nodup := by
  obtain ⟨a, -, rfl, htallied⟩ := h
  exact htallied.once

theorem mem_locations (h : n.Tracks pending) (hl : l ∈ pending) : l ∈ n.rounds.locations := by
  obtain ⟨m, hm, rfl, -⟩ := h.requested hl
  exact List.mem_map_of_mem hm

/-- A neighbor without an open exchange is idle. -/
theorem idle (h : n.Tracks pending) {m : Neighbor} (hm : m ∈ n.rounds.neighbors)
    (hl : m.location ∉ pending) : m.status = .idle := by
  obtain ⟨a, rfl, rfl, htallied⟩ := h
  cases hstatus : m.status with
  | idle => rfl
  | requested => exact absurd ((htallied.records m hm).status.1 hstatus) hl

theorem of_same (h : n.Tracks pending) (hid : n'.id = n.id)
    (hsame : n'.rounds.neighbors = n.rounds.neighbors) : n'.Tracks pending := by
  obtain ⟨a, rfl, hopen, htallied⟩ := h
  exact ⟨{ a with node := n' }, rfl, hopen, htallied.of_same hid hsame⟩

/-- A search opens an exchange with each neighbor that it asks. -/
theorem searches (h : n.Tracks pending) {requester : Option Location} {asked : List Location}
    (hsearch : Searches n requester n' asked) : n'.Tracks (pending + asked) := by
  obtain ⟨a, rfl, rfl, htallied⟩ := h
  exact ⟨{ a with node := n', unfinished := a.unfinished ++ asked }, rfl,
    (Multiset.coe_add _ _).symm, htallied.asks hsearch.id hsearch.asks⟩

/-- The end of an exchange closes that one. -/
theorem conclude (h : n.Tracks (l ::ₘ pending)) (outcome : Except ClusterError Message) :
    (n.conclude l outcome).Tracks pending := by
  obtain ⟨a, rfl, hopen, htallied⟩ := h
  have hmem : l ∈ a.unfinished := by
    rw [← Multiset.mem_coe, hopen]
    exact Multiset.mem_cons_self l pending
  obtain ⟨i, hi⟩ := List.getElem?_of_mem hmem
  have hrest : (a.unfinished.eraseIdx i : Multiset Location) = pending := by
    rw [cons_coe_eraseIdx hi] at hopen
    exact (Multiset.cons_inj_right l).1 hopen
  have hstep := htallied.conclude hi outcome
  refine ⟨a.step (.conclude i outcome), ?_, ?_, hstep⟩
  · simp only [Asker.step, hi]
  · simp only [Asker.step, hi, hrest]

/-- A node that has just joined has no open exchange. -/
theorem of_isFresh (h : n.IsFresh) : n.Tracks 0 := by
  obtain ⟨_, _, _, _, _, _, _, _, -, hjoin⟩ := h
  exact ⟨{ node := n }, rfl, rfl, Asker.tallied_of_join hjoin⟩

end Tracks

end Node

/-! ### All nodes -/

namespace Network

variable {w w' : Network} {n n' : Node} {id : Location}
  {pairs pairs' : Multiset (Location × Location)}

/-- The targets of one asker among pairs of an asker and a target. -/
def targetsOf (pairs : Multiset (Location × Location)) (asker : Location) : Multiset Location :=
  (pairs.filter fun x => x.1 = asker).map Prod.snd

theorem mem_targetsOf {asker target : Location} :
    target ∈ targetsOf pairs asker ↔ (asker, target) ∈ pairs := by
  rw [targetsOf, Multiset.mem_map]
  constructor
  · rintro ⟨⟨asker', target'⟩, hmem, rfl⟩
    obtain ⟨hpair, rfl⟩ := Multiset.mem_filter.1 hmem
    exact hpair
  · intro hpair
    exact ⟨(asker, target), Multiset.mem_filter.2 ⟨hpair, rfl⟩, rfl⟩

theorem targetsOf_le (h : pairs ≤ pairs') (asker : Location) :
    targetsOf pairs asker ≤ targetsOf pairs' asker :=
  Multiset.map_le_map (Multiset.filter_le_filter _ h)

@[simp] theorem targetsOf_add (pairs pairs' : Multiset (Location × Location)) (asker : Location) :
    targetsOf (pairs + pairs') asker = targetsOf pairs asker + targetsOf pairs' asker := by
  rw [targetsOf, Multiset.filter_add, Multiset.map_add]
  rfl

theorem targetsOf_cons_self (id target : Location) (pairs : Multiset (Location × Location)) :
    targetsOf ((id, target) ::ₘ pairs) id = target ::ₘ targetsOf pairs id := by
  rw [targetsOf, Multiset.filter_cons_of_pos pairs (by rfl), Multiset.map_cons]
  rfl

theorem targetsOf_cons_of_ne {k : Location} (h : k ≠ id) (target : Location)
    (pairs : Multiset (Location × Location)) :
    targetsOf ((id, target) ::ₘ pairs) k = targetsOf pairs k := by
  have hne : ¬ (id, target).1 = k := Ne.symm h
  rw [targetsOf, Multiset.filter_cons_of_neg pairs hne]
  rfl

/-- What one asker asks is its own. -/
theorem targetsOf_asks (id k : Location) (asked : List Location) :
    targetsOf (asked.map fun t => (id, t) : List (Location × Location)) k =
      if id = k then (asked : Multiset Location) else 0 := by
  induction asked with
  | nil => simp [targetsOf]
  | cons t rest ih =>
      rw [List.map_cons, ← Multiset.cons_coe]
      split
      next heq =>
        subst heq
        rw [if_pos rfl] at ih
        rw [targetsOf_cons_self, ih]
        rfl
      next hne =>
        rw [if_neg hne] at ih
        rw [targetsOf_cons_of_ne (Ne.symm hne), ih]

theorem exists_node?_of_mem (h : id ∈ w.nodes.map Node.id) : ∃ n, w.node? id = some n := by
  obtain ⟨m, hm, hid⟩ := List.mem_map.1 h
  have hsome : (w.node? id).isSome = true := by
    rw [node?, List.find?_isSome]
    exact ⟨m, hm, decide_eq_true hid⟩
  exact Option.isSome_iff_exists.1 hsome

/-- Nodes of different names that know their open exchanges. -/
structure Tracked (w : Network) (pairs : Multiset (Location × Location)) : Prop where
  names : (w.nodes.map Node.id).Nodup
  tracks : ∀ n ∈ w.nodes, n.Tracks (targetsOf pairs n.id)
  askers : ∀ x ∈ pairs, x.1 ∈ w.nodes.map Node.id

namespace Tracked

theorem of_nodes_eq (h : w.Tracked pairs) (hnodes : w'.nodes = w.nodes) : w'.Tracked pairs := by
  refine ⟨?_, ?_, ?_⟩
  · rw [hnodes]
    exact h.names
  · rw [hnodes]
    exact h.tracks
  · rw [hnodes]
    exact h.askers

/-- The asker of an open exchange is a node that has marked the target. -/
theorem exists_node (h : w.Tracked pairs) {asker target : Location}
    (hx : (asker, target) ∈ pairs) :
    ∃ n, w.node? asker = some n ∧ n.Tracks (targetsOf pairs asker) ∧
      target ∈ targetsOf pairs asker := by
  obtain ⟨n, hn⟩ := exists_node?_of_mem (h.askers _ hx)
  obtain ⟨rfl, hmem⟩ := node?_eq_some hn
  exact ⟨n, hn, h.tracks n hmem, mem_targetsOf.2 hx⟩

/-- One node changes, and with it its own exchanges only. -/
theorem setNode (h : w.Tracked pairs) (hn : w.node? id = some n) (hid : n'.id = n.id)
    (hself : n'.Tracks (targetsOf pairs' id))
    (hothers : ∀ k, k ≠ id → targetsOf pairs' k = targetsOf pairs k)
    (haskers : ∀ x ∈ pairs', x.1 = id ∨ x ∈ pairs) : (w.setNode n').Tracked pairs' := by
  obtain ⟨rfl, hmem⟩ := node?_eq_some hn
  refine ⟨?_, ?_, ?_⟩
  · rw [names_setNode]
    exact h.names
  · intro m hm
    obtain ⟨x, hx, rfl⟩ := List.mem_map.1 hm
    split
    next =>
      rw [hid]
      exact hself
    next hne =>
      rw [hothers x.id fun heq => hne (heq.trans hid.symm)]
      exact h.tracks x hx
  · intro x hx
    rw [names_setNode]
    rcases haskers x hx with hown | hold
    · rw [hown]
      exact List.mem_map_of_mem hmem
    · exact h.askers x hold

theorem same (h : w.Tracked pairs) (hn : w.node? id = some n) (hid : n'.id = n.id)
    (hsame : n'.rounds.neighbors = n.rounds.neighbors) : (w.setNode n').Tracked pairs := by
  obtain ⟨rfl, hmem⟩ := node?_eq_some hn
  exact h.setNode hn hid ((h.tracks n hmem).of_same hid hsame) (fun _ _ => rfl) fun _ => .inr

theorem tracks_of_node? (h : w.Tracked pairs) (hn : w.node? id = some n) :
    n.Tracks (targetsOf pairs id) := by
  obtain ⟨rfl, hmem⟩ := node?_eq_some hn
  exact h.tracks n hmem

/-- A node opens exchanges of its own only. -/
theorem opens (h : w.Tracked pairs) (hn : w.node? id = some n) (hid : n'.id = n.id)
    {asked : List Location} (hself : n'.Tracks (targetsOf pairs id + asked)) :
    (w.setNode n').Tracked
      (pairs + (asked.map fun t => (id, t) : List (Location × Location))) := by
  refine h.setNode hn hid ?_ ?_ ?_
  · rw [targetsOf_add, targetsOf_asks, if_pos rfl]
    exact hself
  · intro k hk
    rw [targetsOf_add, targetsOf_asks, if_neg (Ne.symm hk), add_zero]
  · intro x hx
    rcases Multiset.mem_add.1 hx with hold | hnew
    · exact .inr hold
    · obtain ⟨t, -, rfl⟩ := List.mem_map.1 (Multiset.mem_coe.1 hnew)
      exact .inl rfl

theorem conclude {target : Location} (h : w.Tracked ((id, target) ::ₘ pairs))
    (outcome : Except ClusterError Message) : (w.conclude id target outcome).Tracked pairs := by
  obtain ⟨n, hn, htracks, -⟩ := h.exists_node (Multiset.mem_cons_self _ _)
  rw [targetsOf_cons_self] at htracks
  rw [Network.conclude, hn]
  refine h.setNode hn (n.conclude_eq target outcome).1 (htracks.conclude outcome) ?_ ?_
  · intro k hk
    exact (targetsOf_cons_of_ne hk target pairs).symm
  · intro x hx
    exact .inr (Multiset.mem_cons_of_mem hx)

end Tracked

end Network

/-! ### Runs -/

/-- A request as its asker sends it. -/
def Exchange.IsGenuine (x : Exchange) : Prop :=
  x.request.topic = TakeRequest.topic ∧ Node.requesterOf x.request = some x.asker

namespace Ledger

/-- The open exchanges, by asker and target. -/
def exchanges (l : Ledger) : Multiset (Location × Location) :=
  (l.network.waiting : Multiset (Location × Location)) +
    (l.network.underway.map fun x => (x.asker, x.target) : List (Location × Location)) +
    (l.carried.map fun x => (x.asker, x.target) : List (Location × Location))

/-- An open exchange waits, is underway, or its answer is on the way. -/
theorem mem_exchanges {l : Ledger} {pair : Location × Location} :
    pair ∈ l.exchanges ↔ pair ∈ l.network.waiting ∨
      (∃ x ∈ l.network.underway, (x.asker, x.target) = pair) ∨
      ∃ x ∈ l.carried, (x.asker, x.target) = pair := by
  simp only [exchanges, Multiset.mem_add, Multiset.mem_coe, List.mem_map, or_assoc]

/-- A ledger whose open exchanges are those that the nodes know, each begun by a request of its
asker. -/
structure Orderly (l : Ledger) : Prop where
  tracked : l.network.Tracked l.exchanges
  genuine : ∀ x ∈ l.network.underway, x.IsGenuine

variable {l : Ledger} {w : Network} {id : Location} {n n' : Node}

theorem exchanges_ask (l : Ledger) (w : Network) (id : Location) (asked : List Location) :
    ({ l with network := w.ask id asked } : Ledger).exchanges =
      ({ l with network := w } : Ledger).exchanges +
        (asked.map fun t => (id, t) : List (Location × Location)) := by
  simp only [exchanges, Network.ask, ← Multiset.coe_add]
  ac_rfl

/-- A node that opens exchanges queues them. -/
theorem Orderly.opens (h : l.Orderly) (hn : l.network.node? id = some n) (hid : n'.id = n.id)
    {asked : List Location} (hself : n'.Tracks (Network.targetsOf l.exchanges id + asked)) :
    Orderly { l with network := (l.network.setNode n').ask id asked } where
  tracked := by
    rw [exchanges_ask]
    exact (h.tracked.opens hn hid hself).of_nodes_eq rfl
  genuine := h.genuine

/-- A search opens an exchange with each neighbor that it asks. -/
theorem Orderly.searches (h : l.Orderly) (hn : l.network.node? id = some n)
    {requester : Option Location} {asked : List Location}
    (hsearch : n.Searches requester n' asked) :
    Orderly { l with network := (l.network.setNode n').ask id asked } :=
  h.opens hn hsearch.id ((h.tracked.tracks_of_node? hn).searches hsearch)

theorem Orderly.trigger (h : l.Orderly) (id : Location) (requester : Option Location) :
    Orderly { l with network := (l.network.trigger id requester).1 } := by
  rw [Network.trigger]
  cases hn : l.network.node? id with
  | none => exact h
  | some n => exact h.searches hn (n.searches_trigger requester)

/-- The exchange that waits at a position is one of the open ones. -/
theorem exchanges_waiting {i : Nat} {asker target : Location}
    (hi : l.network.waiting[i]? = some (asker, target)) :
    l.exchanges =
      (asker, target) ::ₘ ({ l with
        network := { l.network with waiting := l.network.waiting.eraseIdx i } } :
          Ledger).exchanges := by
  simp only [exchanges, cons_coe_eraseIdx hi, Multiset.cons_add]

theorem exchanges_underway {i : Nat} {x : Exchange} (hi : l.network.underway[i]? = some x)
    (clock : Nat) :
    l.exchanges =
      (x.asker, x.target) ::ₘ ({ l with
        network := { l.network with
          underway := l.network.underway.eraseIdx i
          clock := clock } } : Ledger).exchanges := by
  simp only [exchanges, ← Multiset.map_coe, cons_coe_eraseIdx hi, Multiset.map_cons,
    Multiset.cons_add, Multiset.add_cons]

theorem exchanges_carried {i : Nat} {x : Network.Delivery} (hi : l.carried[i]? = some x) :
    l.exchanges =
      (x.asker, x.target) ::ₘ ({ l with carried := l.carried.eraseIdx i } : Ledger).exchanges := by
  simp only [exchanges, ← Multiset.map_coe, cons_coe_eraseIdx hi, Multiset.map_cons,
    Multiset.add_cons]

theorem exchanges_begun (l : Ledger) (x : Exchange) (serial : Nat) :
    ({ l with
      network := { l.network with underway := l.network.underway ++ [x], serial := serial } } :
        Ledger).exchanges = (x.asker, x.target) ::ₘ l.exchanges := by
  simp only [exchanges, List.map_append, List.map_cons, List.map_nil, ← Multiset.coe_add,
    Multiset.coe_singleton, ← Multiset.singleton_add]
  ac_rfl

theorem exchanges_replied (l : Ledger) (x : Network.Delivery) :
    ({ l with carried := l.carried ++ [x] } : Ledger).exchanges =
      (x.asker, x.target) ::ₘ l.exchanges := by
  simp only [exchanges, List.map_append, List.map_cons, List.map_nil, ← Multiset.coe_add,
    Multiset.coe_singleton, ← Multiset.singleton_add]
  ac_rfl

/-- An exchange that begins stays open, or is closed as its target cannot be reached. -/
theorem Orderly.beginAt (h : l.Orderly) (i : Nat) :
    Orderly { l with network := l.network.beginAt i } := by
  rw [Network.beginAt]
  cases hi : l.network.waiting[i]? with
  | none => exact h
  | some pair =>
      obtain ⟨asker, target⟩ := pair
      let w : Network := { l.network with waiting := l.network.waiting.eraseIdx i }
      have htracked : w.Tracked l.exchanges := h.tracked.of_nodes_eq rfl
      have hopen := exchanges_waiting hi
      obtain ⟨n, hn, -⟩ := htracked.exists_node (mem_exchanges.2 (.inl (List.mem_of_getElem? hi)))
      show Orderly { l with network := w.start asker target }
      cases hreach : w.isReachable target with
      | true =>
          obtain ⟨x, rfl, rfl, hrequest, -, hstart⟩ := Network.start_of_reachable hn hreach
          rw [hstart]
          refine ⟨?_, ?_⟩
          · rw [exchanges_begun { l with network := w } x, ← hopen]
            exact htracked.of_nodes_eq rfl
          · intro y hy
            rcases List.mem_append.1 hy with hold | hnew
            · exact h.genuine y hold
            · rw [List.mem_singleton.1 hnew, Exchange.IsGenuine, hrequest,
                Node.requesterOf_request, (Network.node?_eq_some hn).1]
              exact ⟨rfl, rfl⟩
      | false =>
          have hconcluded := (hopen ▸ htracked).conclude (.error (.unreachable target))
          obtain ⟨nodes, hnodes⟩ :=
            w.exists_nodes_conclude asker target (.error (.unreachable target))
          rw [hnodes] at hconcluded
          rw [Network.start_of_unreachable hn hreach, hnodes]
          exact ⟨hconcluded, h.genuine⟩

/-- An answer on the way is still open, and its target may have opened others. -/
theorem Orderly.answer (h : l.Orderly) {i : Nat} {x : Exchange}
    (hi : l.network.underway[i]? = some x) (clock : Nat) :
    let w : Network :=
      { l.network with underway := l.network.underway.eraseIdx i, clock := clock }
    Orderly { l with network := (w.reply x).1, carried := l.carried ++ [(w.reply x).2] } := by
  intro w
  have hgenuine : ∀ y ∈ w.underway, y.IsGenuine :=
    fun y hy => h.genuine y (List.mem_of_mem_eraseIdx hy)
  -- the exchange is as open as before when its answer is on the way
  have hcarried (y : Network.Delivery) (hasker : y.asker = x.asker)
      (htarget : y.target = x.target) :
      Orderly { l with network := w, carried := l.carried ++ [y] } := by
    refine ⟨?_, hgenuine⟩
    rw [exchanges_replied { l with network := w } y, hasker, htarget, ← exchanges_underway hi]
    exact h.tracked.of_nodes_eq rfl
  show Orderly { l with network := (w.answer x).1, carried := l.carried ++ [(w.reply x).2] }
  cases htimeout : x.timeout with
  | some ms =>
      have hsame : (w.answer x).1 = w := by simp only [Network.answer, htimeout]
      rw [hsame]
      exact hcarried _ rfl rfl
  | none =>
      rw [Network.fst_answer htimeout]
      cases hn : w.node? x.target with
      | none =>
          rw [Network.respond_of_unknown hn]
          exact hcarried _ rfl rfl
      | some n =>
          rw [Network.respond_eq hn]
          exact (hcarried _ rfl rfl).searches hn (n.searches_respond x.request Network.timestamp)

/-- An answer that arrives closes its exchange. -/
theorem Orderly.conclude (h : l.Orderly) {i : Nat} {x : Network.Delivery}
    (hi : l.carried[i]? = some x) (lost : List TaskHandle) :
    Orderly { l with
      network := l.network.conclude x.asker x.target x.outcome
      carried := l.carried.eraseIdx i
      lost := lost } := by
  have htracked := h.tracked
  rw [exchanges_carried hi] at htracked
  have hconcluded := htracked.conclude x.outcome
  obtain ⟨nodes, hnodes⟩ := l.network.exists_nodes_conclude x.asker x.target x.outcome
  rw [hnodes] at hconcluded ⊢
  exact ⟨hconcluded, h.genuine⟩

/-- A node that keeps its name and its neighbors' records may take the place of another. -/
theorem Orderly.same (h : l.Orderly) (hn : l.network.node? id = some n) (n' : Node)
    (hid : n'.id = n.id) (hsame : n'.rounds.neighbors = n.rounds.neighbors)
    (given finished : List TaskHandle) :
    Orderly { l with network := l.network.setNode n', given := given, finished := finished } :=
  ⟨h.tracked.same hn hid hsame, h.genuine⟩

/-- Every event keeps a ledger orderly. -/
theorem Orderly.step (h : l.Orderly) (e : Event) : (l.step e).Orderly := by
  cases e with
  | call id c =>
      simp only [Ledger.step]
      cases hn : l.network.node? id with
      | none => exact h
      | some n => exact h.same hn { n with driver := (n.driver.call c).1 } rfl rfl _ _
  | trigger id requester => exact h.trigger id requester
  | shutDown id =>
      simp only [Ledger.step]
      cases hn : l.network.node? id with
      | none => exact h
      | some n => exact h.same hn n.shutDown rfl rfl _ _
  | setReachable id reachable => exact ⟨h.tracked.of_nodes_eq rfl, h.genuine⟩
  | setDelay id ms => exact ⟨h.tracked.of_nodes_eq rfl, h.genuine⟩
  | drop id => exact ⟨h.tracked.of_nodes_eq rfl, h.genuine⟩
  | moveTo time => exact ⟨h.tracked.of_nodes_eq rfl, h.genuine⟩
  | begin i => exact h.beginAt i
  | answer i =>
      simp only [Ledger.step]
      cases hi : l.network.underway[i]? with
      | none => exact h
      | some x => exact h.answer hi _
  | conclude i =>
      simp only [Ledger.step]
      cases hi : l.carried[i]? with
      | none => exact h
      | some x => exact h.conclude hi _

theorem Orderly.run (h : l.Orderly) (events : List Event) : (l.run events).Orderly := by
  induction events generalizing l with
  | nil => exact h
  | cons e rest ih => exact ih (h.step e)

theorem orderly_of_fresh {nodes : List Node} (hfresh : ∀ n ∈ nodes, n.IsFresh)
    (hnames : (nodes.map Node.id).Nodup) :
    ({ network := { nodes := nodes } } : Ledger).Orderly where
  tracked :=
    ⟨hnames, fun n hn => .of_isFresh (hfresh n hn), fun x hx => by simp [mem_exchanges] at hx⟩
  genuine x hx := absurd hx List.not_mem_nil

end Ledger

end WorkStealing
