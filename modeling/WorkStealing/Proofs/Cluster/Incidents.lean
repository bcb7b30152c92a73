import WorkStealing.Proofs.Cluster.OpenExchanges

/-!
# Networks with an outside

A network that nodes join at any time, with requests from outside and replies that come late. A
request from outside reaches a node by a call, or through a responder that gets its replies through
or not. Together with the events of the ledger these are all the ways in which nodes are called.

Main statement: `Ledger.orderly_history`. Whatever happens in a network that begins without nodes,
the exchanges that the nodes know of are those that are open.
-/

namespace WorkStealing

namespace Node

variable {n : Node} {pending : Multiset Location}

/-- What is settled or restored after an answer has nothing to do with the rounds. -/
theorem searches_serveOne (n : Node) (time : Timestamp) (arrival : Arrival) :
    ∃ requester,
      Searches n requester (n.serveOne time arrival).1 (n.serveOne time arrival).2.1 := by
  cases arrival with
  | unreadable => exact ⟨none, rfl, .inl rfl⟩
  | message request replyFails =>
      refine ⟨requesterOf request, ?_⟩
      have hsearch := n.searches_handOut request time
      rw [serveOne]
      cases hout : n.handOut request time with
      | mk n' r =>
          rw [hout] at hsearch
          obtain ⟨hterms, hrounds⟩ := hsearch
          cases r with
          | error e => exact ⟨hterms, hrounds⟩
          | ok handout =>
              let later : Node :=
                if replyFails then n'.restore handout.tasks else n'.settle handout.tasks
              have hlater : later = { n' with driver := later.driver } := by
                cases replyFails <;> rfl
              show Searches n (requesterOf request) later handout.asked
              rw [hlater]
              exact ⟨congrArg (fun m : Node => { m with driver := later.driver }) hterms, hrounds⟩

theorem id_serve (n : Node) (time : Timestamp) (arrivals : List Arrival) :
    (n.serve time arrivals).1.id = n.id := by
  induction arrivals generalizing n with
  | nil => rfl
  | cons arrival rest ih =>
      obtain ⟨requester, hsearch⟩ := n.searches_serveOne time arrival
      exact (ih _).trans hsearch.id

theorem Tracks.serve (h : n.Tracks pending) (time : Timestamp) (arrivals : List Arrival) :
    (n.serve time arrivals).1.Tracks (pending + (n.serve time arrivals).2.1) := by
  induction arrivals generalizing n pending with
  | nil =>
      show n.Tracks (pending + 0)
      rw [add_zero]
      exact h
  | cons arrival rest ih =>
      obtain ⟨requester, hsearch⟩ := n.searches_serveOne time arrival
      have hrest := ih (h.searches hsearch)
      rw [add_assoc, Multiset.coe_add] at hrest
      exact hrest

/-- A late reply leaves every open exchange open. -/
theorem Tracks.late (h : n.Tracks pending) (reply : Message) :
    (n.receiveLate reply).Tracks pending := by
  obtain ⟨a, rfl, rfl, htallied⟩ := h
  exact ⟨a.step (.late reply), rfl, rfl, htallied.late reply⟩

end Node

namespace Network

variable {w : Network} {n : Node} {id : Location}

theorem serve_eq (hn : w.node? id = some n) (arrivals : List Arrival) :
    w.serve id arrivals =
      ((w.setNode (n.serve timestamp arrivals).1).ask id (n.serve timestamp arrivals).2.1,
        (n.serve timestamp arrivals).2.2) := by
  simp only [serve, hn]

/-- A node that joins is found by its name, and all others as before. -/
theorem node?_add (w : Network) (n : Node) (id : Location) :
    (w.add n).node? id = (w.node? id).or (if n.id = id then some n else none) := by
  rw [node?, node?, add, List.find?_append, List.find?_singleton]
  simp only [decide_eq_true_eq]

end Network

namespace Ledger

/-- What can happen to a network from inside and from outside, at any time and in any order. -/
inductive Incident where
  | event (e : Event)
  /-- A node joins with a driver, whatever has happened to that; a name is taken once. -/
  | join (id : Location) (driver : Driver) (neighbors : List Location) (protocol : ProtocolConfig)
  /-- A request comes from outside and is answered at once. -/
  | respond (id : Location) (request : Message)
  /-- Requests come from outside through a responder. -/
  | serve (id : Location) (arrivals : List Arrival)
  /-- A node gets a reply whose exchange has ended. -/
  | late (id : Location) (reply : Message)

/-- The ledger after an incident. -/
def meet (l : Ledger) : Incident → Ledger
  | .event e => l.step e
  | .join id driver neighbors protocol =>
    match l.network.node? id, Node.join id driver neighbors protocol with
    | none, .ok n => { l with network := l.network.add n }
    | _, _ => l
  | .respond id request => { l with network := (l.network.respond id request).1 }
  | .serve id arrivals => { l with network := (l.network.serve id arrivals).1 }
  | .late id reply =>
    match l.network.node? id with
    | none => l
    | some n => { l with network := l.network.setNode (n.receiveLate reply) }

def history (l : Ledger) (incidents : List Incident) : Ledger := incidents.foldl meet l

variable {l : Ledger} {id : Location} {n : Node}

/-- A node that joins has no open exchange, and nobody of its name had one. -/
theorem Orderly.join (h : l.Orderly) (hnew : l.network.node? id = none) {driver : Driver}
    {neighbors : List Location} {protocol : ProtocolConfig}
    (hjoin : Node.join id driver neighbors protocol = .ok n) :
    Orderly { l with network := l.network.add n } := by
  have hid : n.id = id := (Node.join_facts hjoin).1
  have hfresh : id ∉ l.network.nodes.map Node.id := by
    intro hmem
    obtain ⟨m, hm⟩ := Network.exists_node?_of_mem hmem
    rw [hnew] at hm
    cases hm
  have hnone : Network.targetsOf l.exchanges id = 0 := by
    rw [Network.targetsOf, Multiset.filter_eq_nil.2, Multiset.map_zero]
    exact fun x hx heq => hfresh (heq ▸ h.tracked.askers x hx)
  have hnames : ((l.network.add n).nodes.map Node.id) = l.network.nodes.map Node.id ++ [id] := by
    rw [Network.add, List.map_append, List.map_singleton, hid]
  refine ⟨⟨?_, ?_, ?_⟩, h.genuine⟩
  · rw [hnames, ← List.concat_eq_append, List.nodup_concat]
    exact ⟨hfresh, h.tracked.names⟩
  · intro m hm
    rcases List.mem_append.1 hm with hold | hown
    · exact h.tracked.tracks m hold
    · obtain rfl := List.mem_singleton.1 hown
      rw [hid]
      show m.Tracks (Network.targetsOf l.exchanges id)
      rw [hnone]
      exact ⟨{ node := m }, rfl, rfl, Asker.tallied_of_join hjoin⟩
  · intro x hx
    rw [hnames]
    exact List.mem_append_left _ (h.tracked.askers x hx)

theorem Orderly.respond (h : l.Orderly) (id : Location) (request : Message) :
    Orderly { l with network := (l.network.respond id request).1 } := by
  cases hn : l.network.node? id with
  | none =>
      rw [Network.respond_of_unknown hn]
      exact h
  | some n =>
      rw [Network.respond_eq hn]
      exact h.searches hn (n.searches_respond request Network.timestamp)

theorem Orderly.serve (h : l.Orderly) (id : Location) (arrivals : List Arrival) :
    Orderly { l with network := (l.network.serve id arrivals).1 } := by
  cases hn : l.network.node? id with
  | none =>
      simp only [Network.serve, hn]
      exact h
  | some n =>
      rw [Network.serve_eq hn]
      exact h.opens hn (n.id_serve Network.timestamp arrivals)
        ((h.tracked.tracks_of_node? hn).serve Network.timestamp arrivals)

/-- A late reply opens and closes no exchange. -/
theorem Orderly.late (h : l.Orderly) (hn : l.network.node? id = some n) (reply : Message) :
    Orderly { l with network := l.network.setNode (n.receiveLate reply) } := by
  refine ⟨h.tracked.setNode hn (n.receiveLate_rounds reply).1 ?_ (fun _ _ => rfl) fun _ => .inr,
    h.genuine⟩
  exact (h.tracked.tracks_of_node? hn).late reply

theorem Orderly.meet (h : l.Orderly) (i : Incident) : (l.meet i).Orderly := by
  cases i with
  | event e => exact h.step e
  | join id driver neighbors protocol =>
      simp only [Ledger.meet]
      split
      next hnew hjoin => exact h.join hnew hjoin
      next => exact h
  | respond id request => exact h.respond id request
  | serve id arrivals => exact h.serve id arrivals
  | late id reply =>
      simp only [Ledger.meet]
      cases hn : l.network.node? id with
      | none => exact h
      | some n => exact h.late hn reply

theorem Orderly.history (h : l.Orderly) (incidents : List Incident) :
    (l.history incidents).Orderly := by
  induction incidents generalizing l with
  | nil => exact h
  | cons i rest ih => exact ih (h.meet i)

/-- In a network that begins without nodes the open exchanges are always those that the nodes know
of. -/
theorem orderly_history (incidents : List Incident) :
    (({ network := {} } : Ledger).history incidents).Orderly := by
  have hfresh : ∀ n ∈ ([] : List Node), n.IsFresh := fun _ hn => absurd hn List.not_mem_nil
  exact (orderly_of_fresh hfresh List.nodup_nil).history incidents

end Ledger

end WorkStealing
