import WorkStealing.Proofs.Cluster.Incidents

/-!
# Nodes that leave

A node that has shut down stays in the network and keeps its work. It answers every request as
closing, asks nobody, and whoever takes in such an answer asks it no more
(`Ledger.closing_keeps_work`).

`Abides` says of a node, and of a network, that what has been closed stays closed: a node that has
left asks nobody, and a neighbor that accepts no requests is asked by nobody who knows. Every call
of a node abides, and so does everything that happens in a network, other nodes' exchanges that are
still open, failures and late replies among it.
-/

namespace WorkStealing

/-- Whether a message is a request for tasks that can be read. -/
def Message.isTake (m : Message) : Bool :=
  m.topic = TakeRequest.topic && m.takeRequest?.isSome

/-- Whether a responder meets a request for tasks that can be read. -/
def Arrival.isTake : Arrival → Bool
  | .unreadable => false
  | .message request _ => request.isTake

namespace Node

variable {n n' n'' : Node} {l : Location} {asked asked' : List Location}
  {requester : Option Location} {request : Message} {time : Timestamp}

/-! ### Leaving -/

/-- A node that has left asks nobody. -/
theorem trigger_of_shuttingDown (h : n.shuttingDown = true) (requester : Option Location) :
    n.trigger requester = (n, []) := by
  rw [trigger, if_pos h]

/-- A node that has left answers every request as closing, and refuses what is no request. -/
theorem handOut_of_shuttingDown (h : n.shuttingDown = true) (request : Message)
    (time : Timestamp) :
    (request.isTake = true ∧ n.handOut request time =
        (n, .ok { reply := n.replyTo request time (.closing n.id) })) ∨
      ∃ e, request.isTake = false ∧ n.handOut request time = (n, .error e) := by
  rw [handOut, Message.isTake]
  by_cases htopic : request.topic = TakeRequest.topic
  · rw [if_neg (not_not_intro htopic), decide_eq_true htopic, Bool.true_and]
    cases request.takeRequest? with
    | none => exact .inr ⟨_, rfl, rfl⟩
    | some take =>
        dsimp only
        rw [if_pos h]
        exact .inl ⟨rfl, rfl⟩
  · rw [if_pos htopic, decide_eq_false htopic]
    exact .inr ⟨_, rfl, rfl⟩

theorem respond_of_shuttingDown (h : n.shuttingDown = true) (request : Message)
    (time : Timestamp) :
    (request.isTake = true ∧ n.respond request time =
        (n, .ok { reply := n.replyTo request time (.closing n.id) })) ∨
      ∃ e, request.isTake = false ∧ n.respond request time = (n, .error e) := by
  rw [respond]
  rcases handOut_of_shuttingDown h request time with ⟨htake, hout⟩ | ⟨e, htake, hout⟩
  · rw [hout]
    exact .inl ⟨htake, rfl⟩
  · rw [hout]
    exact .inr ⟨e, htake, rfl⟩

/-- The answer of a node that has left. -/
theorem takeResponse?_replyTo_closing (n : Node) (request : Message) (time : Timestamp) :
    (n.replyTo request time (.closing n.id)).takeResponse? = some (.closing n.id) :=
  Message.takeResponse?_of_payload (show 0 < 0x100000000 by decide) rfl

/-- A responder of a node that has left sends one closing answer to each request, in their order. -/
theorem serve_of_shuttingDown (h : n.shuttingDown = true) (time : Timestamp)
    (arrivals : List Arrival) :
    ∃ sendings, n.serve time arrivals = (n, [], sendings) ∧
      sendings.map (fun s => s.reply.takeResponse?) =
        (arrivals.filter Arrival.isTake).map fun _ => some (.closing n.id) := by
  induction arrivals with
  | nil => exact ⟨[], rfl, rfl⟩
  | cons arrival rest ih =>
      obtain ⟨sendings, hrest, hreplies⟩ := ih
      cases arrival with
      | unreadable =>
          refine ⟨sendings, ?_, hreplies⟩
          simp only [serve, serveOne, hrest]
          rfl
      | message request replyFails =>
          rcases handOut_of_shuttingDown h request time with ⟨htake, hout⟩ | ⟨e, htake, hout⟩
          · let sending : Sending :=
              { reply := n.replyTo request time (.closing n.id), sent := !replyFails }
            have hone : n.serveOne time (.message request replyFails) = (n, [], some sending) := by
              simp only [serveOne, hout]
              cases replyFails <;> rfl
            have hfirst : (Arrival.message request replyFails).isTake = true := htake
            refine ⟨sending :: sendings, ?_, ?_⟩
            · simp only [serve, hone, hrest]
              rfl
            · rw [List.filter_cons_of_pos hfirst, List.map_cons, List.map_cons, hreplies,
                takeResponse?_replyTo_closing]
          · have hone : n.serveOne time (.message request replyFails) = (n, [], none) := by
              simp only [serveOne, hout]
            have hfirst : ¬ (Arrival.message request replyFails).isTake = true := by
              rw [Arrival.isTake, htake]
              exact Bool.false_ne_true
            refine ⟨sendings, ?_, ?_⟩
            · simp only [serve, hone, hrest]
              rfl
            · rw [List.filter_cons_of_neg hfirst, hreplies]

/-! ### What is closed stays closed -/

/-- A node that will not ask another one: that is no neighbor, or accepts no requests. -/
def Shuns (n : Node) (l : Location) : Prop :=
  ∀ m ∈ n.rounds.neighbors, m.location = l → m.accepting = false

/-- A node and one after it that has asked some others. If the node has left it has left for good
and asks nobody; whom it shuns it goes on to shun, and does not ask. -/
structure Abides (n n' : Node) (asked : List Location) : Prop where
  closing : n.shuttingDown = true → n'.shuttingDown = true ∧ asked = []
  shuns : ∀ l, n.Shuns l → n'.Shuns l ∧ l ∉ asked

namespace Abides

theorem refl (n : Node) : n.Abides n [] :=
  ⟨fun h => ⟨h, rfl⟩, fun _ h => ⟨h, List.not_mem_nil⟩⟩

theorem trans (h : n.Abides n' asked) (h' : n'.Abides n'' asked') :
    n.Abides n'' (asked ++ asked') := by
  refine ⟨fun hdown => ?_, fun l hl => ?_⟩
  · obtain ⟨hdown', rfl⟩ := h.closing hdown
    obtain ⟨hdown'', rfl⟩ := h'.closing hdown'
    exact ⟨hdown'', rfl⟩
  · obtain ⟨hl', hnot⟩ := h.shuns l hl
    obtain ⟨hl'', hnot'⟩ := h'.shuns l hl'
    exact ⟨hl'', fun hmem => (List.mem_append.1 hmem).elim hnot hnot'⟩

/-- A node whose records change, but none from closed to open. -/
theorem of_update {l : Location} {f : Neighbor → Neighbor}
    (hdown : n.shuttingDown = true → n'.shuttingDown = true)
    (hrounds : n'.rounds.neighbors = (n.rounds.update l f).neighbors)
    (hlocation : ∀ m, (f m).location = m.location)
    (hclosed : ∀ m, m.accepting = false → (f m).accepting = false) : n.Abides n' [] := by
  refine ⟨fun h => ⟨hdown h, rfl⟩, fun l' hl' => ⟨?_, List.not_mem_nil⟩⟩
  rw [Shuns, hrounds]
  exact Rounds.forall_update hl' hlocation hclosed

/-- A node that keeps its records. -/
theorem of_same (hdown : n.shuttingDown = true → n'.shuttingDown = true)
    (hsame : n'.rounds.neighbors = n.rounds.neighbors) : n.Abides n' [] := by
  refine ⟨fun h => ⟨hdown h, rfl⟩, fun l hl => ⟨?_, List.not_mem_nil⟩⟩
  rw [Shuns, hsame]
  exact hl

end Abides

/-- A search asks nobody who is shunned. -/
theorem Searches.shuns (h : Searches n requester n' asked) (hl : n.Shuns l) :
    n'.Shuns l ∧ l ∉ asked := by
  have hasks := h.asks
  rw [Shuns]
  generalize n'.rounds = r at hasks
  cases hasks with
  | quiet same =>
      rw [same]
      exact ⟨hl, List.not_mem_nil⟩
  | round same =>
      constructor
      · intro m' hm' hlocation
        rw [same] at hm'
        obtain ⟨m, hm, rfl⟩ := List.mem_map.1 hm'
        split at hlocation <;> rename_i hselect
        · rw [if_pos hselect]
          exact hl m hm hlocation
        · rw [if_neg hselect]
          exact hl m hm hlocation
      · intro hmem
        obtain ⟨m, hm, hselect, hlocation⟩ := Rounds.mem_selected.1 hmem
        rw [Neighbor.isSelectable, hl m hm hlocation, Bool.and_false, Bool.false_and] at hselect
        cases hselect

theorem Searches.abides (h : Searches n requester n' asked)
    (hquiet : n.shuttingDown = true → asked = []) : n.Abides n' asked := by
  refine ⟨fun hdown => ⟨?_, hquiet hdown⟩, fun l hl => h.shuns hl⟩
  rw [h.terms]
  exact hdown

theorem abides_trigger (n : Node) (requester : Option Location) :
    n.Abides (n.trigger requester).1 (n.trigger requester).2 :=
  (n.searches_trigger requester).abides fun hdown => by rw [trigger_of_shuttingDown hdown]

theorem abides_respond (n : Node) (request : Message) (time : Timestamp) :
    n.Abides (n.respond request time).1 (askedFor (n.respond request time).2) := by
  refine (n.searches_respond request time).abides fun hdown => ?_
  rcases respond_of_shuttingDown hdown request time with ⟨-, h⟩ | ⟨e, -, h⟩
  · rw [h]
    rfl
  · rw [h]
    rfl

theorem abides_serve (n : Node) (time : Timestamp) (arrivals : List Arrival) :
    n.Abides (n.serve time arrivals).1 (n.serve time arrivals).2.1 := by
  induction arrivals generalizing n with
  | nil => exact .refl n
  | cons arrival rest ih =>
      refine Abides.trans ?_ (ih (n.serveOne time arrival).1)
      obtain ⟨requester, hsearch⟩ := n.searches_serveOne time arrival
      refine hsearch.abides fun hdown => ?_
      -- one request is a row of requests
      obtain ⟨sendings, hserve, -⟩ := serve_of_shuttingDown hdown time [arrival]
      have hasked := congrArg (fun s => s.2.1) hserve
      simpa only [serve, List.append_nil] using hasked

theorem abides_conclude (n : Node) (l : Location) (outcome : Except ClusterError Message) :
    n.Abides (n.conclude l outcome) [] := by
  refine .of_update (fun hdown => ?_) (n.conclude_rounds l outcome).2 (fun m => ?_) fun m hm => ?_
  · rw [conclude]
    split <;> exact hdown
  · rw [concluded]
    split <;> rfl
  · rw [concluded]
    split
    · show (m.accepting && _) = false
      rw [hm, Bool.false_and]
    · show (m.accepting && _) = false
      rw [hm, Bool.false_and]

theorem abides_receiveLate (n : Node) (reply : Message) : n.Abides (n.receiveLate reply) [] := by
  have hdown : n.shuttingDown = true → (n.receiveLate reply).shuttingDown = true := by
    intro h
    rw [receiveLate]
    split
    · split <;> exact h
    · exact h
  have hrounds := (n.receiveLate_rounds reply).2
  cases hlate : lateAnswer? reply with
  | none =>
      rw [hlate] at hrounds
      exact .of_same hdown hrounds
  | some response =>
      rw [hlate] at hrounds
      refine .of_update hdown hrounds (fun _ => rfl) fun m hm => ?_
      show (m.accepting && _) = false
      rw [hm, Bool.false_and]

theorem shuns_of_update {f : Neighbor → Neighbor}
    (hrounds : n'.rounds.neighbors = (n.rounds.update l f).neighbors)
    (hclosed : ∀ m, (f m).accepting = false) : n'.Shuns l := by
  rw [Shuns, hrounds]
  intro m' hm' hlocation
  obtain ⟨m, -, rfl⟩ := Rounds.mem_update hm'
  by_cases hname : m.location = l
  · rw [if_pos hname]
    exact hclosed m
  · rw [if_neg hname] at hlocation
    exact absurd hlocation hname

/-- Whoever takes in a closing answer shuns the node that gave it. -/
theorem shuns_conclude {outcome : Except ClusterError Message} {response : TakeResponse}
    (h : responseOf outcome = .ok response) (hdown : response.shuttingDown = true) :
    (n.conclude l outcome).Shuns l := by
  refine shuns_of_update (n.conclude_rounds l outcome).2 fun m => ?_
  rw [concluded, h]
  show (m.accepting && !response.shuttingDown) = false
  rw [hdown, Bool.not_true, Bool.and_false]

theorem shuns_receiveLate {reply : Message} {response : TakeResponse}
    (h : lateAnswer? reply = some response) (hdown : response.shuttingDown = true) :
    (n.receiveLate reply).Shuns response.responder := by
  have hrounds := (n.receiveLate_rounds reply).2
  rw [h] at hrounds
  refine shuns_of_update hrounds fun m => ?_
  show (m.accepting && !response.shuttingDown) = false
  rw [hdown, Bool.not_true, Bool.and_false]

end Node

namespace Network

variable {w : Network} {n : Node} {id : Location} {request : Message}

/-- A closing answer arrives as it was written. -/
theorem responseOf_transmit_closing (n : Node) (request : Message) (id : Location) :
    Node.responseOf (transmit (n.replyTo request timestamp (.closing id))) =
      .ok (.closing id) := by
  have hpayload : (n.replyTo request timestamp (.closing id)).payload =
      (TakeResponse.closing id).toBytes := rfl
  have htopic : (n.replyTo request timestamp (.closing id)).topic = TakeResponse.topic := rfl
  have htime : (n.replyTo request timestamp (.closing id)).timestamp = timestamp := rfl
  have hshort : (TakeResponse.closing id).tasks.length < 0x100000000 := by
    show 0 < 0x100000000
    decide
  exact responseOf_transmit hpayload htopic htime hshort (TakeResponse.isLegible_of_nil rfl)

/-! ### A node that has left, in its network -/

section

variable (hnames : (w.nodes.map Node.id).Nodup) (hn : w.node? id = some n)
  (hdown : n.shuttingDown = true)

include hnames hn hdown

theorem trigger_of_shuttingDown (requester : Option Location) :
    w.trigger id requester = (w, 0) := by
  simp only [trigger, hn, Node.trigger_of_shuttingDown hdown, setNode_self hnames hn, ask_nil,
    List.length_nil]

/-- A request changes nothing and is answered as closing. -/
theorem respond_of_shuttingDown (htake : request.isTake = true) :
    w.respond id request = (w, .ok (n.replyTo request timestamp (.closing id))) := by
  rcases Node.respond_of_shuttingDown hdown request timestamp with ⟨-, h⟩ | ⟨e, hbad, -⟩
  · simp only [respond, hn, h, setNode_self hnames hn, ask_nil, (node?_eq_some hn).1]
  · rw [htake] at hbad
    cases hbad

theorem serve_of_shuttingDown (arrivals : List Arrival) :
    ∃ sendings, w.serve id arrivals = (w, sendings) ∧
      sendings.map (fun s => s.reply.takeResponse?) =
        (arrivals.filter Arrival.isTake).map fun _ => some (.closing id) := by
  obtain ⟨sendings, hserve, hreplies⟩ :=
    Node.serve_of_shuttingDown hdown timestamp arrivals
  rw [(node?_eq_some hn).1] at hreplies
  refine ⟨sendings, ?_, hreplies⟩
  simp only [serve, hn, hserve, setNode_self hnames hn, ask_nil]

/-- A request over the network changes nothing, and what arrives of the answer says that the node is
closing. -/
theorem reply_of_shuttingDown {x : Exchange} (htarget : x.target = id) (htimeout : x.timeout = none)
    (htake : x.request.isTake = true) :
    (w.reply x).1 = w ∧ (w.reply x).2.tasks = [] ∧
      Node.responseOf (w.reply x).2.outcome = .ok (.closing id) := by
  subst htarget
  have hrespond := respond_of_shuttingDown hnames hn hdown htake
  have hhanded : w.handedOut x = [] := by
    rcases Node.respond_of_shuttingDown hdown x.request timestamp with ⟨-, h⟩ | ⟨e, hbad, -⟩
    · simp only [handedOut, htimeout, hn, h, Node.handedOut]
    · rw [htake] at hbad
      cases hbad
  refine ⟨?_, hhanded, ?_⟩
  · show (w.answer x).1 = w
    rw [fst_answer htimeout, hrespond]
  · show Node.responseOf (w.answer x).2 = _
    rw [snd_answer htimeout, hrespond, Except.bind]
    exact responseOf_transmit_closing n x.request x.target

end

end Network

/-- A request as its asker sends it can be read. -/
theorem Exchange.IsGenuine.isTake {x : Exchange} (h : x.IsGenuine) : x.request.isTake = true := by
  obtain ⟨htopic, hrequester⟩ := h
  rw [Node.requesterOf] at hrequester
  obtain ⟨take, htake, -⟩ := Option.map_eq_some_iff.1 hrequester
  rw [Message.isTake, htopic, htake]
  rfl

namespace Ledger

open Network (targetsOf)

variable {l l' l'' : Ledger} {w : Network} {id : Location} {n n' : Node} {asked : List Location}

/-- A network and one after it: every node is still there and has abided, and has no open exchanges
but those that it had and those with nodes that it has asked since. -/
def Abides (l l' : Ledger) : Prop :=
  ∀ id n, l.network.node? id = some n →
    ∃ n' asked, l'.network.node? id = some n' ∧ n.Abides n' asked ∧
      targetsOf l'.exchanges id ≤ targetsOf l.exchanges id + (asked : Multiset Location)

namespace Abides

/-- Nodes that stay as they are, with no new exchanges. -/
theorem of_nodes (hnodes : ∀ id n, l.network.node? id = some n → l'.network.node? id = some n)
    (hopen : l'.exchanges ≤ l.exchanges) : l.Abides l' := by
  intro id n hn
  refine ⟨n, [], hnodes id n hn, .refl n, ?_⟩
  rw [Multiset.coe_nil, add_zero]
  exact Network.targetsOf_le hopen id

theorem refl (l : Ledger) : l.Abides l := of_nodes (fun _ _ hn => hn) (le_refl _)

theorem trans (h : l.Abides l') (h' : l'.Abides l'') : l.Abides l'' := by
  intro id n hn
  obtain ⟨n', asked, hn', habides, hle⟩ := h id n hn
  obtain ⟨n'', asked', hn'', habides', hle'⟩ := h' id n' hn'
  refine ⟨n'', asked ++ asked', hn'', habides.trans habides', hle'.trans ?_⟩
  rw [← Multiset.coe_add, ← add_assoc]
  exact Multiset.add_le_add_right hle

/-- One node that abides, and opens exchanges with those whom it asks. -/
theorem of_setNode (hn : l.network.node? id = some n) (hid : n'.id = n.id)
    (h : n.Abides n' asked) (hnodes : l'.network.nodes = (l.network.setNode n').nodes)
    (hopen : l'.exchanges ≤
      l.exchanges + (asked.map fun t => (id, t) : List (Location × Location))) :
    l.Abides l' := by
  intro k m hm
  have hfind : l'.network.node? k = some (if m.id = n'.id then n' else m) := by
    have hset := l.network.node?_setNode n' k
    rw [hm, Option.map_some] at hset
    rw [Network.node?, hnodes]
    exact hset
  have hle := Network.targetsOf_le hopen k
  rw [Network.targetsOf_add, Network.targetsOf_asks] at hle
  have hname : m.id = n'.id ↔ id = k := by
    rw [hid, (Network.node?_eq_some hm).1, (Network.node?_eq_some hn).1]
    exact eq_comm
  by_cases hk : id = k
  · subst hk
    rw [hn] at hm
    cases hm
    rw [if_pos (hname.2 rfl)] at hfind
    rw [if_pos rfl] at hle
    exact ⟨n', asked, hfind, h, hle⟩
  · rw [if_neg (mt hname.1 hk)] at hfind
    rw [if_neg hk] at hle
    exact ⟨m, [], hfind, .refl m, hle⟩

/-- One node that abides and asks nobody. -/
theorem of_quiet (hn : l.network.node? id = some n) (hid : n'.id = n.id) (h : n.Abides n' []) :
    l.Abides { l with network := l.network.setNode n' } := by
  refine of_setNode hn hid h rfl ?_
  rw [List.map_nil, Multiset.coe_nil, add_zero]
  exact le_refl _

/-- One node that abides and queues exchanges with those whom it asks. -/
theorem of_ask (hn : l.network.node? id = some n) (hid : n'.id = n.id) (h : n.Abides n' asked) :
    l.Abides { l with network := (l.network.setNode n').ask id asked } :=
  of_setNode hn hid h rfl (exchanges_ask l (l.network.setNode n') id asked).le

end Abides

/-! ### Everything abides -/

theorem abides_trigger (l : Ledger) (id : Location) (requester : Option Location) :
    l.Abides { l with network := (l.network.trigger id requester).1 } := by
  rw [Network.trigger]
  cases hn : l.network.node? id with
  | none => exact .refl l
  | some n => exact .of_ask hn (n.trigger_facts requester).1 (n.abides_trigger requester)

theorem abides_respond (l : Ledger) (id : Location) (request : Message) :
    l.Abides { l with network := (l.network.respond id request).1 } := by
  cases hn : l.network.node? id with
  | none =>
      rw [Network.respond_of_unknown hn]
      exact .refl l
  | some n =>
      rw [Network.respond_eq hn]
      exact .of_ask hn (n.searches_respond request Network.timestamp).id
        (n.abides_respond request Network.timestamp)

theorem abides_conclude (l : Ledger) (asker target : Location)
    (outcome : Except ClusterError Message) :
    l.Abides { l with network := l.network.conclude asker target outcome } := by
  rw [Network.conclude]
  cases hn : l.network.node? asker with
  | none => exact .refl l
  | some n =>
      exact .of_quiet hn (n.conclude_rounds target outcome).1 (n.abides_conclude target outcome)

theorem abides_beginAt (l : Ledger) (i : Nat) :
    l.Abides { l with network := l.network.beginAt i } := by
  rw [Network.beginAt]
  cases hi : l.network.waiting[i]? with
  | none => exact .refl l
  | some pair =>
      obtain ⟨asker, target⟩ := pair
      let w : Network := { l.network with waiting := l.network.waiting.eraseIdx i }
      have hopen := exchanges_waiting hi
      have hfirst : l.Abides { l with network := w } :=
        .of_nodes (fun _ _ hn => hn) (hopen ▸ Multiset.le_cons_self _ _)
      show l.Abides { l with network := w.start asker target }
      cases hn : w.node? asker with
      | none =>
          simp only [Network.start, hn]
          exact hfirst
      | some n =>
          cases hreach : w.isReachable target with
          | true =>
              obtain ⟨x, rfl, rfl, -, -, hstart⟩ := Network.start_of_reachable hn hreach
              rw [hstart]
              refine .of_nodes (fun _ _ hm => hm) ?_
              rw [exchanges_begun { l with network := w } x, ← hopen]
          | false =>
              rw [Network.start_of_unreachable hn hreach]
              exact hfirst.trans (abides_conclude _ asker target _)

theorem abides_answer (l : Ledger) {i : Nat} {x : Exchange} (hi : l.network.underway[i]? = some x)
    (clock : Nat) :
    let w : Network :=
      { l.network with underway := l.network.underway.eraseIdx i, clock := clock }
    l.Abides { l with network := (w.reply x).1, carried := l.carried ++ [(w.reply x).2] } := by
  intro w
  let carried : Ledger := { l with network := w, carried := l.carried ++ [(w.reply x).2] }
  have hfirst : l.Abides carried := by
    refine .of_nodes (fun _ _ hn => hn) ?_
    have hopen := exchanges_replied { l with network := w } (w.reply x).2
    rw [exchanges_underway hi clock]
    exact hopen.le
  refine hfirst.trans ?_
  show carried.Abides { carried with network := (w.answer x).1 }
  cases htimeout : x.timeout with
  | some ms =>
      simp only [Network.answer, htimeout]
      exact .refl carried
  | none =>
      rw [Network.fst_answer htimeout]
      exact abides_respond carried x.target x.request

theorem abides_step (l : Ledger) (e : Event) : l.Abides (l.step e) := by
  cases e with
  | call id c =>
      simp only [step]
      cases hn : l.network.node? id with
      | none => exact .refl l
      | some n =>
          let n' : Node := { n with driver := (n.driver.call c).1 }
          have hquiet : n.Abides n' [] := .of_same (fun hdown => hdown) rfl
          have hsame : l.Abides { l with network := l.network.setNode n' } :=
            .of_quiet hn rfl hquiet
          exact hsame.trans (.of_nodes (fun _ _ hm => hm) (le_refl _))
  | trigger id requester => exact abides_trigger l id requester
  | shutDown id =>
      simp only [step]
      cases hn : l.network.node? id with
      | none => exact .refl l
      | some n =>
          have hquiet : n.Abides n.shutDown [] := .of_same (fun _ => rfl) rfl
          exact .of_quiet hn rfl hquiet
  | setReachable id reachable => exact .of_nodes (fun _ _ hn => hn) (le_refl _)
  | setDelay id ms => exact .of_nodes (fun _ _ hn => hn) (le_refl _)
  | drop id => exact .of_nodes (fun _ _ hn => hn) (le_refl _)
  | moveTo time => exact .of_nodes (fun _ _ hn => hn) (le_refl _)
  | begin i => exact abides_beginAt l i
  | answer i =>
      simp only [step]
      cases hi : l.network.underway[i]? with
      | none => exact .refl l
      | some x => exact abides_answer l hi _
  | conclude i =>
      simp only [step]
      cases hi : l.carried[i]? with
      | none => exact .refl l
      | some x =>
          let arrived : Ledger := { l with
            carried := l.carried.eraseIdx i
            lost := x.tasks.drop (l.network.roomFor x) ++ l.lost }
          have hfirst : l.Abides arrived :=
            .of_nodes (fun _ _ hn => hn) (exchanges_carried hi ▸ Multiset.le_cons_self _ _)
          exact hfirst.trans (abides_conclude arrived x.asker x.target x.outcome)

theorem abides_meet (l : Ledger) (i : Incident) : l.Abides (l.meet i) := by
  cases i with
  | event e => exact abides_step l e
  | join id driver neighbors protocol =>
      simp only [meet]
      split
      next n _ _ =>
        refine .of_nodes (fun k m hm => ?_) (le_refl _)
        rw [Network.node?_add, hm]
        rfl
      next => exact .refl l
  | respond id request => exact abides_respond l id request
  | serve id arrivals =>
      simp only [meet]
      cases hn : l.network.node? id with
      | none =>
          simp only [Network.serve, hn]
          exact .refl l
      | some n =>
          rw [Network.serve_eq hn]
          exact .of_ask hn (n.id_serve Network.timestamp arrivals)
            (n.abides_serve Network.timestamp arrivals)
  | late id reply =>
      simp only [meet]
      cases hn : l.network.node? id with
      | none => exact .refl l
      | some n => exact .of_quiet hn (n.receiveLate_rounds reply).1 (n.abides_receiveLate reply)

theorem abides_history (l : Ledger) (incidents : List Incident) :
    l.Abides (l.history incidents) := by
  induction incidents generalizing l with
  | nil => exact .refl l
  | cons i rest ih => exact (abides_meet l i).trans (ih (l.meet i))

/-! ### Closing for good -/

/-- An answer that arrives closes its exchange. -/
theorem exchanges_conclude {i : Nat} {y : Network.Delivery} (hi : l.carried[i]? = some y) :
    l.exchanges = (y.asker, y.target) ::ₘ (l.step (.conclude i)).exchanges := by
  obtain ⟨nodes, hnodes⟩ := l.network.exists_nodes_conclude y.asker y.target y.outcome
  rw [exchanges_carried hi]
  simp only [step, hi, hnodes]
  rfl

theorem node?_conclude {i : Nat} {y : Network.Delivery} (hi : l.carried[i]? = some y)
    (hn : l.network.node? y.asker = some n) :
    (l.step (.conclude i)).network.node? y.asker = some (n.conclude y.target y.outcome) := by
  simp only [step, hi, Network.conclude, hn, Network.node?_setNode, Option.map_some]
  rw [if_pos (n.conclude_rounds y.target y.outcome).1.symm]

/-- With a node that it shuns nobody opens an exchange. -/
theorem mem_exchanges_of_shuns {asker target : Location} (hn : l.network.node? asker = some n)
    (hshuns : n.Shuns target) {later : List Incident}
    (hmem : (asker, target) ∈ (l.history later).exchanges) : (asker, target) ∈ l.exchanges := by
  obtain ⟨n', asked, -, habides, hle⟩ := abides_history l later asker n hn
  have hopen := Multiset.mem_of_le hle (Network.mem_targetsOf.2 hmem)
  rcases Multiset.mem_add.1 hopen with hold | hnew
  · exact Network.mem_targetsOf.1 hold
  · exact absurd (Multiset.mem_coe.1 hnew) (habides.shuns target hshuns).2

/-- Nobody has two open exchanges with one node, so whoever has taken in a closing answer has none
left with the node that gave it, and opens no other. -/
theorem not_mem_exchanges_of_closing (h : l.Orderly) {i : Nat} {y : Network.Delivery}
    (hi : l.carried[i]? = some y) {response : TakeResponse}
    (hresponse : Node.responseOf y.outcome = .ok response) (hdown : response.shuttingDown = true)
    (later : List Incident) :
    (y.asker, y.target) ∉ ((l.step (.conclude i)).history later).exchanges := by
  have hopen := exchanges_conclude hi
  have hmem : (y.asker, y.target) ∈ l.exchanges := hopen ▸ Multiset.mem_cons_self _ _
  obtain ⟨n, hn, htracks, -⟩ := h.tracked.exists_node hmem
  have honce := htracks.nodup
  rw [hopen, Network.targetsOf_cons_self, Multiset.nodup_cons] at honce
  intro hagain
  have hnext := mem_exchanges_of_shuns (node?_conclude hi hn)
    (Node.shuns_conclude hresponse hdown) hagain
  exact honce.1 (Network.mem_targetsOf.2 hnext)

/-- Whoever takes in a closing answer late opens no further exchange with the node that gave it. -/
theorem mem_exchanges_of_late {k : Location} (hn : l.network.node? k = some n) {reply : Message}
    {response : TakeResponse} (hreply : Node.lateAnswer? reply = some response)
    (hdown : response.shuttingDown = true) {later : List Incident}
    (hmem : (k, response.responder) ∈ ((l.meet (.late k reply)).history later).exchanges) :
    (k, response.responder) ∈ l.exchanges := by
  have hmeet : l.meet (.late k reply) =
      { l with network := l.network.setNode (n.receiveLate reply) } := by
    simp only [meet, hn]
  have hself : (l.meet (.late k reply)).network.node? k = some (n.receiveLate reply) := by
    simp only [hmeet, Network.node?_setNode, hn, Option.map_some]
    rw [if_pos (n.receiveLate_rounds reply).1.symm]
  have hopen := mem_exchanges_of_shuns hself (Node.shuns_receiveLate hreply hdown) hmem
  rw [hmeet] at hopen
  exact hopen

/-- A request over the network changes no node, and its answer says that the target is closing. -/
theorem answer_of_shuttingDown (h : l.Orderly) (hn : l.network.node? id = some n)
    (hdown : n.shuttingDown = true) {i : Nat} {x : Exchange}
    (hi : l.network.underway[i]? = some x) (htarget : x.target = id)
    (htimeout : x.timeout = none) :
    ∃ y, (l.step (.answer i)).network.nodes = l.network.nodes ∧
      (l.step (.answer i)).network.waiting = l.network.waiting ∧
      (l.step (.answer i)).carried = l.carried ++ [y] ∧ y.asker = x.asker ∧ y.target = id ∧
      y.tasks = [] ∧ Node.responseOf y.outcome = .ok (.closing id) := by
  let w : Network :=
    { l.network with
      underway := l.network.underway.eraseIdx i
      clock := max l.network.clock x.due }
  have hnames : (w.nodes.map Node.id).Nodup := h.tracked.names
  have hw : w.node? id = some n := hn
  have htake := (h.genuine x (List.mem_of_getElem? hi)).isTake
  obtain ⟨hsame, htasks, hanswer⟩ :=
    Network.reply_of_shuttingDown hnames hw hdown htarget htimeout htake
  have hstep : l.step (.answer i) =
      { l with network := (w.reply x).1, carried := l.carried ++ [(w.reply x).2] } := by
    simp only [step, hi]
    rfl
  rw [hstep, hsame]
  exact ⟨_, rfl, rfl, rfl, rfl, htarget, htasks, hanswer⟩

/-- A node that leaves keeps its work. From the moment on at which a node has shut down, whatever
happens: every request for tasks that can be read, from outside or from another node, changes
nothing in any node and is answered without tasks and as closing; no search of the node asks
anybody, so that it has no open exchanges but those from before; and a node that has taken in such an
answer never again has an exchange with the node that gave it. Where the answer comes late, an
exchange that is open goes on to its end and no other follows. -/
theorem closing_keeps_work (before after : List Incident) (id : Location)
    (hnode : ((({ network := {} } : Ledger).history before).network.node? id).isSome = true) :
    let closing := (({ network := {} } : Ledger).history before).step (.shutDown id)
    let l := closing.history after
    let answer : TakeResponse := { responder := id, tasks := [], shuttingDown := true }
    (∀ request, request.isTake = true → ∃ reply,
        l.network.respond id request = (l.network, .ok reply) ∧
          reply.topic = TakeResponse.topic ∧ reply.takeResponse? = some answer) ∧
      (∀ arrivals, ∃ sendings, l.network.serve id arrivals = (l.network, sendings) ∧
        sendings.map (fun s => s.reply.takeResponse?) =
          (arrivals.filter Arrival.isTake).map fun _ => some answer) ∧
      (∀ i x, l.network.underway[i]? = some x → x.target = id → x.timeout = none → ∃ y,
        (l.step (.answer i)).network.nodes = l.network.nodes ∧
          (l.step (.answer i)).network.waiting = l.network.waiting ∧
          (l.step (.answer i)).carried = l.carried ++ [y] ∧ y.asker = x.asker ∧ y.target = id ∧
          y.tasks = [] ∧ Node.responseOf y.outcome = .ok answer) ∧
      (∀ requester, l.network.trigger id requester = (l.network, 0)) ∧
      targetsOf l.exchanges id ≤ targetsOf closing.exchanges id ∧
      (∀ i y response, l.carried[i]? = some y → y.target = id →
        Node.responseOf y.outcome = .ok response → response.shuttingDown = true → ∀ later,
          (y.asker, id) ∉ ((l.step (.conclude i)).history later).exchanges) ∧
      ∀ k reply response, (l.network.node? k).isSome = true →
        Node.lateAnswer? reply = some response → response.responder = id →
        response.shuttingDown = true → ∀ later,
          (k, id) ∈ ((l.meet (.late k reply)).history later).exchanges → (k, id) ∈ l.exchanges := by
  intro closing l answer
  obtain ⟨n₀, hn₀⟩ := Option.isSome_iff_exists.1 hnode
  have horderly : l.Orderly := ((orderly_history before).step (.shutDown id)).history after
  have hnames := horderly.tracked.names
  -- the node has shut down, and everything after that abides by it
  have hclosing : closing.network.node? id = some n₀.shutDown := by
    have hsame : n₀.id = n₀.shutDown.id := rfl
    simp only [closing, step, hn₀, Network.node?_setNode, Option.map_some, if_pos hsame]
  obtain ⟨n, asked, hn, habides, hle⟩ := abides_history closing after id _ hclosing
  obtain ⟨hdown, rfl⟩ := habides.closing rfl
  rw [Multiset.coe_nil, add_zero] at hle
  refine ⟨fun request htake => ?_, Network.serve_of_shuttingDown hnames hn hdown, ?_,
    Network.trigger_of_shuttingDown hnames hn hdown, hle, ?_, ?_⟩
  · refine ⟨_, Network.respond_of_shuttingDown hnames hn hdown htake, rfl, ?_⟩
    have hreply := n.takeResponse?_replyTo_closing request Network.timestamp
    rw [(Network.node?_eq_some hn).1] at hreply
    exact hreply
  · intro i x hi htarget htimeout
    exact answer_of_shuttingDown horderly hn hdown hi htarget htimeout
  · rintro i y response hi rfl hresponse hclosed later
    exact not_mem_exchanges_of_closing horderly hi hresponse hclosed later
  · rintro k reply response hk hreply rfl hclosed later hmem
    obtain ⟨m, hm⟩ := Option.isSome_iff_exists.1 hk
    exact mem_exchanges_of_late hm hreply hclosed hmem

/-- A node shuts down with a task on its books and a request to it on the way. It keeps the task,
and the node that asked asks it no more. -/
theorem closing_keeps_work_pair :
    let up : Driver := ({ config := { workers := 1 }, pool := .new { workers := 1 } 1 } :
      Driver).started.1
    let before : List Incident :=
      [.join ⟨0⟩ up [⟨1⟩] {}, .join ⟨1⟩ up [⟨0⟩] {}, .event (.call ⟨1⟩ (.give ⟨0⟩ ⟨5⟩ {})),
        .event (.trigger ⟨0⟩ none), .event (.begin 0)]
    let l := (({ network := {} } : Ledger).history before).step (.shutDown ⟨1⟩)
    ((({ network := {} } : Ledger).history before).network.node? ⟨1⟩).isSome = true ∧
      l.outstanding = 1 ∧ (l.step (.answer 0)).outstanding = 1 ∧
      (l.step (.answer 0)).carried.length = 1 ∧
      ∀ later, (⟨0⟩, ⟨1⟩) ∉
        (((l.step (.answer 0)).step (.conclude 0)).history later).exchanges := by
  intro up before l
  have hnode : ((({ network := {} } : Ledger).history before).network.node? ⟨1⟩).isSome = true := by
    decide +kernel
  have houtstanding : l.outstanding = 1 := by decide +kernel
  have hcarried : l.carried.length = 0 := by decide +kernel
  have hunderway : l.network.underway[0]?.map (fun x => (x.asker, x.target, x.timeout)) =
      some (⟨0⟩, ⟨1⟩, none) := by
    decide +kernel
  obtain ⟨-, -, hanswer, -, -, -, -⟩ := closing_keeps_work before [] ⟨1⟩ hnode
  obtain ⟨-, -, -, -, -, hnever, -⟩ := closing_keeps_work before [.event (.answer 0)] ⟨1⟩ hnode
  have hl : (({ network := {} } : Ledger).history before).step (.shutDown ⟨1⟩) = l := rfl
  rw [hl] at hanswer hnever
  -- from here on it does not matter how the ledger has come about
  clear_value l
  rw [history, List.foldl_nil] at hanswer
  obtain ⟨x, hx, hparts⟩ := Option.map_eq_some_iff.1 hunderway
  obtain ⟨hasker, hrest⟩ := Prod.mk.inj hparts
  obtain ⟨htarget, htimeout⟩ := Prod.mk.inj hrest
  obtain ⟨y, hnodes, -, hone, hfrom, hto, -, hresponse⟩ := hanswer 0 x hx htarget htimeout
  rw [List.length_eq_zero_iff.1 hcarried, List.nil_append] at hone
  refine ⟨hnode, houtstanding, ?_, ?_, ?_⟩
  · rw [outstanding, hnodes]
    exact houtstanding
  · rw [hone]
    rfl
  · intro later
    have hfirst : (l.step (.answer 0)).carried[0]? = some y := by
      rw [hone]
      rfl
    have hnot := hnever 0 y _ hfirst hto hresponse rfl later
    rw [hfrom, hasker] at hnot
    exact hnot

end Ledger

end WorkStealing
