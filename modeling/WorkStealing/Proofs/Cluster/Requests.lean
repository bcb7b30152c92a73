import WorkStealing.Cluster.Node
import WorkStealing.Proofs.Driver.Run

/-!
# Requests to neighbors

An `Asker` is a node together with the exchanges that it has begun: those that have not ended, those
that have, those among them that failed, and the neighbors that are closed for good. Exchanges end in
any order and in any way, and late replies come at any time.

Main statement: `Asker.one_request_each`. A neighbor is marked as requested exactly while one
exchange with it is unfinished, and its counters count its exchanges; a round never asks a closed
neighbor, the requester on whose behalf it runs, or the node itself.
-/

namespace WorkStealing

/-! ### What a search asks -/

namespace Rounds

variable {r r' : Rounds} {requester : Option Location} {asked : List Location} {n n' : Neighbor}
  {l : Location}

/-- A search changes no neighbor and asks nobody, or it asks the neighbors that a round selects. -/
inductive Asks (r : Rounds) (requester : Option Location) : Rounds → List Location → Prop where
  | quiet {r' : Rounds} (same : r'.neighbors = r.neighbors) : Asks r requester r' []
  | round {r' : Rounds} (same : r'.neighbors = (r.round requester).neighbors) :
      Asks r requester r' (r.selected requester)

theorem asks_exhausted (r : Rounds) (requester : Option Location) :
    r.Asks requester (r.exhausted requester).1 (r.exhausted requester).2 := by
  rcases r.exhausted_facts requester with ⟨-, h⟩ | ⟨-, h⟩
  · rw [h]
    exact .quiet rfl
  · rw [h]
    exact .round rfl

theorem perm_inTurn (r : Rounds) : r.inTurn.Perm r.neighbors := by
  rw [inTurn, List.rotateLeft]
  split
  · exact List.Perm.refl _
  · exact List.perm_append_comm.trans (List.Perm.of_eq (List.take_append_drop _ _))

theorem mem_selected :
    l ∈ r.selected requester ↔
      ∃ n ∈ r.neighbors, n.isSelectable requester = true ∧ n.location = l := by
  simp only [selected, List.mem_map, List.mem_filter, r.perm_inTurn.mem_iff, and_assoc]

theorem nodup_selected (h : r.locations.Nodup) : (r.selected requester).Nodup := by
  have hturn : (r.inTurn.map Neighbor.location).Nodup := (r.perm_inTurn.map _).nodup_iff.2 h
  exact hturn.sublist (List.filter_sublist.map _)

/-- Different neighbors have different names, so a name says which neighbor is meant. -/
theorem eq_of_location_eq (h : r.locations.Nodup) (hn : n ∈ r.neighbors) (hn' : n' ∈ r.neighbors)
    (heq : n.location = n'.location) : n = n' :=
  List.inj_on_of_nodup_map h hn hn' heq

theorem location_mem_selected (h : r.locations.Nodup) (hn : n ∈ r.neighbors) :
    n.location ∈ r.selected requester ↔ n.isSelectable requester = true := by
  rw [mem_selected]
  constructor
  · rintro ⟨n', hn', hselect, heq⟩
    rw [← eq_of_location_eq h hn' hn heq]
    exact hselect
  · intro hselect
    exact ⟨n, hn, hselect, rfl⟩

theorem mem_update {f : Neighbor → Neighbor} (h : n' ∈ (r.update l f).neighbors) :
    ∃ n ∈ r.neighbors, n' = if n.location = l then f n else n := by
  obtain ⟨n, hn, rfl⟩ := List.mem_map.1 h
  exact ⟨n, hn, rfl⟩

/-- What is known of a neighbor stays true when any neighbor's record changes in a way that keeps
it. -/
theorem forall_update {P : Neighbor → Prop} {f : Neighbor → Neighbor} {l' : Location}
    (h : ∀ n ∈ r.neighbors, n.location = l → P n) (hlocation : ∀ n, (f n).location = n.location)
    (hkeep : ∀ n, P n → P (f n)) : ∀ n ∈ (r.update l' f).neighbors, n.location = l → P n := by
  intro n' hn' heq
  obtain ⟨n, hn, rfl⟩ := mem_update hn'
  by_cases hname : n.location = l'
  · rw [if_pos hname] at heq ⊢
    exact hkeep n (h n hn ((hlocation n).symm.trans heq))
  · rw [if_neg hname] at heq ⊢
    exact h n hn heq

theorem nodup_eraseDups (ls : List Location) : ls.eraseDups.Nodup := by
  -- induction on the length, as each step first drops the other copies of its head
  induction hlength : ls.length using Nat.strong_induction_on generalizing ls with
  | _ k ih =>
      cases ls with
      | nil => simp
      | cons l rest =>
          rw [List.eraseDups_cons, List.nodup_cons]
          constructor
          · simp [List.mem_eraseDups]
          · apply ih _ _ _ rfl
            subst hlength
            exact Nat.lt_succ_of_le (List.length_filter_le _ _)

theorem locations_new (ls : List Location) (factor : UInt32) :
    (new ls factor).locations = ls.eraseDups := by
  rw [locations, new, List.map_map]
  exact List.map_id _

end Rounds

/-! ### What the calls of a node do to its rounds -/

namespace Node

/-- The neighbors that a node asks while it makes an answer ready. -/
def askedFor : Except ClusterError Handout → List Location
  | .ok handout => handout.asked
  | .error _ => []

/-- A node that searches at most once on behalf of a requester, whatever its driver does. -/
structure Searches (n : Node) (requester : Option Location) (n' : Node) (asked : List Location) :
    Prop where
  terms : n' = { n with driver := n'.driver, rounds := n'.rounds }
  rounds : (n'.rounds, asked) = (n.rounds, []) ∨ (n'.rounds, asked) = n.rounds.exhausted requester

theorem Searches.id {n n' : Node} {requester : Option Location} {asked : List Location}
    (h : Searches n requester n' asked) : n'.id = n.id := by
  rw [h.terms]

theorem Searches.asks {n n' : Node} {requester : Option Location} {asked : List Location}
    (h : Searches n requester n' asked) : n.rounds.Asks requester n'.rounds asked := by
  rcases h.rounds with hquiet | hsearch
  · obtain ⟨hsame, rfl⟩ := Prod.mk.inj hquiet
    exact .quiet (congrArg Rounds.neighbors hsame)
  · have hasks := n.rounds.asks_exhausted requester
    rw [← hsearch] at hasks
    exact hasks

theorem searches_trigger (n : Node) (requester : Option Location) :
    Searches n requester (n.trigger requester).1 (n.trigger requester).2 := by
  rw [trigger]
  split
  · exact ⟨rfl, .inl rfl⟩
  · exact ⟨rfl, .inr rfl⟩

/-- The requester that a request names, if it can be read. -/
def requesterOf (request : Message) : Option Location :=
  request.takeRequest?.map TakeRequest.requester

/-- A node that has nothing for a requester searches on its behalf, and otherwise asks nobody. -/
theorem searches_handOut (n : Node) (request : Message) (time : Timestamp) :
    Searches n (requesterOf request) (n.handOut request time).1
      (askedFor (n.handOut request time).2) := by
  rw [handOut, requesterOf]
  split
  · exact ⟨rfl, .inl rfl⟩
  · cases request.takeRequest? with
    | none => exact ⟨rfl, .inl rfl⟩
    | some take =>
        dsimp only
        split
        · exact ⟨rfl, .inl rfl⟩
        · cases Driver.takeBatch n.context (min take.maxTasks n.chunkSize).toNat n.driver with
          | mk driver r =>
              cases r with
              | error e => exact ⟨rfl, .inl rfl⟩
              | ok tasks =>
                  dsimp only
                  split
                  · obtain ⟨hterms, hrounds⟩ :=
                      searches_trigger { n with driver := driver } (some take.requester)
                    exact ⟨hterms, hrounds⟩
                  · exact ⟨rfl, .inl rfl⟩

/-- A neighbor after an exchange with it has ended. -/
def concluded (outcome : Except ClusterError Message) (m : Neighbor) : Neighbor :=
  match responseOf outcome with
  | .ok response => m.settled.received (Rounds.kept response).length response.shuttingDown
  | .error e => m.failed e.isUnreachable

/-- Whether an exchange brought no answer. -/
def fails (outcome : Except ClusterError Message) : Bool := !(responseOf outcome).isOk

/-- Whether an outcome says that asking again is pointless. -/
def closes (outcome : Except ClusterError Message) : Bool :=
  match responseOf outcome with
  | .ok response => response.shuttingDown
  | .error e => e.isUnreachable

theorem conclude_rounds (n : Node) (l : Location) (outcome : Except ClusterError Message) :
    (n.conclude l outcome).id = n.id ∧
      (n.conclude l outcome).rounds.neighbors =
        (n.rounds.update l (concluded outcome)).neighbors := by
  rw [conclude, Rounds.update]
  unfold concluded
  cases responseOf outcome with
  | ok response => exact ⟨rfl, rfl⟩
  | error e => exact ⟨rfl, rfl⟩

/-- The neighbor that a late reply is about, and the answer. -/
def lateAnswer? (reply : Message) : Option TakeResponse :=
  if reply.topic = TakeResponse.topic then reply.takeResponse? else none

theorem receiveLate_rounds (n : Node) (reply : Message) :
    (n.receiveLate reply).id = n.id ∧
      (n.receiveLate reply).rounds.neighbors =
        match lateAnswer? reply with
        | some r => (n.rounds.update r.responder fun m =>
            m.received (Rounds.kept r).length r.shuttingDown).neighbors
        | none => n.rounds.neighbors := by
  rw [receiveLate, lateAnswer?]
  split
  · cases reply.takeResponse? with
    | none => exact ⟨rfl, rfl⟩
    | some response => exact ⟨rfl, rfl⟩
  · exact ⟨rfl, rfl⟩

/-- A node that joins has never asked anybody; no neighbor stands twice, nor is it one itself. -/
theorem join_facts {id : Location} {driver : Driver} {neighbors : List Location}
    {protocol : ProtocolConfig} {n : Node} (h : join id driver neighbors protocol = .ok n) :
    n.id = id ∧ n.rounds = .new (neighbors.filter fun l => l ≠ id) protocol.throttleFactor := by
  rw [join] at h
  split at h
  · cases h
  · cases h
    exact ⟨rfl, rfl⟩

end Node

/-! ### Askers -/

/-- A node and the exchanges that it has begun, one entry with the neighbor's name for each. -/
structure Asker where
  node : Node
  unfinished : List Location := []
  finished : List Location := []
  /-- The finished exchanges that brought no answer. -/
  failed : List Location := []
  /-- Neighbors that could not be reached or said that they go down. -/
  closed : List Location := []

namespace Asker

/-- What can happen to a node, at any time and in any order. -/
inductive Event where
  | trigger (requester : Option Location)
  /-- The node makes an answer ready. -/
  | handOut (request : Message) (time : Timestamp)
  | settle (tasks : List TaskHandle)
  | restore (tasks : List TaskHandle)
  /-- The unfinished exchange at a position ends. -/
  | conclude (i : Nat) (outcome : Except ClusterError Message)
  /-- A reply comes after its exchange has ended. -/
  | late (reply : Message)
  | shutDown
  /-- Somebody calls the node's driver. -/
  | call (c : Driver.Call)

/-- The party on whose behalf an event searches. -/
def Event.requester? : Event → Option Location
  | .trigger requester => requester
  | .handOut request _ => Node.requesterOf request
  | _ => none

/-- The neighbors that a request is sent to by an event. -/
def requests (a : Asker) : Event → List Location
  | .trigger requester => (a.node.trigger requester).2
  | .handOut request time => Node.askedFor (a.node.handOut request time).2
  | _ => []

/-- The asker after an event. -/
def step (a : Asker) (e : Event) : Asker :=
  match e with
  | .trigger requester =>
    { a with
      node := (a.node.trigger requester).1
      unfinished := a.unfinished ++ a.requests e }
  | .handOut request time =>
    { a with
      node := (a.node.handOut request time).1
      unfinished := a.unfinished ++ a.requests e }
  | .settle tasks => { a with node := a.node.settle tasks }
  | .restore tasks => { a with node := a.node.restore tasks }
  | .conclude i outcome =>
    match a.unfinished[i]? with
    | none => a
    | some l =>
      { node := a.node.conclude l outcome
        unfinished := a.unfinished.eraseIdx i
        finished := l :: a.finished
        failed := if Node.fails outcome then l :: a.failed else a.failed
        closed := if Node.closes outcome then l :: a.closed else a.closed }
  | .late reply =>
    { a with
      node := a.node.receiveLate reply
      closed :=
        match Node.lateAnswer? reply with
        | some r => if r.shuttingDown then r.responder :: a.closed else a.closed
        | none => a.closed }
  | .shutDown => { a with node := a.node.shutDown }
  | .call c => { a with node := { a.node with driver := (a.node.driver.call c).1 } }

def run (a : Asker) (events : List Event) : Asker := events.foldl step a

variable {a : Asker} {n : Neighbor} {l : Location}

/-- A neighbor's record says what has happened to the exchanges with it. -/
structure Reflects (a : Asker) (n : Neighbor) : Prop where
  status : n.status = .requested ↔ n.location ∈ a.unfinished
  sent : n.requestsSent = a.finished.count n.location + a.unfinished.count n.location
  failures : n.failures = a.failed.count n.location
  closed : n.location ∈ a.closed → n.accepting = false

/-- An asker whose records are right, and whose unfinished exchanges are with different neighbors. -/
structure Tallied (a : Asker) : Prop where
  names : a.node.rounds.locations.Nodup
  notOwn : a.node.id ∉ a.node.rounds.locations
  known : ∀ l ∈ a.unfinished, l ∈ a.node.rounds.locations
  once : a.unfinished.Nodup
  records : ∀ n ∈ a.node.rounds.neighbors, a.Reflects n

/-! ### One event -/

/-- As long as a node keeps its name and knows the same neighbors, its list of exchanges and its
records are what matters. -/
theorem Tallied.next (h : a.Tallied) {b : Asker} (hid : b.node.id = a.node.id)
    (hnames : b.node.rounds.locations = a.node.rounds.locations)
    (hknown : ∀ l ∈ b.unfinished, l ∈ a.node.rounds.locations) (honce : b.unfinished.Nodup)
    (hrecords : ∀ n ∈ b.node.rounds.neighbors, b.Reflects n) : b.Tallied := by
  refine ⟨?_, ?_, ?_, honce, hrecords⟩
  · rw [hnames]
    exact h.names
  · rw [hnames, hid]
    exact h.notOwn
  · rw [hnames]
    exact hknown

/-- A node that keeps its name and its neighbors' records may take the place of another. -/
theorem Tallied.of_same (h : a.Tallied) {node : Node} (hid : node.id = a.node.id)
    (hsame : node.rounds.neighbors = a.node.rounds.neighbors) :
    Tallied { a with node := node } := by
  refine h.next hid ?_ h.known h.once ?_
  · exact congrArg (List.map Neighbor.location) hsame
  · intro n hn
    rw [hsame] at hn
    obtain ⟨status, sent, failures, closed⟩ := h.records n hn
    exact ⟨status, sent, failures, closed⟩

/-- A round asks no neighbor that has an unfinished exchange or is closed. -/
theorem Tallied.selected_fresh (h : a.Tallied) {requester : Option Location}
    (hl : l ∈ a.node.rounds.selected requester) :
    l ∈ a.node.rounds.locations ∧ l ∉ a.unfinished ∧ l ∉ a.closed ∧ l ≠ a.node.id ∧
      requester ≠ some l := by
  obtain ⟨n, hn, hselect, rfl⟩ := Rounds.mem_selected.1 hl
  obtain ⟨status, -, -, closed⟩ := h.records n hn
  have hname : n.location ∈ a.node.rounds.locations := List.mem_map_of_mem hn
  simp only [Neighbor.isSelectable, Bool.and_eq_true, decide_eq_true_eq] at hselect
  obtain ⟨⟨hidle, haccepting⟩, hrequester⟩ := hselect
  refine ⟨hname, ?_, ?_, ?_, hrequester⟩
  · intro hopen
    rw [status.2 hopen] at hidle
    cases hidle
  · intro hclosed
    rw [closed hclosed] at haccepting
    cases haccepting
  · rintro heq
    exact h.notOwn (heq ▸ hname)

/-- A round begins one exchange with each neighbor that it selects, and marks it. -/
theorem Tallied.round (h : a.Tallied) {requester : Option Location} {node : Node}
    (hid : node.id = a.node.id)
    (hsame : node.rounds.neighbors = (a.node.rounds.round requester).neighbors) :
    Tallied { a with
      node := node
      unfinished := a.unfinished ++ a.node.rounds.selected requester } := by
  have honce : (a.node.rounds.selected requester).Nodup := Rounds.nodup_selected h.names
  refine h.next hid ?_ ?_ ?_ ?_
  · rw [← a.node.rounds.locations_round requester]
    exact congrArg (List.map Neighbor.location) hsame
  · intro l hl
    rcases List.mem_append.1 hl with hold | hnew
    · exact h.known l hold
    · exact (h.selected_fresh hnew).1
  · rw [List.nodup_append]
    refine ⟨h.once, honce, ?_⟩
    rintro l hold l' hnew rfl
    exact (h.selected_fresh hnew).2.1 hold
  · intro n' hn'
    rw [hsame] at hn'
    obtain ⟨n, hn, rfl⟩ := List.mem_map.1 hn'
    obtain ⟨status, sent, failures, closed⟩ := h.records n hn
    have hmem : n.location ∈ a.node.rounds.selected requester ↔ n.isSelectable requester = true :=
      Rounds.location_mem_selected h.names hn
    by_cases hselect : n.isSelectable requester = true
    · have hnew := hmem.2 hselect
      have hone := List.count_eq_one_of_mem honce hnew
      rw [if_pos hselect]
      refine ⟨?_, ?_, failures, closed⟩
      · exact ⟨fun _ => List.mem_append_right _ hnew, fun _ => rfl⟩
      · show n.requestsSent + 1 = a.finished.count n.location +
          (a.unfinished ++ a.node.rounds.selected requester).count n.location
        rw [List.count_append, hone, sent]
        omega
    · have hnot := mt hmem.1 hselect
      have hzero := List.count_eq_zero.2 hnot
      rw [if_neg hselect]
      refine ⟨?_, ?_, failures, closed⟩
      · rw [status]
        simp [hnot]
      · show n.requestsSent = a.finished.count n.location +
          (a.unfinished ++ a.node.rounds.selected requester).count n.location
        rw [List.count_append, hzero, sent]
        omega

/-- Whatever a search does, every request that it sends is counted. -/
theorem Tallied.asks (h : a.Tallied) {requester : Option Location} {node : Node}
    {asked : List Location} (hid : node.id = a.node.id)
    (hasks : a.node.rounds.Asks requester node.rounds asked) :
    Tallied { a with node := node, unfinished := a.unfinished ++ asked } := by
  generalize hr : node.rounds = r at hasks
  cases hasks with
  | quiet same =>
      rw [List.append_nil]
      exact h.of_same hid (hr ▸ same)
  | round same => exact h.round hid (hr ▸ same)

/-- A row to which one location is added under a condition holds the others as it did. -/
theorem count_addIf (down : Bool) {l x : Location} (h : x ≠ l) (ls : List Location) :
    (if down then l :: ls else ls).count x = ls.count x := by
  cases down with
  | true => exact List.count_cons_of_ne (Ne.symm h)
  | false => rfl

/-- A neighbor stays closed, and is closed when it says so. -/
theorem accepting_of_closed {accepting down : Bool} {ls : List Location}
    (hold : l ∈ ls → accepting = false) (h : l ∈ if down then l :: ls else ls) :
    (accepting && !down) = false := by
  cases down with
  | true => simp
  | false => simp [hold h]

/-- The record of a neighbor that an exchange or a late reply is not about stays right. -/
theorem Reflects.elsewhere (h : a.Reflects n) (hl : n.location ≠ l) {b : Asker} {down fails : Bool}
    (hunfinished : b.unfinished.count n.location = a.unfinished.count n.location)
    (hfinished : b.finished.count n.location = a.finished.count n.location)
    (hfailed : b.failed = if fails then l :: a.failed else a.failed)
    (hclosed : b.closed = if down then l :: a.closed else a.closed) : b.Reflects n := by
  obtain ⟨status, sent, failures, closed⟩ := h
  refine ⟨?_, ?_, ?_, ?_⟩
  · rw [status, ← List.count_pos_iff, ← List.count_pos_iff, hunfinished]
  · rw [sent, hfinished, hunfinished]
  · rw [failures, hfailed, count_addIf fails hl]
  · intro hmem
    apply closed
    rw [← List.count_pos_iff, hclosed, count_addIf down hl] at hmem
    exact List.count_pos_iff.1 hmem

/-- The end of an exchange is entered in the record of its neighbor. -/
theorem Reflects.concluded (h : a.Reflects n) {b : Asker} (outcome : Except ClusterError Message)
    (hunfinished : a.unfinished.count n.location = b.unfinished.count n.location + 1)
    (hgone : n.location ∉ b.unfinished) (hfinished : b.finished = n.location :: a.finished)
    (hfailed : b.failed = if Node.fails outcome then n.location :: a.failed else a.failed)
    (hclosed : b.closed = if Node.closes outcome then n.location :: a.closed else a.closed) :
    b.Reflects (Node.concluded outcome n) := by
  obtain ⟨status, sent, failures, closed⟩ := h
  have hsent : n.requestsSent =
      b.finished.count n.location + b.unfinished.count n.location := by
    rw [sent, hfinished, List.count_cons_self, hunfinished]
    omega
  unfold Node.concluded
  unfold Node.fails at hfailed
  unfold Node.closes at hclosed
  cases hr : Node.responseOf outcome with
  | ok response =>
      rw [hr] at hfailed hclosed
      refine ⟨?_, hsent, ?_, ?_⟩
      · simpa [Neighbor.received, Neighbor.settled] using hgone
      · rw [hfailed]
        exact failures
      · rw [hclosed]
        exact accepting_of_closed closed
  | error e =>
      rw [hr] at hfailed hclosed
      refine ⟨?_, hsent, ?_, ?_⟩
      · simpa [Neighbor.failed] using hgone
      · show n.failures + 1 = b.failed.count n.location
        rw [hfailed, failures]
        exact List.count_cons_self.symm
      · rw [hclosed]
        exact accepting_of_closed closed

/-- An exchange that ends was the only one with its neighbor. -/
theorem Tallied.conclude (h : a.Tallied) {i : Nat} (hi : a.unfinished[i]? = some l)
    (outcome : Except ClusterError Message) : Tallied (a.step (.conclude i outcome)) := by
  have hstep : a.step (.conclude i outcome) =
      { node := a.node.conclude l outcome
        unfinished := a.unfinished.eraseIdx i
        finished := l :: a.finished
        failed := if Node.fails outcome then l :: a.failed else a.failed
        closed := if Node.closes outcome then l :: a.closed else a.closed } := by
    simp only [step, hi]
  obtain ⟨hid, hrounds⟩ := a.node.conclude_rounds l outcome
  have hlocation : ∀ m : Neighbor, (Node.concluded outcome m).location = m.location := by
    intro m
    unfold Node.concluded
    split <;> rfl
  -- the list without the exchange that ends holds nothing else of its neighbor
  obtain ⟨hlt, hget⟩ := List.getElem?_eq_some_iff.1 hi
  have hperm := List.getElem_cons_eraseIdx_perm hlt
  rw [hget] at hperm
  have hcons := hperm.nodup_iff.2 h.once
  rw [List.nodup_cons] at hcons
  obtain ⟨hgone, hrest⟩ := hcons
  rw [hstep]
  refine h.next hid ?_ ?_ hrest ?_
  · rw [← Rounds.locations_update a.node.rounds l _ hlocation]
    exact congrArg (List.map Neighbor.location) hrounds
  · intro x hx
    exact h.known x (List.mem_of_mem_eraseIdx hx)
  · intro n' hn'
    rw [hrounds] at hn'
    obtain ⟨n, hn, rfl⟩ := Rounds.mem_update hn'
    have hcount := hperm.count_eq n.location
    by_cases hl : n.location = l
    · subst hl
      rw [List.count_cons_self] at hcount
      rw [if_pos rfl]
      exact (h.records n hn).concluded outcome hcount.symm hgone rfl rfl rfl
    · rw [List.count_cons_of_ne (Ne.symm hl)] at hcount
      rw [if_neg hl]
      exact (h.records n hn).elsewhere hl hcount (List.count_cons_of_ne (Ne.symm hl)) rfl rfl

/-- A late reply leaves every request as it is; it may close its responder. -/
theorem Tallied.late (h : a.Tallied) (reply : Message) : Tallied (a.step (.late reply)) := by
  obtain ⟨hid, hrounds⟩ := a.node.receiveLate_rounds reply
  cases hlate : Node.lateAnswer? reply with
  | none =>
      have hstep : a.step (.late reply) = { a with node := a.node.receiveLate reply } := by
        simp only [step, hlate]
      rw [hlate] at hrounds
      rw [hstep]
      exact h.of_same hid hrounds
  | some r =>
      have hstep : a.step (.late reply) =
          { a with
            node := a.node.receiveLate reply
            closed := if r.shuttingDown then r.responder :: a.closed else a.closed } := by
        simp only [step, hlate]
      rw [hlate] at hrounds
      rw [hstep]
      refine h.next hid ?_ h.known h.once ?_
      · rw [← Rounds.locations_update a.node.rounds r.responder
          (fun m => m.received (Rounds.kept r).length r.shuttingDown) fun _ => rfl]
        exact congrArg (List.map Neighbor.location) hrounds
      · intro n' hn'
        rw [hrounds] at hn'
        obtain ⟨n, hn, rfl⟩ := Rounds.mem_update hn'
        by_cases hl : n.location = r.responder
        · obtain ⟨status, sent, failures, closed⟩ := h.records n hn
          rw [if_pos hl]
          refine ⟨status, sent, failures, ?_⟩
          rw [← hl]
          exact accepting_of_closed closed
        · rw [if_neg hl]
          -- a late reply is not a failure of any request
          have hfailed : a.failed = if false then r.responder :: a.failed else a.failed := rfl
          exact (h.records n hn).elsewhere hl rfl rfl hfailed rfl

theorem Tallied.step (h : a.Tallied) (e : Event) : Tallied (a.step e) := by
  cases e with
  | trigger requester =>
      have hsearch := a.node.searches_trigger requester
      exact h.asks hsearch.id hsearch.asks
  | handOut request time =>
      have hsearch := a.node.searches_handOut request time
      exact h.asks hsearch.id hsearch.asks
  | settle tasks => exact h.of_same rfl rfl
  | restore tasks => exact h.of_same rfl rfl
  | conclude i outcome =>
      cases hi : a.unfinished[i]? with
      | none =>
          have hstep : a.step (.conclude i outcome) = a := by simp only [Asker.step, hi]
          rw [hstep]
          exact h
      | some l => exact h.conclude hi outcome
  | late reply => exact h.late reply
  | shutDown => exact h.of_same rfl rfl
  | call c => exact h.of_same rfl rfl

theorem Tallied.run (h : a.Tallied) (events : List Event) : Tallied (a.run events) := by
  induction events generalizing a with
  | nil => exact h
  | cons e rest ih => exact ih (h.step e)

/-- A node that has just joined has begun no exchange. -/
theorem tallied_of_join {id : Location} {driver : Driver} {neighbors : List Location}
    {protocol : ProtocolConfig} {node : Node}
    (h : Node.join id driver neighbors protocol = .ok node) :
    Tallied { node := node } := by
  obtain ⟨hid, hrounds⟩ := Node.join_facts h
  have hnames : node.rounds.locations = (neighbors.filter fun l => l ≠ id).eraseDups := by
    rw [hrounds, Rounds.locations_new]
  refine ⟨?_, ?_, ?_, List.nodup_nil, ?_⟩
  · rw [hnames]
    exact Rounds.nodup_eraseDups _
  · rw [hnames, hid, List.mem_eraseDups]
    simp
  · intro l hl
    cases hl
  · intro n hn
    rw [hrounds] at hn
    obtain ⟨l, -, rfl⟩ := List.mem_map.1 hn
    refine ⟨?_, rfl, rfl, ?_⟩
    · simp
    · intro hclosed
      cases hclosed

/-! ### Runs -/

/-- The requests of an event go to neighbors without an unfinished exchange, each once. -/
theorem Tallied.requests_facts (h : a.Tallied) (e : Event) :
    (a.requests e).Nodup ∧ ∀ l ∈ a.requests e, l ∉ a.unfinished ∧ l ∉ a.closed ∧ l ≠ a.node.id ∧
      e.requester? ≠ some l := by
  -- an event that asks somebody searches on behalf of its requester
  have key : ∀ {r : Rounds} {requester : Option Location} {asked : List Location},
      a.node.rounds.Asks requester r asked → asked.Nodup ∧ ∀ l ∈ asked, l ∉ a.unfinished ∧
        l ∉ a.closed ∧ l ≠ a.node.id ∧ requester ≠ some l := by
    intro r requester asked hasks
    cases hasks with
    | quiet same => simp
    | round same =>
        exact ⟨Rounds.nodup_selected h.names, fun l hl => (h.selected_fresh hl).2⟩
  cases e with
  | trigger requester => exact key (a.node.searches_trigger requester).asks
  | handOut request time => exact key (a.node.searches_handOut request time).asks
  | _ => simp [requests]

/-- One outstanding request per neighbor. After every run of a node that has joined with any row of
neighbors, of searches with any requester, answers made ready, settled or taken back, exchanges that
end in any order and in any way, late replies from anybody, calls of the driver and a shutdown: a
neighbor is marked as requested exactly if one exchange with it is unfinished, and there is never a
second one; the requests sent to it are its finished and unfinished exchanges, and its failures those
that failed. Whatever happens next sends at most one request to each neighbor, and none to a
neighbor with an unfinished exchange, to one that could not be reached or said that it goes down, to
the requester on whose behalf the node searches, or to the node itself. -/
theorem one_request_each {id : Location} {driver : Driver} {neighbors : List Location}
    {protocol : ProtocolConfig} {node : Node}
    (h : Node.join id driver neighbors protocol = .ok node) (events : List Event) :
    let a := run { node := node } events
    (∀ n ∈ a.node.rounds.neighbors,
      (n.status = .requested ↔ a.unfinished.count n.location = 1) ∧
        n.requestsSent = a.finished.count n.location + a.unfinished.count n.location ∧
        n.failures = a.failed.count n.location) ∧
      (∀ l, a.unfinished.count l ≤ 1) ∧ (∀ l ∈ a.unfinished, l ∈ a.node.rounds.locations) ∧
      ∀ e, (a.requests e).Nodup ∧ ∀ l ∈ a.requests e, l ∉ a.unfinished ∧ l ∉ a.closed ∧
        l ≠ a.node.id ∧ e.requester? ≠ some l := by
  intro a
  have htallied : a.Tallied := (tallied_of_join h).run events
  refine ⟨?_, ?_, htallied.known, htallied.requests_facts⟩
  · intro n hn
    obtain ⟨status, sent, failures, -⟩ := htallied.records n hn
    refine ⟨?_, sent, failures⟩
    -- an unfinished exchange stands once in the list
    rw [status, htallied.once.count]
    simp
  · exact List.nodup_iff_count_le_one.1 htallied.once

/-- A node that names its only neighbor twice, and itself. Its request times out and is sent again,
and only then the first reply comes: its tasks are taken in, and the retry is still unfinished. -/
theorem one_request_each_retry :
    let driver : Driver := { config := .withWorkers 1, pool := .new (.withWorkers 1) 1 }
    let joined := Node.join ⟨0⟩ driver.started.1 [⟨1⟩, ⟨0⟩, ⟨1⟩] {}
    let node : Node := joined.toOption.getD default
    let reply : Message :=
      { topic := TakeResponse.topic
        sender := ⟨1⟩
        payload := TakeResponse.toBytes { responder := ⟨1⟩, tasks := [⟨4⟩, ⟨5⟩] }
        timestamp := .epoch
        correlationId := .nil }
    let events : List Event :=
      [.trigger none, .conclude 0 (.error (.timeout 2000000000)), .trigger none, .late reply]
    let a := run { node := node } events
    joined = .ok node ∧ a.unfinished = [⟨1⟩] ∧ a.finished = [⟨1⟩] ∧ a.failed = [⟨1⟩] ∧
      a.node.outstanding = 2 ∧
      ∀ n ∈ a.node.rounds.neighbors,
        n.status = .requested ∧ n.requestsSent = 2 ∧ n.failures = 1 := by
  intro driver joined node reply events a
  have hjoined : joined = .ok node := rfl
  have hunfinished : a.unfinished = [⟨1⟩] := by decide +kernel
  have hfinished : a.finished = [⟨1⟩] := by decide +kernel
  have hfailed : a.failed = [⟨1⟩] := by decide +kernel
  have hnames : a.node.rounds.locations = [⟨1⟩] := by decide +kernel
  have houtstanding : a.node.outstanding = 2 := by decide +kernel
  refine ⟨hjoined, hunfinished, hfinished, hfailed, houtstanding, ?_⟩
  intro n hn
  obtain ⟨hrecords, -⟩ := one_request_each hjoined events
  obtain ⟨hstatus, hsent, hfailures⟩ := hrecords n hn
  have hname : n.location ∈ a.node.rounds.locations := List.mem_map_of_mem hn
  rw [hnames, List.mem_singleton] at hname
  change n.status = .requested ↔ a.unfinished.count n.location = 1 at hstatus
  change n.requestsSent = a.finished.count n.location + a.unfinished.count n.location at hsent
  change n.failures = a.failed.count n.location at hfailures
  rw [hname, hunfinished] at hstatus
  rw [hname, hunfinished, hfinished] at hsent
  rw [hname, hfailed] at hfailures
  exact ⟨hstatus.2 rfl, hsent, hfailures⟩

end Asker

end WorkStealing
