import WorkStealing.Proofs.Cluster.Answers
import WorkStealing.Proofs.Cluster.OpenExchanges
import WorkStealing.Proofs.Wire.RoundTrip

/-!
# Exchanges that fail

Why a message that is sent over a network brings no answer can be read off the network before it is
sent (`Network.refusal?`): the target cannot be reached, the message cannot be read, the answer
would come too late, the target does not understand the request, or its driver has no context to
take from. All of this is found out before the target takes anything, so an exchange that fails for
one of these reasons leaves every node as it was.

Once tasks have been taken, only the way back of the reply is left. A reply is read as it was
written unless its payload has more bytes than a length field can say, which takes more than 477
million tasks in a single reply. Then the exchange may fail although the target has let go of the
tasks (`Network.failed_send_takes_tasks`). These are the only two cases
(`Network.failed_send_takes_nothing`).
-/

namespace WorkStealing

namespace Driver

variable {d d' : Driver} {c : ContextId} {most : Nat} {ts : List TaskHandle}

/-- A batch has no more tasks than were asked for, whether or not its context is there. -/
theorem length_le_of_takeBatch (h : takeBatch c most d = (d', .ok ts)) : ts.length ≤ most := by
  cases hctx : d.context? c with
  | some ctx => exact (takeBatch_eq_ok hctx h).1
  | none =>
      cases most with
      | zero =>
          cases h
          exact Nat.le_refl 0
      | succ most =>
          rw [takeBatch, take, party, hctx] at h
          cases h

/-- A batch that needs a context and has none at a worker fails and takes nothing, and any other
succeeds. -/
theorem takeBatch_cases (d : Driver) (c : ContextId) (most : Nat) :
    (∃ e, most ≠ 0 ∧ d.party c = .error e ∧ takeBatch c most d = (d, .error e)) ∨
      ((most = 0 ∨ ∃ party, d.party c = .ok party) ∧
        ∃ d' ts, takeBatch c most d = (d', .ok ts) ∧ ts.length ≤ most) := by
  cases hparty : d.party c with
  | ok party =>
      obtain ⟨ts, hts⟩ := takeBatch_isOk_of_party hparty most
      have hbatch : takeBatch c most d = ((takeBatch c most d).1, .ok ts) := Prod.ext rfl hts
      exact .inr ⟨.inr ⟨party, rfl⟩, _, ts, hbatch, length_le_of_takeBatch hbatch⟩
  | error e =>
      cases most with
      | zero => exact .inr ⟨.inl rfl, d, [], rfl, Nat.le_refl 0⟩
      | succ most =>
          left
          refine ⟨e, Nat.succ_ne_zero most, rfl, ?_⟩
          rw [takeBatch, take, hparty]

end Driver

/-! ### Answering or not -/

namespace Node

variable {n : Node} {request : Message}

/-- Why a node does not answer a request, if it does not. A node that goes down and one that is
asked for nothing answer without their driver. -/
def refusal? (n : Node) (request : Message) : Option ClusterError :=
  if request.topic ≠ TakeRequest.topic then
    some (.transport (.unexpectedTopic request.topic))
  else
    match request.takeRequest? with
    | none => some .deserialization
    | some take =>
      if n.shuttingDown ∨ (min take.maxTasks n.chunkSize).toNat = 0 then none
      else
        match n.driver.party n.context with
        | .error e => some (.scheduler e)
        | .ok _ => none

/-- A node that refuses a request stays as it is, and one without a reason to refuse answers: the
reply says which tasks it carries, no more than the node hands out at once. -/
theorem respond_cases (n : Node) (request : Message) (time : Timestamp) :
    (∃ e, n.refusal? request = some e ∧ n.respond request time = (n, .error e)) ∨
      (n.refusal? request = none ∧ ∃ handout down, (n.respond request time).2 = .ok handout ∧
        handout.reply = n.replyTo request time
          { responder := n.id, tasks := handout.tasks, shuttingDown := down } ∧
        handout.tasks.length ≤ n.chunkSize.toNat) := by
  rw [refusal?, respond, handOut]
  by_cases htopic : request.topic ≠ TakeRequest.topic
  · rw [if_pos htopic, if_pos htopic]
    exact .inl ⟨_, rfl, rfl⟩
  rw [if_neg htopic, if_neg htopic]
  cases request.takeRequest? with
  | none => exact .inl ⟨_, rfl, rfl⟩
  | some take =>
      dsimp only
      by_cases hdown : n.shuttingDown = true
      · rw [if_pos (.inl hdown), if_pos hdown]
        exact .inr ⟨rfl, _, true, rfl, rfl, Nat.zero_le _⟩
      rw [if_neg hdown]
      have hlimit : (min take.maxTasks n.chunkSize).toNat ≤ n.chunkSize.toNat := by
        rw [UInt32.toNat_min]
        exact Nat.min_le_right _ _
      generalize (min take.maxTasks n.chunkSize).toNat = limit at hlimit ⊢
      -- the batch fails for the reason that was given for it, or there is none and it succeeds
      rcases Driver.takeBatch_cases n.driver n.context limit with
        ⟨e, hzero, hparty, hbatch⟩ | ⟨hready, driver, tasks, hbatch, hlength⟩
      · rw [if_neg (not_or.2 ⟨hdown, hzero⟩), hparty, hbatch]
        exact .inl ⟨_, rfl, rfl⟩
      · have hnone : (if n.shuttingDown = true ∨ limit = 0 then none
            else match n.driver.party n.context with
              | .error e => some (ClusterError.scheduler e)
              | .ok _ => none) = none := by
          rcases hready with hzero | ⟨party, hparty⟩
          · rw [if_pos (.inr hzero)]
          · rw [hparty]
            exact ite_self none
        rw [hnone, hbatch]
        exact .inr ⟨rfl, _, false, rfl, rfl, hlength.trans hlimit⟩

end Node

namespace Network

variable {w : Network} {target : Location} {message : Message} {timeoutMs : Nat} {e : ClusterError}

/-! ### Sending -/

/-- Send a message to a target and wait for the answer, with nothing else going on. -/
def send (w : Network) (target : Location) (message : Message) (timeoutMs : Nat) :
    Network × Except ClusterError Message :=
  if w.isReachable target then
    match transmit message with
    | .error e => (w, .error e)
    | .ok request =>
      let delay := w.delay? target
      let timeout := timeout? timeoutMs delay
      w.answer {
        number := w.serial
        asker := message.sender
        target := target
        request := request
        due := w.clock + timeout.getD (delay.getD 0)
        timeout := timeout }
  else (w, .error (.unreachable target))

/-- What an exchange of the network does is such a sending, cut in two: `dispatch` begins it and
`answer` says what its end brings. -/
theorem send_request (w : Network) (asker : Node) (target : Location) :
    w.send target (asker.request timestamp (.ofNat w.serial)) asker.timeoutMs =
      match w.dispatch asker target with
      | .error e => (w, .error e)
      | .ok x => w.answer x := by
  rw [send, dispatch]
  split
  · cases transmit (asker.request timestamp (.ofNat w.serial)) with
    | error e => rfl
    | ok request => rfl
  · rfl

/-- Why a message brings no answer, if that can be said before it is sent. -/
def refusal? (w : Network) (target : Location) (message : Message) (timeoutMs : Nat) :
    Option ClusterError :=
  if w.isReachable target then
    match transmit message with
    | .error e => some e
    | .ok request =>
      match timeout? timeoutMs (w.delay? target) with
      | some ms => some (.timeout (ms * 1000000))
      | none => (w.node? target).bind fun n => n.refusal? request
  else some (.unreachable target)

/-- A target that does answer, with a reply whose payload has more bytes than a length field can
say. The target has to hand out hundreds of millions of tasks at once for that. -/
structure Overlong (w : Network) (target : Location) (request : Message) (n : Node)
    (handout : Handout) : Prop where
  found : w.node? target = some n
  answered : (n.respond request timestamp).2 = .ok handout
  payload : 0x100000000 ≤ handout.reply.payload.length
  tasks : 477218587 ≤ handout.tasks.length
  chunkSize : 477218587 ≤ n.chunkSize.toNat

/-- A task takes nine bytes at most, and the rest of an answer sixteen. -/
theorem Overlong.of_payload {request : Message} {n : Node} {handout : Handout} {down : Bool}
    (hn : w.node? target = some n) (hanswer : (n.respond request timestamp).2 = .ok handout)
    (hreply : handout.reply = n.replyTo request timestamp
      { responder := n.id, tasks := handout.tasks, shuttingDown := down })
    (hchunk : handout.tasks.length ≤ n.chunkSize.toNat)
    (hlong : 0x100000000 ≤ handout.reply.payload.length) :
    w.Overlong target request n handout := by
  have hbytes := TakeResponse.length_toBytes_le
    { responder := n.id, tasks := handout.tasks, shuttingDown := down }
  have htasks : 477218587 ≤ handout.tasks.length := by
    rw [hreply] at hlong
    change 0x100000000 ≤ (TakeResponse.toBytes _).length at hlong
    dsimp only at hbytes
    omega
  exact ⟨hn, hanswer, hlong, htasks, htasks.trans hchunk⟩

/-- A node that is put in its own place is found as before, and so are all others. -/
theorem node?_setNode_self {n : Node} (hn : w.node? target = some n) (id : Location) :
    (w.setNode n).node? id = w.node? id := by
  rw [node?_setNode]
  cases hm : w.node? id with
  | none => rfl
  | some m =>
      rw [Option.map_some]
      split
      next hsame =>
        -- the first node of that name is the one that was found as the target
        rw [(node?_eq_some hm).1, (node?_eq_some hn).1] at hsame
        rw [← hn, ← hm, hsame]
      next => rfl

/-- Of a node that answers, only the node itself is changed. -/
theorem node?_respond {n : Node} (hn : w.node? target = some n) (request : Message)
    (asked : List Location) (id : Location) :
    ((w.setNode (n.respond request timestamp).1).ask target asked).node? id =
      if id = target then some (n.respond request timestamp).1 else w.node? id := by
  obtain ⟨rfl, -⟩ := node?_eq_some hn
  have hid : (n.respond request timestamp).1.id = n.id :=
    (n.searches_respond request timestamp).id
  show (w.setNode _).node? id = _
  rw [node?_setNode, hid]
  by_cases hself : id = n.id
  · rw [hself, if_pos rfl, hn, Option.map_some, if_pos rfl]
  · rw [if_neg hself]
    cases hm : w.node? id with
    | none => rfl
    | some m =>
        have hother : ¬ m.id = n.id := by
          rw [(node?_eq_some hm).1]
          exact hself
        rw [Option.map_some, if_neg hother]

/-- A message that gets to its target in time and is answered there: the reply is sent back. -/
theorem send_answered {request : Message} {n : Node} {handout : Handout}
    (hreach : w.isReachable target = true) (hread : transmit message = .ok request)
    (htime : timeout? timeoutMs (w.delay? target) = none) (hn : w.node? target = some n)
    (hanswer : (n.respond request timestamp).2 = .ok handout) :
    w.send target message timeoutMs =
      ((w.setNode (n.respond request timestamp).1).ask target handout.asked,
        transmit handout.reply) := by
  have hrespond : n.respond request timestamp = ((n.respond request timestamp).1, .ok handout) :=
    Prod.ext rfl hanswer
  rw [send, if_pos hreach, hread]
  simp only [answer, htime, respond, hn]
  rw [hrespond]

/-- A message that gets to its target in time and is refused there: the target is put in its own
place. -/
theorem send_refused {request : Message} {n : Node} (hreach : w.isReachable target = true)
    (hread : transmit message = .ok request)
    (htime : timeout? timeoutMs (w.delay? target) = none) (hn : w.node? target = some n)
    (hrespond : n.respond request timestamp = (n, .error e)) :
    w.send target message timeoutMs = (w.setNode n, .error e) := by
  rw [send, if_pos hreach, hread]
  simp only [answer, htime, respond, hn, hrespond]

/-- A reply comes back as it was written unless it is too long. -/
theorem transmit_reply {request : Message} {n : Node} {handout : Handout} {down : Bool}
    (hn : w.node? target = some n) (hanswer : (n.respond request timestamp).2 = .ok handout)
    (hreply : handout.reply = n.replyTo request timestamp
      { responder := n.id, tasks := handout.tasks, shuttingDown := down })
    (hchunk : handout.tasks.length ≤ n.chunkSize.toNat) :
    transmit handout.reply = .ok handout.reply ∨ w.Overlong target request n handout := by
  by_cases hshort : handout.reply.payload.length < 0x100000000
  · left
    apply transmit_of_short ?_ ?_ hshort
    · rw [hreply]
      rfl
    · rw [hreply]
      rfl
  · right
    exact .of_payload hn hanswer hreply hchunk (Nat.le_of_not_lt hshort)

/-- A message that is refused leaves every node as it is. One that is not refused is answered, which
changes the target only, and its reply comes back as it was written unless it is too long. -/
theorem send_cases (w : Network) (target : Location) (message : Message) (timeoutMs : Nat) :
    (∃ e, w.refusal? target message timeoutMs = some e ∧
        (w.send target message timeoutMs).2 = .error e ∧
        ∀ id, (w.send target message timeoutMs).1.node? id = w.node? id) ∨
      (w.refusal? target message timeoutMs = none ∧ ∃ request n handout,
        transmit message = .ok request ∧ w.node? target = some n ∧
        (n.respond request timestamp).2 = .ok handout ∧
        (∀ id, (w.send target message timeoutMs).1.node? id =
          if id = target then some (n.respond request timestamp).1 else w.node? id) ∧
        (w.send target message timeoutMs).2 = transmit handout.reply ∧
        (transmit handout.reply = .ok handout.reply ∨ w.Overlong target request n handout)) := by
  rw [refusal?]
  by_cases hreach : w.isReachable target = true
  · rw [if_pos hreach]
    cases hread : transmit message with
    | error e =>
        have hsend : w.send target message timeoutMs = (w, .error e) := by
          rw [send, if_pos hreach, hread]
        rw [hsend]
        exact .inl ⟨e, rfl, rfl, fun _ => rfl⟩
    | ok request =>
        dsimp only
        cases htime : timeout? timeoutMs (w.delay? target) with
        | some ms =>
            have hsend : w.send target message timeoutMs =
                (w, .error (.timeout (ms * 1000000))) := by
              rw [send, if_pos hreach, hread]
              simp only [answer, htime]
            rw [hsend]
            exact .inl ⟨_, rfl, rfl, fun _ => rfl⟩
        | none =>
            obtain ⟨n, hn⟩ := Option.isSome_iff_exists.1 (Bool.and_elim_right hreach)
            dsimp only
            rw [hn, Option.bind_some]
            rcases n.respond_cases request timestamp with
              ⟨e, hrefusal, hrespond⟩ | ⟨hrefusal, handout, down, hanswer, hreply, hchunk⟩
            · rw [send_refused hreach hread htime hn hrespond]
              exact .inl ⟨e, hrefusal, rfl, node?_setNode_self hn⟩
            · have hsend := send_answered hreach hread htime hn hanswer
              refine .inr ⟨hrefusal, request, n, handout, rfl, rfl, hanswer, ?_, ?_,
                transmit_reply hn hanswer hreply hchunk⟩
              · intro id
                rw [hsend]
                exact node?_respond hn request handout.asked id
              · rw [hsend]
  · rw [if_neg hreach, send, if_neg hreach]
    exact .inl ⟨_, rfl, rfl, fun _ => rfl⟩

/-- What does not come through the wire cannot be read there. -/
theorem transmit_eq_error {m : Message} (h : transmit m = .error e) : e = .deserialization := by
  unfold transmit at h
  split at h
  next => cases h
  next =>
    cases h
    rfl

/-- What a failed exchange takes. On every network, for every target, message and timeout: if
sending the message fails, then for one of the reasons that can be told beforehand, and every node
is as it was, with its driver and its rounds; or the target has answered, with a reply of `2 ^ 32`
bytes and more that cannot be said in one message. Then the target is as it is after answering, and
every other node as it was. This takes 477 million tasks and a target that hands out so many at
once. -/
theorem failed_send_takes_nothing (h : (w.send target message timeoutMs).2 = .error e) :
    (w.refusal? target message timeoutMs = some e ∧
        ∀ id, (w.send target message timeoutMs).1.node? id = w.node? id) ∨
      (w.refusal? target message timeoutMs = none ∧ e = .deserialization ∧
        ∃ request n handout, transmit message = .ok request ∧
          w.Overlong target request n handout ∧
          ∀ id, (w.send target message timeoutMs).1.node? id =
            if id = target then some (n.respond request timestamp).1 else w.node? id) := by
  rcases w.send_cases target message timeoutMs with
    ⟨e', hrefusal, hfails, hsame⟩ |
      ⟨hnone, request, n, handout, hread, -, -, hnodes, hreply, hok | hlong⟩
  · rw [hfails] at h
    cases h
    exact .inl ⟨hrefusal, hsame⟩
  · rw [hreply, hok] at h
    cases h
  · rw [hreply] at h
    exact .inr ⟨hnone, transmit_eq_error h, request, n, handout, hread, hlong, hnodes⟩

/-- The memory of a node's driver goes down while a task is queued. A request finds out that the
service context is gone, and the task stays where it is. -/
theorem failed_send_takes_nothing_tornDown :
    let c : SchedulerConfig := { workers := 2 }
    let up := ({ config := c, pool := .new c 1 } : Driver).started.1
    let node : Node := (Node.join ⟨1⟩ (up.give ⟨0⟩ ⟨5⟩ Hint.none).1 [] {}).toOption.getD default
    let w : Network :=
      { nodes := [{ node with driver := (Driver.switchRunlevel .memoryOk 0 .down node.driver).1 }] }
    let message : Message :=
      { topic := TakeRequest.topic
        sender := ⟨9⟩
        payload := TakeRequest.toBytes { requester := ⟨9⟩, maxTasks := 4 }
        timestamp := .epoch
        correlationId := .nil }
    (w.node? ⟨1⟩).map (fun n => n.driver.pool.tasks) = some [⟨5⟩] ∧
      (w.send ⟨1⟩ message 1000).2 = .error (.scheduler (.unknownContext ⟨2⟩)) ∧
      ∀ id, (w.send ⟨1⟩ message 1000).1.node? id = w.node? id := by
  intro c up node w message
  have hqueued : (w.node? ⟨1⟩).map (fun n => n.driver.pool.tasks) = some [⟨5⟩] := by
    decide +kernel
  have hfails : (w.send ⟨1⟩ message 1000).2 = .error (.scheduler (.unknownContext ⟨2⟩)) := by
    decide +kernel
  have hrefusal : w.refusal? ⟨1⟩ message 1000 = some (.scheduler (.unknownContext ⟨2⟩)) := by
    decide +kernel
  refine ⟨hqueued, hfails, ?_⟩
  rcases failed_send_takes_nothing hfails with ⟨-, hsame⟩ | ⟨hnone, -⟩
  · exact hsame
  · rw [hrefusal] at hnone
    cases hnone

end Network

/-! ### A reply that cannot be said -/

namespace Node

/-- A node that has just joined with one worker. The worker's queues have room for `2 ^ 29` tasks,
and the node hands out as many as anybody asks for. -/
def roomy : Node :=
  let c : SchedulerConfig := { workers := 1, dequeCapacity := 0x20000000 }
  (join ⟨7⟩ ({ config := c, pool := .new c 1 } : Driver).started.1 []
    { chunkSize := 0xffffffff }).toOption.getD default

/-- The same node after it has taken in so many tasks with the largest of all handles. -/
def laden (count : Nat) : Node := roomy.adopt (TakeResponse.wide ⟨7⟩ count).tasks

theorem isFresh_roomy : roomy.IsFresh := by
  let c : SchedulerConfig := { workers := 1, dequeCapacity := 0x20000000 }
  let protocol : ProtocolConfig := { chunkSize := 0xffffffff }
  have hjoin : (join ⟨7⟩ ({ config := c, pool := .new c 1 } : Driver).started.1 [] protocol).isOk =
      true := by
    decide +kernel
  exact ⟨c, 1, _, none, none, ⟨7⟩, [], protocol, rfl, join_getD hjoin⟩

/-- Every task finds room. -/
theorem laden_facts {count : Nat} (hcount : count ≤ 0x20000000) :
    (laden count).Equipped 0xffffffff 0 ∧ (laden count).outstanding = count ∧
      ((laden count).driver.pool.tasks : Multiset TaskHandle) =
        (TakeResponse.wide ⟨7⟩ count).tasks := by
  obtain ⟨hsound, hnone⟩ := isFresh_roomy.sound
  obtain ⟨hroom, hempty, hrepels, hchunk⟩ : roomy.room = 0x20000000 ∧
      roomy.driver.pool.tasks = [] ∧ roomy.driver.pool.maxRepels = 0 ∧
      roomy.chunkSize = 0xffffffff := by
    decide +kernel
  have hlength := TakeResponse.length_tasks_wide ⟨7⟩ count
  have hnamed : ∀ t ∈ (TakeResponse.wide ⟨7⟩ count).tasks, t.isNone = false := by
    intro t ht
    rw [List.eq_of_mem_replicate ht]
    rfl
  have hfits : (TakeResponse.wide ⟨7⟩ count).tasks.take (roomy.driver.pool.roomAt (.ofIndex 0)) =
      (TakeResponse.wide ⟨7⟩ count).tasks :=
    List.take_of_length_le (hlength.trans_le (hcount.trans_eq hroom.symm))
  obtain ⟨hserves, hbooks⟩ := Driver.serves_giveAll hsound hnamed
  have hheld := Driver.held_giveAll hsound hnamed
  have hreaches : roomy.driver.Reaches (laden count).driver :=
    .foldl (fun d t => Driver.Reaches.of_call d (.give roomy.context t Hint.none) rfl) _ _
  rw [hfits] at hbooks hheld
  refine ⟨⟨hserves.hosts, hchunk, (hreaches.sound hsound.sound).2.trans hrepels⟩, ?_, ?_⟩
  · have hbalance := hbooks.balance
    rw [hnone, zero_add, add_zero] at hbalance
    exact hbooks.sound.outstanding.trans ((congrArg Multiset.card hbalance).trans hlength)
  · rw [Pool.held, Pool.held, hempty, Multiset.coe_nil, zero_add] at hheld
    exact hheld

/-- A request for as many tasks as can be asked for. -/
def wholesale : Message where
  topic := TakeRequest.topic
  sender := ⟨9⟩
  payload := TakeRequest.toBytes { requester := ⟨9⟩, maxTasks := 0xffffffff }
  timestamp := Network.timestamp
  correlationId := Uuid.nil

/-- All the tasks of the node leave in one reply. -/
theorem respond_laden {count : Nat} (hcount : count ≤ 0x20000000) (time : Timestamp) :
    ∃ n' handout, (laden count).respond wholesale time = (n', .ok handout) ∧
      n'.outstanding = 0 ∧
      handout.reply = (laden count).replyTo wholesale time (.wide ⟨7⟩ count) := by
  obtain ⟨hequipped, houtstanding, hqueued⟩ := laden_facts hcount
  have hread : wholesale.takeRequest? = some { requester := ⟨9⟩, maxTasks := 0xffffffff } :=
    Message.takeRequest?_of_payload rfl
  obtain ⟨n', handout, hrespond, hhanded, -, hexact⟩ :=
    respond_handed hequipped.hosts rfl hread rfl time
  obtain ⟨d, tasks, asked, rounds, -, hbatch⟩ :=
    respond_eq_batch hequipped.hosts rfl hread rfl time
  rw [hbatch] at hrespond
  cases hrespond
  -- the batch is as large as the queues, and the queues have nothing but the one handle
  have hall : tasks = (TakeResponse.wide ⟨7⟩ count).tasks := by
    refine List.eq_replicate_iff.2 ⟨?_, ?_⟩
    · have hqueue : (laden count).driver.pool.tasks.length = count :=
        (congrArg Multiset.card hqueued).trans (TakeResponse.length_tasks_wide ⟨7⟩ count)
      have hlength := hexact hequipped.maxRepels
      rw [hequipped.chunkSize, hqueue] at hlength
      change tasks.length = min 0xffffffff count at hlength
      omega
    · intro t ht
      have hmem : t ∈ ((laden count).driver.pool.tasks : Multiset TaskHandle) := by
        rw [← hhanded.queued]
        exact Multiset.mem_add.2 (.inr ht)
      rw [hqueued] at hmem
      exact List.eq_of_mem_replicate hmem
  have hsize : tasks.length = count := by
    rw [hall, TakeResponse.length_tasks_wide]
  have hleft := hhanded.outstanding
  change _ + tasks.length = _ at hleft
  refine ⟨_, _, hbatch, by omega, ?_⟩
  rw [hall]
  rfl

end Node

namespace Network

/-- If only 13 bytes of the reply are read as its payload, the next of its bytes stands where the
timestamp is looked for, and it is none. -/
theorem transmit_wide {count : Nat} (hlength : 9 * count + 8 = 0x100000000 + 13) (n : Node) :
    transmit (n.replyTo Node.wholesale timestamp (.wide ⟨7⟩ count)) = .error .deserialization := by
  let reply := n.replyTo Node.wholesale timestamp (.wide ⟨7⟩ count)
  have hid : (⟨7⟩ : Location).id.toNat < 0x80 := by decide
  have hcount : 0x10000 ≤ count := by omega
  have htopic : TakeResponse.topic.toUTF8.toList.length < 0x100000000 :=
    Nat.lt_of_le_of_lt (Text.length_toUTF8_le _) (by decide)
  have hpayload : reply.payload.length = 0x100000000 + 13 :=
    (TakeResponse.length_toBytes_wide hid hcount).trans hlength
  have hlong : 0x100000000 ≤ reply.payload.length := by
    rw [hpayload]
    exact Nat.le_add_right _ _
  have hcut : reply.cut = 13 := by
    rw [Message.cut, hpayload, Nat.add_mod_left]
  obtain ⟨row, hrow⟩ : ∃ row, reply.payload.drop 13 = 0xff :: row :=
    TakeResponse.drop_toBytes_wide hid hcount
  -- the byte 0xff is the number -1
  have hspill : ∃ rest, Wire.MessagePack.decodeWithin 1022 reply.spill = some (.int (-1), rest) := by
    rw [Message.spill, hcut, hrow, List.cons_append]
    exact ⟨_, Wire.MessagePack.decodeWithin_leaf rfl⟩
  obtain ⟨rest, hrest⟩ := hspill
  exact transmit_of_none (Message.ofBytes?_of_spill htopic hlong hrest rfl)

/-- A node with just so many tasks that they fail in one reply, alone in its network. -/
theorem send_laden {count : Nat} (hcount : count ≤ 0x20000000)
    (hlength : 9 * count + 8 = 0x100000000 + 13) :
    let w : Network := { nodes := [Node.laden count] }
    (w.node? ⟨7⟩).map Node.outstanding = some count ∧
      (w.send ⟨7⟩ Node.wholesale 1000).2 = .error .deserialization ∧
      ((w.send ⟨7⟩ Node.wholesale 1000).1.node? ⟨7⟩).map Node.outstanding = some 0 := by
  intro w
  have hid : Node.roomy.id = ⟨7⟩ := by decide +kernel
  have hn : w.node? ⟨7⟩ = some (Node.laden count) :=
    List.find?_cons_of_pos (decide_eq_true hid)
  have hreach : w.isReachable ⟨7⟩ = true := by
    rw [isReachable, hn]
    rfl
  have htopic : TakeRequest.topic.toUTF8.toList.length < 0x100000000 :=
    Nat.lt_of_le_of_lt (Text.length_toUTF8_le _) (by decide)
  have hsendable : Node.wholesale.Sendable := ⟨htopic, TakeRequest.length_toBytes_lt _, by decide⟩
  have hread : transmit Node.wholesale = .ok Node.wholesale := by
    rw [transmit_of_some hsendable.ofBytes?_toBytes, Message.written_eq_self_iff.2 (by decide)]
  have htime : timeout? 1000 (w.delay? ⟨7⟩) = none := rfl
  obtain ⟨n', handout, hrespond, hnothing, hreply⟩ := Node.respond_laden hcount timestamp
  have hanswer := congrArg Prod.snd hrespond
  have hsend := send_answered hreach hread htime hn hanswer
  refine ⟨?_, ?_, ?_⟩
  · rw [hn, Option.map_some, (Node.laden_facts hcount).2.1]
  · rw [hsend]
    dsimp only
    rw [hreply, transmit_wide hlength]
  · rw [hsend, node?_respond hn, if_pos rfl, hrespond, Option.map_some, hnothing]

/-- A network of one node whose tasks are too many for one reply. A request for all of them fails,
and the node has let go of every one. -/
theorem failed_send_takes_tasks :
    let w : Network := { nodes := [Node.laden 477218589] }
    (w.node? ⟨7⟩).map Node.outstanding = some 477218589 ∧
      (w.send ⟨7⟩ Node.wholesale 1000).2 = .error .deserialization ∧
      ((w.send ⟨7⟩ Node.wholesale 1000).1.node? ⟨7⟩).map Node.outstanding = some 0 :=
  send_laden (by decide) (by decide)

end Network

end WorkStealing
