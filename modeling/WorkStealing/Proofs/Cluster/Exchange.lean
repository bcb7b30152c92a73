import WorkStealing.Cluster.Network
import WorkStealing.Proofs.Driver.Service
import WorkStealing.Proofs.Wire.Message

/-!
# The two ends of an exchange

A node that answers lets go of exactly the tasks in its reply (`Node.respond_answered`). A node that
an answer comes to takes in the first of its tasks, as many as its first worker has room for, and
none of them if the reply is too long to be read (`Node.conclude_facts`,
`Network.arrivals_transmit`).
-/

namespace WorkStealing

namespace TakeResponse

/-- Whether an answer can be read at the other end: the length of a payload is written in 32
bits. -/
def isLegible (r : TakeResponse) : Bool := r.toBytes.length < 0x100000000

theorem isLegible_flag (r : TakeResponse) (down : Bool) :
    ({ r with shuttingDown := down } : TakeResponse).isLegible = r.isLegible := by
  -- either flag takes up one byte
  have hlength :
      ({ r with shuttingDown := down } : TakeResponse).toBytes.length = r.toBytes.length := by
    simp [toBytes, parts, Wire.MessagePack.encode, Wire.MessagePack.encodeItems]
  rw [isLegible, hlength, isLegible]

end TakeResponse

namespace Node

variable {n n' : Node}

/-- A node whose driver is up and serves the node's context. -/
def Sound (n : Node) : Prop := n.driver.Serves n.context (.ofIndex 0)

/-- How many tasks that come from elsewhere the node can take in. -/
def room (n : Node) : Nat := n.driver.pool.roomAt (.ofIndex 0)

/-! ### Joining -/

/-- A node that joins with a driver that has just come up, whatever listens to that. -/
def IsFresh (n : Node) : Prop :=
  ∃ (c : SchedulerConfig) (auto : Nat) (d : Driver) (resolver : Option Resolver)
    (doorkeeper : Option Doorkeeper) (id : Location) (neighbors : List Location)
    (protocol : ProtocolConfig),
    Driver.new c auto = .ok d ∧
      join id ({ d with resolver := resolver, doorkeeper := doorkeeper } : Driver).started.1
        neighbors protocol = .ok n

theorem length_bindFrom (workers i : Nat) (contexts : List Context) :
    (Driver.bindFrom workers i contexts).length = contexts.length := by
  induction contexts generalizing i with
  | nil => rfl
  | cons x rest ih => rw [Driver.bindFrom, List.length_cons, List.length_cons, ih]

/-- A driver that has just come up has one context for each worker. -/
theorem length_contexts_started {c : SchedulerConfig} {auto : Nat} {d : Driver}
    (h : Driver.new c auto = .ok d) (resolver : Option Resolver) (doorkeeper : Option Doorkeeper) :
    ({ d with resolver := resolver, doorkeeper := doorkeeper } : Driver).started.1.contexts.length <
      UInt32.size := by
  rw [Driver.new] at h
  split at h
  next hvalid =>
    cases h
    have hworkers := ((c.validate_eq_ok_iff auto).1 hvalid).2.2.2
    rw [Driver.started_eq]
    show (Driver.bindFrom _ 0 ((List.range (Pool.new c auto).workerCount).map _)).length <
      UInt32.size
    rw [length_bindFrom, List.length_map, List.length_range, Pool.workerCount_new]
    exact hworkers
  next => cases h

/-- A new context is found by its name, at the worker that it was opened for. -/
theorem openContext_facts {d d' : Driver} {l : Location} {c : ContextId}
    (hlength : d.contexts.length < UInt32.size) (h : d.openContext l = (d', .ok c)) :
    l.index < d.workerCount ∧ (∃ ctx, d'.context? c = some ctx ∧ ctx.location = some l) ∧
      d'.accepting = d.accepting := by
  rw [Driver.openContext] at h
  split at h
  next => cases h
  next hin =>
    split at h
    next => cases h
    next =>
      cases h
      let ctx : Context :=
        { id := .ofIndex d.contexts.length
          location := some l
          cursor := .forWorker l.index d.workerCount }
      refine ⟨Nat.lt_of_not_le hin, ⟨ctx, ?_, rfl⟩, rfl⟩
      rw [Driver.context?, ContextId.index_ofIndex hlength]
      exact List.getElem?_concat_length

/-- A fresh node is up and holds nothing. -/
theorem IsFresh.sound (h : n.IsFresh) : n.Sound ∧ n.driver.held = 0 := by
  obtain ⟨c, auto, d, resolver, doorkeeper, id, neighbors, protocol, hnew, hjoin⟩ := h
  have hbooks := Driver.books_started hnew resolver doorkeeper
  have hlength := length_contexts_started hnew resolver doorkeeper
  have haccepting : ({ d with resolver := resolver, doorkeeper := doorkeeper } :
    Driver).started.1.accepting = true := rfl
  -- of the driver that has come up, only the books and the number of contexts matter
  generalize ({ d with resolver := resolver, doorkeeper := doorkeeper } : Driver).started.1 = up
    at hjoin hbooks hlength haccepting
  -- the node opens its own context, which enters nothing in the books
  have hopen := hbooks.trans (Driver.books_openContext hbooks.sound (.ofIndex 0))
  rw [join] at hjoin
  split at hjoin
  next => cases hjoin
  next driver' context heq =>
    cases hjoin
    rw [heq] at hopen
    obtain ⟨hin, hlocated, hup⟩ := openContext_facts hlength heq
    refine ⟨⟨hopen.sound, hup.trans haccepting, hlocated, ?_⟩, ?_⟩
    · rw [hopen.workers, ← hbooks.workers]
      exact hin
    · have hbalance := hopen.balance
      rw [(Driver.sound_of_new hnew).2.1, add_zero, add_zero, add_zero] at hbalance
      exact hbalance

/-! ### Answering -/

/-- The tasks that leave with an answer. -/
def handedOut : Except ClusterError Handout → List TaskHandle
  | .ok handout => handout.tasks
  | .error _ => []

/-- What a node has done when it has answered a request. -/
structure Answered (n : Node) (request : Message) (time : Timestamp) (n' : Node)
    (r : Except ClusterError Handout) : Prop where
  sound : n'.Sound
  id : n'.id = n.id
  books : Driver.Books n.driver n'.driver 0 (handedOut r)
  reply : ∀ handout, r = .ok handout → ∃ down, handout.reply = n.replyTo request time
    { responder := n.id, tasks := handout.tasks, shuttingDown := down }
  short : (handedOut r).length < 0x100000000
  named : ∀ t ∈ handedOut r, t.isNone = false

theorem trigger_facts (n : Node) (requester : Option Location) :
    (n.trigger requester).1.id = n.id ∧ (n.trigger requester).1.driver = n.driver ∧
      (n.trigger requester).1.context = n.context := by
  rw [trigger]
  split <;> exact ⟨rfl, rfl, rfl⟩

/-- A node that hands nothing out and leaves its driver alone has answered. -/
theorem Answered.of_driver_eq (h : n.Sound) {request : Message} {time : Timestamp}
    {r : Except ClusterError Handout} (hr : handedOut r = [])
    (hreply : ∀ handout, r = .ok handout → ∃ down, handout.reply = n.replyTo request time
      { responder := n.id, tasks := handout.tasks, shuttingDown := down }) :
    Answered n request time n r where
  sound := h
  id := rfl
  books := by
    rw [hr]
    exact .refl h.sound
  reply := hreply
  short := by
    rw [hr]
    decide
  named := by
    rw [hr]
    exact fun t ht => absurd ht List.not_mem_nil

/-- A node answers out of hand and stays as it is, or it takes a batch: the answer carries it, or
the batch fails and so does the answer. -/
theorem handOut_outcomes (n : Node) (request : Message) (time : Timestamp) :
    (∃ r, n.handOut request time = (n, r) ∧ handedOut r = [] ∧
        ∀ handout, r = .ok handout → ∃ down, handout.reply = n.replyTo request time
          { responder := n.id, tasks := handout.tasks, shuttingDown := down }) ∨
      ∃ (limit : UInt32) (n' : Node), n'.id = n.id ∧ n'.context = n.context ∧
        ((∃ e, Driver.takeBatch n.context limit.toNat n.driver = (n'.driver, .error e) ∧
            n.handOut request time = (n', .error (.scheduler e))) ∨
          ∃ tasks asked, Driver.takeBatch n.context limit.toNat n.driver = (n'.driver, .ok tasks) ∧
            n.handOut request time = (n', .ok {
              reply := n.replyTo request time { responder := n.id, tasks := tasks }
              tasks := tasks
              asked := asked })) := by
  rw [handOut]
  -- three refusals out of hand, each with an empty answer or none at all
  by_cases htopic : request.topic ≠ TakeRequest.topic
  · rw [if_pos htopic]
    exact .inl ⟨_, rfl, rfl, fun handout hr => by cases hr⟩
  rw [if_neg htopic]
  cases request.takeRequest? with
  | none => exact .inl ⟨_, rfl, rfl, fun handout hr => by cases hr⟩
  | some take =>
      dsimp only
      by_cases hdown : n.shuttingDown = true
      · rw [if_pos hdown]
        refine .inl ⟨_, rfl, rfl, fun handout hr => ?_⟩
        cases hr
        exact ⟨true, rfl⟩
      rw [if_neg hdown]
      refine .inr ⟨min take.maxTasks n.chunkSize, ?_⟩
      cases hbatch : Driver.takeBatch n.context (min take.maxTasks n.chunkSize).toNat n.driver with
      | mk driver r =>
          cases r with
          | error e => exact ⟨{ n with driver := driver }, rfl, rfl, .inl ⟨e, rfl, rfl⟩⟩
          | ok tasks =>
              dsimp only
              split
              next =>
                obtain ⟨hid, hdriver, hcontext⟩ :=
                  trigger_facts { n with driver := driver } (some take.requester)
                exact ⟨_, hid, hcontext, .inr ⟨tasks, _, by rw [hdriver], rfl⟩⟩
              next => exact ⟨{ n with driver := driver }, rfl, rfl, .inr ⟨tasks, [], rfl, rfl⟩⟩

/-- A node that is up answers out of hand or with a batch, which never fails. -/
theorem handOut_cases (h : n.Sound) (request : Message) (time : Timestamp) :
    (∃ r, n.handOut request time = (n, r) ∧ handedOut r = [] ∧
        ∀ handout, r = .ok handout → ∃ down, handout.reply = n.replyTo request time
          { responder := n.id, tasks := handout.tasks, shuttingDown := down }) ∨
      ∃ (limit : UInt32) (tasks : List TaskHandle) (n' : Node) (asked : List Location),
        Driver.takeBatch n.context limit.toNat n.driver = (n'.driver, .ok tasks) ∧ n'.id = n.id ∧
          n'.context = n.context ∧
          n.handOut request time = (n', .ok {
            reply := n.replyTo request time { responder := n.id, tasks := tasks }
            tasks := tasks
            asked := asked }) := by
  rcases handOut_outcomes n request time with
    hstays | ⟨limit, n', hid, hcontext, ⟨e, hbatch, -⟩ | ⟨tasks, asked, hbatch, hout⟩⟩
  · exact .inl hstays
  · obtain ⟨ts, hts⟩ := h.takeBatch_isOk limit.toNat
    rw [hbatch] at hts
    cases hts
  · exact .inr ⟨limit, tasks, n', asked, hbatch, hid, hcontext, hout⟩

/-- An answer lets go of the tasks in its reply and of no others. -/
theorem respond_answered (h : n.Sound) (request : Message) (time : Timestamp) :
    Answered n request time (n.respond request time).1 (n.respond request time).2 := by
  rw [respond]
  rcases handOut_cases h request time with
    ⟨r, hout, hnone, hreply⟩ | ⟨limit, tasks, n', asked, hbatch, hid, hcontext, hout⟩
  · rw [hout]
    cases r with
    | error e => exact .of_driver_eq h rfl hreply
    | ok handout =>
        -- nothing was taken, so there is nothing to settle
        have hsettle : n.settle handout.tasks = n := by
          rw [show handout.tasks = [] from hnone]
          rfl
        dsimp only
        rw [hsettle]
        exact .of_driver_eq h hnone hreply
  · rw [hout]
    obtain ⟨ctx, hctx, -⟩ := h.located
    have htaken := Driver.books_takeBatch h.sound n.context limit.toNat
    have hserves := Driver.Serves.of_books h htaken (Driver.accepting_takeBatch _ _ _)
    obtain ⟨ts, ctx', hts, hlength, hctx', hholding⟩ := Driver.takeBatch_holding h hctx limit.toNat
    rw [hbatch] at htaken hserves hts hctx'
    cases hts
    -- the batch is in flight at the service context, so that all of it can be reported done
    have hle : (tasks : Multiset TaskHandle) ≤ ctx'.holding := by
      rw [hholding]
      exact Multiset.le_add_right _ _
    obtain ⟨hsettled, hdone⟩ := Driver.serves_doneAll hserves hctx' hle
    have hbooks := htaken.trans hdone
    rw [zero_add, zero_add] at hbooks
    refine ⟨?_, hid, ?_, ?_, ?_, ?_⟩
    · show ((n'.settle tasks).driver).Serves n'.context _
      rw [settle, hcontext]
      exact hsettled
    · show Driver.Books n.driver (n'.settle tasks).driver 0 tasks
      rw [settle, hcontext]
      exact hbooks
    · intro handout hr
      cases hr
      exact ⟨false, rfl⟩
    · exact Nat.lt_of_le_of_lt hlength limit.toNat_lt
    · intro t ht
      -- what left was held before, and everything held is named
      apply h.sound.named t
      have hbalance := hbooks.balance
      rw [add_zero] at hbalance
      rw [← hbalance]
      exact Multiset.mem_add.2 (.inr ht)

/-! ### Concluding -/

/-- The tasks that an outcome brings. -/
def arrivals (outcome : Except ClusterError Message) : List TaskHandle :=
  match responseOf outcome with
  | .ok response => Rounds.kept response
  | .error _ => []

theorem named_arrivals (outcome : Except ClusterError Message) :
    ∀ t ∈ arrivals outcome, t.isNone = false := by
  intro t ht
  rw [arrivals] at ht
  split at ht
  next response =>
    have hkept := (List.mem_filter.1 ht).2
    rwa [Bool.not_eq_true'] at hkept
  next => cases ht

theorem conclude_eq (n : Node) (neighbor : Location) (outcome : Except ClusterError Message) :
    (n.conclude neighbor outcome).id = n.id ∧
      (n.conclude neighbor outcome).context = n.context ∧
      (n.conclude neighbor outcome).driver = (n.adopt (arrivals outcome)).driver := by
  rw [conclude, arrivals]
  cases responseOf outcome with
  | ok response => exact ⟨rfl, rfl, rfl⟩
  | error e => exact ⟨rfl, rfl, rfl⟩

/-- A node takes in the first tasks that an outcome brings, as many as it has room for. -/
theorem conclude_facts (h : n.Sound) (neighbor : Location) (outcome : Except ClusterError Message) :
    (n.conclude neighbor outcome).Sound ∧
      Driver.Books n.driver (n.conclude neighbor outcome).driver
        ((arrivals outcome).take n.room) 0 := by
  obtain ⟨-, hcontext, hdriver⟩ := conclude_eq n neighbor outcome
  have hadopt := Driver.serves_giveAll h (named_arrivals outcome)
  rw [Sound, hcontext, hdriver]
  exact hadopt

end Node

namespace Network

open Node (arrivals)

theorem transmit_of_some {m m' : Message} (h : Message.ofBytes? m.toBytes = some m') :
    transmit m = .ok m' := by
  unfold transmit
  split
  next x hx =>
    cases h.symm.trans hx
    rfl
  next hx => cases h.symm.trans hx

theorem transmit_of_none {m : Message} (h : Message.ofBytes? m.toBytes = none) :
    transmit m = .error .deserialization := by
  unfold transmit
  split
  next x hx => cases h.symm.trans hx
  next => rfl

/-- A reply whose payload is not longer than a length field can say is read as it was written. -/
theorem transmit_of_short {reply : Message} (htopic : reply.topic = TakeResponse.topic)
    (htime : reply.timestamp = timestamp) (hshort : reply.payload.length < 0x100000000) :
    transmit reply = .ok reply := by
  have htopic' : reply.topic.toUTF8.toList.length < 0x100000000 := by
    rw [htopic, Wire.toList_eq]
    decide
  have htext : reply.timestamp.text.toUTF8.toList.length < 0x100000000 := by
    rw [htime, Wire.toList_eq]
    decide +kernel
  have hspelt : Timestamp.parse? reply.timestamp.text = some reply.timestamp := by
    rw [htime]
    decide +kernel
  exact transmit_of_some (Message.ofBytes?_toBytes htopic' hshort htext hspelt)

theorem responseOf_transmit {reply : Message} {r : TakeResponse}
    (hpayload : reply.payload = r.toBytes) (htopic : reply.topic = TakeResponse.topic)
    (htime : reply.timestamp = timestamp) (hshort : r.tasks.length < 0x100000000)
    (hlegible : r.isLegible = true) : Node.responseOf (transmit reply) = .ok r := by
  have hfits : r.toBytes.length < 0x100000000 := of_decide_eq_true hlegible
  rw [transmit_of_short htopic htime (hpayload ▸ hfits)]
  simp only [Node.responseOf, Message.takeResponse?_of_payload hshort hpayload]

/-- What arrives of a reply: all its tasks, or none if its payload is longer than a length field can
say. -/
theorem arrivals_transmit {reply : Message} {r : TakeResponse}
    (hpayload : reply.payload = r.toBytes) (htopic : reply.topic = TakeResponse.topic)
    (htime : reply.timestamp = timestamp) (hshort : r.tasks.length < 0x100000000)
    (hnamed : ∀ t ∈ r.tasks, t.isNone = false) :
    arrivals (transmit reply) = if r.isLegible then r.tasks else [] := by
  -- below the limit the reply is read back; past it, it is not read or read without an answer
  by_cases hlegible : r.isLegible = true
  · rw [if_pos hlegible, arrivals, responseOf_transmit hpayload htopic htime hshort hlegible]
    -- every task is named, so none is filtered out
    exact List.filter_eq_self.2 fun t ht => by rw [hnamed t ht]; rfl
  · have htopic' : reply.topic.toUTF8.toList.length < 0x100000000 := by
      rw [htopic, Wire.toList_eq]
      decide
    have hlong : 0x100000000 ≤ r.toBytes.length := Nat.le_of_not_lt (mt decide_eq_true hlegible)
    rw [if_neg hlegible]
    cases hread : Message.ofBytes? reply.toBytes with
    | none =>
        rw [transmit_of_none hread]
        rfl
    | some m' =>
        have hnone := Message.takeResponse?_of_oversize htopic' hshort hpayload
          (hpayload ▸ hlong) hread
        have hresponse : Node.responseOf (.ok m') = .error .deserialization := by
          simp only [Node.responseOf, hnone]
        rw [transmit_of_some hread, arrivals, hresponse]

end Network

end WorkStealing
