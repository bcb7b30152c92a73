import WorkStealing.Proofs.Cluster.Ledger
import WorkStealing.Proofs.Driver.Down

/-!
# No task is held twice

Whatever happens to the nodes of a network, drivers that go down with tasks in flight included, the
tasks that the nodes hold and the answers carry are among those that were given from outside and not
reported done (`Ledger.held_le_given`). An answer leaves a node's books when it is given, and what
arrives of it is no more than what left.
-/

namespace WorkStealing

namespace Node

variable {n : Node}

/-- A node lets go of the tasks in its reply, which are as many as it may hand out. -/
theorem respond_within (h : n.driver.Tidy) (request : Message) (time : Timestamp) :
    (n.respond request time).1.id = n.id ∧
      Driver.Within n.driver (n.respond request time).1.driver 0
        (handedOut (n.respond request time).2) ∧
      ∀ handout, (n.respond request time).2 = .ok handout →
        (∃ down, handout.reply = n.replyTo request time
          { responder := n.id, tasks := handout.tasks, shuttingDown := down }) ∧
        handout.tasks.length < 0x100000000 ∧ ∀ t ∈ handout.tasks, t.isNone = false := by
  rw [respond]
  rcases handOut_outcomes n request time with
    ⟨r, hout, hnone, hreply⟩ | ⟨limit, n', hid, hcontext, ⟨e, hbatch, hout⟩ |
      ⟨tasks, asked, hbatch, hout⟩⟩
  · rw [hout]
    cases r with
    | error e => exact ⟨rfl, .refl h, fun handout hr => by cases hr⟩
    | ok handout =>
        -- an answer out of hand has no tasks to settle
        have htasks : handout.tasks = [] := hnone
        refine ⟨rfl, ?_, ?_⟩
        · show Driver.Within n.driver (n.settle handout.tasks).driver 0 handout.tasks
          rw [htasks]
          exact .refl h
        · intro handout' hr
          cases hr
          rw [htasks]
          exact ⟨htasks ▸ hreply handout rfl, by decide, fun t ht => absurd ht List.not_mem_nil⟩
  · -- a batch that fails stays on the books
    rw [hout]
    have hcall := Driver.within_call h (.takeBatch n.context limit.toNat)
    simp only [Driver.call, hbatch] at hcall
    exact ⟨hid, hcall, fun handout hr => by cases hr⟩
  · rw [hout]
    obtain ⟨hwithin, hlength, hnamed⟩ := Driver.within_takeBatch_doneAll h hbatch
    refine ⟨hid, ?_, ?_⟩
    · show Driver.Within n.driver (n'.settle tasks).driver 0 tasks
      rw [settle, hcontext]
      exact hwithin
    · intro handout hr
      cases hr
      exact ⟨⟨false, rfl⟩, Nat.lt_of_le_of_lt hlength limit.toNat_lt, hnamed⟩

/-- A node takes in no more than an outcome brings. -/
theorem conclude_within (h : n.driver.Tidy) (neighbor : Location)
    (outcome : Except ClusterError Message) :
    Driver.Within n.driver (n.conclude neighbor outcome).driver (arrivals outcome) 0 := by
  obtain ⟨-, -, hdriver⟩ := conclude_eq n neighbor outcome
  rw [hdriver]
  exact Driver.within_giveAll h n.context (arrivals outcome)

end Node

namespace Network

variable {w w' w'' : Network} {n n' : Node} {id : Location} {a r : Multiset TaskHandle}

/-- Nodes of different names, whose pools are in step. -/
structure Tidy (w : Network) : Prop where
  names : (w.nodes.map Node.id).Nodup
  drivers : ∀ n ∈ w.nodes, n.driver.Tidy

/-- A network and one after it that holds no more than what came in and did not go. -/
structure Within (w w' : Network) (added removed : Multiset TaskHandle) : Prop where
  tidy : w'.Tidy
  bound : w'.held + removed ≤ w.held + added

/-- What one node holds bounds what the network does. -/
theorem within_setNode (h : w.Tidy) (hn : w.node? id = some n) (hid : n'.id = n.id)
    (hb : Driver.Within n.driver n'.driver a r) : Within w (w.setNode n') a r := by
  refine ⟨⟨names_setNode w n' ▸ h.names, forall_setNode h.drivers hb.tidy⟩, ?_⟩
  -- one summand has moved within its bound
  have hsum := held_setNode h.names hn hid
  apply le_of_add_le_add_right (a := n.driver.held)
  calc (w.setNode n').held + r + n.driver.held
    _ = (w.setNode n').held + n.driver.held + r := add_right_comm _ _ _
    _ = w.held + (n'.driver.held + r) := by rw [hsum, add_assoc]
    _ ≤ w.held + (n.driver.held + a) := Multiset.add_le_add_left hb.bound
    _ = w.held + a + n.driver.held := by rw [add_comm n.driver.held, ← add_assoc]

/-! ### Events that leave all drivers alone -/

/-- Networks of the same nodes with the same drivers. -/
structure SameDrivers (w w' : Network) : Prop where
  ids : w'.nodes.map Node.id = w.nodes.map Node.id
  drivers : w'.nodes.map Node.driver = w.nodes.map Node.driver

namespace SameDrivers

theorem of_nodes_eq (h : w'.nodes = w.nodes) : SameDrivers w w' := by
  constructor
  · rw [h]
  · rw [h]

theorem trans (h : SameDrivers w w') (h' : SameDrivers w' w'') : SameDrivers w w'' :=
  ⟨h'.ids.trans h.ids, h'.drivers.trans h.drivers⟩

theorem within (h : SameDrivers w w') (htidy : w.Tidy) : Within w w' 0 0 := by
  have hheld : w'.held = w.held := by
    have hsum := congrArg (fun ds => (ds.map Driver.held).sum) h.drivers
    rw [List.map_map, List.map_map] at hsum
    exact hsum
  refine ⟨⟨h.ids ▸ htidy.names, ?_⟩, ?_⟩
  · intro m hm
    -- each driver is the driver of a node that was there before
    have hmem : m.driver ∈ w.nodes.map Node.driver := h.drivers ▸ List.mem_map_of_mem hm
    obtain ⟨x, hx, hdriver⟩ := List.mem_map.1 hmem
    rw [← hdriver]
    exact htidy.drivers x hx
  · rw [hheld]

end SameDrivers

theorem sameDrivers_setNode (hnames : (w.nodes.map Node.id).Nodup) (hn : w.node? id = some n)
    (hid : n'.id = n.id) (hdriver : n'.driver = n.driver) : SameDrivers w (w.setNode n') := by
  obtain ⟨i, hi⟩ := List.getElem?_of_mem (node?_eq_some hn).2
  obtain ⟨hlt, hget⟩ := List.getElem?_eq_some_iff.1 hi
  refine ⟨names_setNode w n', ?_⟩
  rw [nodes_setNode hnames hi hid, List.map_set, hdriver, ← hget]
  have hlt' : i < (w.nodes.map Node.driver).length := by
    rw [List.length_map]
    exact hlt
  have hsame := List.set_getElem_self hlt'
  rw [List.getElem_map] at hsame
  exact hsame

theorem sameDrivers_trigger (hnames : (w.nodes.map Node.id).Nodup) (id : Location)
    (requester : Option Location) : SameDrivers w (w.trigger id requester).1 := by
  rw [trigger]
  cases hn : w.node? id with
  | none => exact .of_nodes_eq rfl
  | some n =>
      obtain ⟨hid, hdriver, -⟩ := n.trigger_facts requester
      exact (sameDrivers_setNode hnames hn hid hdriver).trans (.of_nodes_eq rfl)

/-- A failure is noted in the rounds of the asker. -/
theorem sameDrivers_conclude_error (hnames : (w.nodes.map Node.id).Nodup)
    (asker target : Location) (e : ClusterError) :
    SameDrivers w (w.conclude asker target (.error e)) := by
  rw [conclude]
  cases hn : w.node? asker with
  | none => exact .of_nodes_eq rfl
  | some n => exact sameDrivers_setNode hnames hn rfl rfl

theorem sameDrivers_beginAt (hnames : (w.nodes.map Node.id).Nodup) (i : Nat) :
    SameDrivers w (w.beginAt i) := by
  rw [beginAt]
  split
  next => exact .of_nodes_eq rfl
  next asker target _ =>
    rw [start]
    split
    next => exact .of_nodes_eq rfl
    next =>
      split
      next e _ =>
        let rest : Network := { w with waiting := w.waiting.eraseIdx i }
        have hfirst : SameDrivers w rest := .of_nodes_eq rfl
        have hrest : SameDrivers rest (rest.conclude asker target (.error e)) :=
          sameDrivers_conclude_error (w := rest) hnames asker target e
        exact hfirst.trans hrest
      next => exact .of_nodes_eq rfl

/-! ### Answers and arrivals -/

/-- The tasks of an answer have left the nodes, and nothing else is read off the wire. -/
theorem reply_within (h : w.Tidy) (x : Exchange) :
    Within w (w.reply x).1 0 (w.reply x).2.tasks ∧ (w.reply x).2.Faithful := by
  have hsame : Within w w 0 0 := (SameDrivers.of_nodes_eq rfl).within h
  rw [reply, answer, handedOut]
  -- no tasks come with a timeout, an unknown target or a refusal
  cases x.timeout with
  | some ms => exact ⟨hsame, faithful_of_error _ _ _⟩
  | none =>
      dsimp only
      rw [respond]
      cases hn : w.node? x.target with
      | none => exact ⟨hsame, faithful_of_error _ _ _⟩
      | some n =>
          obtain ⟨hid, hmem⟩ := node?_eq_some hn
          obtain ⟨hname, hwithin, hreply⟩ :=
            Node.respond_within (h.drivers n hmem) x.request timestamp
          dsimp only
          cases hrespond : n.respond x.request timestamp with
          | mk n' r =>
              rw [hrespond] at hname hwithin hreply
              have hset := within_setNode h hn hname hwithin
              cases r with
              | error e => exact ⟨hset, faithful_of_error _ _ _⟩
              | ok handout =>
                  obtain ⟨⟨down, hshape⟩, hshort, hnamed⟩ := hreply handout rfl
                  have hfaithful := faithful_of_reply x.asker hshape hshort hnamed
                  rw [hid] at hfaithful
                  -- whom the target asks in turn only waits
                  obtain ⟨⟨hnames, hdrivers⟩, hbound⟩ := hset
                  dsimp only [Node.handedOut]
                  exact ⟨⟨⟨hnames, hdrivers⟩, hbound⟩, hfaithful⟩

/-- What arrives is no more than what has left. -/
theorem Delivery.Faithful.arrivals_le {x : Delivery} (hx : x.Faithful) :
    (Node.arrivals x.outcome : Multiset TaskHandle) ≤ x.tasks := by
  rw [hx]
  split
  · exact le_refl _
  · exact Multiset.zero_le _

theorem conclude_within (h : w.Tidy) {x : Delivery} (hx : x.Faithful) :
    Within w (w.conclude x.asker x.target x.outcome) x.tasks 0 := by
  rw [conclude]
  cases hn : w.node? x.asker with
  | none => exact ⟨h, Multiset.add_le_add_left (Multiset.zero_le _)⟩
  | some n =>
      have hid := (Node.conclude_eq n x.target x.outcome).1
      have hnode := Node.conclude_within (h.drivers n (node?_eq_some hn).2) x.target x.outcome
      exact within_setNode h hn hid (hnode.of_le hx.arrivals_le)

end Network

namespace Ledger

variable {l : Ledger} {w : Network}

/-- How many nodes hold a task and how many answers carry it. -/
def places (l : Ledger) (t : TaskHandle) : Nat :=
  l.network.nodes.countP (fun n => t ∈ n.driver.held) + l.carried.countP (fun x => t ∈ x.tasks)

/-- A ledger in which the tasks at all places are among those that were given and not reported. -/
structure Bounded (l : Ledger) : Prop where
  tidy : l.network.Tidy
  faithful : ∀ x ∈ l.carried, x.Faithful
  bound : l.network.held + l.carrying + (l.finished : Multiset TaskHandle) ≤ l.given

/-- Events that leave all drivers alone keep a ledger bounded. -/
theorem Bounded.of_sameDrivers (h : l.Bounded) (hw : Network.SameDrivers l.network w) :
    Bounded { l with network := w } where
  tidy := (hw.within h.tidy).tidy
  faithful := h.faithful
  bound := by
    have hheld : w.held ≤ l.network.held := by
      have hwithin := (hw.within h.tidy).bound
      rw [add_zero, add_zero] at hwithin
      exact hwithin
    exact (Multiset.add_le_add_right (Multiset.add_le_add_right hheld)).trans h.bound

/-- A call from outside enters in the ledger what it lets in and out of a node. -/
theorem Bounded.call (h : l.Bounded) {id : Location} {n : Node} (hn : l.network.node? id = some n)
    (c : Driver.Call) :
    Bounded { l with
      network := l.network.setNode { n with driver := (n.driver.call c).1 }
      given := (n.driver.call c).2.1 ++ l.given
      finished := (n.driver.call c).2.2 ++ l.finished } := by
  have hcall := Driver.within_call (h.tidy.drivers n (Network.node?_eq_some hn).2) c
  let n' : Node := { n with driver := (n.driver.call c).1 }
  have hset : Network.Within l.network (l.network.setNode n') _ _ :=
    Network.within_setNode h.tidy hn rfl hcall
  refine ⟨hset.tidy, h.faithful, ?_⟩
  show (l.network.setNode n').held + l.carrying +
      ((n.driver.call c).2.2 ++ l.finished : List TaskHandle) ≤
    (((n.driver.call c).2.1 ++ l.given : List TaskHandle) : Multiset TaskHandle)
  rw [← Multiset.coe_add, ← Multiset.coe_add]
  calc (l.network.setNode n').held + l.carrying +
        (((n.driver.call c).2.2 : Multiset TaskHandle) + l.finished)
    _ = (l.network.setNode n').held + ((n.driver.call c).2.2 : Multiset TaskHandle) +
          (l.carrying + l.finished) := by ac_rfl
    _ ≤ l.network.held + ((n.driver.call c).2.1 : Multiset TaskHandle) +
          (l.carrying + l.finished) := Multiset.add_le_add_right hset.bound
    _ = ((n.driver.call c).2.1 : Multiset TaskHandle) +
          (l.network.held + l.carrying + l.finished) := by ac_rfl
    _ ≤ ((n.driver.call c).2.1 : Multiset TaskHandle) + l.given :=
        Multiset.add_le_add_left h.bound

/-- What a target lets go of is on the way. -/
theorem Bounded.answer (h : l.Bounded) (hw : w.nodes = l.network.nodes) (x : Exchange) :
    Bounded { l with network := (w.reply x).1, carried := l.carried ++ [(w.reply x).2] } := by
  have hsame : Network.Within l.network w 0 0 := (Network.SameDrivers.of_nodes_eq hw).within h.tidy
  obtain ⟨hreply, hfaithful⟩ := Network.reply_within hsame.tidy x
  have hbound : (w.reply x).1.held + ((w.reply x).2.tasks : Multiset TaskHandle) ≤
      l.network.held := by
    have hfirst := hsame.bound
    have hthen := hreply.bound
    rw [add_zero, add_zero] at hfirst
    rw [add_zero] at hthen
    exact hthen.trans hfirst
  refine ⟨hreply.tidy, ?_, ?_⟩
  · intro y hy
    rcases List.mem_append.1 hy with hold | hnew
    · exact h.faithful y hold
    · rw [List.mem_singleton.1 hnew]
      exact hfaithful
  · show (w.reply x).1.held +
        ({ l with carried := l.carried ++ [(w.reply x).2] } : Ledger).carrying + l.finished ≤
      (l.given : Multiset TaskHandle)
    rw [carrying_append]
    calc (w.reply x).1.held + (l.carrying + ((w.reply x).2.tasks : Multiset TaskHandle)) +
          (l.finished : Multiset TaskHandle)
      _ = (w.reply x).1.held + ((w.reply x).2.tasks : Multiset TaskHandle) +
            (l.carrying + l.finished) := by ac_rfl
      _ ≤ l.network.held + (l.carrying + l.finished) := Multiset.add_le_add_right hbound
      _ = l.network.held + l.carrying + l.finished := (add_assoc _ _ _).symm
      _ ≤ l.given := h.bound

/-- What arrives was on the way before. -/
theorem Bounded.conclude (h : l.Bounded) {i : Nat} {x : Network.Delivery}
    (hx : l.carried[i]? = some x) :
    Bounded { l with
      network := l.network.conclude x.asker x.target x.outcome
      carried := l.carried.eraseIdx i
      lost := x.tasks.drop (l.network.roomFor x) ++ l.lost } := by
  have hwithin := Network.conclude_within h.tidy (h.faithful x (List.mem_of_getElem? hx))
  have hbound := hwithin.bound
  rw [add_zero] at hbound
  refine ⟨hwithin.tidy, fun y hy => h.faithful y (List.mem_of_mem_eraseIdx hy), ?_⟩
  let rest : Ledger := { l with carried := l.carried.eraseIdx i }
  show (l.network.conclude x.asker x.target x.outcome).held + rest.carrying + l.finished ≤
    (l.given : Multiset TaskHandle)
  calc (l.network.conclude x.asker x.target x.outcome).held + rest.carrying +
        (l.finished : Multiset TaskHandle)
    _ ≤ l.network.held + x.tasks + rest.carrying + l.finished :=
        Multiset.add_le_add_right (Multiset.add_le_add_right hbound)
    _ = l.network.held + (x.tasks + rest.carrying) + l.finished := by rw [add_assoc l.network.held]
    _ = l.network.held + l.carrying + l.finished := by rw [← carrying_eraseIdx hx]
    _ ≤ l.given := h.bound

/-- Every event keeps a ledger bounded. -/
theorem Bounded.step (h : l.Bounded) (e : Event) : (l.step e).Bounded := by
  cases e with
  | call id c =>
      simp only [Ledger.step]
      split
      next => exact h
      next n hn => exact h.call hn c
  | trigger id requester =>
      exact h.of_sameDrivers (Network.sameDrivers_trigger h.tidy.names id requester)
  | shutDown id =>
      simp only [Ledger.step]
      split
      next => exact h
      next n hn => exact h.of_sameDrivers (Network.sameDrivers_setNode h.tidy.names hn rfl rfl)
  | setReachable id reachable => exact h.of_sameDrivers (.of_nodes_eq rfl)
  | setDelay id ms => exact h.of_sameDrivers (.of_nodes_eq rfl)
  | drop id => exact h.of_sameDrivers (.of_nodes_eq rfl)
  | moveTo time => exact h.of_sameDrivers (.of_nodes_eq rfl)
  | begin i => exact h.of_sameDrivers (Network.sameDrivers_beginAt h.tidy.names i)
  | answer i =>
      simp only [Ledger.step]
      split
      next => exact h
      next x _ =>
        exact h.answer (w := { l.network with
          underway := l.network.underway.eraseIdx i
          clock := max l.network.clock x.due }) rfl x
  | conclude i =>
      simp only [Ledger.step]
      split
      next => exact h
      next x hx => exact h.conclude hx

theorem Bounded.run (h : l.Bounded) (events : List Event) : (l.run events).Bounded := by
  -- induction on the events still to come
  induction events generalizing l with
  | nil => exact h
  | cons e rest ih => exact ih (h.step e)

theorem bounded_of_fresh {nodes : List Node} (hfresh : ∀ n ∈ nodes, n.IsFresh)
    (hnames : (nodes.map Node.id).Nodup) :
    ({ network := { nodes := nodes } } : Ledger).Bounded where
  tidy := ⟨hnames, fun n hn => (hfresh n hn).sound.1.sound.tidy⟩
  faithful x hx := absurd hx List.not_mem_nil
  bound := by
    have hzero : ({ nodes := nodes } : Network).held = 0 := by
      apply List.sum_eq_zero
      intro x hx
      obtain ⟨n, hn, rfl⟩ := List.mem_map.1 hx
      exact (hfresh n hn).sound.2
    rw [hzero]
    exact le_refl _

/-- Those that have a task are no more than the copies of it that they have together. -/
theorem countP_le_count {α : Type} (t : TaskHandle) (tasks : α → Multiset TaskHandle)
    (xs : List α) : xs.countP (fun x => t ∈ tasks x) ≤ ((xs.map tasks).sum).count t := by
  induction xs with
  | nil => exact Nat.le_refl 0
  | cons x rest ih =>
      rw [List.countP_cons, List.map_cons, List.sum_cons, Multiset.count_add]
      split
      next hx =>
        have hone := Multiset.one_le_count_iff_mem.2 (of_decide_eq_true hx)
        omega
      next => omega

theorem places_le_count (l : Ledger) (t : TaskHandle) :
    l.places t ≤ (l.network.held + l.carrying).count t := by
  have hnodes : l.network.nodes.countP (fun n => t ∈ n.driver.held) ≤ l.network.held.count t :=
    countP_le_count t (fun n => n.driver.held) l.network.nodes
  have hreplies : l.carried.countP (fun x => t ∈ x.tasks) ≤ l.carrying.count t := by
    have hsum := countP_le_count t
      (fun x : Network.Delivery => (x.tasks : Multiset TaskHandle)) l.carried
    rw [← coe_flatMap] at hsum
    simp only [Multiset.mem_coe] at hsum
    exact hsum
  rw [places, Multiset.count_add]
  exact Nat.add_le_add hnodes hreplies

/-- In every run of a network, whatever happens to its nodes and in any order, the tasks that all
nodes hold and those on the way are among the ones given from outside and not reported done, each
as often as it was given and not reported. So a task given once is held by one node, or carried by
one answer, or reported once. -/
theorem held_le_given {nodes : List Node} (hfresh : ∀ n ∈ nodes, n.IsFresh)
    (hnames : (nodes.map Node.id).Nodup) (events : List Event) :
    let l := ({ network := { nodes := nodes } } : Ledger).run events
    (l.finished : Multiset TaskHandle) ≤ l.given ∧
      l.network.held + l.carrying ≤
        (l.given : Multiset TaskHandle) - (l.finished : Multiset TaskHandle) ∧
      ∀ t, l.places t + l.finished.count t ≤ l.given.count t := by
  intro l
  have hbound : l.network.held + l.carrying + (l.finished : Multiset TaskHandle) ≤ l.given :=
    ((bounded_of_fresh hfresh hnames).run events).bound
  refine ⟨(Multiset.le_add_left _ _).trans hbound, le_tsub_of_add_le_right hbound, ?_⟩
  intro t
  have hcount := Multiset.count_le_of_le t hbound
  rw [Multiset.count_add, Multiset.coe_count, Multiset.coe_count] at hcount
  have hplaces := l.places_le_count t
  omega

/-- One task is given twice to a node and leaves with an answer. While the answer is on the way, the
memory of the node goes down with another task in flight; the asker takes the first task in, and
one copy of it is done there. -/
theorem held_le_given_down :
    let node (id neighbor : Location) (c : SchedulerConfig) : Node :=
      (Node.join id ({ config := c, pool := .new c 1 } : Driver).started.1 [neighbor] {}).toOption.getD
        default
    let nodes : List Node := [node ⟨0⟩ ⟨1⟩ { workers := 1 }, node ⟨1⟩ ⟨0⟩ { workers := 1 }]
    let events : List Event :=
      [.call ⟨1⟩ (.give ⟨0⟩ ⟨7⟩ {}), .call ⟨1⟩ (.take ⟨0⟩), .call ⟨1⟩ (.give ⟨0⟩ ⟨5⟩ {}),
        .call ⟨1⟩ (.give ⟨0⟩ ⟨5⟩ {}), .trigger ⟨0⟩ none, .begin 0, .answer 0,
        .call ⟨1⟩ (.switchRunlevel .memoryOk 0 .down), .conclude 0, .call ⟨0⟩ (.take ⟨0⟩),
        .call ⟨0⟩ (.done ⟨0⟩ ⟨5⟩)]
    let l := ({ network := { nodes := nodes } } : Ledger).run events
    ((∀ n ∈ nodes, n.IsFresh) ∧ (nodes.map Node.id).Nodup) ∧
      l.given = [⟨5⟩, ⟨5⟩, ⟨7⟩] ∧ l.finished = [⟨5⟩] ∧
      ∀ t, l.places t + l.finished.count t ≤ l.given.count t := by
  intro node nodes events l
  have hfresh : ∀ n ∈ nodes, n.IsFresh := by
    intro n hn
    rcases List.mem_pair.1 hn with rfl | rfl
    · exact ⟨{ workers := 1 }, 1, _, none, none, ⟨0⟩, [⟨1⟩], {}, rfl, rfl⟩
    · exact ⟨{ workers := 1 }, 1, _, none, none, ⟨1⟩, [⟨0⟩], {}, rfl, rfl⟩
  have hnames : (nodes.map Node.id).Nodup := by decide +kernel
  have hgiven : l.given = [⟨5⟩, ⟨5⟩, ⟨7⟩] := by decide +kernel
  have hfinished : l.finished = [⟨5⟩] := by decide +kernel
  exact ⟨⟨hfresh, hnames⟩, hgiven, hfinished, (held_le_given hfresh hnames events).2.2⟩

end Ledger

end WorkStealing
