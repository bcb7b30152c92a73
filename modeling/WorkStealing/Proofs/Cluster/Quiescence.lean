import WorkStealing.Proofs.Cluster.Tariff

/-!
# When searches die down

In a network without tasks every request makes its target search in turn. If a tariff suits the
neighbor lists, no event of the network's own raises what has been spent together with what may
still be spent, so that one search sets off a bounded number of requests (`Ledger.requests_le`).

The total (`Tariff.total`) has a part for each place where a request can stand:

- the account of each node: the requests it has sent, its savings and its reserves;
- the fare of each exchange that waits;
- the price of each exchange that is underway, which is its fare, or the penalty of the asker if the
  asker will have given up by then;
- what is due for each answer on the way.

An exchange that begins trades its fare for its price (`Tariff.total_beginAt`), the price pays for
the search of the target or becomes due (`Tariff.total_answer`), and what is due covers the end of
the throttling at the asker (`Tariff.total_arrival`).
-/

namespace WorkStealing

/-! ### What may still be spent -/

/-- A sum over a row, with what stands at a position apart. -/
theorem sum_map_eraseIdx {α : Type} (f : α → Nat) {xs : List α} {i : Nat} {x : α}
    (h : xs[i]? = some x) : (xs.map f).sum = ((xs.eraseIdx i).map f).sum + f x := by
  have hperm : xs.Perm (x :: xs.eraseIdx i) := Multiset.coe_eq_coe.1 (cons_coe_eraseIdx h)
  rw [(hperm.map f).sum_eq, List.map_cons, List.sum_cons, Nat.add_comm]

namespace Tariff

variable (T : Tariff) {l : Ledger} {n n' : Node} {id asker target : Location}

/-- What an exchange may set off when it is underway. -/
def price (sites : List Site) (x : Exchange) : Nat :=
  if x.timeout.isSome then T.penalty sites x.asker else T.fare x.asker x.target

/-- What an answer costs its asker when it arrives. -/
def due (sites : List Site) (x : Network.Delivery) : Nat :=
  match Node.responseOf x.outcome with
  | .ok _ => 0
  | .error e => if e.isUnreachable then 0 else T.penalty sites x.asker

/-- The requests sent so far and all that may still follow. -/
def total (l : Ledger) : Nat :=
  (l.network.nodes.map T.account).sum + (l.network.waiting.map fun p => T.fare p.1 p.2).sum +
    (l.network.underway.map (T.price l.network.sites)).sum +
    (l.carried.map (T.due l.network.sites)).sum

theorem Damps.of_layout {w w' : Network} {T : Tariff} (hT : T.Damps w.sites w.delays)
    (h : w'.layout = w.layout) : T.Damps w'.sites w'.delays := by
  have hsites : w'.sites = w.sites := congrArg Network.Layout.sites h
  have hdelays : w'.delays = w.delays := congrArg Network.Layout.delays h
  rw [hsites, hdelays]
  exact hT

theorem requests_le_total (l : Ledger) : l.network.requests ≤ T.total l := by
  have hsent : l.network.requests ≤ (l.network.nodes.map T.account).sum := by
    apply List.sum_le_sum
    intro n _
    rw [account, Nat.add_assoc]
    exact Nat.le_add_right _ _
  rw [total]
  omega

theorem penalty_eq {w : Network} (hn : w.node? asker = some n) :
    T.penalty w.sites asker = T.reserve n.site := by
  have hfind : w.sites.find? (fun s => s.id = asker) = (w.node? asker).map Node.site := by
    rw [Network.sites, List.find?_map]
    rfl
  rw [penalty, hfind, hn]
  rfl

/-- A node that keeps its site moves the total as it moves its own account. -/
theorem total_setNode (hnames : (l.network.nodes.map Node.id).Nodup)
    (hn : l.network.node? id = some n) (hsite : n'.site = n.site) :
    T.total { l with network := l.network.setNode n' } + T.account n =
      T.total l + T.account n' := by
  have hsum := Network.sum_setNode T.account hnames hn (congrArg Site.id hsite)
  have hsites := Network.sites_setNode hnames hn hsite
  simp only [total, hsites]
  show ((l.network.setNode n').nodes.map T.account).sum +
    (l.network.waiting.map fun p => T.fare p.1 p.2).sum +
    (l.network.underway.map (T.price l.network.sites)).sum +
    (l.carried.map (T.due l.network.sites)).sum + _ = _
  omega

theorem total_conclude (hnames : (l.network.nodes.map Node.id).Nodup)
    (hn : l.network.node? asker = some n) (target : Location)
    (outcome : Except ClusterError Message) :
    T.total { l with network := l.network.conclude asker target outcome } + T.account n =
      T.total l + T.account (n.conclude target outcome) := by
  rw [Network.conclude, hn]
  exact T.total_setNode hnames hn (n.site_conclude target outcome)

/-- What a node asks is entered at its fares. -/
theorem total_ask (l : Ledger) (id : Location) (asked : List Location) :
    T.total { l with network := l.network.ask id asked } =
      T.total l + (asked.map fun t => T.fare id t).sum := by
  simp only [total, Network.ask, Network.sites, List.map_append, List.sum_append, List.map_map,
    Function.comp_def]
  omega

/-- An exchange that waits is taken out at its fare. -/
theorem total_waiting {i : Nat} (hi : l.network.waiting[i]? = some (asker, target)) :
    T.total l = T.total { l with
      network := { l.network with waiting := l.network.waiting.eraseIdx i } } +
        T.fare asker target := by
  have hsum := sum_map_eraseIdx (fun p : Location × Location => T.fare p.1 p.2) hi
  simp only [total, Network.sites, hsum]
  omega

theorem total_underway {i : Nat} {x : Exchange} (hi : l.network.underway[i]? = some x)
    (clock : Nat) :
    T.total l = T.total { l with
      network := { l.network with
        underway := l.network.underway.eraseIdx i
        clock := clock } } + T.price l.network.sites x := by
  have hsum := sum_map_eraseIdx (T.price l.network.sites) hi
  simp only [Network.sites] at hsum
  simp only [total, Network.sites, hsum]
  omega

theorem total_carried {i : Nat} {x : Network.Delivery} (hi : l.carried[i]? = some x) :
    T.total l = T.total { l with carried := l.carried.eraseIdx i } + T.due l.network.sites x := by
  have hsum := sum_map_eraseIdx (T.due l.network.sites) hi
  simp only [total, hsum]
  omega

theorem total_begun (l : Ledger) (x : Exchange) (serial : Nat) :
    T.total { l with
      network := { l.network with underway := l.network.underway ++ [x], serial := serial } } =
        T.total l + T.price l.network.sites x := by
  simp only [total, Network.sites, List.map_append, List.map_cons, List.map_nil, List.sum_append,
    List.sum_cons, List.sum_nil]
  omega

theorem total_replied (l : Ledger) (x : Network.Delivery) :
    T.total { l with carried := l.carried ++ [x] } = T.total l + T.due l.network.sites x := by
  simp only [total, List.map_append, List.map_cons, List.map_nil, List.sum_append, List.sum_cons,
    List.sum_nil]
  omega

/-! ### One event -/

theorem mem_sites {w : Network} (hn : w.node? id = some n) : n.site ∈ w.sites :=
  List.mem_map_of_mem (Network.node?_eq_some hn).2

/-- The fare of an exchange pays for its beginning. -/
theorem total_beginAt (hT : T.Damps l.network.sites l.network.delays) (h : l.Orderly) (i : Nat) :
    T.total { l with network := l.network.beginAt i } ≤ T.total l := by
  rw [Network.beginAt]
  cases hi : l.network.waiting[i]? with
  | none => exact le_refl _
  | some pair =>
      obtain ⟨asker, target⟩ := pair
      let w : Network := { l.network with waiting := l.network.waiting.eraseIdx i }
      have htracked : w.Tracked l.exchanges := h.tracked.of_nodes_eq rfl
      have hmem : (asker, target) ∈ l.exchanges :=
        Ledger.mem_exchanges.2 (.inl (List.mem_of_getElem? hi))
      obtain ⟨n, hn, htracks, htarget⟩ := htracked.exists_node hmem
      rw [T.total_waiting hi]
      show T.total { l with network := w.start asker target } ≤ T.total { l with network := w } + _
      cases hreach : w.isReachable target with
      | true =>
          obtain ⟨x, rfl, rfl, -, htimeout, hstart⟩ := Network.start_of_reachable hn hreach
          rw [hstart, T.total_begun { l with network := w }]
          apply Nat.add_le_add_left
          rw [price]
          split
          next hsome =>
            -- an asker that will give the exchange up has nothing to lose
            rw [htimeout] at hsome
            rw [T.penalty_eq hn,
              hT.patient n.site (mem_sites hn) x.target (htracks.mem_locations htarget) hsome]
            exact Nat.zero_le _
          next => exact le_refl _
      | false =>
          have hclosed :
              T.account (n.conclude target (.error (.unreachable target))) ≤ T.account n :=
            T.account_closed rfl rfl (htracks.requested htarget)
          have hconcluded := T.total_conclude (l := { l with network := w }) htracked.names hn
            target (.error (.unreachable target))
          rw [Network.start_of_unreachable hn hreach]
          simp only at hconcluded
          omega

/-- The fare of a request pays for what its target does. -/
theorem total_respond (hT : T.Damps l.network.sites l.network.delays)
    (hnames : (l.network.nodes.map Node.id).Nodup) {q : Node}
    (hq : l.network.node? asker = some q) (hlisted : target ∈ q.rounds.locations)
    {request : Message} (hrequester : Node.requesterOf request = some asker) :
    T.total { l with network := (l.network.respond target request).1 } ≤
      T.total l + T.fare asker target := by
  cases hn : l.network.node? target with
  | none =>
      rw [Network.respond_of_unknown hn]
      exact Nat.le_add_right _ _
  | some n =>
      obtain ⟨rfl, -⟩ := Network.node?_eq_some hq
      obtain ⟨rfl, -⟩ := Network.node?_eq_some hn
      have hsearch := n.searches_respond request Network.timestamp
      rw [hrequester] at hsearch
      have hpaid := T.account_searches hsearch
        (hT.saves q.site (mem_sites hq) n.site (mem_sites hn) hlisted)
        (hT.pays q.site (mem_sites hq) n.site (mem_sites hn) hlisted)
      have hmoved := T.total_setNode hnames hn hsearch.site
      have hasked := T.total_ask
        { l with network := l.network.setNode (n.respond request Network.timestamp).1 } n.id
        (Node.askedFor (n.respond request Network.timestamp).2)
      rw [Network.respond_eq hn]
      simp only at hasked
      omega

/-- In a network without tasks nothing is due for an exchange that its asker sees through. -/
theorem due_reply {w : Network} (hup : ∀ n ∈ w.nodes, n.Sound)
    (hdry : ∀ n ∈ w.nodes, n.driver.held = 0) {x : Exchange} (hgenuine : x.IsGenuine)
    (htimeout : x.timeout = none) (sites : List Site) : T.due sites (w.reply x).2 = 0 := by
  cases hn : w.node? x.target with
  | none =>
      rw [Network.reply, Network.snd_answer htimeout, Network.respond_of_unknown hn]
      rfl
  | some n =>
      have hmem := (Network.node?_eq_some hn).2
      have hresponse := Network.answer_dry hn (hup n hmem) (hdry n hmem) hgenuine htimeout
      rw [Network.reply, due, hresponse]

/-- The fare of an exchange, or its penalty, pays for its end. -/
theorem total_answer (hT : T.Damps l.network.sites l.network.delays) (h : l.Dry) {i : Nat}
    {x : Exchange} (hi : l.network.underway[i]? = some x) (clock : Nat) :
    let w : Network :=
      { l.network with underway := l.network.underway.eraseIdx i, clock := clock }
    T.total { l with network := (w.reply x).1, carried := l.carried ++ [(w.reply x).2] } ≤
      T.total l := by
  intro w
  rw [T.total_underway hi clock]
  show T.total { l with network := (w.answer x).1, carried := l.carried ++ [(w.reply x).2] } ≤
    T.total { l with network := w } + T.price w.sites x
  rw [T.total_replied { l with network := (w.answer x).1 }]
  cases htimeout : x.timeout with
  | some ms =>
      -- the penalty is now due
      have hanswer : w.answer x = (w, .error (.timeout (ms * 1000000))) := by
        rw [Network.answer, htimeout]
      have hdue : T.due w.sites (w.reply x).2 = T.penalty w.sites x.asker := by
        rw [Network.reply, hanswer]
        rfl
      rw [hanswer, hdue, price, htimeout]
      exact le_refl _
  | none =>
      have htracked : w.Tracked l.exchanges := h.orderly.tracked.of_nodes_eq rfl
      have hmem : (x.asker, x.target) ∈ l.exchanges :=
        Ledger.mem_exchanges.2 (.inr (.inl ⟨x, List.mem_of_getElem? hi, rfl⟩))
      obtain ⟨q, hq, htracks, htarget⟩ := htracked.exists_node hmem
      have hgenuine := h.orderly.genuine x (List.mem_of_getElem? hi)
      have hprice : T.price w.sites x = T.fare x.asker x.target := by
        rw [price, htimeout]
        rfl
      rw [T.due_reply (w := w) h.balanced.sound.up (fun n hn => h.held_node hn) hgenuine htimeout,
        Network.fst_answer htimeout, hprice]
      exact T.total_respond (l := { l with network := w }) hT htracked.names hq
        (htracks.mem_locations htarget) hgenuine.2

/-- What is due pays for the arrival of an answer. -/
theorem total_arrival (h : l.Orderly) {i : Nat} {x : Network.Delivery}
    (hi : l.carried[i]? = some x) :
    T.total { l with
      network := l.network.conclude x.asker x.target x.outcome
      carried := l.carried.eraseIdx i } ≤ T.total l := by
  have hmem : (x.asker, x.target) ∈ l.exchanges :=
    Ledger.mem_exchanges.2 (.inr (.inr ⟨x, List.mem_of_getElem? hi, rfl⟩))
  obtain ⟨n, hn, htracks, htarget⟩ := h.tracked.exists_node hmem
  have hconcluded := T.total_conclude (l := { l with carried := l.carried.eraseIdx i })
    h.tracked.names hn x.target x.outcome
  have hcharged : T.account (n.conclude x.target x.outcome) ≤
      T.account n + T.due l.network.sites x := by
    rw [due]
    cases hr : Node.responseOf x.outcome with
    | ok response => exact T.account_answered hr
    | error e =>
        dsimp only
        split
        next hclosed => exact T.account_closed hr hclosed (htracks.requested htarget)
        next =>
          rw [T.penalty_eq hn]
          exact T.account_failed hr
  rw [T.total_carried hi]
  simp only at hconcluded
  omega

end Tariff

namespace Ledger

variable {l : Ledger} {e : Event} {T : Tariff}

/-- No event of the network's own raises the total. -/
theorem total_step (hT : T.Damps l.network.sites l.network.delays) (h : l.Dry)
    (he : e.isInternal = true) : T.total (l.step e) ≤ T.total l := by
  cases e with
  | moveTo time => exact le_refl _
  | begin i => exact T.total_beginAt hT h.orderly i
  | answer i =>
      rw [step]
      cases hi : l.network.underway[i]? with
      | none => exact le_refl _
      | some x => exact T.total_answer hT h hi _
  | conclude i =>
      rw [step]
      cases hi : l.carried[i]? with
      | none => exact le_refl _
      | some x => exact T.total_arrival h.orderly hi
  | _ => cases he

theorem total_run (hT : T.Damps l.network.sites l.network.delays) (h : l.Dry) {events : List Event}
    (he : ∀ e ∈ events, e.isInternal = true) : T.total (l.run events) ≤ T.total l := by
  -- induction on the events still to come; each leaves the ledger dry and its layout as it was
  induction events generalizing l with
  | nil => exact le_refl _
  | cons e rest ih =>
      have hfirst := he e List.mem_cons_self
      have hT' := hT.of_layout (layout_step h.orderly hfirst)
      exact (ih hT' (h.step hfirst) fun x hx => he x (List.mem_cons_of_mem e hx)).trans
        (total_step hT h hfirst)

/-- A search dies down where the neighbor lists damp it. Take any network of nodes that have joined
with running drivers, and any history of it that leaves the drivers up: searches, shutdowns, calls
of the drivers, exchanges at any stage, changes of delays and of who can be reached. When no node
holds a task and none is on the way, and a tariff suits the neighbor lists and the delays as they
are then, a search of any node and whatever the network does by itself after it, in any order and
for any time, sends no more requests than the tariff's total says right after the search. -/
theorem requests_le {nodes : List Node} (hfresh : ∀ n ∈ nodes, n.IsFresh)
    (hnames : (nodes.map Node.id).Nodup) {history : List Event}
    (hup : ∀ e ∈ history, e.keepsUp = true) (id : Location) (T : Tariff) :
    let l := ({ network := { nodes := nodes } } : Ledger).run history
    l.network.held = 0 → l.carrying = 0 → T.Damps l.network.sites l.network.delays →
      let searched := l.step (.trigger id none)
      ∀ events : List Event, (∀ e ∈ events, e.isInternal = true) →
        (searched.run events).network.requests ≤ T.total searched := by
  intro l hheld hcarrying hT searched events hinternal
  have hdry : l.Dry := dry_of_fresh hfresh hnames hup hheld hcarrying
  have hT' : T.Damps searched.network.sites searched.network.delays :=
    hT.of_layout (Network.layout_trigger hdry.orderly.tracked.names id none)
  calc (searched.run events).network.requests
      ≤ T.total (searched.run events) := T.requests_le_total _
    _ ≤ T.total searched := total_run hT' (hdry.trigger id none) hinternal

/-- Three nodes that ask each other, with the usual factor. One has searched, and one answer to it
is on the way, when another searches. -/
theorem requests_le_triangle :
    let node (id : Location) (neighbors : List Location) : Node :=
      (Node.join id ({ config := { workers := 1 }, pool := .new { workers := 1 } 1 } :
        Driver).started.1 neighbors {}).toOption.getD default
    let nodes : List Node :=
      [node ⟨0⟩ [⟨1⟩, ⟨2⟩], node ⟨1⟩ [⟨2⟩, ⟨0⟩], node ⟨2⟩ [⟨0⟩, ⟨1⟩]]
    let history : List Event := [.trigger ⟨1⟩ none, .begin 0, .answer 0]
    let l := ({ network := { nodes := nodes } } : Ledger).run history
    ((∀ n ∈ nodes, n.IsFresh) ∧ (nodes.map Node.id).Nodup ∧ ∀ e ∈ history, e.keepsUp = true) ∧
      l.network.held = 0 ∧ l.carrying = 0 ∧
      (Tariff.uniform 2).Damps l.network.sites l.network.delays ∧
      ∀ events : List Event, (∀ e ∈ events, e.isInternal = true) →
        ((l.step (.trigger ⟨0⟩ none)).run events).network.requests ≤ 241 := by
  intro node nodes history l
  have hfresh : ∀ n ∈ nodes, n.IsFresh := by
    intro n hn
    simp only [nodes, List.mem_cons, List.not_mem_nil, or_false] at hn
    rcases hn with rfl | rfl | rfl
    · exact ⟨{ workers := 1 }, 1, _, none, none, ⟨0⟩, [⟨1⟩, ⟨2⟩], {}, rfl, rfl⟩
    · exact ⟨{ workers := 1 }, 1, _, none, none, ⟨1⟩, [⟨2⟩, ⟨0⟩], {}, rfl, rfl⟩
    · exact ⟨{ workers := 1 }, 1, _, none, none, ⟨2⟩, [⟨0⟩, ⟨1⟩], {}, rfl, rfl⟩
  have hnames : (nodes.map Node.id).Nodup := by decide +kernel
  have hup : ∀ e ∈ history, e.keepsUp = true := by decide +kernel
  have hheld : l.network.held = 0 := by decide +kernel
  have hcarrying : l.carrying = 0 := by decide +kernel
  have hsites : l.network.sites =
      [⟨⟨0⟩, [⟨1⟩, ⟨2⟩], 20, 2000⟩, ⟨⟨1⟩, [⟨2⟩, ⟨0⟩], 20, 2000⟩,
        ⟨⟨2⟩, [⟨0⟩, ⟨1⟩], 20, 2000⟩] := by
    decide +kernel
  have hdelays : l.network.delays = [] := by decide +kernel
  have hT : (Tariff.uniform 2).Damps l.network.sites l.network.delays := by
    rw [hsites, hdelays]
    exact Tariff.damps_of_mutual (by decide) (by decide) (by decide) (by decide)
  have htotal : (Tariff.uniform 2).total (l.step (.trigger ⟨0⟩ none)) = 241 := by decide +kernel
  have hbound := requests_le hfresh hnames hup ⟨0⟩ (Tariff.uniform 2)
  rw [show ({ network := { nodes := nodes } } : Ledger).run history = l from rfl] at hbound
  refine ⟨⟨hfresh, hnames, hup⟩, hheld, hcarrying, hT, ?_⟩
  intro events hinternal
  rw [← htotal]
  exact hbound hheld hcarrying hT events hinternal

end Ledger

end WorkStealing
