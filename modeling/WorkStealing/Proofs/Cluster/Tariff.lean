import Mathlib.Algebra.Order.BigOperators.Group.List
import Mathlib.Algebra.Order.Group.Nat
import WorkStealing.Proofs.Cluster.DryNetworks

/-!
# What a request costs

A node without tasks answers a request with a search of its own, so that one request may set off
others at nodes far away. A `Tariff` prices requests before they are sent. A target lays a part of
the fare aside while it is throttled, and pays for a round out of what it has saved; a failure,
which ends the throttling, is charged as if all had been saved at once. A tariff that suits the
neighbor lists (`Tariff.Damps`) covers whatever a node does (`Tariff.account_searches`,
`Tariff.account_answered`, `Tariff.account_failed`, `Tariff.account_closed`).
-/

namespace WorkStealing

/-! ### Rounds -/

/-- Whether a neighbor may still be asked or owes an answer. -/
def Neighbor.isLive (n : Neighbor) : Bool := n.accepting || n.status = .requested

namespace Rounds

variable {r : Rounds} {l : Location} {m : Neighbor}

/-- How many neighbors are live. -/
def live (r : Rounds) : Nat := r.neighbors.countP Neighbor.isLive

/-- Whoever is asked in a round was live before. -/
theorem live_exhausted (r : Rounds) (requester : Option Location) :
    (r.exhausted requester).1.live = r.live := by
  rcases r.exhausted_facts requester with ⟨-, h⟩ | ⟨-, h⟩
  · rw [h]
    rfl
  · rw [h, live, live, round, List.countP_map]
    apply List.countP_congr
    intro n _
    simp only [Function.comp]
    split
    next hselect =>
      simp only [Neighbor.isSelectable, Bool.and_eq_true] at hselect
      simp [Neighbor.isLive, Neighbor.asked, hselect.1.2]
    next => rfl

/-- A round on behalf of a neighbor asks others only. -/
theorem sum_selected_le (r : Rounds) (q : Location) (f : Location → Nat) :
    ((r.selected (some q)).map f).sum ≤ ((r.locations.filter fun l => l ≠ q).map f).sum := by
  have hperm : (r.selected (some q)).Perm
      ((r.neighbors.filter fun n => n.isSelectable (some q)).map Neighbor.location) :=
    (r.perm_inTurn.filter _).map _
  have hothers : ((r.neighbors.filter fun n => n.isSelectable (some q)).map
      Neighbor.location).Sublist (r.locations.filter fun l => l ≠ q) := by
    rw [locations, List.filter_map]
    apply List.Sublist.map
    apply List.monotone_filter_right
    intro n hselect
    simp only [Neighbor.isSelectable, Bool.and_eq_true, decide_eq_true_eq] at hselect
    simp only [Function.comp, decide_eq_true_eq]
    rintro rfl
    exact hselect.2 rfl
  rw [(hperm.map f).sum_eq]
  exact (hothers.map f).sum_le_sum fun _ _ => Nat.zero_le _

/-- News of a neighbor brings none to life. -/
theorem live_update_le {f : Neighbor → Neighbor} (hf : ∀ m, (f m).isLive = true → m.isLive = true) :
    (r.update l f).live ≤ r.live := by
  rw [live, live, update, List.countP_map]
  apply List.countP_mono_left
  intro m _ hm
  simp only [Function.comp] at hm
  split at hm
  · exact hf m hm
  · exact hm

/-- A neighbor that was live and is given up is one live neighbor less. -/
theorem live_update_lt {f : Neighbor → Neighbor} (hf : ∀ m, (f m).isLive = false)
    (hm : m ∈ r.neighbors) (hl : m.location = l) (hlive : m.isLive = true) :
    (r.update l f).live + 1 ≤ r.live := by
  obtain ⟨before, after, hsplit⟩ := List.append_of_mem hm
  have hle (ms : List Neighbor) :
      (ms.map fun n => if n.location = l then f n else n).countP Neighbor.isLive ≤
        ms.countP Neighbor.isLive :=
    live_update_le (r := { r with neighbors := ms }) fun m h => by rw [hf m] at h; cases h
  have hbefore := hle before
  have hafter := hle after
  simp only [live, update, hsplit, List.map_append, List.map_cons, List.countP_append,
    List.countP_cons, hl, if_true, hf, hlive, Bool.false_eq_true, if_false]
  omega

end Rounds

/-! ### Sites and tariffs -/

/-- Prices, counted in requests. -/
structure Tariff where
  /-- What a request from an asker to a target may set off, at most and in the long run. -/
  fare : Location → Location → Nat
  /-- What a node lays aside of the fare of a request that it only counts. -/
  saving : Location → Nat

namespace Tariff

/-- What a node has saved when the next search starts a round. -/
def reserve (T : Tariff) (s : Site) : Nat := T.saving s.id * (s.span - 1)

/-- What it costs an asker that a request fails. -/
def penalty (T : Tariff) (sites : List Site) (asker : Location) : Nat :=
  ((sites.find? fun s => s.id = asker).map T.reserve).getD 0

/-- A tariff that suits the neighbor lists of some sites. Every request brings at least what its
target lays aside. Its fare, with all that its target has saved, pays for one request to each of the
target's other neighbors, fares included. Who would give an answer up saves nothing, as its requests
fail again and again. -/
structure Damps (T : Tariff) (sites : List Site) (delays : List (Location × Nat)) : Prop where
  saves : ∀ q ∈ sites, ∀ s ∈ sites, s.id ∈ q.neighbors → T.saving s.id ≤ T.fare q.id s.id
  pays : ∀ q ∈ sites, ∀ s ∈ sites, s.id ∈ q.neighbors →
    ((s.neighbors.filter fun l => l ≠ q.id).map fun l => T.fare s.id l + 1).sum ≤
      T.fare q.id s.id + T.reserve s
  patient : ∀ s ∈ sites, ∀ l ∈ s.neighbors,
    (Network.timeout? s.timeoutMs (delays.lookup l)).isSome = true → T.reserve s = 0

/-- A tariff with the same fare everywhere. -/
def uniform (fare : Nat) : Tariff where
  fare _ _ := fare
  saving _ := fare

variable {sites : List Site} {delays : List (Location × Nat)}

/-- One fare suits sites that wait for every answer and ask fewer others in a round than it takes
searches to start one. -/
theorem damps_uniform {most : Nat} (hmost : ∀ s ∈ sites, s.neighbors.length ≤ most)
    (hfew : ∀ q ∈ sites, ∀ s ∈ sites, s.id ∈ q.neighbors →
      (s.neighbors.filter fun l => l ≠ q.id).length < s.span)
    (hpatient : ∀ s ∈ sites, ∀ l ∈ s.neighbors,
      Network.timeout? s.timeoutMs (delays.lookup l) = none) :
    (uniform most).Damps sites delays where
  saves _ _ _ _ _ := le_refl most
  pays q hq s hs hlisted := by
    have hspan := hfew q hq s hs hlisted
    have hle := (List.length_filter_le (fun l => decide (l ≠ q.id)) s.neighbors).trans (hmost s hs)
    show ((s.neighbors.filter fun l => l ≠ q.id).map fun _ => most + 1).sum ≤
      most + most * (s.span - 1)
    rw [List.map_const', List.sum_replicate_nat]
    generalize (s.neighbors.filter fun l => l ≠ q.id).length = others at hspan hle ⊢
    obtain ⟨k, hk⟩ := Nat.exists_eq_add_of_lt hspan
    calc others * (most + 1) = others * most + others := Nat.mul_succ _ _
      _ ≤ others * most + most := Nat.add_le_add_left hle _
      _ = (others + 1) * most := (Nat.succ_mul _ _).symm
      _ ≤ s.span * most := Nat.mul_le_mul_right _ hspan
      _ = most + most * (s.span - 1) := by
          rw [hk, Nat.add_sub_cancel, Nat.succ_mul, Nat.mul_comm, Nat.add_comm]
  patient s hs l hl hgivenUp := by
    rw [hpatient s hs l hl] at hgivenUp
    cases hgivenUp

/-- Where all neighbor lists are mutual and every factor is two or more, one fare suits. -/
theorem damps_of_mutual {most : Nat} (hmost : ∀ s ∈ sites, s.neighbors.length ≤ most)
    (hmutual : ∀ q ∈ sites, ∀ s ∈ sites, s.id ∈ q.neighbors → q.id ∈ s.neighbors)
    (hfactor : ∀ s ∈ sites, 2 ≤ s.factor.toNat)
    (hpatient : ∀ s ∈ sites, ∀ l ∈ s.neighbors,
      Network.timeout? s.timeoutMs (delays.lookup l) = none) :
    (uniform most).Damps sites delays := by
  refine damps_uniform hmost ?_ hpatient
  intro q hq s hs hlisted
  have hback := hmutual q hq s hs hlisted
  -- the requester itself is not asked, and the factor at least doubles the others
  have hfewer : (s.neighbors.filter fun l => l ≠ q.id).length < s.neighbors.length :=
    List.length_filter_lt_length_iff_exists.2 ⟨q.id, hback, by simp⟩
  have hdouble := Nat.mul_le_mul_right (s.neighbors.length - 1) (hfactor s hs)
  rw [Site.span]
  omega

end Tariff

namespace Node

variable {n n' : Node} {requester : Option Location} {asked : List Location} {l : Location}
  {outcome : Except ClusterError Message}

theorem live_conclude_le (n : Node) (l : Location) (outcome : Except ClusterError Message) :
    (n.conclude l outcome).rounds.live ≤ n.rounds.live := by
  rw [Rounds.live, (n.conclude_rounds l outcome).2]
  apply Rounds.live_update_le
  intro m
  rw [concluded]
  split
  · simp only [Neighbor.isLive, Neighbor.received, Neighbor.settled]
    cases m.accepting <;> simp
  · simp only [Neighbor.isLive, Neighbor.failed]
    cases m.accepting <;> simp

/-- A neighbor that owes an answer and cannot be reached is live no more. -/
theorem live_conclude_lt {e : ClusterError} (h : responseOf outcome = .error e)
    (hclosed : e.isUnreachable = true)
    (hopen : ∃ m ∈ n.rounds.neighbors, m.location = l ∧ m.status = .requested) :
    (n.conclude l outcome).rounds.live + 1 ≤ n.rounds.live := by
  obtain ⟨m, hm, hl, hstatus⟩ := hopen
  rw [Rounds.live, (n.conclude_rounds l outcome).2]
  apply Rounds.live_update_lt _ hm hl
  · simp [Neighbor.isLive, hstatus]
  · intro m
    simp [concluded, h, Neighbor.isLive, Neighbor.failed, hclosed]

end Node

namespace Tariff

variable (T : Tariff) {n n' : Node} {q l : Location} {asked : List Location}
  {outcome : Except ClusterError Message}

/-- The requests that a node has sent and those it can pay for: its savings, and a reserve for each
neighbor that may be given up. -/
def account (n : Node) : Nat :=
  n.rounds.requestsSent + T.saving n.id * (n.site.span - (max n.rounds.throttle 1).toNat) +
    T.reserve n.site * n.rounds.live

/-- The savings of a node whose throttle has run down are its reserve. -/
theorem saving_of_throttle_le (h : n.rounds.throttle ≤ 1) :
    T.saving n.id * (n.site.span - (max n.rounds.throttle 1).toNat) = T.reserve n.site := by
  rw [max_eq_right h]
  rfl

/-- A search on behalf of a neighbor is paid by the fare of its request. -/
theorem account_searches (hsearch : n.Searches (some q) n' asked)
    (hsaves : T.saving n.id ≤ T.fare q n.id)
    (hpays : ((n.rounds.locations.filter fun l => l ≠ q).map fun l => T.fare n.id l + 1).sum ≤
      T.fare q n.id + T.reserve n.site) :
    T.account n' + (asked.map fun l => T.fare n.id l).sum ≤ T.account n + T.fare q n.id := by
  rw [account, account, hsearch.site, hsearch.id]
  rcases hsearch.rounds with hquiet | hsearched
  · obtain ⟨hsame, rfl⟩ := Prod.mk.inj hquiet
    rw [hsame]
    exact Nat.le_add_right _ _
  · have hrounds : n'.rounds = (n.rounds.exhausted (some q)).1 := congrArg Prod.fst hsearched
    have hasked : asked = (n.rounds.exhausted (some q)).2 := congrArg Prod.snd hsearched
    have hsent := n.rounds.requestsSent_exhausted (some q)
    have hlive := n.rounds.live_exhausted (some q)
    rw [← hrounds, ← hasked] at hsent
    rw [← hrounds] at hlive
    rw [hsent, hlive]
    rcases n.rounds.exhausted_facts (some q) with ⟨hthrottle, heq⟩ | ⟨hthrottle, heq⟩
    · -- the search is only counted, and its fare goes to the savings
      have hnext : n'.rounds.throttle = n.rounds.throttle - 1 := by rw [hrounds, heq]
      have hnobody : asked = [] := by rw [hasked, heq]
      have hstep : n.site.span - (max n'.rounds.throttle 1).toNat ≤
          n.site.span - (max n.rounds.throttle 1).toNat + 1 := by
        rw [hnext]
        omega
      have hsaved := Nat.mul_le_mul_left (T.saving n.id) hstep
      rw [Nat.mul_succ] at hsaved
      rw [hnobody, List.map_nil, List.sum_nil, List.length_nil]
      omega
    · -- the throttle starts anew, and the savings go to the requests
      have hnext : n'.rounds.throttle = n.rounds.pace := by
        rw [hrounds, heq]
        rfl
      have hround : asked = n.rounds.selected (some q) := by rw [hasked, heq]
      have hspent : n.site.span - (max n'.rounds.throttle 1).toNat = 0 := by
        rw [hnext, n.span_site]
        exact Nat.sub_self _
      have hothers := n.rounds.sum_selected_le q fun l => T.fare n.id l + 1
      have hsum : (asked.map fun l => T.fare n.id l + 1).sum =
          (asked.map fun l => T.fare n.id l).sum + asked.length := by
        rw [List.sum_map_add, List.map_const', List.sum_replicate_nat, Nat.mul_one]
      rw [← hround, hsum] at hothers
      rw [hspent, Nat.mul_zero, T.saving_of_throttle_le hthrottle]
      omega

/-- An answer costs nothing. -/
theorem account_answered {response : TakeResponse} (h : Node.responseOf outcome = .ok response) :
    T.account (n.conclude l outcome) ≤ T.account n := by
  have hlive := Nat.mul_le_mul_left (T.reserve n.site) (n.live_conclude_le l outcome)
  have hthrottle : (n.conclude l outcome).rounds.throttle = n.rounds.throttle := by
    rw [Node.conclude_of_ok h]
    rfl
  rw [account, account, n.site_conclude, n.requestsSent_conclude, hthrottle,
    (n.conclude_rounds l outcome).1]
  omega

/-- A failed request ends the throttling, for which its asker has saved or is charged. -/
theorem account_of_error {e : ClusterError} (h : Node.responseOf outcome = .error e) :
    T.account (n.conclude l outcome) =
      n.rounds.requestsSent + T.reserve n.site +
        T.reserve n.site * (n.conclude l outcome).rounds.live := by
  have hthrottle : (n.conclude l outcome).rounds.throttle ≤ 1 := by
    rw [Node.conclude_of_error h]
    exact le_refl _
  rw [account, T.saving_of_throttle_le hthrottle, n.site_conclude, n.requestsSent_conclude]

theorem account_failed {e : ClusterError} (h : Node.responseOf outcome = .error e) :
    T.account (n.conclude l outcome) ≤ T.account n + T.reserve n.site := by
  have hlive := Nat.mul_le_mul_left (T.reserve n.site) (n.live_conclude_le l outcome)
  rw [T.account_of_error h, account]
  omega

/-- What ends the throttling when a neighbor cannot be reached was reserved for that neighbor, and
it is not asked again. -/
theorem account_closed {e : ClusterError} (h : Node.responseOf outcome = .error e)
    (hclosed : e.isUnreachable = true)
    (hopen : ∃ m ∈ n.rounds.neighbors, m.location = l ∧ m.status = .requested) :
    T.account (n.conclude l outcome) ≤ T.account n := by
  have hlive := Nat.mul_le_mul_left (T.reserve n.site) (n.live_conclude_lt h hclosed hopen)
  rw [Nat.mul_succ] at hlive
  rw [T.account_of_error h, account]
  omega

end Tariff

end WorkStealing
