import WorkStealing.Cluster.Config
import WorkStealing.Proofs.Text.Endpoint

/-!
# Nodes on one machine

A configuration is valid exactly if its sizes are positive, its endpoints can be read and its
neighbors are others, each named once (`NodeConfig.validate_eq_ok_iff`). In the configuration of
nodes on one machine the sizes are the usual ones and every endpoint is the written form of a node's
own socket, so that only the neighbors are left to check (`NodeConfig.forLocal_valid_iff`). A node's
socket has the node's number in its name, so no two nodes share one (`Endpoint.forNode_injective`).
-/

namespace WorkStealing

/-! ### Sockets of nodes -/

namespace Endpoint

/-- A node's socket has a name without slashes. -/
theorem isNamed_forNode (node : Location) : (forNode node).IsNamed := by
  have hchars : ("node-" ++ Nat.repr node.id.toNat).toList =
      "node-".toList ++ (Nat.repr node.id.toNat).toList := String.toList_append
  refine ⟨?_, ?_⟩
  · intro hempty
    rw [hempty] at hchars
    cases hchars
  · rw [hchars, List.mem_append]
    rintro (hlead | hdigit)
    · exact absurd hlead (by decide)
    · rw [Nat.toList_repr] at hdigit
      exact absurd (Nat.isDigit_of_mem_toDigits (by decide) (by decide) hdigit) (by decide)

/-- The written form of a node's socket is read as that socket. -/
theorem parse_forNode (node : Location) : parse (forNode node).text = .ok (forNode node) :=
  (parse_text_iff (forNode node)).1.2 (isNamed_forNode node)

theorem forNode_injective : Function.Injective forNode := by
  intro a b h
  have hname : "node-" ++ Nat.repr a.id.toNat = "node-" ++ Nat.repr b.id.toNat := by
    injection h
  have hdigits := (String.append_right_inj "node-").1 hname
  -- the written number is read as the one number or the other
  have ha := Text.parseNat?_repr (Nat.le_of_lt a.id.toNat_lt)
  have hb := Text.parseNat?_repr (Nat.le_of_lt b.id.toNat_lt)
  rw [hdigits, hb] at ha
  exact Location.index_injective (Option.some.inj ha).symm

/-- Nodes whose sockets are written alike are one node, since the text is read as one socket. -/
theorem text_forNode_injective : Function.Injective fun node => (forNode node).text := by
  intro a b h
  have hread : parse (forNode a).text = .ok (forNode b) := by
    rw [show (forNode a).text = (forNode b).text from h, parse_forNode]
  rw [parse_forNode] at hread
  exact forNode_injective (Except.ok.inj hread)

end Endpoint

/-! ### Valid configurations -/

namespace NodeConfig

/-- The check of the neighbors finds nothing exactly if they are others, none is named twice or
was named before, and all their endpoints can be read. -/
theorem neighborFault?_eq_none_iff (node : Location) (seen : List Location)
    (neighbors : List NeighborConfig) :
    neighborFault? node seen neighbors = none ↔
      node ∉ neighbors.map NeighborConfig.location ∧
        (neighbors.map NeighborConfig.location).Nodup ∧
        (∀ n ∈ neighbors, n.location ∉ seen) ∧
        ∀ n ∈ neighbors, ∃ e, endpoint n.endpoint = .ok e := by
  -- induction on the neighbors still to check; those checked so far are the ones seen
  induction neighbors generalizing seen with
  | nil => simp [neighborFault?]
  | cons n rest ih =>
      rw [neighborFault?]
      by_cases hself : n.location = node
      · simp [hself]
      rw [if_neg hself]
      by_cases hseen : n.location ∈ seen
      · simp [hseen]
      rw [if_neg (by simpa using hseen)]
      cases hread : endpoint n.endpoint with
      | error f => simp [hread]
      | ok e =>
          dsimp only
          rw [ih]
          simp only [List.map_cons, List.mem_cons, List.nodup_cons, not_or, forall_eq_or_imp, hread,
            Except.ok.injEq, exists_eq', true_and, List.mem_map, not_exists, not_and]
          constructor
          · rintro ⟨hnode, hnodup, hfresh, hreads⟩
            exact ⟨⟨Ne.symm hself, hnode⟩, ⟨fun x hx => (hfresh x hx).1, hnodup⟩,
              ⟨hseen, fun x hx => (hfresh x hx).2⟩, hreads⟩
          · rintro ⟨⟨-, hnode⟩, ⟨hother, hnodup⟩, ⟨-, hfresh⟩, hreads⟩
            exact ⟨hnode, hnodup, fun x hx => ⟨hother x hx, hfresh x hx⟩, hreads⟩

theorem validate_eq_ok_iff (c : NodeConfig) :
    c.validate = .ok () ↔
      c.protocol.chunkSize ≠ 0 ∧ c.protocol.requestTimeoutMs ≠ 0 ∧
        c.node ∉ c.neighborLocations ∧ c.neighborLocations.Nodup ∧
        (∀ n ∈ c.neighbors, ∃ e, endpoint n.endpoint = .ok e) ∧ ∃ e, c.listenEndpoint = .ok e := by
  have hvalidate : c.validate = .ok () ↔ c.fault? = none := by
    rw [validate]
    cases c.fault? with
    | none => simp
    | some f => simp
  have hneighbors := neighborFault?_eq_none_iff c.node [] c.neighbors
  rw [hvalidate, fault?, neighborLocations]
  by_cases hchunk : c.protocol.chunkSize = 0
  · simp [hchunk]
  rw [if_neg hchunk]
  by_cases htimeout : c.protocol.requestTimeoutMs = 0
  · simp [htimeout]
  rw [if_neg htimeout]
  cases hfault : neighborFault? c.node [] c.neighbors with
  | some f =>
      rw [hfault] at hneighbors
      simp only [reduceCtorEq, false_iff] at hneighbors ⊢
      rintro ⟨-, -, hnode, hnodup, hreads, -⟩
      exact hneighbors ⟨hnode, hnodup, fun _ _ => List.not_mem_nil, hreads⟩
  | none =>
      obtain ⟨hnode, hnodup, -, hreads⟩ := hneighbors.1 hfault
      cases hlisten : c.listenEndpoint with
      | error f => simp
      | ok e => exact iff_of_true rfl ⟨hchunk, htimeout, hnode, hnodup, hreads, e, rfl⟩

/-! ### Local configurations -/

theorem endpoint_forNode (node : Location) :
    endpoint (Endpoint.forNode node).text = .ok (Endpoint.forNode node) := by
  rw [endpoint, Endpoint.parse_forNode]

theorem neighborLocations_forLocal (node : Location) (neighbors : List Location) :
    (forLocal node neighbors).neighborLocations = neighbors := by
  rw [neighborLocations, forLocal, List.map_map]
  exact List.map_id neighbors

theorem endpoints_forLocal (node : Location) (neighbors : List Location) :
    (forLocal node neighbors).neighbors.map (fun n => endpoint n.endpoint) =
      neighbors.map fun l => .ok (Endpoint.forNode l) := by
  rw [forLocal, List.map_map]
  exact List.map_congr_left fun l _ => endpoint_forNode l

/-- Local configurations are valid exactly when they are sane. For every node and every list of
neighbors, the configuration of nodes on one machine is valid if and only if no neighbor is listed
twice and the node itself is not listed. It names the listed nodes in their order; it listens at the
node's own socket, the neighbors' endpoints are read as the sockets of those nodes, and different
nodes never have one endpoint. -/
theorem forLocal_valid_iff (node : Location) (neighbors : List Location) :
    let c := forLocal node neighbors
    (c.validate = .ok () ↔ neighbors.Nodup ∧ node ∉ neighbors) ∧
      c.node = node ∧ c.neighborLocations = neighbors ∧
      c.listenEndpoint = .ok (Endpoint.forNode node) ∧
      c.neighbors.map (fun n => endpoint n.endpoint) =
        neighbors.map (fun l => .ok (Endpoint.forNode l)) ∧
      Function.Injective fun l : Location => (Endpoint.forNode l).text := by
  intro c
  have hlocations : c.neighborLocations = neighbors := neighborLocations_forLocal node neighbors
  have hlisten : c.listenEndpoint = .ok (Endpoint.forNode node) := endpoint_forNode node
  refine ⟨?_, rfl, hlocations, hlisten, endpoints_forLocal node neighbors,
    Endpoint.text_forNode_injective⟩
  rw [validate_eq_ok_iff, hlocations]
  constructor
  · rintro ⟨-, -, hnode, hnodup, -, -⟩
    exact ⟨hnodup, hnode⟩
  · rintro ⟨hnodup, hnode⟩
    have hreads : ∀ n ∈ c.neighbors, ∃ e, endpoint n.endpoint = .ok e := by
      intro n hn
      obtain ⟨l, -, rfl⟩ := List.mem_map.1 hn
      exact ⟨_, endpoint_forNode l⟩
    -- the usual sizes are positive
    exact ⟨(by decide : (4 : UInt32) ≠ 0), (by decide : (2000 : UInt64) ≠ 0), hnode, hnodup, hreads,
      _, hlisten⟩

end NodeConfig

end WorkStealing
