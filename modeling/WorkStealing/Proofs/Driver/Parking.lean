import WorkStealing.Parking

/-!
# Whom work wakes

A notice of work wakes the worker whose queues the work is in, and an idle one besides if that
worker is busy. Seen from the idle workers this is one rule: the notice picks one of them
(`picked`), which is found whenever there is one (`exists_picked`), and of the idle workers it wakes
that one and no other (`pendingAt_ready`). Work changes no flag (`idleAt_ready`).
-/

namespace WorkStealing.Parking

variable {p : Parking} {i j : Nat} {w : Location} {target : Option Location}

/-- The flag at a position. -/
def idleAt (p : Parking) (i : Nat) : Bool := ((p.parkers[i]?).map Parker.idle).getD false

/-- Whether a wake waits at a position. -/
def pendingAt (p : Parking) (i : Nat) : Bool := ((p.parkers[i]?).map Parker.notified).getD false

/-- The idle worker that is woken when there is work: the one whose queues it is in, or the
first. -/
def picked (p : Parking) : Option Location → Option Nat
  | some w => if p.idleAt w.index then some w.index else p.firstIdle? fun _ => true
  | none => p.firstIdle? fun _ => true

/-- A worker that goes to sleep wakes at once if a wake waits for it. -/
theorem park_eq_pendingAt (p : Parking) (w : Location) : (p.park w).2 = p.pendingAt w.index := by
  rw [park, pendingAt, parker?]
  cases p.parkers[w.index]? with
  | none => rfl
  | some k => rfl

theorem pendingAt_wake (p : Parking) (i j : Nat) (hj : j < p.parkers.length) :
    (p.wake i).pendingAt j = (decide (i = j) || p.pendingAt j) := by
  rw [pendingAt, pendingAt, getElem?_wake, List.getElem?_eq_getElem hj]
  by_cases h : i = j
  · simp [h]
  · simp [h]

theorem idleAt_wake (p : Parking) (i j : Nat) : (p.wake i).idleAt j = p.idleAt j := by
  rw [idleAt, idleAt, getElem?_wake]
  by_cases h : i = j
  · rw [if_pos h, Option.map_map]
    rfl
  · rw [if_neg h]

theorem length_wake (p : Parking) (i : Nat) : (p.wake i).parkers.length = p.parkers.length :=
  length_modifyAt ..

theorem lt_of_idleAt (h : p.idleAt i = true) : i < p.parkers.length := by
  rcases Nat.lt_or_ge i p.parkers.length with hlt | hge
  · exact hlt
  · rw [idleAt, List.getElem?_eq_none hge] at h
    cases h

theorem firstIdle?_eq (p : Parking) (test : Nat → Bool) :
    p.firstIdle? test = (List.range p.parkers.length).find? fun i => test i && p.idleAt i := rfl

/-- If anyone is idle, an idle worker is found. -/
theorem exists_firstIdle? (h : p.idleAt i = true) :
    ∃ j, p.firstIdle? (fun _ => true) = some j ∧ p.idleAt j = true := by
  cases hf : p.firstIdle? fun _ => true with
  | some j =>
      rw [firstIdle?_eq] at hf
      have hj := List.find?_some hf
      exact ⟨j, rfl, by simpa using hj⟩
  | none =>
      rw [firstIdle?_eq, List.find?_eq_none] at hf
      have hi := hf i (List.mem_range.2 (lt_of_idleAt h))
      simp [h] at hi

theorem exists_picked (h : p.idleAt i = true) (target : Option Location) :
    ∃ j, p.picked target = some j ∧ p.idleAt j = true := by
  cases target with
  | none => exact exists_firstIdle? h
  | some w =>
      rw [picked]
      by_cases hw : p.idleAt w.index = true
      · exact ⟨w.index, if_pos hw, hw⟩
      · rw [if_neg hw]
        exact exists_firstIdle? h

/-- An idle worker is never the busy one that the search leaves out. -/
theorem firstIdle?_of_busy (hbusy : p.idleAt i = false) :
    p.firstIdle? (· ≠ i) = p.firstIdle? fun _ => true := by
  rw [firstIdle?_eq, firstIdle?_eq]
  congr 1
  funext j
  by_cases hj : j = i
  · simp [hj, hbusy]
  · simp [hj]

/-- Work in the queues of an idle worker wakes that worker; in those of a busy one it wakes both the
busy one and the first idle one; elsewhere it wakes the first idle one. -/
theorem ready_cases (p : Parking) (target : Option Location) :
    (∃ w, target = some w ∧ p.idleAt w.index = true ∧ p.ready target = p.wake w.index) ∨
      (∃ w, target = some w ∧ w.index < p.parkers.length ∧ p.idleAt w.index = false ∧
        p.ready target = match p.firstIdle? fun _ => true with
          | some i => (p.wake w.index).wake i
          | none => p.wake w.index) ∨
      ((∀ w, target = some w → p.parkers.length ≤ w.index) ∧
        p.picked target = p.firstIdle? (fun _ => true) ∧
        p.ready target = p.wake ((p.firstIdle? fun _ => true).getD 0)) := by
  cases target with
  | none => exact .inr (.inr ⟨nofun, rfl, rfl⟩)
  | some w =>
      rw [ready, Option.bind_some, parker?]
      cases hk : p.parkers[w.index]? with
      | none =>
          -- a worker without a place is not idle
          have hnot : p.idleAt w.index = false := by
            rw [idleAt, hk]
            rfl
          right
          right
          refine ⟨?_, ?_, rfl⟩
          · rintro _ ⟨⟩
            exact List.getElem?_eq_none_iff.1 hk
          · rw [picked, hnot, if_neg Bool.false_ne_true]
      | some k =>
          have hidle : p.idleAt w.index = k.idle := by
            rw [idleAt, hk]
            rfl
          rw [Option.map_some]
          dsimp only
          cases hi : k.idle with
          | true =>
              left
              exact ⟨w, rfl, hidle.trans hi, if_pos rfl⟩
          | false =>
              right
              left
              have hbusy := hidle.trans hi
              have hfound := firstIdle?_of_busy hbusy
              refine ⟨w, rfl, (List.getElem?_eq_some_iff.1 hk).1, hbusy, ?_⟩
              rw [if_neg Bool.false_ne_true]
              generalize p.firstIdle? (· ≠ w.index) = found at hfound ⊢
              subst hfound
              rfl

theorem idleAt_ready (p : Parking) (target : Option Location) (j : Nat) :
    (p.ready target).idleAt j = p.idleAt j := by
  rcases ready_cases p target with
    ⟨w, -, -, hready⟩ | ⟨w, -, -, -, hready⟩ | ⟨-, -, hready⟩
  · rw [hready, idleAt_wake]
  · rw [hready]
    cases p.firstIdle? fun _ => true with
    | some i => rw [idleAt_wake, idleAt_wake]
    | none => rw [idleAt_wake]
  · rw [hready, idleAt_wake]

theorem length_ready (p : Parking) (target : Option Location) :
    (p.ready target).parkers.length = p.parkers.length := by
  rcases ready_cases p target with
    ⟨w, -, -, hready⟩ | ⟨w, -, -, -, hready⟩ | ⟨-, -, hready⟩
  · rw [hready, length_wake]
  · rw [hready]
    cases p.firstIdle? fun _ => true with
    | some i => rw [length_wake, length_wake]
    | none => rw [length_wake]
  · rw [hready, length_wake]

/-- Of the idle workers, work wakes the one that is picked and no other. -/
theorem pendingAt_ready (hj : p.idleAt j = true) (target : Option Location) :
    (p.ready target).pendingAt j = (decide (p.picked target = some j) || p.pendingAt j) := by
  have hlt := lt_of_idleAt hj
  obtain ⟨i, hfirst, -⟩ := exists_firstIdle? hj
  rcases ready_cases p target with
    ⟨w, rfl, hw, hready⟩ | ⟨w, rfl, -, hw, hready⟩ | ⟨-, hpicked, hready⟩
  · rw [hready, pendingAt_wake p _ _ hlt, picked, if_pos hw]
    simp
  · -- the busy worker is not the one in question
    have hne : w.index ≠ j := by
      rintro rfl
      rw [hj] at hw
      cases hw
    rw [hready, hfirst]
    dsimp only
    rw [pendingAt_wake _ _ _ (by rw [length_wake]; exact hlt), pendingAt_wake p _ _ hlt, picked, hw,
      if_neg Bool.false_ne_true, hfirst]
    simp [hne]
  · rw [hready, hpicked, hfirst, pendingAt_wake p _ _ hlt]
    simp

theorem idleAt_markIdle (p : Parking) (w : Location) (j : Nat) (hj : j < p.parkers.length) :
    (p.markIdle w).idleAt j = (decide (w.index = j) || p.idleAt j) := by
  rw [idleAt, idleAt, markIdle, modifyAt, List.getElem?_modify, List.getElem?_eq_getElem hj]
  by_cases h : w.index = j
  · simp [h]
  · simp [h]

/-- Going to sleep clears what is kept for the sleeper and nothing else. -/
theorem flag_park {flag : Parker → Bool} (hflag : flag {} = false) (p : Parking) (w : Location)
    (j : Nat) :
    (((p.park w).1.parkers[j]?).map flag).getD false =
      (decide (w.index ≠ j) && ((p.parkers[j]?).map flag).getD false) := by
  rw [park, parker?]
  cases hk : p.parkers[w.index]? with
  | none =>
      dsimp only
      by_cases h : w.index = j
      · subst h
        simp [hk]
      · simp [h]
  | some k =>
      dsimp only
      rw [modifyAt, List.getElem?_modify]
      by_cases h : w.index = j
      · subst h
        simp [hk, hflag]
      · simp [h]

theorem idleAt_park (p : Parking) (w : Location) (j : Nat) :
    (p.park w).1.idleAt j = (decide (w.index ≠ j) && p.idleAt j) :=
  flag_park rfl p w j

theorem length_park (p : Parking) (w : Location) :
    (p.park w).1.parkers.length = p.parkers.length := by
  rw [park]
  cases p.parker? w with
  | none => rfl
  | some k => exact length_modifyAt ..

theorem idleAt_unparkAll (p : Parking) (j : Nat) : p.unparkAll.idleAt j = p.idleAt j := by
  rw [idleAt, idleAt, unparkAll, List.getElem?_map, Option.map_map]
  rfl

end WorkStealing.Parking
