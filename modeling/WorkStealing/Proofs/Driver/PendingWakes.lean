import WorkStealing.Proofs.Driver.Parking

/-!
# Wakes that wait

What is known of a parking lot after any row of calls, told from the calls alone. A worker is idle
if it was noted so since it last parked (`Parking.noted`), and a wake waits for it exactly if one
was addressed to it since then (`Parking.Addressed`): by name, to all, or because it is one of those
that a notice of work rouses (`Parking.Rouses`). `Parking.Recalls` is this agreement; each call keeps
it (`Recalls.call`), and so does every run.

From it follows that no wake is lost or used twice (`Parking.wakes_kept`).
-/

namespace WorkStealing.Parking

/-- What a parking lot may be asked to do. -/
inductive Call where
  | idle (w : Location)
  | ready (target : Option Location)
  | unpark (w : Location)
  | unparkAll
  | park (w : Location)
deriving DecidableEq, Repr

def call (p : Parking) : Call → Parking
  | .idle w => p.markIdle w
  | .ready target => p.ready target
  | .unpark w => p.unpark w
  | .unparkAll => p.unparkAll
  | .park w => (p.park w).1

def run (p : Parking) (calls : List Call) : Parking := calls.foldl call p

/-! ### What the calls say -/

/-- Whether the worker at a position was noted idle since it last parked; the latest call stands
first. -/
def noted (i : Nat) : List Call → Bool
  | [] => false
  | .idle w :: earlier => w.index = i || noted i earlier
  | .park w :: earlier => w.index ≠ i && noted i earlier
  | _ :: earlier => noted i earlier

/-- The first of the idle workers. -/
def IsFirst (idle : Nat → Bool) (i : Nat) : Prop := idle i = true ∧ ∀ j < i, idle j = false

/-- Whom a notice of work rouses among some workers: the one whose queues the work is in; the first
idle one, unless the one named is idle itself; and the first of all if nobody is idle and no worker
is named. -/
def Rouses (workers : Nat) (idle : Nat → Bool) (target : Option Location) (i : Nat) : Prop :=
  (∃ w, target = some w ∧ w.index = i) ∨
    (IsFirst idle i ∧ ∀ w, target = some w → idle w.index = false) ∨
    (i = 0 ∧ (∀ j < workers, idle j = false) ∧ ∀ w, target = some w → workers ≤ w.index)

/-- Whether a wake was addressed to the worker at a position since it last parked. -/
def Addressed (workers i : Nat) : List Call → Prop
  | [] => False
  | .idle _ :: earlier => Addressed workers i earlier
  | .ready target :: earlier =>
    Rouses workers (fun j => decide (j < workers) && noted j earlier) target i ∨
      Addressed workers i earlier
  | .unpark w :: earlier => w.index = i ∨ Addressed workers i earlier
  | .unparkAll :: _ => True
  | .park w :: earlier => w.index ≠ i ∧ Addressed workers i earlier

/-- A parking lot whose flags are what the calls so far say. -/
structure Recalls (workers : Nat) (earlier : List Call) (p : Parking) : Prop where
  places : p.parkers.length = workers
  idle : ∀ i, p.idleAt i = (decide (i < workers) && noted i earlier)
  pending : ∀ i, p.pendingAt i = true ↔ i < workers ∧ Addressed workers i earlier

variable {p : Parking} {workers i j : Nat} {w : Location} {earlier : List Call}

/-! ### Wakes at a position -/

theorem pendingAt_of_le (h : p.parkers.length ≤ i) : p.pendingAt i = false := by
  rw [pendingAt, List.getElem?_eq_none h]
  rfl

theorem idleAt_of_le (h : p.parkers.length ≤ i) : p.idleAt i = false := by
  rw [idleAt, List.getElem?_eq_none h]
  rfl

theorem pendingAt_wake_iff (hj : j < p.parkers.length) :
    (p.wake i).pendingAt j = true ↔ i = j ∨ p.pendingAt j = true := by
  rw [pendingAt_wake p i j hj, Bool.or_eq_true, decide_eq_true_eq]

theorem pendingAt_markIdle (p : Parking) (w : Location) (j : Nat) :
    (p.markIdle w).pendingAt j = p.pendingAt j := by
  rw [pendingAt, pendingAt, markIdle, modifyAt, List.getElem?_modify]
  cases p.parkers[j]? with
  | none => rfl
  | some k =>
      by_cases h : w.index = j
      · simp [h]
      · simp [h]

theorem pendingAt_park (p : Parking) (w : Location) (j : Nat) :
    (p.park w).1.pendingAt j = (decide (w.index ≠ j) && p.pendingAt j) :=
  flag_park rfl p w j

theorem pendingAt_unparkAll (hj : j < p.parkers.length) : p.unparkAll.pendingAt j = true := by
  rw [pendingAt, unparkAll, List.getElem?_map, List.getElem?_eq_getElem hj]
  rfl

/-! ### Whom work rouses -/

theorem firstIdle?_eq_some_iff :
    p.firstIdle? (fun _ => true) = some i ↔ IsFirst p.idleAt i := by
  rw [firstIdle?_eq, List.find?_range_eq_some, IsFirst]
  simp only [Bool.true_and, Bool.not_eq_true', List.mem_range]
  exact ⟨fun h => ⟨h.1, h.2.2⟩, fun h => ⟨h.1, lt_of_idleAt h.1, h.2⟩⟩

theorem firstIdle?_eq_none_iff :
    p.firstIdle? (fun _ => true) = none ↔ ∀ j < p.parkers.length, p.idleAt j = false := by
  rw [firstIdle?_eq, List.find?_range_eq_none]
  simp only [Bool.true_and, Bool.not_eq_true']

/-- Nobody comes first where nobody is idle. -/
theorem not_isFirst (h : ∀ j < p.parkers.length, p.idleAt j = false) : ¬ IsFirst p.idleAt i := by
  intro hfirst
  have hidle := hfirst.1
  rw [h i (lt_of_idleAt hidle)] at hidle
  exact Bool.false_ne_true hidle

/-- An idle worker that is named is roused alone. -/
theorem rouses_of_idle (hidle : p.idleAt w.index = true) :
    Rouses p.parkers.length p.idleAt (some w) j ↔ w.index = j := by
  constructor
  · rintro (⟨_, ⟨⟩, h⟩ | ⟨-, hother⟩ | ⟨-, -, hother⟩)
    · exact h
    · rw [hother w rfl] at hidle
      exact absurd hidle Bool.false_ne_true
    · exact absurd (hother w rfl) (Nat.not_le.2 (lt_of_idleAt hidle))
  · intro h
    exact .inl ⟨w, rfl, h⟩

/-- A busy worker that is named is roused, and the first idle one besides. -/
theorem rouses_of_busy (hw : w.index < p.parkers.length) (hbusy : p.idleAt w.index = false) :
    Rouses p.parkers.length p.idleAt (some w) j ↔
      p.firstIdle? (fun _ => true) = some j ∨ w.index = j := by
  rw [firstIdle?_eq_some_iff]
  constructor
  · rintro (⟨_, ⟨⟩, h⟩ | ⟨hfirst, -⟩ | ⟨-, -, hother⟩)
    · exact .inr h
    · exact .inl hfirst
    · exact absurd (hother w rfl) (Nat.not_le.2 hw)
  · rintro (hfirst | h)
    · exact .inr (.inl ⟨hfirst, by rintro _ ⟨⟩; exact hbusy⟩)
    · exact .inl ⟨w, rfl, h⟩

/-- If no worker is named, the first idle one is roused, or the first of all. -/
theorem rouses_of_outside (hj : j < p.parkers.length) {target : Option Location}
    (hout : ∀ w, target = some w → p.parkers.length ≤ w.index) :
    Rouses p.parkers.length p.idleAt target j ↔ (p.firstIdle? fun _ => true).getD 0 = j := by
  have hnone : ∀ w, target = some w → p.idleAt w.index = false :=
    fun w hw => idleAt_of_le (hout w hw)
  have hnot : ¬ ∃ w, target = some w ∧ w.index = j := by
    rintro ⟨w, hw, rfl⟩
    exact absurd hj (Nat.not_lt.2 (hout w hw))
  cases hfirst : p.firstIdle? fun _ => true with
  | none =>
      have hnobody := firstIdle?_eq_none_iff.1 hfirst
      constructor
      · rintro (h | ⟨hone, -⟩ | ⟨rfl, -⟩)
        · exact absurd h hnot
        · exact absurd hone (not_isFirst hnobody)
        · rfl
      · rintro rfl
        exact .inr (.inr ⟨rfl, hnobody, hout⟩)
  | some i =>
      have hi := firstIdle?_eq_some_iff.1 hfirst
      constructor
      · rintro (h | ⟨hone, -⟩ | ⟨-, hnobody, -⟩)
        · exact absurd h hnot
        · rw [firstIdle?_eq_some_iff.2 hone] at hfirst
          exact (Option.some.inj hfirst).symm
        · exact absurd hi (not_isFirst hnobody)
      · rintro rfl
        exact .inr (.inl ⟨hi, hnone⟩)

/-- A notice of work adds a wake for those that it rouses and for nobody else. -/
theorem pendingAt_ready_iff (hj : j < p.parkers.length) (target : Option Location) :
    (p.ready target).pendingAt j = true ↔
      Rouses p.parkers.length p.idleAt target j ∨ p.pendingAt j = true := by
  rcases ready_cases p target with
    ⟨w, rfl, hidle, hready⟩ | ⟨w, rfl, hw, hbusy, hready⟩ | ⟨hout, -, hready⟩
  · rw [hready, pendingAt_wake_iff hj, rouses_of_idle hidle]
  · rw [hready, rouses_of_busy hw hbusy]
    cases p.firstIdle? fun _ => true with
    | none => simp only [pendingAt_wake_iff hj, reduceCtorEq, false_or]
    | some i =>
        have hlength : j < (p.wake w.index).parkers.length := by rwa [length_wake]
        simp only [pendingAt_wake_iff hlength, pendingAt_wake_iff hj, Option.some.injEq, or_assoc]
  · rw [hready, pendingAt_wake_iff hj, rouses_of_outside hj hout]

/-! ### One call -/

namespace Recalls

/-- A change of the flags that the calls tell, told for the places that there are. -/
theorem of_places {now : List Call} {q : Parking} (h : Recalls workers earlier p)
    (hlength : q.parkers.length = p.parkers.length)
    (hidle : ∀ i < workers, p.idleAt i = noted i earlier → q.idleAt i = noted i now)
    (hpending : ∀ i < workers, (p.pendingAt i = true ↔ Addressed workers i earlier) →
      (q.pendingAt i = true ↔ Addressed workers i now)) :
    Recalls workers now q := by
  have hplaces : q.parkers.length = workers := hlength.trans h.places
  refine ⟨hplaces, fun i => ?_, fun i => ?_⟩
  · by_cases hi : i < workers
    · have hbefore := h.idle i
      rw [decide_eq_true hi, Bool.true_and] at hbefore ⊢
      exact hidle i hi hbefore
    · rw [idleAt_of_le (hplaces ▸ Nat.le_of_not_lt hi), decide_eq_false hi, Bool.false_and]
  · by_cases hi : i < workers
    · have hbefore := h.pending i
      rw [and_iff_right hi] at hbefore ⊢
      exact hpending i hi hbefore
    · rw [pendingAt_of_le (hplaces ▸ Nat.le_of_not_lt hi)]
      exact iff_of_false Bool.false_ne_true fun hand => hi hand.1

/-- Every call keeps the flags in step with the calls. -/
theorem call (h : Recalls workers earlier p) (c : Call) :
    Recalls workers (c :: earlier) (p.call c) := by
  have hplaces := h.places
  cases c with
  | idle w =>
      refine h.of_places (length_modifyAt ..) (fun i hi hbefore => ?_) fun i hi hbefore => ?_
      · rw [noted, ← hbefore]
        exact idleAt_markIdle p w i (hplaces ▸ hi)
      · exact (Bool.eq_iff_iff.1 (pendingAt_markIdle p w i)).trans hbefore
  | ready target =>
      refine h.of_places (length_ready p target) (fun i hi hbefore => ?_) fun i hi hbefore => ?_
      · exact (idleAt_ready p target i).trans hbefore
      · have hflags : p.idleAt = fun j => decide (j < workers) && noted j earlier :=
          funext h.idle
        have hready := pendingAt_ready_iff (hplaces ▸ hi) target
        rw [hplaces, hflags] at hready
        exact hready.trans (or_congr_right hbefore)
  | unpark w =>
      refine h.of_places (length_wake ..) (fun i hi hbefore => ?_) fun i hi hbefore => ?_
      · exact (idleAt_wake p w.index i).trans hbefore
      · exact (pendingAt_wake_iff (hplaces ▸ hi)).trans (or_congr_right hbefore)
  | unparkAll =>
      refine h.of_places (List.length_map _) (fun i hi hbefore => ?_) fun i hi hbefore => ?_
      · exact (idleAt_unparkAll p i).trans hbefore
      · exact iff_of_true (pendingAt_unparkAll (hplaces ▸ hi)) trivial
  | park w =>
      refine h.of_places (length_park p w) (fun i hi hbefore => ?_) fun i hi hbefore => ?_
      · rw [noted, ← hbefore]
        exact idleAt_park p w i
      · show (p.park w).1.pendingAt i = true ↔ w.index ≠ i ∧ Addressed workers i earlier
        rw [pendingAt_park, Bool.and_eq_true, decide_eq_true_eq, hbefore]

theorem run (h : Recalls workers earlier p) (calls : List Call) :
    Recalls workers (calls.reverse ++ earlier) (p.run calls) := by
  -- induction on the calls still to come; those made so far stand in front of the earlier ones
  induction calls generalizing p earlier with
  | nil => exact h
  | cons c rest ih =>
      rw [List.reverse_cons, List.append_assoc]
      exact ih (h.call c)

end Recalls

/-- Nobody is idle at first, and no wake waits. -/
theorem recalls_new (workers : Nat) : Recalls workers [] (new workers) := by
  have hparker : ∀ (i : Nat) (f : Parker → Bool), f {} = false →
      ((List.replicate workers ({} : Parker))[i]?.map f).getD false = false := by
    intro i f hf
    rw [List.getElem?_replicate]
    split
    · exact hf
    · rfl
  refine ⟨List.length_replicate, fun i => ?_, fun i => ?_⟩
  · rw [noted, Bool.and_false]
    exact hparker i Parker.idle rfl
  · have hpending : (new workers).pendingAt i = false := hparker i Parker.notified rfl
    rw [hpending]
    exact iff_of_false Bool.false_ne_true fun hand => hand.2

/-! ### Runs -/

/-- Wakes are never lost. After any row of calls, at places that exist or not: a notice of work
leaves a wake waiting for the worker that it names, if there is such a worker, and for one that is
idle, if any is. A worker that parks finds a wake exactly if one was addressed to it since it last
parked, and its flag says whether it was noted idle since then; parking uses up its own wake, clears
its own flag and leaves those of all others. -/
theorem wakes_kept (workers : Nat) (calls : List Call) :
    let p := (new workers).run calls
    (∀ target : Option Location,
      (∀ w, target = some w → w.index < workers → (p.ready target).pendingAt w.index = true) ∧
        ((∃ i, (p.ready target).idleAt i = true) →
          ∃ i, (p.ready target).idleAt i = true ∧ (p.ready target).pendingAt i = true)) ∧
      ∀ w : Location,
        ((p.park w).2 = true ↔ w.index < workers ∧ Addressed workers w.index calls.reverse) ∧
          p.isIdle w = (decide (w.index < workers) && noted w.index calls.reverse) ∧
          ∀ i, (p.park w).1.pendingAt i = (decide (w.index ≠ i) && p.pendingAt i) ∧
            (p.park w).1.idleAt i = (decide (w.index ≠ i) && p.idleAt i) := by
  intro p
  have hrecalls : Recalls workers calls.reverse p := by
    have hrun := (recalls_new workers).run calls
    rwa [List.append_nil] at hrun
  refine ⟨fun target => ⟨?_, ?_⟩, fun w => ⟨?_, hrecalls.idle w.index, fun i => ?_⟩⟩
  · rintro w rfl hw
    exact (pendingAt_ready_iff (hrecalls.places ▸ hw) (some w)).2 (.inl (.inl ⟨w, rfl, rfl⟩))
  · rintro ⟨i, hi⟩
    rw [idleAt_ready] at hi
    -- somebody is idle, so an idle one is picked
    obtain ⟨j, hpicked, hj⟩ := exists_picked hi target
    refine ⟨j, (idleAt_ready p target j).trans hj, ?_⟩
    rw [pendingAt_ready hj, hpicked, decide_eq_true rfl, Bool.true_or]
  · rw [park_eq_pendingAt]
    exact hrecalls.pending w.index
  · exact ⟨pendingAt_park p w i, idleAt_park p w i⟩

/-- A wake that comes early is found once, and work with a busy worker wakes an idle one too. -/
example :
    (((new 2).run [.unpark ⟨1⟩]).park ⟨1⟩).2 = true ∧
      (((new 2).run [.unpark ⟨1⟩, .park ⟨1⟩]).park ⟨1⟩).2 = false ∧
      (((new 3).run [.idle ⟨2⟩, .ready (some ⟨0⟩)]).park ⟨2⟩).2 = true := by
  decide

end WorkStealing.Parking
