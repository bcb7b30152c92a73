import WorkStealing.Proofs.Pool.Search

/-!
# Runs of a pool

A run is a row of calls by anyone in any order, from an empty pool on (`Pool.run`). A call keeps
the pool in step whether or not it succeeds (`linked_perform`), so every run does (`linked_run`).
-/

namespace WorkStealing.Pool

/-- The calls that change a pool. -/
inductive Call where
  | give (giver : Giver) (t : TaskHandle) (hint : Hint)
  | take (w : Location) (cursor : StealCursor)
  | createGroup (key : AffinityKey)
  | retireGroup (key : AffinityKey)
  | groupTaskDone (i : ArenaIndex)

/-- Whether a call may make a group. -/
def Call.createsGroup : Call → Bool
  | .createGroup _ => true
  | _ => false

/-- The pool after a call. -/
def perform (p : Pool) : Call → Pool
  | .give giver t hint => (p.give giver t hint).1
  | .take w cursor => (p.take w cursor).1
  | .createGroup key => (p.createGroup key).1
  | .retireGroup key => (p.retireGroup key).1
  | .groupTaskDone i => p.groupTaskDone i

/-- The pool after a row of calls. -/
def run (p : Pool) (calls : List Call) : Pool := calls.foldl perform p

variable {p : Pool}

/-- A call is a row of moves. -/
theorem perform_moves (h : p.Linked) (call : Call) :
    Relation.ReflTransGen (fun p q => ∃ e, Move p e q) p (p.perform call) := by
  -- quiet moves are moves
  have hquiet : ∀ {p q : Pool}, Quiet p q →
      Relation.ReflTransGen (fun p q => ∃ e, Move p e q) p q :=
    fun hq => Relation.ReflTransGen.mono (fun _ _ hm => ⟨_, hm⟩) _ _ hq
  cases call with
  | give giver t hint =>
      rcases give_cases h giver t hint with ⟨placed, -, hm⟩ | ⟨f, hf⟩
      · exact .single ⟨_, hm⟩
      · rw [perform, hf]
  | take w cursor =>
      have hy := take_yields h w cursor
      rw [perform]
      cases hr : (p.take w cursor).2.2 with
      | none =>
          rw [hr] at hy
          exact hquiet hy
      | some taken =>
          rw [hr] at hy
          obtain ⟨m, hm, hleft⟩ := hy
          exact (hquiet hm).tail ⟨_, hleft⟩
  | createGroup key =>
      rcases createGroup_cases p key with hsame | hm
      · rw [perform, hsame]
      · exact .single ⟨_, hm⟩
  | retireGroup key => exact hquiet (retireGroup_quiet p key)
  | groupTaskDone i => exact hquiet (groupTaskDone_quiet p i)

/-- What every move keeps, given that the pool is in step, every call keeps. -/
theorem perform_induction {P : Pool → Prop} (h : p.Linked) (hp : P p)
    (step : ∀ p q e, p.Linked → Move p e q → P p → P q) (call : Call) :
    (p.perform call).Linked ∧ P (p.perform call) := by
  have hmoves := perform_moves h call
  generalize p.perform call = q at hmoves
  -- induction on the moves of the call; being in step goes along, as the next move needs it
  induction hmoves with
  | refl => exact ⟨h, hp⟩
  | tail _ hm ih =>
      obtain ⟨e, hm⟩ := hm
      exact ⟨hm.linked ih.1, step _ _ e ih.1 hm ih.2⟩

/-- What every move keeps, given that the pool is in step, every run keeps. -/
theorem run_induction {P : Pool → Prop} (h : p.Linked) (hp : P p)
    (step : ∀ p q e, p.Linked → Move p e q → P p → P q) (calls : List Call) :
    (p.run calls).Linked ∧ P (p.run calls) := by
  -- induction on the calls still to come
  induction calls generalizing p with
  | nil => exact ⟨h, hp⟩
  | cons call rest ih =>
      obtain ⟨hcall, hpcall⟩ := perform_induction h hp step call
      exact ih hcall hpcall

theorem linked_run (h : p.Linked) (calls : List Call) : (p.run calls).Linked :=
  (run_induction (P := fun _ => True) h trivial (fun _ _ _ _ _ _ => trivial) calls).1

theorem maxRepels_run (h : p.Linked) (calls : List Call) :
    (p.run calls).maxRepels = p.maxRepels :=
  (run_induction (P := fun q => q.maxRepels = p.maxRepels) h rfl
    (fun _ _ _ _ hm hq => hm.maxRepels.trans hq) calls).2

theorem workerCount_run (h : p.Linked) (calls : List Call) :
    (p.run calls).workerCount = p.workerCount :=
  (run_induction (P := fun q => q.workerCount = p.workerCount) h rfl
    (fun _ _ _ _ hm hq => hm.workerCount.trans hq) calls).2

end WorkStealing.Pool
