import Mathlib.Logic.Relation
import WorkStealing.Proofs.Pool.Linked

/-!
# Gives and group calls as moves

Each call of a pool in step is made of moves, so that what a call keeps is said once for moves. A
give is one move or changes nothing (`give_cases`), and so is a call that makes a group
(`createGroup_cases`); the other calls on groups are quiet (`retireGroup_quiet`,
`groupTaskDone_quiet`).

`Quiet` and `Yields` say what longer rows of moves amount to.
-/

namespace WorkStealing.Pool

/-- Moves that let nothing in or out and make no group, any number of them. -/
def Quiet : Pool → Pool → Prop := Relation.ReflTransGen fun p q => Move p .stayed q

/-- What a search does: quiet moves, and the departure of the task that it found. -/
def Yields (p : Pool) : Option Taken → Pool → Prop
  | none, q => Quiet p q
  | some taken, q => ∃ m, Quiet p m ∧ Move m (.left taken) q

/-- The task that a search found, as a multiset. -/
def foundTask (r : Option Taken) : Multiset TaskHandle := (r.map Taken.task).elim 0 ({·})

variable {p q m : Pool} {k : Nat} {s : Seat} {i : ArenaIndex} {g : AffinityGroup}
  {w : Location} {r : Option Taken}

theorem Quiet.refl (p : Pool) : Quiet p p := Relation.ReflTransGen.refl

theorem Quiet.of_move (h : Move p .stayed q) : Quiet p q := Relation.ReflTransGen.single h

theorem Quiet.linked (hq : Quiet p q) (h : p.Linked) : q.Linked := by
  induction hq with
  | refl => exact h
  | tail _ hm ih => exact hm.linked ih

theorem Quiet.held (hq : Quiet p q) (h : p.Linked) : q.held = p.held := by
  induction hq with
  | refl => rfl
  | @tail b c hpb hm ih =>
      have hmove : c.held + 0 = b.held + 0 := hm.held (Quiet.linked hpb h).arena
      rw [add_zero, add_zero] at hmove
      exact hmove.trans ih

/-- What no quiet move changes, no row of them changes. -/
theorem Quiet.unchanged {α : Type} {f : Pool → α}
    (hf : ∀ {p q : Pool}, Move p .stayed q → f q = f p) (hq : Quiet p q) : f q = f p := by
  induction hq with
  | refl => rfl
  | tail _ hm ih => exact (hf hm).trans ih

theorem Quiet.maxRepels (hq : Quiet p q) : q.maxRepels = p.maxRepels :=
  hq.unchanged Move.maxRepels

theorem Quiet.workerCount (hq : Quiet p q) : q.workerCount = p.workerCount :=
  hq.unchanged Move.workerCount

theorem Yields.refl (p : Pool) : Yields p none p := Quiet.refl p

theorem Yields.of_move {taken : Taken} (h : Move p (.left taken) q) : Yields p (some taken) q :=
  ⟨p, .refl p, h⟩

theorem Yields.after (hq : Quiet p m) (hy : Yields m r q) : Yields p r q := by
  cases r with
  | none => exact Relation.ReflTransGen.trans hq hy
  | some taken =>
      obtain ⟨b, hb, hm⟩ := hy
      exact ⟨b, Relation.ReflTransGen.trans hq hb, hm⟩

theorem Yields.linked (hy : Yields p r q) (h : p.Linked) : q.Linked := by
  cases r with
  | none => exact Quiet.linked hy h
  | some taken =>
      obtain ⟨b, hb, hm⟩ := hy
      exact hm.linked (hb.linked h)

/-- What no move but one that makes a group changes, no search changes. -/
theorem Yields.unchanged {α : Type} {f : Pool → α}
    (hf : ∀ {p q : Pool} {e : Event}, Move p e q → e ≠ .founded → f q = f p) (hy : Yields p r q) :
    f q = f p := by
  cases r with
  | none => exact Quiet.unchanged (fun hm => hf hm (by simp)) hy
  | some taken =>
      obtain ⟨b, hb, hm⟩ := hy
      exact (hf hm (by simp)).trans (hb.unchanged fun hm => hf hm nofun)

theorem Yields.workerCount (hy : Yields p r q) : q.workerCount = p.workerCount :=
  hy.unchanged fun hm _ => hm.workerCount

/-- A search takes out what it found and nothing else. -/
theorem Yields.held (hy : Yields p r q) (h : p.Linked) : q.held + foundTask r = p.held := by
  cases r with
  | none => exact (add_zero _).trans (Quiet.held hy h)
  | some taken =>
      -- the quiet moves keep what is queued, so only the last one counts
      obtain ⟨b, hb, hm⟩ := hy
      exact (hm.held (hb.linked h).arena).trans ((add_zero _).trans (hb.held h))

/-! ### Giving -/

theorem giveToWorker_cases (p : Pool) (giver : Giver) (t : TaskHandle) (hint : Hint) :
    (∃ placed, (p.giveToWorker giver t hint).2 = .ok placed ∧
        Move p (.entered t) (p.giveToWorker giver t hint).1) ∨
      ∃ f, p.giveToWorker giver t hint = (p, .error f) := by
  rw [giveToWorker]
  dsimp only
  cases hs : p.seat? (p.target giver.location hint) with
  | none => exact .inr ⟨_, rfl⟩
  | some s =>
      dsimp only
      split
      next e he => exact .inr ⟨e, rfl⟩
      next used lane hput =>
        have hor : s.lane.insert t ((hint.priority.map UInt32.toNat).getD s.lane.defaultLevel) =
              .ok (used, lane) ∨
            s.lane.inject t ((hint.priority.map UInt32.toNat).getD s.lane.defaultLevel) =
              .ok (used, lane) := by
          -- the owner's end or the injected part: either is a queued task
          split at hput
          · exact .inl hput
          · exact .inr hput
        exact .inl ⟨_, rfl, .queued hs hor⟩

/-- Only a full staging slot or a full queue refuses a task, and then nothing changes: the queue of
a group that was new is empty, so it is never staged for a task that is refused. -/
theorem giveToGroup_cases (h : p.Linked) {key : AffinityKey} (hf : p.indexOf? key = some i)
    (hg : p.groups.get? i = some g) (t : TaskHandle) :
    (∃ placed, (p.giveToGroup key i g t).2 = .ok placed ∧
        Move p (.entered t) (p.giveToGroup key i g t).1) ∨
      ∃ f, p.giveToGroup key i g t = (p, .error f) := by
  have hsame : p.groups.set i g = p.groups := Arena.set_self hg
  rw [giveToGroup]
  -- only the first task of a group that is new needs a place on the shelf
  by_cases hnew : g.stage = .new
  · obtain ⟨d, hd⟩ := WorkDeque.push_of_tasks_eq_nil ((h.consistent i g hg).empty_of_new hnew) t
    rw [AffinityGroup.insertWith_of_new hnew hd]
    cases hs : p.staging.push key i with
    | error f =>
        refine .inr ⟨f, ?_⟩
        simp only [hsame, Except.map]
    | ok staging => exact .inl ⟨.group key true, rfl, Move.published hf hg hnew hs hd⟩
  · rw [AffinityGroup.insertWith_of_ne_new hnew]
    cases hd : g.queue.push t with
    | error f =>
        refine .inr ⟨f, ?_⟩
        simp only [hsame, Except.map]
    | ok d => exact .inl ⟨.group key false, rfl, Move.joined hf hg hnew hd⟩

/-- A give that succeeds lets the task in; one that fails changes nothing. -/
theorem give_cases (h : p.Linked) (giver : Giver) (t : TaskHandle) (hint : Hint) :
    (∃ placed, (p.give giver t hint).2 = .ok placed ∧
        Move p (.entered t) (p.give giver t hint).1) ∨
      ∃ f, p.give giver t hint = (p, .error f) := by
  unfold give
  dsimp only
  split
  next key i g hfound =>
    -- a group is found only where affinity counts and the key has one
    split at hfound
    · obtain ⟨key', -, hkey⟩ := Option.bind_eq_some_iff.1 hfound
      obtain ⟨i', hi, hmap⟩ := Option.bind_eq_some_iff.1 hkey
      obtain ⟨g', hg, heq⟩ := Option.map_eq_some_iff.1 hmap
      cases heq
      exact giveToGroup_cases h hi hg t
    · cases hfound
  next => exact giveToWorker_cases p giver t hint

/-! ### Groups -/

theorem createGroup_cases (p : Pool) (key : AffinityKey) :
    (p.createGroup key).1 = p ∨ Move p .founded (p.createGroup key).1 := by
  rw [createGroup]
  cases hi : p.indexOf? key with
  | some i => exact .inl rfl
  | none => exact .inr (.created hi)

theorem retireGroup_quiet (p : Pool) (key : AffinityKey) : Quiet p (p.retireGroup key).1 := by
  rw [retireGroup]
  cases hi : p.indexOf? key with
  | none => exact .refl p
  | some i =>
      dsimp only
      cases hg : p.groups.get? i with
      | none => exact .of_move (.forgotten hi hg)
      | some g =>
          dsimp only
          by_cases hidle : g.isIdle = true
          · rw [if_pos hidle]
            cases hr : p.groups.remove i with
            | none =>
                -- what is looked up can be removed
                rw [Arena.remove_eq_none_iff, hg] at hr
                cases hr
            | some removed =>
                obtain ⟨x, groups⟩ := removed
                have hx : x = g :=
                  Option.some.inj ((Arena.remove_eq_some hr).1.symm.trans hg)
                exact .of_move (.retired hi hr (hx ▸ hidle))
          · rw [if_neg hidle]
            exact .refl p

theorem groupTaskDone_quiet (p : Pool) (i : ArenaIndex) : Quiet p (p.groupTaskDone i) := by
  rw [groupTaskDone]
  cases hg : p.groups.get? i with
  | none => exact .refl p
  | some g => exact .of_move (.finished hg)

end WorkStealing.Pool
