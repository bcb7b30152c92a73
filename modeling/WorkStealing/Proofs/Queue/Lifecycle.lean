import WorkStealing.Proofs.Queue.Contents

/-!
# The life of an affinity group

A group that is used on its own, by any workers in any order: tasks come in, workers adopt it, drain
it, remove from either end or steal. `History` keeps beside the group what its callers saw of it,
namely the tasks they got in and out and how often the group was published and let go. `Turns` says
what any one call may do, and `lifecycle_run` adds this up over every row of calls: a group is
published once in each of its lives, and nobody but its drainer ends one.
-/

namespace WorkStealing.AffinityGroup

/-- A call of a group. Who publishes it may keep any shelf, and publishing may fail. -/
inductive Call : Type 1 where
  | insert (t : TaskHandle)
  | insertWith {σ : Type} (t : TaskHandle) (shelf : σ) (publish : σ → Except SchedError σ)
  | adopt (w : Location)
  | drain (w : Location)
  | steal
  | remove (side : End) (w : Location)
  | started
  | done

/-- What a call answers. -/
inductive Reply where
  | inserted (r : Except SchedError Bool)
  | adopted (r : Except SchedError Unit)
  | removed (t? : Option TaskHandle)
  | noted

namespace Reply

/-- The group was published for the inserted task. -/
def publishes : Reply → Bool
  | .inserted (.ok b) => b
  | _ => false

/-- The task that the caller gets. -/
def task? : Reply → Option TaskHandle
  | .removed t? => t?
  | _ => none

def isError : Reply → Bool
  | .inserted (.error _) => true
  | .adopted (.error _) => true
  | _ => false

end Reply

/-- The task that an insertion brings in, by its answer. -/
def broughtIn (t : TaskHandle) : Except SchedError Bool → Option TaskHandle
  | .ok _ => some t
  | .error _ => none

/-- The task that a call brings in, by its answer. -/
def Call.accepted : Call → Reply → Option TaskHandle
  | .insert t, .inserted r => broughtIn t r
  | .insertWith t _ _, .inserted r => broughtIn t r
  | _, _ => none

/-- The group after a call, and the answer. -/
def perform (g : AffinityGroup) : Call → AffinityGroup × Reply
  | .insert t => ((g.insert t).1, .inserted (g.insert t).2)
  | .insertWith t shelf publish =>
    ((g.insertWith t shelf publish).1, .inserted (g.insertWith t shelf publish).2.2)
  | .adopt w =>
    match g.adopt w with
    | .ok g' => (g', .adopted (.ok ()))
    | .error e => (g, .adopted (.error e))
  | .drain w => ((g.drain w).1, .removed (g.drain w).2)
  | .steal => (g.steal.1, .removed g.steal.2)
  | .remove side w => ((g.remove side w).1, .removed (g.remove side w).2)
  | .started => (g.started, .noted)
  | .done => (g.done, .noted)

/-- A call that ends the group's life: the queue is empty, and the caller removes at the owner's end
as the drainer or, from a group that waits, as the worker this very call makes the drainer. -/
def Releases (g : AffinityGroup) : Call → Prop
  | .drain w => g.tasks = [] ∧ g.stage.drainer? = some w
  | .remove .tail w => g.tasks = [] ∧ (g.stage.drainer? = some w ∨ g.state = .staged)
  | _ => False

/-- A group and what its callers have seen of it. -/
structure History where
  group : AffinityGroup
  /-- The tasks whose insertion succeeded. -/
  accepted : List TaskHandle := []
  /-- The tasks that came out. -/
  returned : List TaskHandle := []
  /-- How many insertions said that they published the group. -/
  published : Nat := 0
  /-- How many calls made a group new that was not. -/
  released : Nat := 0

namespace History

def step (h : History) (call : Call) : History :=
  let (g, reply) := h.group.perform call
  { group := g
    accepted := h.accepted ++ (call.accepted reply).toList
    returned := h.returned ++ reply.task?.toList
    published := h.published + reply.publishes.toNat
    released := h.released + if h.group.state ≠ .new ∧ g.state = .new then 1 else 0 }

def run (h : History) (calls : List Call) : History := calls.foldl step h

end History

/-! ### What one call does -/

/-- A group before and after, with the task that came in, the task that went out and whether the
group was published in between. -/
structure Turns (g g' : AffinityGroup) (added removed : Option TaskHandle) (published : Bool) :
    Prop where
  bare : g'.stage = .new → g'.tasks = []
  balance : (added.toList : Multiset TaskHandle) + g.tasks = removed.toList + g'.tasks
  stagings : g'.stagings = g.stagings + published.toNat
  onset : published = true ↔ g.stage = .new ∧ g'.stage ≠ .new

variable {g g' : AffinityGroup}

@[simp] theorem state_eq_new_iff : g.state = .new ↔ g.stage = .new := by
  rw [state]
  cases g.stage <;> simp [Stage.state]

@[simp] theorem state_eq_staged_iff : g.state = .staged ↔ g.stage = .staged := by
  rw [state]
  cases g.stage <;> simp [Stage.state]

/-- A group has a drainer exactly while it is active. -/
theorem drainer_isSome_iff : g.stage.drainer?.isSome = true ↔ g.state = .active := by
  rw [state]
  cases g.stage <;> simp [Stage.drainer?, Stage.state]

theorem drainer_eq_some_iff {w : Location} :
    g.stage.drainer? = some w ↔ g.stage = .active w := by
  cases g.stage <;> simp [Stage.drainer?]

theorem stage_drain (g : AffinityGroup) (w : Location) :
    (g.drain w).1.stage = if g.tasks = [] ∧ g.stage = .active w then .new else g.stage := by
  have hempty := g.queue.pop?_eq_none_iff
  rw [drain]
  cases hpop : g.queue.pop? with
  | some x =>
      rw [hpop] at hempty
      have hbusy : g.tasks ≠ [] := by
        intro hnil
        cases hempty.2 hnil
      simp [hbusy]
  | none =>
      have hbare : g.tasks = [] := hempty.1 hpop
      by_cases hs : g.stage = .active w
      · simp [hs, hbare]
      · simp [hs]

theorem stage_steal (g : AffinityGroup) : g.steal.1.stage = g.stage := by
  rw [steal]
  cases g.queue.steal? <;> rfl

/-- A call that is about neither the queue nor the stage. -/
theorem Turns.idle (bare : g.stage = .new → g.tasks = []) (hqueue : g'.queue = g.queue)
    (hstage : g'.stage = g.stage) (hstagings : g'.stagings = g.stagings) :
    Turns g g' none none false where
  bare := by rw [hstage, tasks, hqueue]; exact bare
  balance := by rw [tasks, tasks, hqueue]
  stagings := by rw [hstagings]; rfl
  onset := by rw [hstage]; simp

/-- A removal from the queue, at either end. -/
theorem Turns.taken (side : End) {t : TaskHandle} {d : WorkDeque}
    (bare : g.stage = .new → g.tasks = []) (h : g.queue.takeAt? side = some (t, d)) :
    Turns g { g with queue := d } none (some t) false where
  bare hnew := by
    -- a group that is new has nothing that could be taken
    have hnone := (g.queue.takeAt?_eq_none_iff side).2 (bare hnew)
    rw [h] at hnone
    cases hnone
  balance := by
    have htake := WorkDeque.coe_tasks_takeAt? h
    simp only [Option.toList, tasks, Multiset.coe_nil, zero_add, Multiset.coe_singleton,
      Multiset.singleton_add]
    exact htake
  stagings := rfl
  onset := by simp

/-- An insertion publishes the group exactly if it is new, and cannot fail to queue the task then. -/
theorem turns_insertWith {σ : Type} (bare : g.stage = .new → g.tasks = []) (t : TaskHandle)
    (shelf : σ) (publish : σ → Except SchedError σ) :
    Turns g (g.insertWith t shelf publish).1 (broughtIn t (g.insertWith t shelf publish).2.2) none
      (Reply.inserted (g.insertWith t shelf publish).2.2).publishes := by
  by_cases hnew : g.stage = .new
  · obtain ⟨d, hd⟩ := WorkDeque.push_of_tasks_eq_nil (bare hnew) t
    rw [insertWith_of_new hnew hd]
    cases publish shelf with
    | error e => exact Turns.idle bare rfl rfl rfl
    | ok shelf' =>
        constructor
        · intro hstage
          cases hstage
        · simpa [broughtIn, tasks] using (WorkDeque.coe_tasks_push hd).symm
        · rfl
        · simp [Reply.publishes, hnew]
  · rw [insertWith_of_ne_new hnew]
    cases hpush : g.queue.push t with
    | error e => exact Turns.idle bare rfl rfl rfl
    | ok d =>
        constructor
        · intro hstage
          exact absurd hstage hnew
        · simpa [broughtIn, tasks] using (WorkDeque.coe_tasks_push hpush).symm
        · rfl
        · simp [Reply.publishes, hnew]

/-- A drain takes the newest task, or finds none and changes at most the stage. -/
theorem turns_drain (bare : g.stage = .new → g.tasks = []) (w : Location) :
    Turns g (g.drain w).1 none (g.drain w).2 false := by
  rw [drain]
  cases hpop : g.queue.pop? with
  | some x => exact Turns.taken .tail bare hpop
  | none =>
      have hbare : g.tasks = [] := (g.queue.pop?_eq_none_iff).1 hpop
      by_cases hs : g.stage = .active w
      · simp only [if_pos hs]
        constructor
        · intro hnew
          exact hbare
        · rfl
        · rfl
        · simp [hs]
      · simp only [if_neg hs]
        exact Turns.idle bare rfl rfl rfl

theorem turns_steal (bare : g.stage = .new → g.tasks = []) :
    Turns g g.steal.1 none g.steal.2 false := by
  rw [steal]
  cases hsteal : g.queue.steal? with
  | some x => exact Turns.taken .head bare hsteal
  | none => exact Turns.idle bare rfl rfl rfl

/-- Adoption goes from one published stage to another, so what follows it may be told of the group
that still waited. -/
theorem Turns.of_adopted {added removed : Option TaskHandle} {published : Bool} {w : Location}
    (hs : g.stage = .staged) (h : Turns { g with stage := .active w } g' added removed published) :
    Turns g g' added removed published where
  bare := h.bare
  balance := h.balance
  stagings := h.stagings
  onset := by rw [h.onset, hs]; simp

theorem remove_tail_of_staged (hs : g.stage = .staged) (w : Location) :
    g.remove .tail w = ({ g with stage := .active w } : AffinityGroup).drain w := by
  rw [remove, if_pos hs]

theorem remove_tail_of_ne_staged (hs : g.stage ≠ .staged) (w : Location) :
    g.remove .tail w = g.drain w := by
  rw [remove, if_neg hs]

theorem turns_remove (bare : g.stage = .new → g.tasks = []) (side : End) (w : Location) :
    Turns g (g.remove side w).1 none (g.remove side w).2 false := by
  cases side with
  | head => exact turns_steal bare
  | tail =>
      by_cases hs : g.stage = .staged
      · rw [remove_tail_of_staged hs]
        apply Turns.of_adopted hs
        exact turns_drain (fun hnew => by cases hnew) w
      · rw [remove_tail_of_ne_staged hs]
        exact turns_drain bare w

theorem turns_perform (bare : g.stage = .new → g.tasks = []) (call : Call) :
    Turns g (g.perform call).1 (call.accepted (g.perform call).2) (g.perform call).2.task?
      (g.perform call).2.publishes := by
  cases call with
  | insert t => exact turns_insertWith bare t () .ok
  | insertWith t shelf publish => exact turns_insertWith bare t shelf publish
  | adopt w =>
      rw [perform]
      cases hadopt : g.adopt w with
      | error e => exact Turns.idle bare rfl rfl rfl
      | ok g' =>
          obtain ⟨hs, rfl⟩ := (adopt_eq_ok_iff g g' w).1 hadopt
          apply Turns.of_adopted hs
          exact Turns.idle (fun hnew => by cases hnew) rfl rfl rfl
  | drain w => exact turns_drain bare w
  | steal => exact turns_steal bare
  | remove side w => exact turns_remove bare side w
  | started => exact Turns.idle bare rfl rfl rfl
  | done => exact Turns.idle bare rfl rfl rfl

/-- An insertion does not make a published group new. -/
theorem stage_insertWith_ne_new {σ : Type} (hne : g.stage ≠ .new) (t : TaskHandle) (shelf : σ)
    (publish : σ → Except SchedError σ) : (g.insertWith t shelf publish).1.stage ≠ .new := by
  rw [insertWith_of_ne_new hne]
  cases g.queue.push t with
  | error e => exact hne
  | ok d => exact hne

/-- A removal at the owner's end ends the life of an empty group that the worker drains, or adopts
in the same call. -/
theorem stage_remove_tail (g : AffinityGroup) (w : Location) :
    (g.remove .tail w).1.stage = .new ↔
      g.stage = .new ∨ g.tasks = [] ∧ (g.stage = .active w ∨ g.stage = .staged) := by
  by_cases hs : g.stage = .staged
  · -- the worker drains what it has just adopted
    rw [remove_tail_of_staged hs, stage_drain]
    by_cases hbare : g.tasks = []
    · have hbare' : ({ g with stage := .active w } : AffinityGroup).tasks = [] := hbare
      simp [hs, hbare, hbare']
    · have hbusy : ({ g with stage := .active w } : AffinityGroup).tasks ≠ [] := hbare
      simp [hs, hbare, hbusy]
  · rw [remove_tail_of_ne_staged hs, stage_drain]
    by_cases hlets : g.tasks = [] ∧ g.stage = .active w
    · simp [hlets]
    · simp [hlets, hs]

/-- The calls after which a group is new that was not are those that `Releases` describes. -/
theorem releases_iff (g : AffinityGroup) (call : Call) :
    g.stage ≠ .new ∧ (g.perform call).1.stage = .new ↔ g.Releases call := by
  cases call with
  | insert t => exact iff_of_false (fun h => stage_insertWith_ne_new h.1 t () .ok h.2) id
  | insertWith t shelf publish =>
      exact iff_of_false (fun h => stage_insertWith_ne_new h.1 t shelf publish h.2) id
  | adopt w =>
      apply iff_of_false _ id
      rintro ⟨hne, hnew⟩
      rw [perform] at hnew
      cases hadopt : g.adopt w with
      | error e => rw [hadopt] at hnew; exact hne hnew
      | ok g' =>
          obtain ⟨-, rfl⟩ := (adopt_eq_ok_iff g g' w).1 hadopt
          rw [hadopt] at hnew
          cases hnew
  | drain w =>
      show g.stage ≠ .new ∧ (g.drain w).1.stage = .new ↔ _
      rw [stage_drain, Releases, drainer_eq_some_iff]
      by_cases hlets : g.tasks = [] ∧ g.stage = .active w
      · simp [hlets]
      · simp [hlets]
  | steal => exact iff_of_false (fun h => h.1 (g.stage_steal.symm.trans h.2)) id
  | remove side w =>
      cases side with
      | head => exact iff_of_false (fun h => h.1 (g.stage_steal.symm.trans h.2)) id
      | tail =>
          show g.stage ≠ .new ∧ (g.remove .tail w).1.stage = .new ↔ _
          rw [stage_remove_tail, Releases, drainer_eq_some_iff, state_eq_staged_iff]
          constructor
          · rintro ⟨hne, hnew | hlets⟩
            · exact absurd hnew hne
            · exact hlets
          · rintro ⟨hbare, hw | hs⟩
            · exact ⟨by simp [hw], .inr ⟨hbare, .inl hw⟩⟩
            · exact ⟨by simp [hs], .inr ⟨hbare, .inr hs⟩⟩
  | started => exact iff_of_false (fun h => h.1 h.2) id
  | done => exact iff_of_false (fun h => h.1 h.2) id

/-- A refused insertion leaves the group as it was. -/
theorem insertWith_of_error {σ : Type} (bare : g.stage = .new → g.tasks = []) {t : TaskHandle}
    {shelf : σ} {publish : σ → Except SchedError σ} {e : SchedError}
    (h : (g.insertWith t shelf publish).2.2 = .error e) : (g.insertWith t shelf publish).1 = g := by
  by_cases hnew : g.stage = .new
  · obtain ⟨d, hd⟩ := WorkDeque.push_of_tasks_eq_nil (bare hnew) t
    rw [insertWith_of_new hnew hd] at h ⊢
    cases hpublish : publish shelf with
    | error e' => rfl
    | ok shelf' => rw [hpublish] at h; cases h
  · rw [insertWith_of_ne_new hnew] at h ⊢
    cases hpush : g.queue.push t with
    | error e' => rfl
    | ok d => rw [hpush] at h; cases h

theorem perform_of_isError (bare : g.stage = .new → g.tasks = []) (call : Call)
    (h : (g.perform call).2.isError = true) : (g.perform call).1 = g := by
  cases call with
  | insert t =>
      cases hr : (g.insert t).2 with
      | ok b => simp [perform, hr, Reply.isError] at h
      | error e =>
          have hr' : (g.insertWith t () .ok).2.2 = .error e := hr
          exact insertWith_of_error bare hr'
  | insertWith t shelf publish =>
      cases hr : (g.insertWith t shelf publish).2.2 with
      | ok b => simp [perform, hr, Reply.isError] at h
      | error e => exact insertWith_of_error bare hr
  | adopt w =>
      rw [perform] at h ⊢
      cases hadopt : g.adopt w with
      | error e => rfl
      | ok g' => rw [hadopt] at h; cases h
  | drain w => cases h
  | steal => cases h
  | remove side w => cases h
  | started => cases h
  | done => cases h

/-! ### What a row of calls does -/

/-- How a group and what its callers have seen of it go together. -/
structure History.Sound (h : History) : Prop where
  bare : h.group.stage = .new → h.group.tasks = []
  stagings : h.group.stagings = h.published
  lives : h.published = h.released + if h.group.stage = .new then 0 else 1
  tasks : (h.returned : Multiset TaskHandle) + h.group.tasks = h.accepted

theorem History.sound_new (key : AffinityKey) (capacity : Nat) :
    History.Sound { group := new key capacity } where
  bare := fun _ => rfl
  stagings := rfl
  lives := rfl
  tasks := rfl

theorem History.Sound.step {h : History} (hs : h.Sound) (call : Call) : (h.step call).Sound := by
  have hturn := turns_perform hs.bare call
  have hlives := hs.lives
  constructor
  · exact hturn.bare
  · show (h.group.perform call).1.stagings =
      h.published + (h.group.perform call).2.publishes.toNat
    rw [hturn.stagings, hs.stagings]
  · show h.published + (h.group.perform call).2.publishes.toNat =
      h.released + (if h.group.state ≠ .new ∧ (h.group.perform call).1.state = .new then 1 else 0) +
        if (h.group.perform call).1.stage = .new then 0 else 1
    -- a life begins where the group was new and is not, and ends the other way round
    have honset := hturn.onset
    simp only [ne_eq, state_eq_new_iff]
    cases hp : (h.group.perform call).2.publishes with
    | true =>
        obtain ⟨hnew, hne⟩ := honset.1 hp
        simp only [hnew, hne, if_true, if_false, not_true_eq_false, false_and, Bool.toNat_true]
          at hlives ⊢
        omega
    | false =>
        rw [hp] at honset
        by_cases hnew : h.group.stage = .new
        · have hstays : (h.group.perform call).1.stage = .new := by
            by_contra hne
            exact Bool.false_ne_true (honset.2 ⟨hnew, hne⟩)
          simp only [hnew, hstays, if_true, not_true_eq_false, false_and, if_false,
            Bool.toNat_false] at hlives ⊢
          omega
        · by_cases hends : (h.group.perform call).1.stage = .new
          · simp only [hnew, hends, not_false_eq_true, and_self, if_true, if_false,
              Bool.toNat_false] at hlives ⊢
            omega
          · simp only [hnew, hends, and_false, if_false, Bool.toNat_false] at hlives ⊢
            omega
  · show ((h.returned ++ (h.group.perform call).2.task?.toList : List TaskHandle) :
        Multiset TaskHandle) + (h.group.perform call).1.tasks =
      ((h.accepted ++ (call.accepted (h.group.perform call).2).toList : List TaskHandle) :
        Multiset TaskHandle)
    rw [← Multiset.coe_add, ← Multiset.coe_add, add_assoc, ← hturn.balance, ← hs.tasks]
    rw [add_left_comm, add_comm]

theorem History.Sound.run {h : History} (hs : h.Sound) (calls : List Call) : (h.run calls).Sound := by
  induction calls generalizing h with
  | nil => exact hs
  | cons call rest ih => exact ih (hs.step call)

/-- A group that anyone may call in any order has a drainer exactly while it is active and holds
nothing while it is new. It was published once for each insertion that said so, which is once for
each time it was let go and once more unless it is new. What came out and what is queued are the
tasks whose insertion succeeded. Whatever is called next, only the removals that `Releases` names
let go of the group; a call that is refused leaves it as it was, and so fail an insertion into a new
group that cannot be published and the adoption of a group that does not wait. -/
theorem lifecycle_run (key : AffinityKey) (capacity : Nat) (calls : List Call) :
    let h := History.run { group := new key capacity } calls
    (h.group.stage.drainer?.isSome = true ↔ h.group.state = .active) ∧
      (h.group.state = .new → h.group.tasks = []) ∧
      h.group.stagings = h.published ∧
      h.published = h.released + (if h.group.state = .new then 0 else 1) ∧
      (h.returned : Multiset TaskHandle) + h.group.tasks = h.accepted ∧
      (∀ call, h.group.state ≠ .new ∧ (h.group.perform call).1.state = .new ↔
        h.group.Releases call) ∧
      (∀ call, (h.group.perform call).2.isError = true → (h.group.perform call).1 = h.group) ∧
      (∀ (σ : Type) (t : TaskHandle) (shelf : σ) (publish : σ → Except SchedError σ)
        (e : SchedError), h.group.state = .new → publish shelf = .error e →
          h.group.insertWith t shelf publish = (h.group, shelf, .error e)) ∧
      (∀ w, h.group.state ≠ .staged →
        h.group.adopt w = .error (.violation (.adopted h.group.key w h.group.state))) := by
  intro h
  have hs : h.Sound := (History.sound_new key capacity).run calls
  refine ⟨drainer_isSome_iff, ?_, hs.stagings, ?_, hs.tasks, ?_, perform_of_isError hs.bare, ?_, ?_⟩
  · intro hnew
    exact hs.bare (state_eq_new_iff.1 hnew)
  · simpa only [state_eq_new_iff] using hs.lives
  · intro call
    rw [ne_eq, state_eq_new_iff, state_eq_new_iff]
    exact releases_iff h.group call
  · intro σ t shelf publish e hnew hfail
    rw [insertWith, state_eq_new_iff.1 hnew]
    simp only [hfail]
  · intro w hne
    rw [ne_eq, state_eq_staged_iff] at hne
    rw [adopt, state]
    cases hstage : h.group.stage with
    | new => rfl
    | staged => exact absurd hstage hne
    | active v => rfl

end WorkStealing.AffinityGroup
