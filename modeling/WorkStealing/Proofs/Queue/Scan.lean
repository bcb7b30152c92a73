import WorkStealing.Queue.Levels

/-!
# Levels without a cursor

`PlainLevels` keeps the deques of `Levels` and no cursor: each removal looks through all levels from
level 0 on. Every row of calls is answered alike by both (`Levels.observe_eq_plain`), so the cursor
saves work and changes nothing. What carries the proof is that a removal takes from the lowest level
that holds a task, wherever its search began (`Levels.remove_facts`).
-/

namespace WorkStealing

/-- The queues of one worker, by urgency, with nothing remembered about where tasks are. -/
structure PlainLevels where
  levels : List WorkDeque
  levels_ne_nil : levels ≠ []

namespace PlainLevels

theorem replicate_ne_nil (count capacity : Nat) :
    List.replicate (max count 1) (WorkDeque.new capacity) ≠ [] :=
  replicate_max_one_ne_nil count (WorkDeque.new capacity)

/-- Empty levels of one capacity each; there is at least one level. -/
def new (count capacity : Nat) : PlainLevels :=
  { levels := List.replicate (max count 1) (.new capacity)
    levels_ne_nil := replicate_ne_nil count capacity }

/-- A level that exists: one past the last counts as the last. -/
def clamp (p : PlainLevels) (level : Nat) : Nat := min level (p.levels.length - 1)

theorem clamp_lt (p : PlainLevels) (level : Nat) : p.clamp level < p.levels.length := by
  have hpos := List.length_pos_iff.2 p.levels_ne_nil
  rw [clamp]
  omega

def store (p : PlainLevels) (level : Nat) (d : WorkDeque) : PlainLevels :=
  { levels := p.levels.set level d
    levels_ne_nil := by simpa using p.levels_ne_nil }

/-- Add a task in some way at a level; the answer names the level that it went to. -/
def put (p : PlainLevels) (add : WorkDeque → Except SchedError WorkDeque) (level : Nat) :
    Except SchedError (Nat × PlainLevels) :=
  (add (p.levels.get ⟨p.clamp level, p.clamp_lt level⟩)).map fun d =>
    (p.clamp level, p.store (p.clamp level) d)

/-- Remove a task from the first of all levels that has one; the answer names the level. -/
def remove (p : PlainLevels) (e : End) : PlainLevels × Option (TaskHandle × Nat) :=
  match p.levels.findIdx? fun d => !d.isEmpty with
  | none => (p, none)
  | some k =>
    match p.levels[k]?.bind fun d => d.takeAt? e with
    | none => (p, none)
    | some (t, d) => (p.store k d, some (t, k))

/-- Everything queued, level by level. -/
def tasks (p : PlainLevels) : List TaskHandle := p.levels.flatMap WorkDeque.tasks

/-- What the levels say about how much they hold. -/
def count (p : PlainLevels) : CountScope → Count
  | .any => .ofAny !p.tasks.isEmpty
  | .level level => .exact ((p.levels[level]?.map fun d => d.tasks.length).getD 0)
  | .staging => .empty
  | .all | .worker _ => .exact p.tasks.length

variable {p : PlainLevels} {e : End}

theorem remove_of_empty (h : ∀ d ∈ p.levels, d.tasks = []) : p.remove e = (p, none) := by
  have hnone : p.levels.findIdx? (fun d => !d.isEmpty) = none := by
    apply List.findIdx?_eq_none_iff.2
    intro d hd
    simp [d.isEmpty_iff.2 (h d hd)]
  rw [remove, hnone]

/-- The level found is the first one with a task, and the task is taken at the end asked for. -/
theorem remove_of_first {k : Nat} {d d' : WorkDeque} {t : TaskHandle} (hk : p.levels[k]? = some d)
    (htake : d.takeAt? e = some (t, d'))
    (hbelow : ∀ i x, i < k → p.levels[i]? = some x → x.tasks = []) :
    p.remove e = (p.store k d', some (t, k)) := by
  obtain ⟨hlt, hget⟩ := List.getElem?_eq_some_iff.1 hk
  have hfound : p.levels.findIdx? (fun d => !d.isEmpty) = some k := by
    apply List.findIdx?_eq_some_iff_getElem.2
    refine ⟨hlt, ?_, ?_⟩
    · -- a deque that yields a task is not empty
      have hne : d.tasks ≠ [] := by
        intro hnil
        rw [(d.takeAt?_eq_none_iff e).2 hnil] at htake
        cases htake
      simpa [hget] using mt d.isEmpty_iff.1 hne
    · intro j hj
      have hempty := hbelow j _ hj (List.getElem?_eq_getElem (Nat.lt_trans hj hlt))
      simpa using (WorkDeque.isEmpty_iff _).2 hempty
  rw [remove, hfound]
  simp only [hk, Option.bind_some, htake]

end PlainLevels

namespace Levels

/-- A call of a worker's levels. -/
inductive Call where
  | insert (t : TaskHandle) (level : Nat)
  | inject (t : TaskHandle) (level : Nat)
  | remove (e : End)

/-- What a call answers: the level that a task went to, or the task found and its level. -/
inductive Answer where
  | added (r : Except SchedError Nat)
  | removed (r : Option (TaskHandle × Nat))

/-- The outcome of an addition: where it went and what came of it, or what there was before. -/
def added {σ : Type} (before : σ) : Except SchedError (Nat × σ) → σ × Answer
  | .ok (level, after) => (after, .added (.ok level))
  | .error e => (before, .added (.error e))

/-- The levels after a call, and its answer. A call that fails changes nothing. -/
def call (l : Levels) : Call → Levels × Answer
  | .insert t level => added l (l.insert t level)
  | .inject t level => added l (l.inject t level)
  | .remove e => ((l.remove e).1, .removed (l.remove e).2)

def run (l : Levels) (calls : List Call) : Levels := calls.foldl (fun l c => (l.call c).1) l

end Levels

/-- The same calls, served without a cursor. -/
def PlainLevels.call (p : PlainLevels) : Levels.Call → PlainLevels × Levels.Answer
  | .insert t level => Levels.added p (p.put (fun d => d.push t) level)
  | .inject t level => Levels.added p (p.put (fun d => d.inject t) level)
  | .remove e => ((p.remove e).1, .removed (p.remove e).2)

namespace Levels

/-- What can be seen of a call: its answer, and afterwards the size and every count. -/
structure Observation where
  answer : Answer
  size : Nat
  count : CountScope → Count

/-- What is seen, call after call, of something that answers calls. -/
def observe {σ : Type} (call : σ → Call → σ × Answer) (size : σ → Nat)
    (count : σ → CountScope → Count) : σ → List Call → List Observation
  | _, [] => []
  | s, c :: rest =>
    let (s', answer) := call s c
    { answer := answer, size := size s', count := count s' } :: observe call size count s' rest

variable {l : Levels} {p : PlainLevels}

/-! ### Removals -/

/-- A removal takes from the lowest level that holds a task, and finds nothing only if no level
does. -/
theorem remove_facts (l : Levels) (e : End) :
    ((l.remove e).2 = none ∧ (l.remove e).1.levels = l.levels ∧ ∀ d ∈ l.levels, d.tasks = []) ∨
      ∃ k d t d', (l.remove e).2 = some (t, k) ∧ (l.remove e).1.levels = l.levels.set k d' ∧
        l.levels[k]? = some d ∧ d.takeAt? e = some (t, d') ∧
        ∀ i x, i < k → l.levels[i]? = some x → x.tasks = [] := by
  rw [remove]
  split
  next k t d' hfound =>
    obtain ⟨⟨d, hd, htake⟩, hskipped⟩ := firstTask_facts hfound
    rw [List.getElem?_drop] at hd
    refine .inr ⟨l.lowest + k, d, t, d', rfl, rfl, hd, htake, ?_⟩
    exact fun i x hi hx => empty_of_passed hskipped hi hx
  next hnone =>
    exact .inl ⟨rfl, rfl, fun d hd => empty_of_firstTask_eq_none hnone hd⟩

/-! ### One call -/

/-- An addition of either kind goes to the same level and has the same outcome. -/
theorem added_agree (h : p.levels = l.levels) (add : WorkDeque → Except SchedError WorkDeque)
    (level : Nat) :
    (added p (p.put add level)).1.levels =
        (added l ((add (l.atLevel level)).map fun d => (l.clamp level, l.store level d))).1.levels ∧
      (added p (p.put add level)).2 =
        (added l ((add (l.atLevel level)).map fun d => (l.clamp level, l.store level d))).2 := by
  have hclamp : p.clamp level = l.clamp level := by rw [PlainLevels.clamp, h, clamp, levelCount]
  have hdeque : p.levels.get ⟨p.clamp level, p.clamp_lt level⟩ = l.atLevel level := by
    simp only [atLevel, List.get_eq_getElem, h, hclamp]
  rw [PlainLevels.put, hdeque]
  cases add (l.atLevel level) with
  | error e => exact ⟨h, rfl⟩
  | ok d =>
      constructor
      · show p.levels.set (p.clamp level) d = l.levels.set (l.clamp level) d
        rw [h, hclamp]
      · show Answer.added (.ok (p.clamp level)) = Answer.added (.ok (l.clamp level))
        rw [hclamp]

/-- Levels that hold the same deques answer a call alike and hold the same deques after it. -/
theorem call_agree (h : p.levels = l.levels) (c : Call) :
    (p.call c).1.levels = (l.call c).1.levels ∧ (p.call c).2 = (l.call c).2 := by
  cases c with
  | insert t level => exact added_agree h (fun d => d.push t) level
  | inject t level => exact added_agree h (fun d => d.inject t) level
  | remove e =>
      rcases l.remove_facts e with
        ⟨hnone, hlevels, hempty⟩ | ⟨k, d, t, d', hsome, hlevels, hk, htake, hbelow⟩
      · have hplain : p.remove e = (p, none) := PlainLevels.remove_of_empty (h ▸ hempty)
        simp only [call, PlainLevels.call, hplain, hnone, hlevels]
        exact ⟨h, trivial⟩
      · have hplain : p.remove e = (p.store k d', some (t, k)) :=
          PlainLevels.remove_of_first (h ▸ hk) htake (h ▸ hbelow)
        simp only [call, PlainLevels.call, hplain, hsome, hlevels]
        exact ⟨congrArg (·.set k d') h, trivial⟩

theorem size_agree (h : p.levels = l.levels) : p.tasks.length = l.size := by
  rw [l.size_eq_length, PlainLevels.tasks, tasks, h]

theorem count_agree (h : p.levels = l.levels) : p.count = l.count := by
  have hsize := size_agree h
  have htasks : p.tasks = l.tasks := by rw [PlainLevels.tasks, tasks, h]
  funext scope
  cases scope with
  | any =>
      have hempty : p.tasks.isEmpty = l.isEmpty := by
        rw [Bool.eq_iff_iff, l.isEmpty_iff, htasks, List.isEmpty_iff]
      simp only [PlainLevels.count, count, hempty]
  | level level =>
      have hheld : (fun d : WorkDeque => d.tasks.length) = WorkDeque.held :=
        funext WorkDeque.length_tasks
      simp only [PlainLevels.count, count, h, hheld]
  | staging => rfl
  | all => simp only [PlainLevels.count, count, hsize]
  | worker w => simp only [PlainLevels.count, count, hsize]

/-! ### Runs -/

theorem observe_agree (h : p.levels = l.levels) (calls : List Call) :
    observe call size count l calls =
      observe PlainLevels.call (fun p => p.tasks.length) PlainLevels.count p calls := by
  -- induction on the calls still to come; the deques agree after each
  induction calls generalizing l p with
  | nil => rfl
  | cons c rest ih =>
      obtain ⟨hlevels, hanswer⟩ := call_agree h c
      simp only [observe]
      rw [hanswer, size_agree hlevels, count_agree hlevels, ih hlevels]

/-- The cursor is only an optimisation. Whatever the number of levels and their capacity, every row
of insertions, injections and removals at either end has the answers, sizes and counts that it has
with levels that are searched from level 0 on. In every state that such a row leads to, nothing is
queued below the cursor; a removal finds nothing only if nothing is queued, and else takes a task,
at the end asked for, from the lowest level that holds one. -/
theorem observe_eq_plain (levels capacity : Nat) (calls : List Call) :
    observe call size count (new levels capacity) calls =
        observe PlainLevels.call (fun p => p.tasks.length) PlainLevels.count
          (.new levels capacity) calls ∧
      let l := (new levels capacity).run calls
      (∀ i d, i < l.lowest → l.levels[i]? = some d → d.tasks = []) ∧
        ∀ e : End, ((l.remove e).2 = none ↔ ∀ d ∈ l.levels, d.tasks = []) ∧
          ∀ t k, (l.remove e).2 = some (t, k) →
            (∃ d d', l.levels[k]? = some d ∧ d.takeAt? e = some (t, d') ∧
              (l.remove e).1.levels = l.levels.set k d') ∧
            ∀ i d, i < k → l.levels[i]? = some d → d.tasks = [] := by
  refine ⟨observe_agree rfl calls, ?_⟩
  intro l
  refine ⟨l.below_cursor, ?_⟩
  intro e
  constructor
  · rw [l.remove_eq_none_iff e, tasks, List.flatMap_eq_nil_iff]
  · intro t k hfound
    rcases l.remove_facts e with
      ⟨hnone, -⟩ | ⟨k', d, t', d', hsome, hlevels, hk, htake, hbelow⟩
    · rw [hnone] at hfound
      cases hfound
    · rw [hsome] at hfound
      cases hfound
      exact ⟨⟨d, d', hk, htake, hlevels⟩, hbelow⟩

/-- Tasks at levels 2 and 1 come out from level 1 on, and the cursor is then past the last level. -/
example :
    let l := (new 4 8).run [.insert ⟨10⟩ 2, .insert ⟨11⟩ 1]
    let l' := l.run [.remove .tail, .remove .tail]
    l.lowest = 1 ∧ (l.remove .tail).2 = some (⟨11⟩, 1) ∧
      l'.tasks = [] ∧ (l'.remove .tail).2 = none ∧ (l'.remove .tail).1.lowest = 4 := by
  decide +kernel

end Levels

end WorkStealing
