import WorkStealing.Queue.WorkDeque

/-!
# Urgency levels

One work deque per urgency level, level 0 first. A cursor remembers a level below which nothing is
queued, so that a removal starts its search there; an insertion below it lowers it, a removal puts
it where it found something.

The cursor is one word: its lower half names the level, its upper half counts the insertions, both
modulo `2 ^ 32`. A level that does not fit its half is cut down to one that is lower still, so the
search starts too early and misses nothing (`level_lower_le`, `level_moveTo_le`).
-/

namespace WorkStealing

/-- Where a search through levels starts, and how many insertions there have been. -/
structure LevelCursor where
  word : UInt64
deriving DecidableEq, Repr, Inhabited

namespace LevelCursor

def pack (epoch level : UInt32) : LevelCursor :=
  { word := epoch.toUInt64 <<< 32 ||| level.toUInt64 }

def epoch (c : LevelCursor) : UInt32 := (c.word >>> 32).toUInt32

def level (c : LevelCursor) : UInt32 := c.word.toUInt32

/-- The cursor after an insertion at a level. -/
def lower (c : LevelCursor) (level : Nat) : LevelCursor :=
  pack (c.epoch + 1) (min c.level (.ofNat level))

/-- The cursor after a removal that went as far as a level. -/
def moveTo (c : LevelCursor) (level : Nat) : LevelCursor := pack c.epoch (.ofNat level)

theorem toNat_word_pack (e l : UInt32) :
    (pack e l).word.toNat = e.toNat * 0x100000000 + l.toNat := by
  have he := e.toNat_lt
  have hl := l.toNat_lt
  simp only [pack, UInt64.toNat_or, UInt64.toNat_shiftLeft, UInt32.toNat_toUInt64]
  rw [Nat.mod_eq_of_lt]
  · show e.toNat <<< 32 ||| l.toNat = _
    rw [← Nat.shiftLeft_add_eq_or_of_lt hl, Nat.shiftLeft_eq]
  · show e.toNat <<< 32 < _
    rw [Nat.shiftLeft_eq]
    omega

@[simp] theorem level_pack (e l : UInt32) : (pack e l).level = l := by
  have hl := l.toNat_lt
  apply UInt32.toNat.inj
  rw [level, UInt64.toNat_toUInt32, toNat_word_pack]
  omega

@[simp] theorem epoch_pack (e l : UInt32) : (pack e l).epoch = e := by
  have he := e.toNat_lt
  have hl := l.toNat_lt
  apply UInt32.toNat.inj
  rw [epoch, UInt64.toNat_toUInt32, UInt64.toNat_shiftRight, toNat_word_pack]
  show (_ >>> 32) % _ = _
  rw [Nat.shiftRight_eq_div_pow]
  omega

theorem toNat_ofNat_le (n : Nat) : (UInt32.ofNat n).toNat ≤ n := by
  rw [UInt32.toNat_ofNat']
  exact Nat.mod_le n _

/-- A cursor is never raised by an insertion, nor left above its level. -/
theorem level_lower_le (c : LevelCursor) (level : Nat) :
    (c.lower level).level.toNat ≤ c.level.toNat ∧ (c.lower level).level.toNat ≤ level := by
  have hlevel := toNat_ofNat_le level
  rw [lower, level_pack]
  by_cases h : c.level ≤ .ofNat level
  · rw [show min c.level (.ofNat level) = c.level from if_pos h]
    exact ⟨Nat.le_refl _, Nat.le_trans (UInt32.le_iff_toNat_le.1 h) hlevel⟩
  · rw [show min c.level (.ofNat level) = .ofNat level from if_neg h]
    exact ⟨Nat.le_of_not_le fun hle => h (UInt32.le_iff_toNat_le.2 hle), hlevel⟩

theorem level_moveTo_le (c : LevelCursor) (level : Nat) :
    (c.moveTo level).level.toNat ≤ level := by
  rw [moveTo, level_pack]
  exact toNat_ofNat_le level

end LevelCursor

/-- The queues of one worker, by urgency. -/
structure Levels where
  levels : List WorkDeque
  /-- Names the lowest level that may hold a task; the number of levels if none does. -/
  cursor : LevelCursor
  /-- Level of tasks that come without one. -/
  defaultLevel : Nat := 0
  levels_ne_nil : levels ≠ []
  below_cursor : ∀ i d, i < cursor.level.toNat → levels[i]? = some d → d.tasks = []

namespace Levels

/-- The level at which a search starts. -/
def lowest (l : Levels) : Nat := l.cursor.level.toNat

theorem tasks_of_replicate {count capacity i bound : Nat} {d : WorkDeque} (_ : i < bound)
    (h : (List.replicate count (WorkDeque.new capacity))[i]? = some d) : d.tasks = [] := by
  rw [List.eq_of_mem_replicate (List.mem_of_getElem? h)]
  rfl

/-- Empty levels of one capacity each; there is at least one level. -/
def new (count capacity : Nat) : Levels :=
  { levels := List.replicate (max count 1) (.new capacity)
    cursor := .pack 0 (.ofNat (max count 1))
    levels_ne_nil := replicate_max_one_ne_nil count (WorkDeque.new capacity)
    below_cursor := fun _ _ hi h => tasks_of_replicate hi h }

instance : Inhabited Levels := ⟨new 1 1⟩

def levelCount (l : Levels) : Nat := l.levels.length

theorem levelCount_pos (l : Levels) : 0 < l.levelCount := List.length_pos_iff.2 l.levels_ne_nil

/-- A level that exists: one past the last counts as the last. -/
def clamp (l : Levels) (level : Nat) : Nat := min level (l.levelCount - 1)

/-- The same levels with another level for tasks that come without one. -/
def withDefaultLevel (l : Levels) (level : Nat) : Levels := { l with defaultLevel := l.clamp level }

theorem clamp_lt (l : Levels) (level : Nat) : l.clamp level < l.levelCount := by
  have := l.levelCount_pos
  rw [clamp]
  omega

/-- The deque of a level, after clamping. -/
def atLevel (l : Levels) (level : Nat) : WorkDeque := l.levels.get ⟨l.clamp level, l.clamp_lt level⟩

/-- Put a changed deque at a level and lower the cursor to it. -/
def store (l : Levels) (level : Nat) (d : WorkDeque) : Levels :=
  { l with
    levels := l.levels.set (l.clamp level) d
    cursor := l.cursor.lower (l.clamp level)
    levels_ne_nil := by simpa using l.levels_ne_nil
    below_cursor := by
      intro i d' hi h
      obtain ⟨hold, hnew⟩ := l.cursor.level_lower_le (l.clamp level)
      rw [List.getElem?_set_ne (by omega)] at h
      exact l.below_cursor i d' (by omega) h }

/-- Add a task for the owner; the answer names the level that it went to. -/
def insert (l : Levels) (t : TaskHandle) (level : Nat) : Except SchedError (Nat × Levels) :=
  ((l.atLevel level).push t).map fun d => (l.clamp level, l.store level d)

/-- Add a task from outside; the answer names the level that it went to. -/
def inject (l : Levels) (t : TaskHandle) (level : Nat) : Except SchedError (Nat × Levels) :=
  ((l.atLevel level).inject t).map fun d => (l.clamp level, l.store level d)

/-- The first deque in a row that has a task: its position, the task and what remains of it. -/
def firstTask (e : End) : List WorkDeque → Option (Nat × TaskHandle × WorkDeque)
  | [] => none
  | d :: rest =>
    match d.takeAt? e with
    | some (t, d') => some (0, t, d')
    | none => (firstTask e rest).map fun found => (found.1 + 1, found.2)

theorem firstTask_eq_none_iff (e : End) (ds : List WorkDeque) :
    firstTask e ds = none ↔ ∀ d ∈ ds, d.tasks = [] := by
  induction ds with
  | nil => simp [firstTask]
  | cons d rest ih =>
    rw [firstTask]
    split
    next t d' h =>
      have : d.tasks ≠ [] := fun hd => by rw [(d.takeAt?_eq_none_iff e).2 hd] at h; cases h
      simp [this]
    next h => simp [ih, (d.takeAt?_eq_none_iff e).1 h]

/-- The found deque is the first one with a task, and the task is taken at the end asked for. -/
theorem firstTask_facts {e : End} {ds : List WorkDeque} {k : Nat} {t : TaskHandle} {d' : WorkDeque}
    (h : firstTask e ds = some (k, t, d')) :
    (∃ d, ds[k]? = some d ∧ d.takeAt? e = some (t, d')) ∧
      ∀ i d, i < k → ds[i]? = some d → d.tasks = [] := by
  induction ds generalizing k with
  | nil => simp [firstTask] at h
  | cons d rest ih =>
    rw [firstTask] at h
    split at h
    next u d'' hd =>
      cases h
      exact ⟨⟨d, rfl, hd⟩, fun i _ hi => absurd hi (Nat.not_lt_zero i)⟩
    next hd =>
      obtain ⟨⟨k', t', d''⟩, hf, heq⟩ := Option.map_eq_some_iff.1 h
      cases heq
      obtain ⟨hk, hbelow⟩ := ih hf
      refine ⟨by simpa using hk, ?_⟩
      intro i x hi hx
      cases i with
      | zero => cases hx; exact (d.takeAt?_eq_none_iff e).1 hd
      | succ j => exact hbelow j x (by omega) (by simpa using hx)

/-- Below the cursor nothing is queued, so what a search from there on has passed is all empty. -/
theorem empty_of_passed {l : Levels} {passed i : Nat} {d : WorkDeque}
    (h : ∀ j x, j < passed → (l.levels.drop l.lowest)[j]? = some x → x.tasks = [])
    (hi : i < l.lowest + passed) (hd : l.levels[i]? = some d) : d.tasks = [] := by
  by_cases hlow : i < l.lowest
  · exact l.below_cursor i d hlow hd
  · apply h (i - l.lowest) d (by omega)
    rw [List.getElem?_drop, Nat.add_sub_cancel' (by omega)]
    exact hd

/-- A search that finds nothing has passed every level. -/
theorem empty_of_firstTask_eq_none {l : Levels} {e : End} {d : WorkDeque}
    (h : firstTask e (l.levels.drop l.lowest) = none) (hd : d ∈ l.levels) : d.tasks = [] := by
  obtain ⟨i, hi⟩ := List.mem_iff_getElem?.1 hd
  have hall := (firstTask_eq_none_iff e _).1 h
  have hpassed : i < l.lowest + (i + 1) := by omega
  exact empty_of_passed (fun j x _ hx => hall x (List.mem_of_getElem? hx)) hpassed hi

/-- Remove a task from the lowest level that has one; the answer names the level. -/
def remove (l : Levels) (e : End) : Levels × Option (TaskHandle × Nat) :=
  match h : firstTask e (l.levels.drop l.lowest) with
  | some (k, t, d) =>
    ({ l with
        levels := l.levels.set (l.lowest + k) d
        cursor := l.cursor.moveTo (l.lowest + k)
        levels_ne_nil := by simpa using l.levels_ne_nil
        below_cursor := by
          intro i x hi hx
          have hle := l.cursor.level_moveTo_le (l.lowest + k)
          rw [List.getElem?_set_ne (by omega)] at hx
          exact empty_of_passed (firstTask_facts h).2 (by omega) hx },
      some (t, l.lowest + k))
  | none =>
    ({ l with
        cursor := l.cursor.moveTo l.levelCount
        below_cursor := by
          intro i x _ hx
          exact empty_of_firstTask_eq_none h (List.mem_of_getElem? hx) },
      none)

/-- Everything queued, level by level. -/
def tasks (l : Levels) : List TaskHandle := l.levels.flatMap WorkDeque.tasks

/-- The number of tasks at all levels. -/
def size (l : Levels) : Nat := sumOf WorkDeque.held l.levels

def isEmpty (l : Levels) : Bool := l.levels.all WorkDeque.isEmpty

/-- Remove tasks, with their levels, up to the first removal that finds none. -/
def removeUpTo (e : End) : Nat → Levels → List (TaskHandle × Nat) × Levels
  | 0, l => ([], l)
  | most + 1, l =>
    match l.remove e with
    | (l', some t) =>
      let (ts, l'') := removeUpTo e most l'
      (t :: ts, l'')
    | (l', none) => ([], l')

/-- Remove all tasks at one of the ends, and find that there are no more. -/
def drain (l : Levels) (e : End) : List (TaskHandle × Nat) × Levels := removeUpTo e (l.size + 1) l

/-- What the levels say about how much they hold. -/
def count (l : Levels) : CountScope → Count
  | .any => .ofAny !l.isEmpty
  | .level level => .exact ((l.levels[level]?.map WorkDeque.held).getD 0)
  | .staging => .empty
  | .all | .worker _ => .exact l.size

/-- The levels' sizes, for a person to read. -/
def shown (l : Levels) : String :=
  Text.shownRecord "PriorityLevels"
    [("levels", Text.shownNat l.levelCount), ("lowest_non_empty", Text.shownNat l.lowest),
      ("len", Text.shownNat l.size)]

theorem size_eq_length (l : Levels) : l.size = l.tasks.length := by
  rw [size, tasks, length_flatMap]
  exact congrArg (sumOf · l.levels) (funext fun d => d.length_tasks.symm)

theorem isEmpty_iff (l : Levels) : l.isEmpty = true ↔ l.tasks = [] := by
  simp [isEmpty, tasks, List.all_eq_true, WorkDeque.isEmpty_iff]

/-- Nothing stands below the cursor, so nothing at all when a removal finds nothing. -/
theorem remove_eq_none_iff (l : Levels) (e : End) : (l.remove e).2 = none ↔ l.tasks = [] := by
  rw [remove]
  split
  next k t d h =>
    obtain ⟨⟨x, hx, htake⟩, -⟩ := firstTask_facts h
    have hmem : x ∈ l.levels := List.mem_of_mem_drop (List.mem_of_getElem? hx)
    have hne : x.tasks ≠ [] := fun hn => by rw [(x.takeAt?_eq_none_iff e).2 hn] at htake; cases htake
    simp only [reduceCtorEq, tasks, List.flatMap_eq_nil_iff, false_iff]
    exact fun hall => hne (hall x hmem)
  next h =>
    simp only [true_iff, tasks, List.flatMap_eq_nil_iff]
    exact fun d hd => empty_of_firstTask_eq_none h hd

end Levels

end WorkStealing
