import WorkStealing.Proofs.Queue.Contents
import WorkStealing.Proofs.Queue.Scan

/-!
# What a removal takes

The task or index that a removal finds, read off the lists that a queue stands for: at an end of one
deque (`WorkDeque.next?`), in a row of levels (`Levels.lowestTask?`) and in the slots of staging
(`Staging.foremost?`). None of them looks at a cursor or at a size.
-/

namespace WorkStealing

theorem Deque.head?_toList {α : Type} (d : Deque α) : d.toList.head? = d.popOld?.map Prod.fst := by
  cases h : d.popOld? with
  | none => rw [(d.popOld?_eq_none_iff).1 h]; rfl
  | some found => rw [toList_popOld? h]; rfl

namespace WorkDeque

/-- The task that a removal at an end takes. The owner takes its newest task, and the oldest injected
one if it has none of its own; a helper takes the oldest of all. -/
def next? (d : WorkDeque) : End → Option TaskHandle
  | .tail => d.own.toList.getLast?.or d.injected.toList.head?
  | .head => d.tasks.head?

theorem next?_of_takeAt? {d d' : WorkDeque} {e : End} {t : TaskHandle}
    (h : d.takeAt? e = some (t, d')) : d.next? e = some t := by
  cases e with
  | tail =>
      rcases pop?_facts h with ⟨-, ⟨hown, -⟩ | ⟨hown, -, hinjected⟩⟩
      · rw [next?, hown, List.getLast?_concat, Option.some_or]
      · rw [next?, hown, hinjected]
        rfl
  | head =>
      rcases steal?_facts h with ⟨-, ⟨hown, -⟩ | ⟨hown, -, hinjected⟩⟩
      · rw [next?, tasks, hown]
        rfl
      · rw [next?, tasks, hown, hinjected]
        rfl

theorem next?_eq (d : WorkDeque) (e : End) : d.next? e = (d.takeAt? e).map Prod.fst := by
  cases h : d.takeAt? e with
  | some found => exact next?_of_takeAt? h
  | none =>
      have hnil := (d.takeAt?_eq_none_iff e).1 h
      cases e with
      | tail =>
          obtain ⟨hown, hinjected⟩ := List.append_eq_nil_iff.1 hnil
          rw [next?, hown, hinjected]
          rfl
      | head => rw [next?, hnil]; rfl

theorem next?_eq_none_iff (d : WorkDeque) (e : End) : d.next? e = none ↔ d.tasks = [] := by
  rw [next?_eq, Option.map_eq_none_iff, takeAt?_eq_none_iff]

end WorkDeque

namespace Levels

/-- The task that a removal at an end takes from a row of levels, with its level: the lowest level
that is not empty. -/
def lowestTask? (ds : List WorkDeque) (e : End) : Option (TaskHandle × Nat) :=
  (ds.findIdx? fun d => !d.isEmpty).bind fun k =>
    ((ds[k]?).bind fun d => d.next? e).map fun t => (t, k)

/-- A removal takes from the lowest level that is not empty, wherever its search began. -/
theorem snd_remove (l : Levels) (e : End) : (l.remove e).2 = lowestTask? l.levels e := by
  -- the same removal without a cursor
  let p : PlainLevels := { levels := l.levels, levels_ne_nil := l.levels_ne_nil }
  have hplain : (p.remove e).2 = (l.remove e).2 :=
    Answer.removed.inj (call_agree (l := l) (p := p) rfl (.remove e)).2
  rw [← hplain, PlainLevels.remove, lowestTask?]
  cases l.levels.findIdx? fun d => !d.isEmpty with
  | none => rfl
  | some k =>
      cases hk : l.levels[k]? with
      | none => simp [p, hk]
      | some d =>
          cases htake : d.takeAt? e with
          | none => simp [p, hk, htake, WorkDeque.next?_eq]
          | some found => simp [p, hk, htake, WorkDeque.next?_eq]

theorem lowestTask?_eq_none_iff (ds : List WorkDeque) (e : End) :
    lowestTask? ds e = none ↔ ∀ d ∈ ds, d.tasks = [] := by
  rw [lowestTask?]
  cases hfind : ds.findIdx? fun d => !d.isEmpty with
  | none =>
      simp only [Option.bind_none, true_iff]
      intro d hd
      have hempty := List.findIdx?_eq_none_iff.1 hfind d hd
      exact d.isEmpty_iff.1 (by simpa using hempty)
  | some k =>
      obtain ⟨hk, hbusy, -⟩ := List.findIdx?_eq_some_iff_getElem.1 hfind
      have hne : ds[k].tasks ≠ [] := fun hnil => by simp [(WorkDeque.isEmpty_iff _).2 hnil] at hbusy
      simp only [Option.bind_some, List.getElem?_eq_getElem hk, Option.map_eq_none_iff,
        WorkDeque.next?_eq_none_iff]
      exact ⟨fun hnil => absurd hnil hne, fun hall => hall _ (List.getElem_mem hk)⟩

/-- A removal that finds a task takes it from the level that it names. -/
theorem levels_remove_some {l : Levels} {e : End} {t : TaskHandle} {level : Nat}
    (h : (l.remove e).2 = some (t, level)) :
    ∃ d d', l.levels[level]? = some d ∧ d.takeAt? e = some (t, d') ∧
      (l.remove e).1.levels = l.levels.set level d' := by
  rcases l.remove_facts e with ⟨hnone, -⟩ | ⟨k, d, t', d', hsome, hlevels, hk, htake, -⟩
  · rw [hnone] at h
    cases h
  · rw [hsome] at h
    cases h
    exact ⟨d, d', hk, htake, hlevels⟩

end Levels

namespace Staging

/-- The oldest index of the first slot that has one, from a worker's own slot on. -/
def foremost? (s : Staging) (worker : Nat) : Option ArenaIndex :=
  (cyclicFrom (worker % s.slotCount) s.slotCount).findSome? fun slot =>
    (s.slots[slot]?).bind fun q => q.toList.head?

theorem foremost?_of_pop? {s s' : Staging} {w : Nat} {i : ArenaIndex}
    (h : s.pop? w = some (i, s')) : s.foremost? w = some i := by
  rw [pop?] at h
  split at h
  next => cases h
  next =>
    -- slot by slot, what the pop finds is the head of the list
    have hslot : ∀ slot, ((s.slots[slot]?).bind fun q => q.toList.head?) =
        (((s.slots[slot]?).bind Deque.popOld?).map fun found =>
          (found.1, s.setSlot slot found.2 (s.size - 1))).map Prod.fst := by
      intro slot
      cases s.slots[slot]? with
      | none => rfl
      | some q => simp [Deque.head?_toList, Function.comp_def]
    simp only [foremost?, hslot]
    exact List.map_findSome?.symm.trans (congrArg (Option.map Prod.fst) h)

theorem foremost?_eq_none_iff (s : Staging) (w : Nat) :
    s.foremost? w = none ↔ ∀ q ∈ s.slots, q.toList = [] := by
  simp only [foremost?, List.findSome?_eq_none_iff, mem_cyclicFrom, Option.bind_eq_none_iff,
    List.head?_eq_none_iff]
  constructor
  · intro h q hq
    obtain ⟨slot, hslot⟩ := List.mem_iff_getElem?.1 hq
    exact h slot (List.getElem?_eq_some_iff.1 hslot).1 q hslot
  · exact fun h slot _ q hslot => h q (List.mem_of_getElem? hslot)

end Staging

end WorkStealing
