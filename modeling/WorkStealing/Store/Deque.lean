/-!
# Double-ended queues

A queue that is added to at its new end and read at both ends. The elements stand in two lists, the
older ones oldest first and the newer ones newest first, so that each end is the head of a list; a
read at an end whose list has run out turns the other list round.

`Deque.toList`, oldest first, is the view that the lemmas speak of.
-/

namespace WorkStealing

/-- A queue with an old end and a new end. -/
structure Deque (α : Type) where
  /-- The older elements, oldest first. -/
  older : List α := []
  /-- The newer elements, newest first. -/
  newer : List α := []
  size : Nat := 0
  size_eq : size = older.length + newer.length := by simp

namespace Deque

variable {α : Type}

/-- The elements, oldest first. -/
def toList (d : Deque α) : List α := d.older ++ d.newer.reverse

theorem size_eq_nil (α : Type) : 0 = ([] : List α).length + ([] : List α).length := rfl

def empty : Deque α := { size_eq := size_eq_nil α }

instance : Inhabited (Deque α) := ⟨empty⟩

instance [Repr α] : Repr (Deque α) := ⟨fun d n => reprPrec d.toList n⟩

/-- Add an element at the new end. -/
def push (d : Deque α) (a : α) : Deque α :=
  { older := d.older
    newer := a :: d.newer
    size := d.size + 1
    size_eq := by have := d.size_eq; simp; omega }

/-- The queue whose old part is the given list. -/
def ofList (as : List α) : Deque α := { older := as, size := as.length }

/-- The queue whose new part is the given list, newest first. -/
def ofReverse (as : List α) : Deque α := { newer := as, size := as.length }

/-- Remove the newest element. -/
def popNew? (d : Deque α) : Option (α × Deque α) :=
  match hn : d.newer with
  | a :: rest =>
    some (a,
      { older := d.older
        newer := rest
        size := d.size - 1
        size_eq := by have := d.size_eq; simp [hn] at this; omega })
  | [] =>
    match d.older.reverse with
    | [] => none
    | a :: rest => some (a, ofReverse rest)

/-- Remove the oldest element. -/
def popOld? (d : Deque α) : Option (α × Deque α) :=
  match ho : d.older with
  | a :: rest =>
    some (a,
      { older := rest
        newer := d.newer
        size := d.size - 1
        size_eq := by have := d.size_eq; simp [ho] at this; omega })
  | [] =>
    match d.newer.reverse with
    | [] => none
    | a :: rest => some (a, ofList rest)

theorem length_toList (d : Deque α) : d.toList.length = d.size := by
  simp [toList, d.size_eq]

@[simp] theorem toList_empty : (empty : Deque α).toList = [] := rfl

@[simp] theorem size_empty : (empty : Deque α).size = 0 := rfl

@[simp] theorem toList_ofList (as : List α) : (ofList as).toList = as := by simp [toList, ofList]

@[simp] theorem toList_ofReverse (as : List α) : (ofReverse as).toList = as.reverse := by
  simp [toList, ofReverse]

@[simp] theorem toList_push (d : Deque α) (a : α) : (d.push a).toList = d.toList ++ [a] := by
  simp [toList, push]

@[simp] theorem size_push (d : Deque α) (a : α) : (d.push a).size = d.size + 1 := rfl

/-- What a removal at the new end yields: the last element and the others. -/
theorem toList_popNew? {d e : Deque α} {a : α} (h : d.popNew? = some (a, e)) :
    d.toList = e.toList ++ [a] := by
  rw [popNew?] at h
  split at h
  next b rest hn =>
    simp only [Option.some.injEq, Prod.mk.injEq] at h
    obtain ⟨rfl, rfl⟩ := h
    simp [toList, hn]
  next hn =>
    split at h
    next => simp at h
    next b rest ho =>
      simp only [Option.some.injEq, Prod.mk.injEq] at h
      obtain ⟨rfl, rfl⟩ := h
      have : d.older = rest.reverse ++ [b] := by rw [← List.reverse_reverse d.older, ho]; simp
      simp [toList, hn, ofReverse, this]

theorem popNew?_eq_none_iff (d : Deque α) : d.popNew? = none ↔ d.toList = [] := by
  rw [popNew?]
  split
  next b rest hn => simp [toList, hn]
  next hn =>
    split
    next ho =>
      have : d.older = [] := by simpa using ho
      simp [toList, hn, this]
    next b rest ho =>
      have : d.older ≠ [] := fun h => by simp [h] at ho
      simp [toList, this]

/-- What a removal at the old end yields: the first element and the others. -/
theorem toList_popOld? {d e : Deque α} {a : α} (h : d.popOld? = some (a, e)) :
    d.toList = a :: e.toList := by
  rw [popOld?] at h
  split at h
  next b rest ho =>
    simp only [Option.some.injEq, Prod.mk.injEq] at h
    obtain ⟨rfl, rfl⟩ := h
    simp [toList, ho]
  next ho =>
    split at h
    next => simp at h
    next b rest hn =>
      simp only [Option.some.injEq, Prod.mk.injEq] at h
      obtain ⟨rfl, rfl⟩ := h
      simp [toList, ho, hn, ofList]

theorem popOld?_eq_none_iff (d : Deque α) : d.popOld? = none ↔ d.toList = [] := by
  rw [popOld?]
  split
  next b rest ho => simp [toList, ho]
  next ho =>
    split
    next hn =>
      have : d.newer = [] := by simpa using hn
      simp [toList, ho, this]
    next b rest hn =>
      have : d.newer ≠ [] := fun h => by simp [h] at hn
      simp [toList, this]

theorem size_popNew? {d e : Deque α} {a : α} (h : d.popNew? = some (a, e)) :
    d.size = e.size + 1 := by
  rw [← length_toList, ← length_toList, toList_popNew? h]; simp

theorem size_popOld? {d e : Deque α} {a : α} (h : d.popOld? = some (a, e)) :
    d.size = e.size + 1 := by
  rw [← length_toList, ← length_toList, toList_popOld? h]; simp

end Deque

end WorkStealing
