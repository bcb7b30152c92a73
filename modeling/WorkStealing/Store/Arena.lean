/-!
# Arenas

A store that hands out an index for each value put into it. A removed value frees its slot for
reuse; the slot's generation grows, so an index kept from before finds nothing.

`Arena.get?` is the view that the lemmas speak of.
-/

namespace WorkStealing

/-- The name of one value in an arena: its slot, and which of the slot's values it is. -/
structure ArenaIndex where
  slot : UInt32
  generation : UInt32
deriving DecidableEq, Repr, Inhabited

/-- A place for one value. -/
structure ArenaSlot (α : Type) where
  /-- How often the slot was freed, modulo `2 ^ 32`. -/
  generation : UInt32 := 0
  value : Option α := none
deriving Repr

/-- A store of values named by indices. -/
structure Arena (α : Type) where
  slots : List (ArenaSlot α) := []
  /-- Freed slots, the last freed first. -/
  free : List Nat := []
  size : Nat := 0
deriving Repr, Inhabited

namespace Arena

variable {α : Type}

def empty : Arena α := {}

/-- The index of the value that now stands at a position. -/
def indexAt (position : Nat) (slot : ArenaSlot α) : ArenaIndex :=
  { slot := UInt32.ofNat position, generation := slot.generation }

/-- Store a value in the slot freed last, or in a new one. -/
def insert (a : Arena α) (v : α) : ArenaIndex × Arena α :=
  match a.free with
  | position :: rest =>
    let generation := ((a.slots[position]?).map ArenaSlot.generation).getD 0
    let slot : ArenaSlot α := { generation := generation, value := some v }
    (indexAt position slot,
      { slots := a.slots.set position slot, free := rest, size := a.size + 1 })
  | [] =>
    let slot : ArenaSlot α := { value := some v }
    (indexAt a.slots.length slot, { a with slots := a.slots ++ [slot], size := a.size + 1 })

/-- The value that an index names, if it still stands. -/
def get? (a : Arena α) (i : ArenaIndex) : Option α :=
  match a.slots[i.slot.toNat]? with
  | some slot => if slot.generation = i.generation then slot.value else none
  | none => none

def contains (a : Arena α) (i : ArenaIndex) : Bool := (a.get? i).isSome

/-- Take out the value that an index names and free its slot. -/
def remove (a : Arena α) (i : ArenaIndex) : Option (α × Arena α) :=
  match a.get? i with
  | none => none
  | some v =>
    some (v,
      { slots := a.slots.set i.slot.toNat { generation := i.generation + 1, value := none }
        free := i.slot.toNat :: a.free
        size := a.size - 1 })

/-- Put another value where an index points; an index that names nothing changes nothing. -/
def set (a : Arena α) (i : ArenaIndex) (v : α) : Arena α :=
  if a.contains i then
    { a with slots := a.slots.set i.slot.toNat { generation := i.generation, value := some v } }
  else a

/-- The stored values with their indices, from a position on. -/
def entriesFrom (position : Nat) : List (ArenaSlot α) → List (ArenaIndex × α)
  | [] => []
  | slot :: rest =>
    match slot.value with
    | some v => (indexAt position slot, v) :: entriesFrom (position + 1) rest
    | none => entriesFrom (position + 1) rest

/-- The stored values with their indices, in the order of the slots. -/
def entries (a : Arena α) : List (ArenaIndex × α) := entriesFrom 0 a.slots

/-- The stored values, in the order of the slots. -/
def values (a : Arena α) : List α := a.slots.filterMap ArenaSlot.value

theorem contains_iff (a : Arena α) (i : ArenaIndex) :
    a.contains i = true ↔ ∃ v, a.get? i = some v := by
  simp [contains, Option.isSome_iff_exists]

theorem remove_eq_none_iff (a : Arena α) (i : ArenaIndex) :
    a.remove i = none ↔ a.get? i = none := by
  rw [remove]
  cases a.get? i <;> simp

/-- A replaced value is the one that its index names from then on. -/
theorem get?_set_self {a : Arena α} {i : ArenaIndex} {old : α} (h : a.get? i = some old) (v : α) :
    (a.set i v).get? i = some v := by
  have hc : a.contains i = true := (a.contains_iff i).2 ⟨old, h⟩
  have hlt : i.slot.toNat < a.slots.length := by
    rw [get?] at h
    split at h
    next slot hs => exact (List.getElem?_eq_some_iff.1 hs).1
    next => simp at h
  simp [set, hc, get?, hlt]

/-- What stands at another slot is not touched by a replacement. -/
theorem get?_set_of_ne {a : Arena α} {i j : ArenaIndex} (h : i.slot ≠ j.slot) (v : α) :
    (a.set i v).get? j = a.get? j := by
  have hne : i.slot.toNat ≠ j.slot.toNat := fun e => h (UInt32.toNat_inj.1 e)
  rw [set]
  split
  · simp [get?, List.getElem?_set_ne hne]
  · rfl

end Arena

end WorkStealing
