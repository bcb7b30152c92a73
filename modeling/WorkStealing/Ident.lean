import WorkStealing.Sizes

/-!
# Identifiers

Names of the things that the scheduler moves and of the places it moves them between: tasks,
locations, contexts and affinity keys. An identifier is a word of fixed width; what it stands for
is never looked at.
-/

namespace WorkStealing

/-- An opaque name for one unit of work. -/
structure TaskHandle where
  raw : UInt64
deriving DecidableEq, Repr, Inhabited

/-- A worker inside a node, or a node among its neighbors. -/
structure Location where
  id : UInt32
deriving DecidableEq, Repr, Inhabited

/-- A party that gives and takes: one per worker, and further ones for service threads. -/
structure ContextId where
  id : UInt32
deriving DecidableEq, Repr, Inhabited

/-- A key shared by tasks that should run near each other. -/
structure AffinityKey where
  id : UInt64
deriving DecidableEq, Repr, Inhabited

namespace TaskHandle

/-- The reserved handle; it stands for no task. -/
def none : TaskHandle := ⟨0⟩

/-- Whether a handle is the reserved one. -/
def isNone (t : TaskHandle) : Bool := t = none

/-- The raw value in lower-case hexadecimal digits, after `task#`. -/
def text (t : TaskHandle) : String :=
  "task#" ++ String.ofList (Nat.toDigits 16 t.raw.toNat)

/-- Handles with values in a row. -/
def range (first count : Nat) : List TaskHandle :=
  (List.range count).map fun i => ⟨UInt64.ofNat (first + i)⟩

/-- Make a call for each handle up to the first that fails. The answer counts the calls that
succeeded and holds the fault. -/
def forEach {σ ε : Type} (call : σ → TaskHandle → σ × Except ε Unit) :
    List TaskHandle → σ → σ × Nat × Option ε
  | [], s => (s, 0, .none)
  | t :: rest, s =>
    match call s t with
    | (s', .error e) => (s', 0, some e)
    | (s', .ok ()) =>
      let (s'', count, fault) := forEach call rest s'
      (s'', count + 1, fault)

end TaskHandle

/-- Position of a location in a list of workers. -/
def Location.index (l : Location) : Nat := l.id.toNat

/-- The location at a position; positions are below `2 ^ 32`. -/
def Location.ofIndex (i : Nat) : Location := ⟨UInt32.ofNat i⟩

def Location.text (l : Location) : String := "loc" ++ Nat.repr l.id.toNat

/-- Position of a context in a driver's list of contexts. -/
def ContextId.index (c : ContextId) : Nat := c.id.toNat

/-- The context at a position; positions are below `2 ^ 32`. -/
def ContextId.ofIndex (i : Nat) : ContextId := ⟨UInt32.ofNat i⟩

def ContextId.text (c : ContextId) : String := "ctx" ++ Nat.repr c.id.toNat

def AffinityKey.text (k : AffinityKey) : String := "aff" ++ Nat.repr k.id.toNat

theorem TaskHandle.isNone_iff (t : TaskHandle) : t.isNone = true ↔ t.raw = 0 := by
  cases t with
  | mk raw => simp [TaskHandle.isNone, TaskHandle.none]

theorem Location.index_ofIndex {i : Nat} (h : i < UInt32.size) : (Location.ofIndex i).index = i := by
  simp only [Location.index, Location.ofIndex]
  exact UInt32.toNat_ofNat_of_lt' h

theorem Location.index_injective {a b : Location} (h : a.index = b.index) : a = b := by
  cases a with
  | mk x => cases b with
    | mk y =>
      have : x = y := UInt32.toNat_inj.mp h
      rw [this]

theorem ContextId.index_ofIndex {i : Nat} (h : i < UInt32.size) : (ContextId.ofIndex i).index = i := by
  simp only [ContextId.index, ContextId.ofIndex]
  exact UInt32.toNat_ofNat_of_lt' h

end WorkStealing
