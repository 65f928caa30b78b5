/-!
**Remembering results.**

A memo keeps the result of a computation under a key, so that it is computed once.

Main definitions:

* `Templating.Memo` — results by key;
* `Templating.Memo.get?`, `Templating.Memo.insert` — looking a result up, and adding one;
* `Templating.Memo.getOrInsert` — the result under a key, which is computed when it is not there.

Main results:

* `Templating.Memo.get?_getOrInsert` — afterwards the result is there.
-/

set_option autoImplicit false

namespace Templating

/-- Results by key, at most one for a key. -/
structure Memo (κ : Type) (α : Type) where
  entries : List (κ × α) := []
  deriving Repr

namespace Memo

variable {κ α : Type}

/-- The number of results. -/
def size (m : Memo κ α) : Nat := m.entries.length

/-- Whether there are no results. -/
def isEmpty (m : Memo κ α) : Bool := m.entries.isEmpty

/-- Put a result under a key that has none. -/
def insert (m : Memo κ α) (key : κ) (value : α) : Memo κ α := ⟨(key, value) :: m.entries⟩

@[simp] theorem size_insert (m : Memo κ α) (key : κ) (value : α) :
    (m.insert key value).size = m.size + 1 := rfl

variable [DecidableEq κ]

/-- The result under a key. -/
def get? (m : Memo κ α) (key : κ) : Option α := (m.entries.find? (·.1 = key)).map (·.2)

/-- The result under a key; it is computed and kept when it is not there. -/
def getOrInsert (m : Memo κ α) (key : κ) (compute : Unit → α) : α × Memo κ α :=
  match m.get? key with
  | some value => (value, m)
  | none =>
      let value := compute ()
      (value, m.insert key value)

@[simp] theorem get?_insert_self (m : Memo κ α) (key : κ) (value : α) :
    (m.insert key value).get? key = some value := by
  simp [get?, insert]

/-- The other keys keep their results. -/
theorem get?_insert_of_ne (m : Memo κ α) {key other : κ} (value : α) (h : other ≠ key) :
    (m.insert key value).get? other = m.get? other := by
  have h' : ¬ key = other := fun e => h e.symm
  simp [get?, insert, h']

/-- After a look-up that computes, the result is there. -/
theorem get?_getOrInsert (m : Memo κ α) (key : κ) (compute : Unit → α) :
    (m.getOrInsert key compute).2.get? key = some (m.getOrInsert key compute).1 := by
  unfold getOrInsert
  split
  · assumption
  · simp

end Memo

end Templating
