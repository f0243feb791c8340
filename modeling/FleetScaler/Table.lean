/-!
# Tables

A table has an entry under every number; all but finitely many are the default. Reading and writing
are thereby total, and the two laws of an update, `get_update_self` and `get_update_ne`, need no
hypothesis on the number.
-/

namespace FleetScaler

/-- Entries under the numbers from zero; beyond the list they are the default. -/
structure Table (α : Type) where
  entries : List α := []
  deriving DecidableEq, Repr, Inhabited

namespace Table

variable {α : Type} [Inhabited α]

/-- The entry under a number. -/
def get (t : Table α) (i : Nat) : α := t.entries.getD i default

/-- The number of the first entry that was never written, as were those behind it. -/
def size (t : Table α) : Nat := t.entries.length

/-- Applies a function to the entry under a number in a list, which grows to reach it. -/
def updateList (f : α → α) : Nat → List α → List α
  | 0, [] => [f default]
  | 0, a :: rest => f a :: rest
  | i + 1, [] => default :: updateList f i []
  | i + 1, a :: rest => a :: updateList f i rest

/-- Applies a function to the entry under a number. -/
def update (t : Table α) (i : Nat) (f : α → α) : Table α := ⟨updateList f i t.entries⟩

/-- Puts an entry under a number. -/
def set (t : Table α) (i : Nat) (a : α) : Table α := t.update i fun _ => a

/-- Applies a function to every entry that was written. -/
def map {β : Type} (f : α → β) (t : Table α) : Table β := ⟨t.entries.map f⟩

/-! ## Reading after writing -/

theorem getD_updateList (f : α → α) (i j : Nat) (as : List α) :
    (updateList f i as).getD j default =
      if j = i then f (as.getD i default) else as.getD j default := by
  induction i generalizing j as with
  | zero => cases as <;> cases j <;> simp [updateList]
  | succ i ih =>
    cases as with
    | nil =>
      cases j with
      | zero => simp [updateList]
      | succ j => rw [updateList, List.getD_cons_succ, ih]; simp
    | cons a rest =>
      cases j with
      | zero => simp [updateList]
      | succ j => rw [updateList, List.getD_cons_succ, ih]; simp

@[simp] theorem get_update_self (t : Table α) (i : Nat) (f : α → α) :
    (t.update i f).get i = f (t.get i) := by
  simp only [get, update, getD_updateList, ite_true]

theorem get_update_ne (t : Table α) {i j : Nat} (f : α → α) (h : j ≠ i) :
    (t.update i f).get j = t.get j := by
  simp only [get, update, getD_updateList, if_neg h]

@[simp] theorem get_set_self (t : Table α) (i : Nat) (a : α) : (t.set i a).get i = a :=
  get_update_self t i _

theorem get_set_ne (t : Table α) {i j : Nat} (a : α) (h : j ≠ i) :
    (t.set i a).get j = t.get j :=
  get_update_ne t _ h

end Table

end FleetScaler
