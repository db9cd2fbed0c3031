/-
Module: CompositeModels.Table
Purpose: Finite maps from serial numbers, as association lists with one entry for each number.
Main exports: Table, Table.get?, Table.set
-/

namespace CompositeModels

/-- A finite map from serial numbers. -/
structure Table (β : Type) where
  entries : List (Nat × β) := []
deriving Repr, Inhabited

namespace Table

variable {β : Type}

/-- The value under a serial number. -/
def get? (table : Table β) (serial : Nat) : Option β := table.entries.lookup serial

/-- Put a value under a serial number, in place of an earlier one. -/
def set (table : Table β) (serial : Nat) (value : β) : Table β where
  entries := (serial, value) :: table.entries.filter (·.1 != serial)

@[simp] theorem get?_empty (serial : Nat) : ({} : Table β).get? serial = none := rfl

@[simp] theorem get?_set_self (table : Table β) (serial : Nat) (value : β) :
    (table.set serial value).get? serial = some value := by
  simp [get?, set]

private theorem lookup_filter_of_ne {serial other : Nat} (h : other ≠ serial)
    (entries : List (Nat × β)) :
    (entries.filter (·.1 != serial)).lookup other = entries.lookup other := by
  induction entries with
  | nil => rfl
  | cons entry rest ih =>
      obtain ⟨key, value⟩ := entry
      by_cases hkey : key = serial
      · subst hkey
        have hother : (other == key) = false := by simpa using h
        simp [ih, List.lookup_cons, hother]
      · by_cases hother : other == key <;> simp [hkey, List.lookup_cons, hother, ih]

theorem get?_set_of_ne (table : Table β) {serial other : Nat} (value : β) (h : other ≠ serial) :
    (table.set serial value).get? other = table.get? other := by
  have hbeq : (other == serial) = false := by simpa using h
  simp [get?, set, List.lookup_cons, hbeq, lookup_filter_of_ne h]

end Table

end CompositeModels
