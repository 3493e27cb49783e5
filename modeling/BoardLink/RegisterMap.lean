/-!
# Maps from registers

A register is named by an address and a port. A `RegisterMap` has a value for every register.
-/

namespace BoardLink

/-- A value for every register. -/
def RegisterMap (α : Type) := (addr port : UInt8) → α

namespace RegisterMap

variable {α : Type}

/-- The map with the same value everywhere. -/
def all (a : α) : RegisterMap α := fun _ _ => a

/-- The map with one value changed. -/
def set (m : RegisterMap α) (addr port : UInt8) (a : α) : RegisterMap α :=
  fun x y => if x = addr ∧ y = port then a else m x y

@[simp] theorem set_self (m : RegisterMap α) (addr port : UInt8) (a : α) :
    m.set addr port a addr port = a := by
  simp [set]

/-- Changing one value leaves the others alone. -/
theorem set_of_ne (m : RegisterMap α) {addr port x y : UInt8} (a : α) (h : ¬(x = addr ∧ y = port)) :
    m.set addr port a x y = m x y := by
  simp [set, h]

end RegisterMap

end BoardLink
