import Mathlib.Data.List.Forall2
import Mathlib.Data.Nat.ModEq

universe u

namespace RayzWeapon.Lib.Bits

def bits : Nat → Nat → List Bool
  | 0, _ => []
  | n + 1, a => a.testBit n :: bits n a

def value (l : List Bool) : Nat := (BitVec.ofBoolListBE l).toNat

@[simp] theorem value_nil : value [] = 0 := rfl

@[simp] theorem value_cons (x : Bool) (l : List Bool) :
    value (x :: l) = x.toNat * 2 ^ l.length + value l := by
  rw [value, BitVec.ofBoolListBE, BitVec.toNat_cons', Nat.shiftLeft_eq, value]

@[simp] theorem length_bits (n a : Nat) : (bits n a).length = n := by
  induction n with
  | zero => rfl
  | succ n ih => rw [bits, List.length_cons, ih]

theorem value_bits (n a : Nat) : value (bits n a) = a % 2 ^ n := by
  induction n with
  | zero => simp [bits, Nat.mod_one]
  | succ n ih =>
    rw [bits, value_cons, length_bits, ih, Nat.toNat_testBit, Nat.mod_pow_succ, Nat.mul_comm,
      Nat.add_comm]

section Blocks

variable {α : Type u} {n : Nat}

end Blocks

def encode (n : Nat) (as : List Nat) : List Bool := as.flatMap (bits n)

end RayzWeapon.Lib.Bits
