import Mathlib.Data.List.Basic
import Mathlib.Algebra.Order.Group.Nat

namespace RayzWeapon.Lib

def Spaced (P : Nat) (times : List Nat) : Prop := times.Pairwise fun t t' => t' + P ≤ t

namespace Spaced

variable {P a d t : Nat} {times : List Nat}

theorem nil : Spaced P [] := List.Pairwise.nil

theorem cons (spaced : Spaced P times) (last : ∀ t' ∈ times.head?, t' + P ≤ t) :
    Spaced P (t :: times) := by
  refine List.Pairwise.cons ?_ spaced
  cases times with
  | nil => simp
  | cons t₀ times =>
    have last : t₀ + P ≤ t := last t₀ rfl
    intro t' ht'
    rcases List.mem_cons.mp ht' with rfl | ht'
    · exact last
    · have earlier := (List.pairwise_cons.mp spaced).1 t' ht'
      omega

theorem length_mul_le (spaced : Spaced P (t :: times)) (since : ∀ t' ∈ t :: times, a ≤ t') :
    a + times.length * P ≤ t := by
  induction times generalizing t with
  | nil => simpa using since t (.head [])
  | cons t' times ih =>
    obtain ⟨last, spaced'⟩ := List.pairwise_cons.mp spaced
    have before := ih spaced' fun t'' ht'' => since t'' (.tail t ht'')
    have gap := last t' (.head times)
    rw [List.length_cons, Nat.succ_mul]
    omega

theorem countP_le (spaced : Spaced P times) (pos : 0 < P) (a d : Nat) :
    times.countP (fun t => a ≤ t ∧ t ≤ a + d) ≤ d / P + 1 := by
  rw [List.countP_eq_length_filter]
  have inside : ∀ t ∈ times.filter (fun t => a ≤ t ∧ t ≤ a + d), a ≤ t ∧ t ≤ a + d := by
    intro t ht
    simpa using (List.mem_filter.mp ht).2
  have spaced' : Spaced P (times.filter fun t => a ≤ t ∧ t ≤ a + d) := List.Pairwise.filter _ spaced
  generalize times.filter (fun t => a ≤ t ∧ t ≤ a + d) = window at inside spaced' ⊢
  cases window with
  | nil => exact Nat.zero_le _
  | cons t window =>
    have length := spaced'.length_mul_le fun t' ht' => (inside t' ht').1
    have last := (inside t (.head window)).2
    rw [List.length_cons]
    exact Nat.succ_le_succ ((Nat.le_div_iff_mul_le pos).mpr (by omega))

end Spaced

end RayzWeapon.Lib
