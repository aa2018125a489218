import Mathlib.Data.Nat.Init

/-! Clocks that count modulo `M`.  A deadline is stored as a wrapped sum and tested with `≥`, and `0`
stands for "no deadline"; an age is a wrapped difference. -/

namespace RayzWeapon.Lib.WrapClock

def Reached (deadline t : Nat) : Prop := deadline ≠ 0 ∧ deadline ≤ t

instance (deadline t : Nat) : Decidable (Reached deadline t) := inferInstanceAs (Decidable (_ ∧ _))

variable {M c d e : Nat}

theorem add_mod (hc : c < M) (hd : d < M) :
    (c + d) % M = if c + d < M then c + d else c + d - M := by
  split
  · exact Nat.mod_eq_of_lt (by assumption)
  · rw [Nat.mod_eq_sub_mod (by omega), Nat.mod_eq_of_lt (by omega)]

theorem reached_of_no_wrap {t : Nat} (hd : 0 < d) (h : c + d < M) :
    Reached ((c + d) % M) t ↔ c + d ≤ t := by
  rw [Nat.mod_eq_of_lt h, Reached]
  omega

theorem reached_of_lt (hc : c < M) (hd : 0 < d) (he : e < M) (h : c + d < M) :
    Reached ((c + d) % M) ((c + e) % M) ↔ c + e < M ∧ d ≤ e := by
  rw [reached_of_no_wrap hd h, add_mod hc he]
  split <;> omega

theorem not_reached_of_eq {t : Nat} (h : c + d = M) : ¬Reached ((c + d) % M) t := by
  rw [h, Nat.mod_self, Reached]
  omega

theorem reached_of_gt (hc : c < M) (hdM : d < M) (he : e < M) (h : M < c + d) :
    Reached ((c + d) % M) ((c + e) % M) ↔ c + e < M ∨ d ≤ e := by
  rw [add_mod hc hdM, add_mod hc he, if_neg (by omega), Reached]
  split <;> omega

/-- A deadline set `d` ahead at the clock value `c` is tested rightly at the elapsed time `e`
exactly when the clock has wrapped by then if and only if the deadline has; one that wraps to `0`
is tested rightly before its time only. -/
theorem reached_iff (hc : c < M) (hd : 0 < d) (hdM : d < M) (he : e < M) :
    (Reached ((c + d) % M) ((c + e) % M) ↔ d ≤ e) ↔
      if c + d = M then e < d else (c + e < M ↔ c + d < M) := by
  rcases Nat.lt_trichotomy (c + d) M with below | zero | above
  · rw [reached_of_lt hc hd he below, if_neg (Nat.ne_of_lt below)]
    grind
  · rw [if_pos zero]
    have never := not_reached_of_eq (t := (c + e) % M) zero
    grind
  · rw [reached_of_gt hc hdM he above, if_neg (Nat.ne_of_gt above)]
    grind

def age (M last t : Nat) : Nat := (M - last + t) % M

theorem age_of_le {last t : Nat} (le : last ≤ t) (ht : t < M) : age M last t = t - last := by
  rw [age, Nat.mod_eq_sub_mod (by omega), Nat.mod_eq_of_lt (by omega)]
  omega

theorem age_of_gt {last t : Nat} (gt : t < last) (hlast : last < M) :
    age M last t = M - last + t := by
  rw [age, Nat.mod_eq_of_lt (by omega)]

theorem age_add (M last t d : Nat) : age M last ((t + d) % M) = (age M last (t % M) + d) % M := by
  simp only [age, Nat.add_mod_mod, Nat.mod_add_mod, Nat.add_assoc]

theorem age_self (hM : 0 < M) (t : Nat) : age M (t % M) (t % M) = 0 := by
  have small := Nat.mod_lt t hM
  rw [age, Nat.sub_add_cancel (Nat.le_of_lt small), Nat.mod_self]

theorem age_stamp_le (hM : 0 < M) (t d : Nat) : age M (t % M) ((t + d) % M) ≤ d := by
  rw [age_add, age_self hM, Nat.zero_add]
  exact Nat.mod_le d M

theorem age_of_young {last a t d : Nat} (young : age M last (t % M) = a) (noWrap : a + d < M) :
    age M last ((t + d) % M) = a + d := by
  rw [age_add, young, Nat.mod_eq_of_lt noWrap]

end RayzWeapon.Lib.WrapClock
