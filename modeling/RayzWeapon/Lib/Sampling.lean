import RayzWeapon.Lib.Edges

namespace RayzWeapon.Lib.Sampling

variable {signal : Nat → Bool} {start last t G : Nat} {samples : List Bool}

def rises (signal : Nat → Bool) : Nat → Nat
  | 0 => 0
  | t + 1 => rises signal t + if (Edges.detect (signal t) (signal (t + 1))).2 then 1 else 0

/-- From `start` on, a level that is taken up is kept for `G` ticks. -/
def Steady (start G : Nat) (signal : Nat → Bool) : Prop :=
  ∀ t, start ≤ t → signal (t + 1) ≠ signal t → ∀ k < G, signal (t + 1 + k) = signal (t + 1)

theorem rises_succ_same (same : signal (t + 1) = signal t) :
    rises signal (t + 1) = rises signal t := by
  cases level : signal t <;> simp [rises, Edges.detect, same, level]

theorem exists_change {d : Nat} (differs : signal (last + d) ≠ signal last) :
    ∃ t, last ≤ t ∧ t < last + d ∧ signal (t + 1) ≠ signal t := by
  induction d with
  | zero => exact absurd rfl differs
  | succ d ih =>
    by_cases same : signal (last + d) = signal last
    · refine ⟨last + d, Nat.le_add_right _ _, Nat.lt_succ_self _, ?_⟩
      rw [same]
      exact differs
    · obtain ⟨t, since, before, change⟩ := ih same
      exact ⟨t, since, Nat.lt_succ_of_lt before, change⟩

theorem Steady.same_before_change (steady : Steady start G signal) (since : start ≤ last) {d : Nat}
    (near : d < G) (change : signal (last + d + 1) ≠ signal (last + d)) :
    signal (last + d) = signal last := by
  by_contra differs
  obtain ⟨t, since', before, first⟩ := exists_change differs
  obtain ⟨k, now⟩ := Nat.exists_eq_add_of_lt before
  have kept := steady t (since.trans since') first
  have here := kept k (by omega)
  have next := kept (k + 1) (by omega)
  rw [show t + 1 + k = last + d by omega] at here
  rw [show t + 1 + (k + 1) = last + d + 1 by omega] at next
  exact change (next.trans here.symm)

theorem Steady.rises_eq (steady : Steady start G signal) (since : start ≤ last) {d : Nat}
    (near : d ≤ G) :
    rises signal (last + d) =
      rises signal last + if (Edges.detect (signal last) (signal (last + d))).2 then 1 else 0 := by
  induction d with
  | zero => cases signal last <;> simp [Edges.detect]
  | succ d ih =>
    have count := ih (Nat.le_of_succ_le near)
    rw [← Nat.add_assoc]
    by_cases same : signal (last + d + 1) = signal (last + d)
    · rw [rises_succ_same same, same, count]
    · have first := steady.same_before_change since near same
      rw [rises, count, first]
      cases signal last <;> simp [Edges.detect]

structure Seen (signal : Nat → Bool) (start last : Nat) (samples : List Bool) : Prop where
  since : start ≤ last
  level : Edges.level samples = signal last
  rising : rises signal last = rises signal start + Edges.rising samples

theorem seen_nil (low : signal start = false) : Seen signal start start [] :=
  ⟨Nat.le_refl start, low.symm, rfl⟩

theorem Seen.sample (seen : Seen signal start last samples) (steady : Steady start G signal)
    (later : last ≤ t) (near : t ≤ last + G) : Seen signal start t (signal t :: samples) := by
  obtain ⟨since, level, rising⟩ := seen
  obtain ⟨d, rfl⟩ := Nat.exists_eq_add_of_le later
  refine ⟨since.trans later, rfl, ?_⟩
  rw [steady.rises_eq since (Nat.le_of_add_le_add_left near), rising, Edges.rising_cons, level,
    Nat.add_assoc]

/-- The edges among the samples, with the one that a sample at `t` would show, are edges of the
signal from `start` on, where a high level at `start` counts as one.  Nothing is asked of how long
a level lasts. -/
def Accounted (signal : Nat → Bool) (start t : Nat) (samples : List Bool) : Prop :=
  rises signal start + Edges.rising samples +
      (Edges.detect (Edges.level samples) (signal t)).2.toNat ≤
    rises signal t + (signal start).toNat

theorem accounted_nil : Accounted signal start start [] := by
  simp [Accounted, Edges.rising, Edges.detect]

theorem Accounted.tick (accounted : Accounted signal start t samples) :
    Accounted signal start (t + 1) samples := by
  simp only [Accounted, rises, Edges.detect] at accounted ⊢
  cases level : Edges.level samples <;> cases before : signal t <;>
    cases signal (t + 1) <;> simp [level, before] at accounted ⊢ <;> omega

theorem Accounted.wait (accounted : Accounted signal start last samples) (later : last ≤ t) :
    Accounted signal start t samples := by
  induction t, later using Nat.le_induction with
  | base => exact accounted
  | succ t _ ih => exact ih.tick

theorem Accounted.sample (accounted : Accounted signal start t samples) :
    Accounted signal start t (signal t :: samples) := by
  simp only [Accounted, Edges.rising_cons, Edges.level_cons, Edges.detect] at accounted ⊢
  cases level : Edges.level samples <;> cases now : signal t <;>
    simp [level, now] at accounted ⊢ <;> omega

end RayzWeapon.Lib.Sampling
