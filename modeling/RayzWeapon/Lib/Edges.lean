import RayzWeapon.Lib.Runs
import Mathlib.Data.Set.Card

/-! Rising edges of a sampled signal.  Samples are listed latest first; before the first one the
signal counts as low. -/

namespace RayzWeapon.Lib.Edges

def level (samples : List Bool) : Bool := samples.headD false

def rising : List Bool → Nat
  | [] => 0
  | x :: samples => (if x && !level samples then 1 else 0) + rising samples

def detect (previous x : Bool) : Bool × Bool := (x, x && !previous)

@[simp] theorem level_nil : level [] = false := rfl

@[simp] theorem level_cons (x : Bool) (samples : List Bool) : level (x :: samples) = x := rfl

theorem detect_level (samples : List Bool) (x : Bool) :
    (detect (level samples) x).1 = level (x :: samples) := rfl

theorem rising_cons (x : Bool) (samples : List Bool) :
    rising (x :: samples) = rising samples + if (detect (level samples) x).2 then 1 else 0 := by
  rw [rising, detect, Nat.add_comm]

section Block

variable {l k samples : List Bool} {a b b' : Nat} {x : Bool}

/-- In the order the samples were taken: they are high from `a` up to `b`, which neither end of the
block could be moved past. -/
structure Block (l : List Bool) (a b : Nat) : Prop where
  nonempty : a < b
  high : ∀ i, a ≤ i → i < b → l[i]? = some true
  start : a = 0 ∨ l[a - 1]? = some false
  stop : b = l.length ∨ l[b]? = some false

def RisesAt (l : List Bool) (a : Nat) : Prop := l[a]? = some true ∧ (a = 0 ∨ l[a - 1]? = some false)

theorem RisesAt.lt_length (rises : RisesAt l a) : a < l.length :=
  (List.getElem?_eq_some_iff.mp rises.1).1

theorem Block.risesAt (block : Block l a b) : RisesAt l a :=
  ⟨block.high a (Nat.le_refl a) block.nonempty, block.start⟩

theorem Block.stop_le (block : Block l a b) (block' : Block l a b') : b' ≤ b := by
  by_contra longer
  have still : l[b]? = some true :=
    block'.high b (Nat.le_of_lt block.nonempty) (Nat.lt_of_not_le longer)
  rcases block.stop with rfl | low
  · simp at still
  · rw [low] at still
    cases still

theorem RisesAt.block (rises : RisesAt l a) : ∃ b, Block l a b := by
  classical
  -- The block ends at the first index from `a` on that is not high.
  have ends : ∃ b, a ≤ b ∧ l[b]? ≠ some true :=
    ⟨l.length, Nat.le_of_lt rises.lt_length, by simp⟩
  obtain ⟨le, fallen⟩ := Nat.find_spec ends
  have within : Nat.find ends ≤ l.length :=
    Nat.find_min' ends ⟨Nat.le_of_lt rises.lt_length, by simp⟩
  refine ⟨Nat.find ends, ?_, ?_, rises.2, ?_⟩
  · refine Nat.lt_of_le_of_ne le fun eq => fallen ?_
    rw [← eq]
    exact rises.1
  · intro i fromStart before
    by_contra notHigh
    exact Nat.find_min ends before ⟨fromStart, notHigh⟩
  · rcases Nat.eq_or_lt_of_le within with stop | inside
    · exact .inl stop
    · rw [List.getElem?_eq_getElem inside] at fallen ⊢
      exact .inr (by simpa using fallen)

theorem risesAt_iff_block : RisesAt l a ↔ ∃ b, Block l a b := by
  constructor
  · exact RisesAt.block
  · rintro ⟨b, block⟩
    exact block.risesAt

theorem risesAt_append (inside : a < l.length) : RisesAt (l ++ k) a ↔ RisesAt l a := by
  have before : a - 1 < l.length := Nat.lt_of_le_of_lt (Nat.sub_le a 1) inside
  rw [RisesAt, RisesAt, List.getElem?_append_left inside, List.getElem?_append_left before]

theorem risesAt_last :
    RisesAt (x :: samples).reverse samples.length ↔ (detect (level samples) x).2 = true := by
  cases samples with
  | nil => cases x <;> simp [RisesAt, detect]
  | cons y samples => cases x <;> cases y <;> simp [RisesAt, detect]

theorem risesAt_cons :
    RisesAt (x :: samples).reverse a ↔
      RisesAt samples.reverse a ∨ a = samples.length ∧ (detect (level samples) x).2 = true := by
  have length : samples.reverse.length = samples.length := List.length_reverse
  rcases Nat.lt_trichotomy a samples.length with inside | rfl | outside
  · rw [List.reverse_cons, risesAt_append (by omega)]
    simp [Nat.ne_of_lt inside]
  · have fresh : ¬RisesAt samples.reverse samples.length := fun rises => by
      have := rises.lt_length
      omega
    rw [risesAt_last]
    simp [fresh]
  · have neither : ¬RisesAt (x :: samples).reverse a ∧ ¬RisesAt samples.reverse a := by
      constructor
      all_goals
        intro rises
        have := rises.lt_length
        simp only [List.length_reverse, List.length_cons] at this
        omega
    rw [iff_false_left neither.1]
    simp [neither.2, Nat.ne_of_gt outside]

theorem encard_risesAt : {a | RisesAt samples.reverse a}.encard = rising samples := by
  induction samples with
  | nil => simp [RisesAt, rising]
  | cons x samples ih =>
    rw [rising_cons]
    cases edge : (detect (level samples) x).2 with
    | false =>
      have same : {a | RisesAt (x :: samples).reverse a} = {a | RisesAt samples.reverse a} := by
        ext a
        rw [Set.mem_ofPred_eq, risesAt_cons, edge]
        simp
      rw [same, ih]
      simp
    | true =>
      have split : {a | RisesAt (x :: samples).reverse a} =
          insert samples.length {a | RisesAt samples.reverse a} := by
        ext a
        rw [Set.mem_ofPred_eq, risesAt_cons, edge, or_comm]
        simp
      have fresh : samples.length ∉ {a | RisesAt samples.reverse a} := fun rises => by
        simpa using RisesAt.lt_length rises
      rw [split, Set.encard_insert_of_notMem fresh, ih]
      simp

theorem encard_block : {B : Nat × Nat | Block samples.reverse B.1 B.2}.encard = rising samples := by
  have starts : Prod.fst '' {B : Nat × Nat | Block samples.reverse B.1 B.2} =
      {a | RisesAt samples.reverse a} := by
    ext a
    simp [risesAt_iff_block]
  have inj : Set.InjOn Prod.fst {B : Nat × Nat | Block samples.reverse B.1 B.2} := by
    rintro ⟨a, b⟩ block ⟨a', b'⟩ block' (rfl : a = a')
    exact Prod.ext rfl (Nat.le_antisymm (block'.stop_le block) (block.stop_le block'))
  rw [← inj.encard_image, starts, encard_risesAt]

end Block

end RayzWeapon.Lib.Edges
