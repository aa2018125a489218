import RayzWeapon.Tasks.Control

namespace RayzWeapon.Tasks

open RayzWeapon.Lib

variable (p : Protocol)

def controlAfter (h : List LoopInput) : Control :=
  Runs.after (fun c i => (controlLoop p c i).1) .initial h

def passCalls (h : List LoopInput) (x : LoopInput) : List Call :=
  (controlLoop p (controlAfter p h) x).2

def runCalls : List LoopInput → List Call
  | [] => []
  | x :: h => runCalls h ++ passCalls p h x

def shotsFired (h : List LoopInput) : Nat := (runCalls p h).count .recordShot

def sampled (h : List LoopInput) : List Bool :=
  (h.filter LoopInput.enabled).map LoopInput.pressed

theorem sampled_enabled {x : LoopInput} (enabled : x.enabled = true) (h : List LoopInput) :
    sampled (x :: h) = x.pressed :: sampled h := by simp [sampled, enabled]

theorem sampled_disabled {x : LoopInput} (disabled : x.enabled = false) (h : List LoopInput) :
    sampled (x :: h) = sampled h := by simp [sampled, disabled]

theorem sampled_append (h k : List LoopInput) : sampled (h ++ k) = sampled h ++ sampled k := by
  simp [sampled]

theorem wasPressed_controlAfter (h : List LoopInput) :
    (controlAfter p h).wasPressed = Edges.level (sampled h) := by
  induction h with
  | nil => rfl
  | cons x h ih =>
    simp only [controlAfter, Runs.after_cons] at ih ⊢
    cases enabled : x.enabled with
    | false => rw [controlLoop_disabled p _ enabled, sampled_disabled enabled, ih]
    | true =>
      rw [(controlLoop_detects p _ enabled).1, ih, sampled_enabled enabled, Edges.detect_level]

theorem count_passCalls (h : List LoopInput) (x : LoopInput) :
    (passCalls p h x).count .recordShot =
      if x.enabled && (Edges.detect (Edges.level (sampled h)) x.pressed).2 then 1 else 0 := by
  cases enabled : x.enabled with
  | false => simp [passCalls, controlLoop_disabled p _ enabled]
  | true =>
    rw [passCalls, (controlLoop_detects p _ enabled).2, wasPressed_controlAfter, Bool.true_and]

theorem shotsFired_eq_rising (h : List LoopInput) :
    shotsFired p h = Edges.rising (sampled h) := by
  induction h with
  | nil => rfl
  | cons x h ih =>
    simp only [shotsFired, runCalls, List.count_append, count_passCalls] at ih ⊢
    rw [ih]
    cases enabled : x.enabled with
    | false => simp [sampled_disabled enabled]
    | true => rw [sampled_enabled enabled, Edges.rising_cons, Bool.true_and]

structure LoopInput.Limited (n : Nat) (i : LoopInput) : Prop where
  alive : i.respawning = false
  limited : i.gcfg.unlimitedAmmo = false
  maxAmmo : i.gcfg.maxAmmo = n

theorem LoopInput.Limited.enabled {n : Nat} {i : LoopInput} (limited : i.Limited n) :
    i.enabled = !(n == 0) := by
  simp [LoopInput.enabled, limited.alive, limited.limited, limited.maxAmmo]

theorem sampled_limited {n : Nat} {h : List LoopInput} (limited : ∀ i ∈ h, i.Limited n) :
    sampled h = if n = 0 then [] else h.map LoopInput.pressed := by
  have enabled : ∀ i ∈ h, i.enabled = !(n == 0) := fun i hi => (limited i hi).enabled
  split
  next zero =>
    have none : h.filter LoopInput.enabled = [] := by
      apply List.filter_eq_nil_iff.mpr
      intro i hi
      simp [enabled i hi, zero]
    simp [sampled, none]
  next pos =>
    have all : h.filter LoopInput.enabled = h := by
      apply List.filter_eq_self.mpr
      intro i hi
      simp [enabled i hi, pos]
    rw [sampled, all]

theorem shotsFired_le_iff (n : Nat) (h : List LoopInput) (limited : ∀ i ∈ h, i.Limited n) :
    shotsFired p h ≤ n ↔ n = 0 ∨ Edges.rising (h.map LoopInput.pressed) ≤ n := by
  rw [shotsFired_eq_rising, sampled_limited limited]
  split
  next zero => simp [zero, Edges.rising]
  next pos => simp [pos]

theorem shotsFired_le_iff_one_press :
    shotsFired .packed [.limitedTo 1 1, .limitedTo 1 0] ≤ 1 ↔
      1 = 0 ∨ Edges.rising ([LoopInput.limitedTo 1 1, .limitedTo 1 0].map LoopInput.pressed) ≤ 1 := by
  apply shotsFired_le_iff .packed 1
  simp only [List.mem_cons, List.not_mem_nil, or_false]
  rintro i (rfl | rfl)
  all_goals exact ⟨rfl, rfl, rfl⟩

theorem two_shots_from_one_round :
    let h : List LoopInput := [.limitedTo 1 0, .limitedTo 1 1, .limitedTo 1 0]
    (∀ i ∈ h, i.Limited 1) ∧ ¬shotsFired .packed h ≤ 1 := by
  constructor
  · simp only [List.mem_cons, List.not_mem_nil, or_false]
    rintro i (rfl | rfl | rfl)
    all_goals exact ⟨rfl, rfl, rfl⟩
  · decide

def Fires (h : List LoopInput) (x : LoopInput) : Prop := .recordShot ∈ passCalls p h x

instance (h : List LoopInput) (x : LoopInput) : Decidable (Fires p h x) :=
  inferInstanceAs (Decidable (Call.recordShot ∈ passCalls p h x))

theorem fires_iff (h : List LoopInput) (x : LoopInput) :
    Fires p h x ↔ x.enabled = true ∧ x.pressed = true ∧ Edges.level (sampled h) = false := by
  rw [Fires, ← List.count_pos_iff, count_passCalls]
  cases x.enabled <;> cases x.pressed <;> cases Edges.level (sampled h) <;> simp [Edges.detect]

/-- The pass fires exactly when it is enabled and the button has just been pressed: it is down now
and was up at the pass before, if there was one. -/
def EdgeLaw (h : List LoopInput) (x : LoopInput) : Prop :=
  Fires p h x ↔ x.enabled = true ∧ x.pressed = true ∧ ∀ y ∈ h.head?, y.pressed = false

/-- A pass that would see the button down finds it as it last read it. -/
def SampleFresh (h : List LoopInput) (x : LoopInput) : Prop :=
  x.enabled = true → x.pressed = true →
    Edges.level (sampled h) = Edges.level (h.map LoopInput.pressed)

theorem level_map_pressed (h : List LoopInput) :
    Edges.level (h.map LoopInput.pressed) = false ↔ ∀ y ∈ h.head?, y.pressed = false := by
  cases h <;> simp

theorem edgeLaw_iff (h : List LoopInput) (x : LoopInput) :
    EdgeLaw p h x ↔ SampleFresh h x := by
  rw [EdgeLaw, fires_iff, ← level_map_pressed, SampleFresh]
  cases x.enabled <;> cases x.pressed <;> cases Edges.level (sampled h) <;>
    cases Edges.level (h.map LoopInput.pressed) <;> simp

theorem each_edgeLaw_iff (h : List LoopInput) :
    Runs.Each (EdgeLaw p) h ↔ Runs.Each SampleFresh h := by
  simp only [Runs.Each, edgeLaw_iff]

theorem held_press_fires_on_enabling :
    let h : List LoopInput := [.limitedTo 1 0, .limitedTo 0 0, .limitedTo 0 1]
    Fires .packed h.tail (.limitedTo 1 0) ∧ ¬Runs.Each (EdgeLaw .packed) h := by
  intro h
  have fires : Fires .packed h.tail (.limitedTo 1 0) := by decide
  refine ⟨fires, fun law => ?_⟩
  obtain ⟨-, -, released⟩ := (law _ _ (List.suffix_refl h)).mp fires
  exact absurd (released (.limitedTo 0 0) rfl) (by decide)

/-- The shots of a run are its presses: the blocks of samples at which the trigger was down, each
fired by the pass that took the first sample of the block. -/
structure OneShotPerPress (h : List LoopInput) : Prop where
  count : {B : Nat × Nat | Edges.Block (sampled h).reverse B.1 B.2}.encard = shotsFired p h
  first : ∀ later x earlier, h = later ++ x :: earlier →
    (Fires p earlier x ↔
      x.enabled = true ∧ ∃ b, Edges.Block (sampled h).reverse (sampled earlier).length b)
  released : ∀ later x between y earlier, h = later ++ x :: (between ++ y :: earlier) →
    Fires p (between ++ y :: earlier) x → Fires p earlier y →
      ∃ z ∈ between, z.enabled = true ∧ z.pressed = false

theorem fires_iff_block (later : List LoopInput) {x : LoopInput} (enabled : x.enabled = true)
    (earlier : List LoopInput) :
    Fires p earlier x ↔
      ∃ b, Edges.Block (sampled (later ++ x :: earlier)).reverse (sampled earlier).length b := by
  have inside : (sampled earlier).length < (x.pressed :: sampled earlier).reverse.length := by simp
  rw [← Edges.risesAt_iff_block, sampled_append, sampled_enabled enabled, List.reverse_append,
    Edges.risesAt_append inside, Edges.risesAt_last, fires_iff]
  simp [enabled, Edges.detect]

theorem released_between {x y : LoopInput} {between earlier : List LoopInput}
    (fires : Fires p (between ++ y :: earlier) x) (fired : Fires p earlier y) :
    ∃ z ∈ between, z.enabled = true ∧ z.pressed = false := by
  obtain ⟨-, -, low⟩ := (fires_iff p _ x).mp fires
  obtain ⟨enabled, pressed, -⟩ := (fires_iff p _ y).mp fired
  rw [sampled_append, sampled_enabled enabled, pressed] at low
  cases samples : sampled between with
  | nil =>
    rw [samples] at low
    cases low
  | cons level rest =>
    -- The latest sample since the earlier shot is a release.
    rw [samples] at low
    have mem : false ∈ sampled between := by
      rw [samples, ← low]
      exact .head rest
    simpa [sampled, and_assoc] using mem

theorem oneShotPerPress (h : List LoopInput) : OneShotPerPress p h where
  count := by rw [Edges.encard_block, shotsFired_eq_rising]
  first := by
    rintro later x earlier rfl
    cases enabled : x.enabled with
    | false => simp [fires_iff, enabled]
    | true => simpa using fires_iff_block p later enabled earlier
  released := by
    rintro later x between y earlier - fires fired
    exact released_between p fires fired

example :
    let h : List LoopInput := [.limitedTo 1 0, .limitedTo 0 1, .limitedTo 1 0, .limitedTo 1 1]
    sampled h = [true, true, false] ∧ shotsFired .packed h = 1 := by decide

end RayzWeapon.Tasks
