import RayzWeapon.Tasks.Shots

namespace RayzWeapon.Tasks

open RayzWeapon.Lib

/-- What the control task asks before it looks at the trigger, in this order. -/
inductive Gate
  | respawn
  | ammo

def Weapon.shut (w : Weapon) : Gate → Bool
  | .respawn => w.respawning
  | .ammo => !w.gcfg.unlimitedAmmo && w.gcfg.maxAmmo == 0

/-- Shots that may still come of the current pass when the gate is shut. -/
def Gate.past : Gate → ControlPc → Nat
  | .respawn, .ammo => 1
  | _, .sample => 1
  | _, .create => 1
  | _, _ => 0

section Shut

variable (p : Protocol) (w : Weapon)

theorem fired_quiet {x : Label} (other : ∀ i, x ≠ .control i) :
    (w.step p x).control = w.control ∧ (w.step p x).controlPc = w.controlPc ∧
      (w.step p x).fired = w.fired := by
  cases x with
  | control i => exact absurd rfl (other i)
  | laser =>
    rw [Weapon.step, laserStep_frame]
    exact ⟨rfl, rfl, rfl⟩
  | espnow i =>
    rw [Weapon.step, espnowStep_frame]
    exact ⟨rfl, rfl, rfl⟩
  | setConfig _ | setGameConfig _ | setRespawning _ => exact ⟨rfl, rfl, rfl⟩

theorem Gate.fired_controlStep (gate : Gate) (shut : w.shut gate = true) (i : ControlRead) :
    (controlStep p w i).fired.length + gate.past (controlStep p w i).controlPc ≤
      w.fired.length + gate.past w.controlPc := by
  unfold controlStep
  cases pc : w.controlPc with
  | top =>
    cases gate with
    | respawn => simp [Gate.past, show w.respawning = true from shut]
    | ammo => cases w.respawning <;> simp [Gate.past]
  | ammo =>
    cases gate with
    | respawn => dsimp only; split <;> simp [Gate.past]
    | ammo => simp [Gate.past, show (!w.gcfg.unlimitedAmmo && w.gcfg.maxAmmo == 0) = true from shut]
  | sample =>
    dsimp only
    split
    · simp [Gate.past]
    · split <;> simp [Gate.past]
  | _ => simp [Gate.past]

theorem Gate.fired_step (gate : Gate) (shut : w.shut gate = true) (x : Label) :
    (w.step p x).fired.length + gate.past (w.step p x).controlPc ≤
      w.fired.length + gate.past w.controlPc := by
  by_cases control : ∃ i, x = .control i
  · obtain ⟨i, rfl⟩ := control
    exact gate.fired_controlStep p w shut i
  · obtain ⟨-, pc, fired⟩ := fired_quiet p w fun i eq => control ⟨i, eq⟩
    rw [pc, fired]

theorem Gate.holds (gate : Gate) (h : List Label)
    (shut : Runs.Always (fun k => (w.after p k).shut gate = true) h) :
    (w.after p h).fired.length + gate.past (w.after p h).controlPc ≤
      w.fired.length + gate.past w.controlPc := by
  induction h with
  | nil => exact Nat.le_refl _
  | cons x h ih =>
    obtain ⟨-, shut⟩ := Runs.always_cons.mp shut
    exact (gate.fired_step p _ shut.now x).trans (ih shut)

theorem Gate.holds_last_shot :
    let down : Label := .control ⟨0, 1000, true, true⟩
    let w := (Weapon.initial ⟨1, 7, 0, 0⟩ ⟨false, 1⟩ false).after .packed
      [.setGameConfig ⟨false, 0⟩, down, down, down]
    (w.after .packed [down, down]).fired.length = 1 ∧
      (w.after .packed [down, down]).fired.length +
          Gate.ammo.past (w.after .packed [down, down]).controlPc ≤
        w.fired.length + Gate.ammo.past w.controlPc := by
  intro down w
  have shut : Runs.Always (fun k => (w.after .packed k).shut .ammo = true) [down, down] :=
    Runs.always_cons.mpr ⟨rfl, Runs.always_cons.mpr ⟨rfl, Runs.always_nil.mpr rfl⟩⟩
  exact ⟨rfl, Gate.ammo.holds .packed w _ shut⟩

end Shut

section Open

def Label.Pulls : Label → Prop
  | .control i => isTriggerPressed i.level = true
  | .setGameConfig gcfg => (!gcfg.unlimitedAmmo && gcfg.maxAmmo == 0) = false
  | .setRespawning respawning => respawning = false
  | _ => True

def Label.isControl : Label → Bool
  | .control _ => true
  | _ => false

def ControlPc.toShot : ControlPc → Nat
  | .start => 4
  | .top => 3
  | .ammo => 2
  | .sample => 1
  | _ => 0

def Aiming (n : Nat) (w : Weapon) : Prop :=
  w.fired.length = n ∧
    (w.controlPc = .create ∧ w.control.wasPressed = true ∨
      w.controlPc.inShotBlock = false ∧ w.control.wasPressed = false)

def Pulled (n : Nat) (w : Weapon) : Prop :=
  w.fired.length = n + 1 ∧ w.control.wasPressed = true ∧ w.controlPc ≠ .create

variable (p : Protocol) {w : Weapon} {n : Nat}

theorem Pulled.control (pulled : Pulled n w) {i : ControlRead}
    (pressed : isTriggerPressed i.level = true) : Pulled n (controlStep p w i) := by
  obtain ⟨fired, held, clear⟩ := pulled
  unfold controlStep
  cases pc : w.controlPc with
  | create => exact absurd pc clear
  | sample => simp [Pulled, pressed, held, fired]
  | top | ammo => exact ⟨fired, held, by dsimp only; split <;> simp⟩
  | _ => exact ⟨fired, held, by simp⟩

theorem Aiming.control (aiming : Aiming n w) (opened : ∀ gate, w.shut gate = false)
    {i : ControlRead} (pressed : isTriggerPressed i.level = true) :
    Pulled n (controlStep p w i) ∨
      Aiming n (controlStep p w i) ∧
        (controlStep p w i).controlPc.toShot + 1 ≤ w.controlPc.toShot := by
  have alive : w.respawning = false := opened .respawn
  have loaded : (!w.gcfg.unlimitedAmmo && w.gcfg.maxAmmo == 0) = false := opened .ammo
  obtain ⟨fired, ⟨create, held⟩ | ⟨outside, released⟩⟩ := aiming
  · unfold controlStep
    rw [create]
    exact .inl ⟨by simp [fired], held, by simp⟩
  · unfold controlStep
    cases pc : w.controlPc with
    | start => exact .inr ⟨⟨fired, .inr ⟨rfl, released⟩⟩, Nat.le_refl _⟩
    | top => simp [Aiming, alive, fired, released, ControlPc.toShot, ControlPc.inShotBlock]
    | ammo => simp [Aiming, loaded, fired, released, ControlPc.toShot, ControlPc.inShotBlock]
    | sample => simp [Aiming, pressed, fired, released, ControlPc.toShot]
    | _ => simp [pc, ControlPc.inShotBlock] at outside

theorem Pulled.step (pulled : Pulled n w) {x : Label} (pulls : x.Pulls) :
    Pulled n (w.step p x) := by
  by_cases control : ∃ i, x = .control i
  · obtain ⟨i, rfl⟩ := control
    exact pulled.control p pulls
  · obtain ⟨control', pc, fired⟩ := fired_quiet p w fun i eq => control ⟨i, eq⟩
    rwa [Pulled, control', pc, fired]

theorem Aiming.step (aiming : Aiming n w) (opened : ∀ gate, w.shut gate = false) {x : Label}
    (pulls : x.Pulls) :
    Pulled n (w.step p x) ∨ Aiming n (w.step p x) ∧
      (w.step p x).controlPc.toShot + x.isControl.toNat ≤ w.controlPc.toShot := by
  by_cases control : ∃ i, x = .control i
  · obtain ⟨i, rfl⟩ := control
    exact aiming.control p opened pulls
  · obtain ⟨control', pc, fired⟩ := fired_quiet p w fun i eq => control ⟨i, eq⟩
    have other : x.isControl = false := by
      cases x with
      | control i => exact absurd ⟨i, rfl⟩ control
      | _ => rfl
    refine .inr ⟨?_, ?_⟩
    · rwa [Aiming, control', pc, fired]
    · rw [pc, other]
      exact Nat.le_refl _

end Open

end RayzWeapon.Tasks
