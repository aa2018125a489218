import RayzWeapon.Firmware.Defs

universe u v

namespace RayzWeapon

open RayzWeapon.Lib RayzWeapon.Tasks RayzWeapon.Display

variable {R : Type u} {W : Type v} {c : RespawnRecord R}

def FirmwareLabel.Early (c : RespawnRecord R) (r : R) (x : FirmwareLabel R W) : Prop :=
  ∀ y ∈ x.respawnSteps, y.Early c r

def FirmwareLabel.Overdue (c : RespawnRecord R) (r : R) (x : FirmwareLabel R W) : Prop :=
  ∀ y ∈ x.respawnSteps, y.Overdue c r

/-- The step starts no respawn, leaves ammunition, and reads the trigger down if it reads it. -/
def FirmwareLabel.Pulls (c : RespawnRecord R) : FirmwareLabel R W → Prop
  | .control i => isTriggerPressed i.level = true
  | .setGameConfig gcfg => (!gcfg.unlimitedAmmo && gcfg.maxAmmo == 0) = false
  | .setRecord record => c.isRespawning record = false
  | _ => True

def FirmwareLabel.isGame : FirmwareLabel R W → Bool
  | .game _ => true
  | _ => false

def FirmwareLabel.isControl : FirmwareLabel R W → Bool
  | .control _ => true
  | _ => false

variable (p : Protocol) (size : Nat)

section Early

theorem length_respawnSteps (x : FirmwareLabel R W) : x.respawnSteps.length ≤ 1 := by
  cases x <;> simp [FirmwareLabel.respawnSteps]

theorem Firmware.length_weaponSteps (f : Firmware c W) (x : FirmwareLabel R W) :
    (f.weaponSteps x).length ≤ 1 := by
  cases x <;> simp [weaponSteps]

theorem Firmware.record_early {f : Firmware c W} {x : FirmwareLabel R W}
    (early : x.Early c f.respawns.record) :
    (f.step p size x).respawns.record = f.respawns.record := by
  rw [respawns_step]
  cases steps : x.respawnSteps with
  | nil => rfl
  | cons y ys =>
    have single := length_respawnSteps x
    rw [steps, List.length_cons] at single
    obtain rfl : ys = [] := List.eq_nil_of_length_eq_zero (by omega)
    exact Tasks.record_early c (early y (by simp [steps]))

theorem Firmware.holds_step {f : Firmware c W} (flag : c.isRespawning f.respawns.record = true)
    (x : FirmwareLabel R W) :
    (f.step p size x).weapon.fired.length + Gate.respawn.past (f.step p size x).weapon.controlPc ≤
      f.weapon.fired.length + Gate.respawn.past f.weapon.controlPc := by
  rw [weapon_step]
  cases steps : f.weaponSteps x with
  | nil => exact Nat.le_refl _
  | cons y ys =>
    have single := f.length_weaponSteps x
    rw [steps, List.length_cons] at single
    obtain rfl : ys = [] := List.eq_nil_of_length_eq_zero (by omega)
    exact Gate.respawn.fired_step p f.weapon (f.synced.trans flag) y

theorem Firmware.respawn_holds (f : Firmware c W) (flag : c.isRespawning f.respawns.record = true)
    (h : List (FirmwareLabel R W)) (early : ∀ x ∈ h, x.Early c f.respawns.record) :
    (f.after p size h).respawns.record = f.respawns.record ∧
      (f.after p size h).weapon.fired.length +
          Gate.respawn.past (f.after p size h).weapon.controlPc ≤
        f.weapon.fired.length + Gate.respawn.past f.weapon.controlPc := by
  induction h with
  | nil => exact ⟨rfl, Nat.le_refl _⟩
  | cons x h ih =>
    obtain ⟨record, fired⟩ := ih fun y hy => early y (.tail x hy)
    have now : x.Early c (f.after p size h).respawns.record := by
      rw [record]
      exact early x (.head h)
    have flag' : c.isRespawning (f.after p size h).respawns.record = true := by rw [record, flag]
    exact ⟨(Firmware.record_early p size now).trans record,
      (Firmware.holds_step p size flag' x).trans fired⟩

def Firmware.respawning : Firmware deadlineRecord UInt32 where
  weapon := .initial ⟨1, 7, 0, 0⟩ ⟨true, 0⟩ true
  respawns := .initial (some 5000)
  display := startDisplay .bare zeroDm true true true ⟨0, 0⟩
  synced := rfl

theorem Firmware.respawn_holds_trigger_down :
    let h : List (FirmwareLabel (Option Nat) UInt32) :=
      List.replicate 9 (.control ⟨0, 0, true, true⟩) ++ [.game ⟨4000, 4⟩, .game ⟨3900, 3⟩]
    (respawning.after .packed 32 h).respawns.record = some 5000 ∧
      (respawning.after .packed 32 h).weapon.fired.length +
        Gate.respawn.past (respawning.after .packed 32 h).weapon.controlPc ≤ 0 :=
  respawning.respawn_holds .packed 32 rfl _ (by
    intro x hx
    simp only [List.mem_append, List.mem_replicate, List.mem_cons, List.not_mem_nil, or_false] at hx
    rcases hx with ⟨-, rfl⟩ | rfl | rfl
    all_goals
      simp [FirmwareLabel.Early, FirmwareLabel.respawnSteps, RespawnLabel.Early, respawning,
        Respawns.initial, deadlineRecord])

end Early

section Over

end Over

end RayzWeapon
