import RayzWeapon.Lib.Sampling
import RayzWeapon.Tasks.Presses
import RayzWeapon.Tasks.Timing

namespace RayzWeapon.Tasks

open RayzWeapon.Lib

variable (p : Protocol) (c : Durations)

structure Reads (signal : Nat → Bool) (s : TimedWeapon) (x : Nat × Label) : Prop where
  forward : s.now ≤ x.1
  level : ∀ pressed ∈ sampledLevel s.weapon x.2, pressed = signal x.1

instance (signal : Nat → Bool) (s : TimedWeapon) (x : Nat × Label) :
    Decidable (Reads signal s x) :=
  decidable_of_iff (s.now ≤ x.1 ∧ ∀ pressed ∈ sampledLevel s.weapon x.2, pressed = signal x.1)
    ⟨fun ⟨forward, level⟩ => ⟨forward, level⟩, fun reads => ⟨reads.forward, reads.level⟩⟩

def TimedWeapon.ReadingRun (signal : Nat → Bool) (s : TimedWeapon) (h : List (Nat × Label)) :
    Prop :=
  Runs.Each (fun k x => Reads signal (s.after p c k) x) h

instance (signal : Nat → Bool) (s : TimedWeapon) (h : List (Nat × Label)) :
    Decidable (s.ReadingRun p c signal h) :=
  inferInstanceAs (Decidable (Runs.Each _ h))

/-- The presses of the button from `start` to `t`; one that is held at `start` counts. -/
def presses (signal : Nat → Bool) (start t : Nat) : Nat :=
  Sampling.rises signal t - Sampling.rises signal start + (signal start).toNat

variable {p c} {signal : Nat → Bool} {start : Nat}

theorem sampledLevel_cases (w : Weapon) (x : Label) :
    sampledLevel w x = [] ∨ ∃ pressed, sampledLevel w x = [pressed] := by
  cases x with
  | control i =>
    simp only [sampledLevel]
    split
    · exact .inr ⟨_, rfl⟩
    · exact .inl rfl
  | _ => exact .inl rfl

theorem TimedWeapon.accounted {w : Weapon} {h : List (Nat × Label)}
    (run : (initial w start).ReadingRun p c signal h) :
    Sampling.Accounted signal start ((initial w start).after p c h).now
      (w.samples p (h.map Prod.snd)) := by
  induction h with
  | nil => exact Sampling.accounted_nil
  | cons x h ih =>
    obtain ⟨reads, run⟩ := Runs.each_cons.mp run
    have waited := (ih run).wait reads.forward
    have level := reads.level
    rw [TimedWeapon.weapon_after, TimedWeapon.initial_weapon] at level
    change Sampling.Accounted signal start x.1
      (sampledLevel (w.after p (h.map Prod.snd)) x.2 ++ w.samples p (h.map Prod.snd))
    rcases sampledLevel_cases (w.after p (h.map Prod.snd)) x.2 with none | ⟨pressed, one⟩
    · rwa [none]
    · rw [one] at level ⊢
      rw [level pressed (.head [])]
      exact waited.sample

structure ShotsPressed (presses : Nat) (w : Weapon) : Prop where
  fired : w.fired.length + w.controlPc.toFire ≤ presses
  recordShots : w.recordShots ≤ presses
  broadcasts : w.broadcasts.length ≤ presses
  sends : w.sends.length ≤ presses
  emitted : w.emitted.length ≤ presses

theorem ShotLedger.pressed {w : Weapon} (ledger : ShotLedger w) {presses : Nat}
    (fired : w.fired.length + w.controlPc.toFire ≤ presses) : ShotsPressed presses w := by
  have sent := congrArg List.length ledger.sent
  have broadcast := congrArg List.length ledger.broadcast
  have delivered := congrArg List.length ledger.delivered
  have recorded := ledger.recorded
  have accepted := w.length_sends
  simp only [List.length_append, List.length_map, Weapon.broadcastData] at sent broadcast delivered
  constructor <;> omega

theorem shots_pressed (p : Protocol) (c : Durations) (signal : Nat → Bool) (start : Nat)
    (config : DeviceConfig) (gcfg : GameConfig) (respawning : Bool) {h : List (Nat × Label)}
    (run : (TimedWeapon.initial (.initial config gcfg respawning) start).ReadingRun p c signal h) :
    ShotsPressed
      (presses signal start
        ((TimedWeapon.initial (.initial config gcfg respawning) start).after p c h).now)
      ((TimedWeapon.initial (.initial config gcfg respawning) start).after p c h).weapon := by
  have accounted := TimedWeapon.accounted run
  have trigger := triggerLedger_after p (triggerLedger_initial p config gcfg respawning)
    (h.map Prod.snd)
  have shots := shotLedger_after p (shotLedger_initial config gcfg respawning) (h.map Prod.snd)
  rw [TimedWeapon.weapon_after, TimedWeapon.initial_weapon]
  apply shots.pressed
  rw [trigger.fired, List.length_map, trigger.presses, presses]
  rw [Sampling.Accounted] at accounted
  omega

theorem shots_pressed_bounce :
    let signal (t : Nat) : Bool := decide (2 ≤ t ∧ t < 4 ∨ 8 ≤ t)
    let s := TimedWeapon.initial (.initial ⟨1, 7, 0, 0⟩ ⟨true, 0⟩ false) 0
    let h := [(12, .laser)] ++ List.replicate 6 (11, .control ⟨0, 11000, true, true⟩) ++
      [(10, .control ⟨0, 10000, true, true⟩)] ++
      List.replicate 2 (10, .control ⟨1, 10000, true, true⟩) ++
      List.replicate 4 (0, .control ⟨1, 0, true, true⟩)
    presses signal 0 12 = 2 ∧
      ShotsPressed (presses signal 0 12) (s.after .packed ⟨300, 10⟩ h).weapon := by
  intro signal s h
  have run : s.ReadingRun .packed ⟨300, 10⟩ signal h := by decide +kernel
  exact ⟨by decide +kernel, shots_pressed .packed ⟨300, 10⟩ signal 0 _ _ _ run⟩

end RayzWeapon.Tasks
