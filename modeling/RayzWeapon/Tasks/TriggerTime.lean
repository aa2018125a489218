import RayzWeapon.Lib.Sampling
import RayzWeapon.Tasks.Presses
import RayzWeapon.Tasks.Waveform

namespace RayzWeapon.Tasks

open RayzWeapon.Lib

variable (p : Protocol) (c : Durations) (latency : Nat)

structure Watches (signal : Nat → Bool) (s : TimedWeapon) (x : Nat × Label) : Prop where
  paced : Paced p c s x
  inTime : x.1 ≤ s.controlWake + latency
  opened : ∀ gate, s.weapon.shut gate = false
  level : ∀ pressed ∈ sampledLevel s.weapon x.2, pressed = signal x.1

instance (signal : Nat → Bool) (s : TimedWeapon) (x : Nat × Label) :
    Decidable (Watches p c latency signal s x) :=
  decidable_of_iff (Paced p c s x ∧ x.1 ≤ s.controlWake + latency ∧
      (s.weapon.shut .respawn = false ∧ s.weapon.shut .ammo = false) ∧
      ∀ pressed ∈ sampledLevel s.weapon x.2, pressed = signal x.1)
    ⟨fun ⟨paced, inTime, opened, level⟩ =>
      ⟨paced, inTime, fun | .respawn => opened.1 | .ammo => opened.2, level⟩,
    fun ⟨paced, inTime, opened, level⟩ =>
      ⟨paced, inTime, ⟨opened .respawn, opened .ammo⟩, level⟩⟩

def TimedWeapon.WatchingRun (signal : Nat → Bool) (s : TimedWeapon) (h : List (Nat × Label)) :
    Prop :=
  Runs.Each (fun k x => Watches p c latency signal (s.after p c k) x) h

instance (signal : Nat → Bool) (s : TimedWeapon) (h : List (Nat × Label)) :
    Decidable (s.WatchingRun p c latency signal h) :=
  inferInstanceAs (Decidable (Runs.Each _ h))

/-- The longest the control task looks away, with a shot to send or without. -/
def pollGap : Nat := max c.pause 10 + 9 * latency

def ControlPc.sinceSample : ControlPc → Nat
  | .start | .create => 0
  | .record _ => latency
  | .build _ => 2 * latency
  | .broadcast _ _ => 3 * latency
  | .enqueue _ => 4 * latency
  | .notify => 5 * latency
  | .top => max c.pause 10 + 6 * latency
  | .ammo => max c.pause 10 + 7 * latency
  | .sample => max c.pause 10 + 8 * latency

theorem ControlPc.sinceSample_le (pc : ControlPc) :
    pc.sinceSample c latency + latency ≤ pollGap c latency := by
  cases pc <;> simp only [ControlPc.sinceSample, pollGap] <;> omega

variable {p c latency} {signal : Nat → Bool} {start : Nat} {samples : List Bool} {s : TimedWeapon}

structure Watching (c : Durations) (latency : Nat) (signal : Nat → Bool) (start : Nat)
    (samples : List Bool) (last : Nat) (s : TimedWeapon) : Prop where
  seen : Sampling.Seen signal start last samples
  past : last ≤ s.now
  recent : s.now ≤ last + pollGap c latency
  due : s.controlWake ≤ last + s.weapon.controlPc.sinceSample c latency

section Step

variable {last : Nat} (watching : Watching c latency signal start samples last s)
include watching

theorem Watching.near {x : Nat × Label} (watches : Watches p c latency signal s x) :
    last ≤ x.1 ∧ x.1 ≤ last + pollGap c latency := by
  have forward := watches.paced.forward
  have inTime := watches.inTime
  have le := s.weapon.controlPc.sinceSample_le c latency
  obtain ⟨-, past, -, due⟩ := watching
  omega

theorem Watching.quiet {x : Nat × Label} (watches : Watches p c latency signal s x)
    (due : (s.step p c x).controlWake ≤
      last + (s.step p c x).weapon.controlPc.sinceSample c latency) :
    Watching c latency signal start samples last (s.step p c x) :=
  ⟨watching.seen, (watching.near watches).1, (watching.near watches).2, due⟩

theorem Watching.sample (steady : Sampling.Steady start (pollGap c latency) signal) {t : Nat}
    {i : ControlRead} (watches : Watches p c latency signal s (t, .control i))
    (pc : s.weapon.controlPc = .sample) :
    Watching c latency signal start (isTriggerPressed i.level :: samples) t
      (s.step p c (t, .control i)) := by
  have near := watching.near watches
  have level := watches.level (isTriggerPressed i.level) (by simp [sampledLevel, pc])
  refine ⟨?_, Nat.le_refl t, Nat.le_add_right _ _, ?_⟩
  · rw [level]
    exact watching.seen.sample steady near.1 near.2
  · simp only [TimedWeapon.step, Weapon.step, controlStep, controlDelay, pc]
    cases isTriggerPressed i.level <;> cases s.weapon.control.wasPressed <;>
      simp [ControlPc.sinceSample] <;> omega

theorem Watching.control {t : Nat} {i : ControlRead}
    (watches : Watches p c latency signal s (t, .control i))
    (pc : s.weapon.controlPc ≠ .sample) :
    Watching c latency signal start samples last (s.step p c (t, .control i)) := by
  apply watching.quiet watches
  have alive : s.weapon.respawning = false := watches.opened .respawn
  have loaded : (!s.weapon.gcfg.unlimitedAmmo && s.weapon.gcfg.maxAmmo == 0) = false :=
    watches.opened .ammo
  have inTime : t ≤ s.controlWake + latency := watches.inTime
  have due := watching.due
  simp only [TimedWeapon.step, Weapon.step, controlStep, controlDelay]
  cases pc' : s.weapon.controlPc with
  | sample => exact absurd pc' pc
  | top =>
    rw [pc'] at due
    simp only [alive, ControlPc.sinceSample, Bool.false_eq_true, if_false] at due ⊢
    omega
  | ammo =>
    rw [pc'] at due
    simp only [loaded, ControlPc.sinceSample, Bool.false_eq_true, if_false] at due ⊢
    omega
  | _ =>
    rw [pc'] at due
    simp only [ControlPc.sinceSample] at due ⊢
    omega

theorem Watching.step (steady : Sampling.Steady start (pollGap c latency) signal)
    {x : Nat × Label} (watches : Watches p c latency signal s x) :
    ∃ last', Watching c latency signal start (sampledLevel s.weapon x.2 ++ samples) last'
      (s.step p c x) := by
  obtain ⟨t, x⟩ := x
  by_cases control : ∃ i, x = .control i
  · obtain ⟨i, rfl⟩ := control
    by_cases pc : s.weapon.controlPc = .sample
    · refine ⟨t, ?_⟩
      simpa [sampledLevel, pc] using watching.sample steady watches pc
    · refine ⟨last, ?_⟩
      simpa [sampledLevel, pc] using watching.control watches pc
  · obtain ⟨-, samePc, -⟩ := fired_quiet p s.weapon fun i eq => control ⟨i, eq⟩
    have none : sampledLevel s.weapon x = [] := by
      cases x with
      | control i => exact absurd ⟨i, rfl⟩ control
      | _ => rfl
    have wake : (s.step p c (t, x)).controlWake = s.controlWake := by
      cases x with
      | control i => exact absurd ⟨i, rfl⟩ control
      | _ => rfl
    refine ⟨last, ?_⟩
    rw [none, List.nil_append]
    apply watching.quiet watches
    rw [wake]
    simpa only [TimedWeapon.step, samePc] using watching.due

end Step

theorem TimedWeapon.watching {w : Weapon} (up : signal start = false)
    (steady : Sampling.Steady start (pollGap c latency) signal)
    {h : List (Nat × Label)} (run : (initial w start).WatchingRun p c latency signal h) :
    ∃ last, Watching c latency signal start (w.samples p (h.map Prod.snd)) last
      ((initial w start).after p c h) := by
  induction h with
  | nil =>
    refine ⟨start, Sampling.seen_nil up, Nat.le_refl start, Nat.le_add_right _ _, ?_⟩
    exact Nat.le_add_right _ _
  | cons x h ih =>
    obtain ⟨watches, run⟩ := Runs.each_cons.mp run
    obtain ⟨last, watching⟩ := ih run
    have step := watching.step steady watches
    rwa [TimedWeapon.weapon_after, TimedWeapon.initial_weapon] at step

/-- The presses of the button up to a moment at most `pollGap` ago are the shots fired, and the one
about to be. -/
structure PressesSeen (c : Durations) (latency : Nat) (signal : Nat → Bool) (start last : Nat)
    (s : TimedWeapon) : Prop where
  past : last ≤ s.now
  recent : s.now ≤ last + pollGap c latency
  presses : Sampling.rises signal last = Sampling.rises signal start +
    (s.weapon.fired.length + s.weapon.controlPc.toFire)
  held : s.weapon.control.wasPressed = signal last

theorem Watching.pressesSeen {last : Nat} {shots : List DeviceConfig}
    (watching : Watching c latency signal start samples last s)
    (ledger : TriggerLedger p samples shots s.weapon) :
    PressesSeen c latency signal start last s := by
  obtain ⟨⟨-, level, rising⟩, past, recent, -⟩ := watching
  refine ⟨past, recent, ?_, ?_⟩
  · rw [ledger.fired, List.length_map, ledger.presses, rising]
  · rw [ledger.wasPressed, level]

theorem TimedWeapon.triggerLedger_after (c : Durations) {w : Weapon} (ledger : TriggerLedger p [] [] w)
    (t : Nat) (h : List (Nat × Label)) :
    TriggerLedger p (w.samples p (h.map Prod.snd)) (w.shots p (h.map Prod.snd))
      ((initial w t).after p c h).weapon := by
  rw [TimedWeapon.weapon_after]
  exact RayzWeapon.Tasks.triggerLedger_after p ledger _

theorem presses_seen (config : DeviceConfig) (gcfg : GameConfig) (respawning : Bool)
    (up : signal start = false) (steady : Sampling.Steady start (pollGap c latency) signal)
    {h : List (Nat × Label)}
    (run : (TimedWeapon.initial (.initial config gcfg respawning) start).WatchingRun p c latency
      signal h) :
    ∃ last, PressesSeen c latency signal start last
      ((TimedWeapon.initial (.initial config gcfg respawning) start).after p c h) := by
  obtain ⟨last, watching⟩ := TimedWeapon.watching up steady run
  have ledger := triggerLedger_initial p config gcfg respawning
  exact ⟨last, watching.pressesSeen (TimedWeapon.triggerLedger_after c ledger start h)⟩

theorem presses_seen_one_press :
    let signal (t : Nat) : Bool := decide (505 ≤ t ∧ t < 900)
    let s := TimedWeapon.initial (.initial ⟨1, 7, 0, 0⟩ ⟨true, 0⟩ false) 500
    let h := List.replicate 6 (511, .control ⟨0, 511000, true, true⟩) ++
      [(510, .control ⟨0, 510000, true, true⟩)] ++
      List.replicate 2 (510, .control ⟨1, 510000, true, true⟩) ++
      List.replicate 4 (500, .control ⟨1, 500000, true, true⟩)
    (s.after .packed ⟨300, 10⟩ h).weapon.fired.length = 1 ∧
      ∃ last, PressesSeen ⟨300, 10⟩ 1 signal 500 last (s.after .packed ⟨300, 10⟩ h) := by
  intro signal s h
  have steady : Sampling.Steady 500 (pollGap ⟨300, 10⟩ 1) signal := by
    intro t since change k near
    simp only [signal, pollGap, ne_eq, decide_eq_decide] at change near ⊢
    omega
  have run : s.WatchingRun .packed ⟨300, 10⟩ 1 signal h := by decide +kernel
  exact ⟨by decide +kernel, presses_seen ⟨1, 7, 0, 0⟩ ⟨true, 0⟩ false (by decide) steady run⟩

section Light

variable {laserLatency : Nat}

end Light

end RayzWeapon.Tasks
