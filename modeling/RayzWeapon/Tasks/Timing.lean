import RayzWeapon.Lib.Spaced
import RayzWeapon.Tasks.Drain
import RayzWeapon.Tasks.Gates

/-! The tasks in time.  A step carries the true tick at which it is taken; the tick rate is 1000 Hz,
so a tick is a millisecond. -/

namespace RayzWeapon.Tasks

open RayzWeapon.Lib

/-- `TRANSMISSION_PAUSE_MS` and `BIT_DURATION_MS`. -/
structure Durations where
  pause : Nat
  bitDuration : Nat

/-- The weapon with the ticks that decide when its tasks may run: when the control task wakes, when
the laser task last ran and took its message, and when the waiting messages arrived. -/
structure TimedWeapon where
  weapon : Weapon
  now : Nat
  controlWake : Nat
  laserLast : Nat
  taken : Nat
  arrivals : List Nat

def TimedWeapon.initial (w : Weapon) (t : Nat) : TimedWeapon := ⟨w, t, t, t, t, []⟩

def controlDelay (c : Durations) (w : Weapon) (i : ControlRead) : Nat :=
  match w.controlPc with
  | .top => if w.respawning then 100 else 0
  | .ammo => if !w.gcfg.unlimitedAmmo && w.gcfg.maxAmmo == 0 then 200 else 0
  | .sample => if isTriggerPressed i.level && !w.control.wasPressed then 0 else 10
  | .notify => c.pause
  | _ => 0

def arrival (w : Weapon) (t : Nat) : Label → List Nat
  | .control _ => match w.controlPc with
    | .enqueue laserMsg => if (w.laserMessageQueue.send laserMsg).2 then [t] else []
    | _ => []
  | _ => []

def takesMessage (w : Weapon) : Label → Bool
  | .laser => w.laserPc == .receive
  | _ => false

def TimedWeapon.step (p : Protocol) (c : Durations) (s : TimedWeapon) (x : Nat × Label) :
    TimedWeapon where
  weapon := s.weapon.step p x.2
  now := x.1
  controlWake := match x.2 with
    | .control i => x.1 + controlDelay c s.weapon i
    | _ => s.controlWake
  laserLast := if x.2.isLaser then x.1 else s.laserLast
  taken := if takesMessage s.weapon x.2 then x.1 else s.taken
  arrivals := (if takesMessage s.weapon x.2 then s.arrivals.tail else s.arrivals) ++
    arrival s.weapon x.1 x.2

def TimedWeapon.after (p : Protocol) (c : Durations) (s : TimedWeapon) (h : List (Nat × Label)) :
    TimedWeapon :=
  Runs.after (TimedWeapon.step p c) s h

theorem TimedWeapon.initial_weapon (w : Weapon) (t : Nat) : (initial w t).weapon = w := rfl

theorem TimedWeapon.weapon_after (p : Protocol) (c : Durations) (s : TimedWeapon)
    (h : List (Nat × Label)) : (s.after p c h).weapon = s.weapon.after p (h.map Prod.snd) := by
  induction h with
  | nil => rfl
  | cons x h ih =>
    change (s.after p c h).weapon.step p x.2 = _
    rw [ih]
    rfl

/-- In `sendMessage`, `nextWake` has moved on a period for each bit that is out. -/
def TimedWeapon.nextWake (p : Protocol) (c : Durations) (s : TimedWeapon) : Nat :=
  match s.weapon.laserPc with
  | .receive => 0
  | .bit _ i => s.taken + (p.messageTotalBits - i) * c.bitDuration

def TimedWeapon.wake (p : Protocol) (c : Durations) (s : TimedWeapon) : Label → Nat
  | .control _ => s.controlWake
  | .laser => s.nextWake p c
  | _ => 0

/-- Time does not go back, and no task runs before its delay is over. -/
structure Paced (p : Protocol) (c : Durations) (s : TimedWeapon) (x : Nat × Label) : Prop where
  forward : s.now ≤ x.1
  awake : s.wake p c x.2 ≤ x.1

instance (p : Protocol) (c : Durations) (s : TimedWeapon) (x : Nat × Label) :
    Decidable (Paced p c s x) :=
  decidable_of_iff (s.now ≤ x.1 ∧ s.wake p c x.2 ≤ x.1)
    ⟨fun ⟨forward, awake⟩ => ⟨forward, awake⟩, fun paced => ⟨paced.forward, paced.awake⟩⟩

def TimedWeapon.PacedRun (p : Protocol) (c : Durations) (s : TimedWeapon)
    (h : List (Nat × Label)) : Prop :=
  Runs.Each (fun k x => Paced p c (s.after p c k) x) h

instance (p : Protocol) (c : Durations) (s : TimedWeapon) (h : List (Nat × Label)) :
    Decidable (s.PacedRun p c h) :=
  inferInstanceAs (Decidable (Runs.Each _ h))

section Rate

/-- The steps of the shot block in their order; `0` is outside of it. -/
def ControlPc.phase : ControlPc → Nat
  | .create => 1
  | .record _ => 2
  | .build _ => 3
  | .broadcast _ _ => 4
  | .enqueue _ => 5
  | .notify => 6
  | .start | .top | .ammo | .sample => 0

variable (p : Protocol) (c : Durations) (n : Nat)

def TimedWeapon.phaseTicks (s : TimedWeapon) (h : List (Nat × Label)) : List Nat :=
  Runs.collect (TimedWeapon.step p c) s
    (fun s x => if x.2.isControl && s.weapon.controlPc.phase == n then [x.1] else []) h

def sincePhase (w : Weapon) : Nat :=
  match w.controlPc.phase with
  | 0 => if w.control.wasPressed then c.pause else c.pause + 10
  | k + 1 => if k + 1 ≤ n then c.pause + 10 else 0

structure PhaseSpaced (ticks : List Nat) (s : TimedWeapon) : Prop where
  spaced : Spaced (c.pause + 10) ticks
  rest : ∀ t ∈ ticks.head?, t + sincePhase c n s.weapon ≤ s.controlWake
  held : s.weapon.controlPc.phase ≠ 0 → s.weapon.control.wasPressed = true

variable {n}

theorem sincePhase_controlStep (pos : 0 < n) (le : n ≤ 6) {w : Weapon}
    (held : w.controlPc.phase ≠ 0 → w.control.wasPressed = true) (i : ControlRead) :
    sincePhase c n (controlStep p w i) ≤
      (if w.controlPc.phase = n then 0 else sincePhase c n w) + controlDelay c w i := by
  unfold controlStep controlDelay
  cases pc : w.controlPc with
  | start => simp [sincePhase, ControlPc.phase, pc, Nat.ne_of_lt pos]
  | top | ammo =>
    dsimp only
    split <;> simp [sincePhase, ControlPc.phase, pc, Nat.ne_of_lt pos]
  | sample =>
    cases isTriggerPressed i.level <;> cases was : w.control.wasPressed
    all_goals
      simp only [sincePhase, ControlPc.phase, pc, was, Bool.not_true, Bool.not_false, Bool.and_true,
        Bool.and_false, Bool.false_eq_true, if_true, if_false]
      split_ifs <;> omega
  | notify =>
    have held := held (by simp [pc, ControlPc.phase])
    simp [sincePhase, ControlPc.phase, pc, held]
  | _ =>
    simp only [sincePhase, ControlPc.phase, pc]
    split_ifs <;> omega

theorem held_controlStep {w : Weapon} (held : w.controlPc.phase ≠ 0 → w.control.wasPressed = true)
    (i : ControlRead) :
    (controlStep p w i).controlPc.phase ≠ 0 → (controlStep p w i).control.wasPressed = true := by
  unfold controlStep
  cases pc : w.controlPc with
  | start | notify => simp [ControlPc.phase]
  | top | ammo =>
    dsimp only
    split <;> simp [ControlPc.phase]
  | sample =>
    dsimp only
    split
    · simp [ControlPc.phase]
    · split <;> simp [ControlPc.phase]
  | _ =>
    have held := held (by simp [pc, ControlPc.phase])
    exact fun _ => held

theorem PhaseSpaced.now {ticks : List Nat} {s : TimedWeapon}
    (spaced : PhaseSpaced c n ticks s) (pos : 0 < n) (phase : s.weapon.controlPc.phase = n)
    {t : Nat} (awake : s.controlWake ≤ t) : Spaced (c.pause + 10) (t :: ticks) := by
  apply spaced.spaced.cons
  intro t₀ last
  have due : sincePhase c n s.weapon = c.pause + 10 := by
    obtain ⟨m, rfl⟩ := Nat.exists_eq_add_of_lt pos
    rw [Nat.zero_add] at phase
    simp [sincePhase, phase]
  have rest := spaced.rest t₀ last
  omega

theorem PhaseSpaced.control (pos : 0 < n) (le : n ≤ 6) {ticks : List Nat} {s : TimedWeapon}
    (spaced : PhaseSpaced c n ticks s) {t : Nat} {i : ControlRead} (awake : s.controlWake ≤ t) :
    PhaseSpaced c n ((if s.weapon.controlPc.phase = n then [t] else []) ++ ticks)
      (s.step p c (t, .control i)) := by
  have spaced' := spaced
  obtain ⟨spaced, rest, held⟩ := spaced
  have since := sincePhase_controlStep p c pos le held i
  refine ⟨?_, ?_, held_controlStep p held i⟩
  · split
    next phase => exact spaced'.now c pos phase awake
    next => exact spaced
  · split
    next phase =>
      rw [if_pos phase, Nat.zero_add] at since
      intro t₀ last
      obtain rfl : t = t₀ := by simpa using last
      exact Nat.add_le_add_left since t
    next other =>
      rw [if_neg other] at since
      intro t₀ last
      have rest := rest t₀ last
      change t₀ + sincePhase c n (controlStep p s.weapon i) ≤ t + controlDelay c s.weapon i
      omega

theorem PhaseSpaced.step (pos : 0 < n) (le : n ≤ 6) {ticks : List Nat} {s : TimedWeapon}
    (spaced : PhaseSpaced c n ticks s) {x : Nat × Label} (paced : Paced p c s x) :
    PhaseSpaced c n
      ((if x.2.isControl && s.weapon.controlPc.phase == n then [x.1] else []) ++ ticks)
      (s.step p c x) := by
  obtain ⟨t, x⟩ := x
  by_cases control : ∃ i, x = .control i
  · obtain ⟨i, rfl⟩ := control
    simpa [Label.isControl] using spaced.control p c pos le (i := i) paced.awake
  · have other : x.isControl = false := by
      cases x with
      | control i => exact absurd ⟨i, rfl⟩ control
      | _ => rfl
    obtain ⟨samePressed, samePc, -⟩ := fired_quiet p s.weapon fun i eq => control ⟨i, eq⟩
    have wake : (s.step p c (t, x)).controlWake = s.controlWake := by
      cases x with
      | control i => exact absurd ⟨i, rfl⟩ control
      | _ => rfl
    have since : sincePhase c n (s.step p c (t, x)).weapon = sincePhase c n s.weapon := by
      simp only [sincePhase, TimedWeapon.step, samePc, samePressed]
    obtain ⟨spaced, rest, held⟩ := spaced
    rw [other, Bool.false_and, if_neg Bool.false_ne_true, List.nil_append]
    refine ⟨spaced, ?_, ?_⟩
    · rw [since, wake]
      exact rest
    · simpa only [TimedWeapon.step, samePc, samePressed] using held

theorem TimedWeapon.phaseSpaced (pos : 0 < n) (le : n ≤ 6) {w : Weapon}
    (start : w.controlPc = .start) (t : Nat) {h : List (Nat × Label)}
    (run : (TimedWeapon.initial w t).PacedRun p c h) :
    PhaseSpaced c n ((TimedWeapon.initial w t).phaseTicks p c n h)
      ((TimedWeapon.initial w t).after p c h) := by
  induction h with
  | nil =>
    exact ⟨.nil, by simp [phaseTicks, Runs.collect],
      by simp [after, initial, start, ControlPc.phase]⟩
  | cons x h ih =>
    obtain ⟨paced, run⟩ := Runs.each_cons.mp run
    exact (ih run).step p c pos le paced

def Counts (n : Nat) (f : Weapon → Nat) : Prop :=
  ∀ w x, f (w.step p x) = f w + if x.isControl && w.controlPc.phase == n then 1 else 0

theorem counts_of_control {f : Weapon → Nat}
    (control : ∀ w i, f (controlStep p w i) = f w + if w.controlPc.phase = n then 1 else 0)
    (laser : ∀ w, f (laserStep p w) = f w) (espnow : ∀ w i, f (espnowStep w i) = f w)
    (config : ∀ w config gcfg respawning, f { w with config, gcfg, respawning } = f w) :
    Counts p n f := by
  intro w x
  cases x with
  | control i => simpa [Label.isControl, Weapon.step] using control w i
  | laser => exact laser w
  | espnow i => exact espnow w i
  | setConfig config' => exact config w config' w.gcfg w.respawning
  | setGameConfig gcfg => exact config w w.config gcfg w.respawning
  | setRespawning respawning => exact config w w.config w.gcfg respawning

theorem calls_controlStep (w : Weapon) (i : ControlRead) :
    (controlStep p w i).fired.length = w.fired.length + (if w.controlPc.phase = 1 then 1 else 0) ∧
      (controlStep p w i).recordShots = w.recordShots + (if w.controlPc.phase = 2 then 1 else 0) ∧
      (controlStep p w i).broadcasts.length =
        w.broadcasts.length + (if w.controlPc.phase = 4 then 1 else 0) ∧
      (controlStep p w i).sends.length =
        w.sends.length + if w.controlPc.phase = 5 then 1 else 0 := by
  unfold controlStep
  cases pc : w.controlPc with
  | sample =>
    dsimp only
    split
    · simp [ControlPc.phase]
    · split <;> simp [ControlPc.phase]
  | _ => simp [ControlPc.phase]

theorem counts_fired : Counts p 1 fun w => w.fired.length :=
  counts_of_control p (fun w i => (calls_controlStep p w i).1)
    (fun w => by rw [laserStep_frame]) (fun w i => by rw [espnowStep_frame]) fun _ _ _ _ => rfl

theorem counts_recordShots : Counts p 2 Weapon.recordShots :=
  counts_of_control p (fun w i => (calls_controlStep p w i).2.1)
    (fun w => by rw [laserStep_frame]) (fun w i => by rw [espnowStep_frame]) fun _ _ _ _ => rfl

theorem counts_broadcasts : Counts p 4 fun w => w.broadcasts.length :=
  counts_of_control p (fun w i => (calls_controlStep p w i).2.2.1)
    (fun w => by rw [laserStep_frame]) (fun w i => by rw [espnowStep_frame]) fun _ _ _ _ => rfl

theorem counts_sends : Counts p 5 fun w => w.sends.length :=
  counts_of_control p (fun w i => (calls_controlStep p w i).2.2.2)
    (fun w => by rw [laserStep_frame]) (fun w i => by rw [espnowStep_frame]) fun _ _ _ _ => rfl

theorem Counts.after {f : Weapon → Nat} (counts : Counts p n f) (s : TimedWeapon)
    (h : List (Nat × Label)) :
    f (s.after p c h).weapon = f s.weapon + (s.phaseTicks p c n h).length := by
  induction h with
  | nil => rfl
  | cons x h ih =>
    have step := counts (s.after p c h).weapon x.2
    have ticks : s.phaseTicks p c n (x :: h) =
        (if x.2.isControl && (s.after p c h).weapon.controlPc.phase == n then [x.1] else []) ++
          s.phaseTicks p c n h := rfl
    change f ((s.after p c h).weapon.step p x.2) = _
    rw [step, ih, ticks, List.length_append]
    split <;> simp only [List.length_nil, List.length_singleton] <;> omega

theorem mem_phaseTicks {s : TimedWeapon} {h : List (Nat × Label)} {t : Nat}
    (ht : t ∈ s.phaseTicks p c n h) : ∃ x, (t, x) ∈ h := by
  obtain ⟨x, k, sub, now⟩ := Runs.mem_collect _ _ _ ht
  split at now
  · rw [List.mem_singleton.mp now]
    exact ⟨x.2, sub.subset (.head k)⟩
  · cases now

structure RateLimited (bound : Nat) (w w' : Weapon) : Prop where
  fired : w'.fired.length ≤ w.fired.length + bound
  recordShots : w'.recordShots ≤ w.recordShots + bound
  broadcasts : w'.broadcasts.length ≤ w.broadcasts.length + bound
  sends : w'.sends.length ≤ w.sends.length + bound

theorem TimedWeapon.rate {f : Weapon → Nat} (pos : 0 < n) (le : n ≤ 6) (counts : Counts p n f)
    {w : Weapon} (start : w.controlPc = .start) {t : Nat} {later earlier : List (Nat × Label)}
    (run : (TimedWeapon.initial w t).PacedRun p c (later ++ earlier)) {a d : Nat}
    (window : ∀ x ∈ later, a ≤ x.1 ∧ x.1 ≤ a + d) :
    f ((TimedWeapon.initial w t).after p c (later ++ earlier)).weapon ≤
      f ((TimedWeapon.initial w t).after p c earlier).weapon + (d / (c.pause + 10) + 1) := by
  have split : (TimedWeapon.initial w t).after p c (later ++ earlier) =
      ((TimedWeapon.initial w t).after p c earlier).after p c later := Runs.after_append ..
  have ticks : (TimedWeapon.initial w t).phaseTicks p c n (later ++ earlier) =
      ((TimedWeapon.initial w t).after p c earlier).phaseTicks p c n later ++
        (TimedWeapon.initial w t).phaseTicks p c n earlier := Runs.collect_append ..
  have spaced := (TimedWeapon.phaseSpaced p c pos le start t run).spaced
  rw [ticks] at spaced
  have spaced' : Spaced (c.pause + 10)
      (((TimedWeapon.initial w t).after p c earlier).phaseTicks p c n later) :=
    (List.pairwise_append.mp spaced).1
  have inside := spaced'.countP_le (by omega) a d
  rw [split, counts.after]
  refine Nat.add_le_add_left (Nat.le_trans (Nat.le_of_eq ?_) inside) _
  rw [eq_comm, List.countP_eq_length]
  intro t' ht'
  obtain ⟨x, hx⟩ := mem_phaseTicks p c ht'
  simpa using window _ hx

theorem fire_rate (config : DeviceConfig) (gcfg : GameConfig) (respawning : Bool) (t : Nat)
    (later earlier : List (Nat × Label))
    (run : (TimedWeapon.initial (.initial config gcfg respawning) t).PacedRun p c (later ++ earlier))
    (a d : Nat) (window : ∀ x ∈ later, a ≤ x.1 ∧ x.1 ≤ a + d) :
    RateLimited (d / (c.pause + 10) + 1)
      ((TimedWeapon.initial (.initial config gcfg respawning) t).after p c earlier).weapon
      ((TimedWeapon.initial (.initial config gcfg respawning) t).after p c (later ++ earlier)).weapon
    where
  fired := TimedWeapon.rate p c (by decide) (by decide) (counts_fired p) rfl run window
  recordShots := TimedWeapon.rate p c (by decide) (by decide) (counts_recordShots p) rfl run window
  broadcasts := TimedWeapon.rate p c (by decide) (by decide) (counts_broadcasts p) rfl run window
  sends := TimedWeapon.rate p c (by decide) (by decide) (counts_sends p) rfl run window

theorem fire_rate_second_shot :
    let down : Label := .control ⟨0, 0, true, true⟩
    let up : Label := .control ⟨1, 0, true, true⟩
    let s := TimedWeapon.initial (.initial ⟨1, 7, 0, 0⟩ ⟨true, 0⟩ false) 500
    let h := List.replicate 4 (810, down) ++ List.replicate 3 (800, up) ++
      List.replicate 10 (500, down)
    (s.after .packed ⟨300, 10⟩ h).weapon.fired.length = 2 ∧
      RateLimited (310 / (300 + 10) + 1) s.weapon (s.after .packed ⟨300, 10⟩ h).weapon := by
  intro down up s h
  have run : s.PacedRun .packed ⟨300, 10⟩ (h ++ []) := by decide +kernel
  exact ⟨by decide, fire_rate .packed ⟨300, 10⟩ _ _ _ 500 h [] run 500 310 (by decide)⟩

end Rate

section Refused

variable (p : Protocol) (c : Durations)

structure ArrivalsTracked (ticks : List Nat) (s : TimedWeapon) : Prop where
  length : s.arrivals.length = s.weapon.laserMessageQueue.items.length
  sub : s.arrivals.reverse.Sublist ticks

theorem queue_controlStep {w : Weapon} (other : ∀ laserMsg, w.controlPc ≠ .enqueue laserMsg)
    (i : ControlRead) : (controlStep p w i).laserMessageQueue = w.laserMessageQueue := by
  unfold controlStep
  cases pc : w.controlPc with
  | enqueue laserMsg => exact absurd pc (other laserMsg)
  | sample =>
    dsimp only
    split
    · rfl
    · split <;> rfl
  | _ => rfl

theorem ArrivalsTracked.enqueue {ticks : List Nat} {s : TimedWeapon}
    (tracked : ArrivalsTracked ticks s) {laserMsg : UInt32}
    (pc : s.weapon.controlPc = .enqueue laserMsg) (t : Nat) (i : ControlRead) :
    ArrivalsTracked (t :: ticks) (s.step p c (t, .control i)) := by
  obtain ⟨length, sub⟩ := tracked
  have arrivals : (s.step p c (t, .control i)).arrivals =
      s.arrivals ++ if (s.weapon.laserMessageQueue.send laserMsg).2 then [t] else [] := by
    simp [TimedWeapon.step, arrival, takesMessage, pc]
  have items : (s.step p c (t, .control i)).weapon.laserMessageQueue.items =
      s.weapon.laserMessageQueue.items ++
        if (s.weapon.laserMessageQueue.send laserMsg).2 then [laserMsg] else [] := by
    rw [← Fifo.items_send]
    simp [TimedWeapon.step, Weapon.step, controlStep, pc]
  cases ok : (s.weapon.laserMessageQueue.send laserMsg).2 with
  | true =>
    rw [ok, if_pos rfl] at arrivals items
    constructor
    · rw [arrivals, items, List.length_append, List.length_append, length]
      rfl
    · rw [arrivals, List.reverse_append]
      exact sub.cons_cons t
  | false =>
    rw [ok, if_neg Bool.false_ne_true, List.append_nil] at arrivals items
    exact ⟨by rw [arrivals, items, length], by rw [arrivals]; exact sub.cons t⟩

theorem ArrivalsTracked.laser {ticks : List Nat} {s : TimedWeapon}
    (tracked : ArrivalsTracked ticks s) (t : Nat) :
    ArrivalsTracked ticks (s.step p c (t, .laser)) := by
  obtain ⟨length, sub⟩ := tracked
  cases pc : s.weapon.laserPc with
  | receive =>
    have arrivals : (s.step p c (t, .laser)).arrivals = s.arrivals.tail := by
      simp [TimedWeapon.step, arrival, takesMessage, pc]
    have items : (s.step p c (t, .laser)).weapon.laserMessageQueue.items =
        s.weapon.laserMessageQueue.items.tail := by
      simp only [TimedWeapon.step, Weapon.step, laserStep, pc]
      cases received : s.weapon.laserMessageQueue.receive with
      | none => rw [Fifo.receive_eq_none received, List.tail_nil]
      | some taken => rw [Fifo.receive_eq_some received, List.tail_cons]
    constructor
    · rw [arrivals, items, List.length_tail, List.length_tail, length]
    · rw [arrivals]
      exact (List.reverse_sublist.mpr (List.tail_sublist _)).trans sub
  | bit message i =>
    have arrivals : (s.step p c (t, .laser)).arrivals = s.arrivals := by
      simp [TimedWeapon.step, arrival, takesMessage, pc]
    have queue :
        (s.step p c (t, .laser)).weapon.laserMessageQueue = s.weapon.laserMessageQueue := by
      cases i <;> simp [TimedWeapon.step, Weapon.step, laserStep, pc]
    exact ⟨by rw [arrivals, queue, length], by rw [arrivals]; exact sub⟩

theorem ArrivalsTracked.step {ticks : List Nat} {s : TimedWeapon}
    (tracked : ArrivalsTracked ticks s) (x : Nat × Label) :
    ArrivalsTracked
      ((if x.2.isControl && s.weapon.controlPc.phase == 5 then [x.1] else []) ++ ticks)
      (s.step p c x) := by
  obtain ⟨t, x⟩ := x
  have quiet (arrivals : (s.step p c (t, x)).arrivals = s.arrivals)
      (queue : (s.step p c (t, x)).weapon.laserMessageQueue = s.weapon.laserMessageQueue) :
      ArrivalsTracked ticks (s.step p c (t, x)) :=
    ⟨by rw [arrivals, queue, tracked.length], by rw [arrivals]; exact tracked.sub⟩
  cases x with
  | control i =>
    by_cases enqueue : ∃ laserMsg, s.weapon.controlPc = .enqueue laserMsg
    · obtain ⟨laserMsg, pc⟩ := enqueue
      simpa [Label.isControl, pc, ControlPc.phase] using tracked.enqueue p c pc t i
    · simp only [not_exists] at enqueue
      have phase : s.weapon.controlPc.phase ≠ 5 := by
        cases pc : s.weapon.controlPc with
        | enqueue laserMsg => exact absurd pc (enqueue laserMsg)
        | _ => simp [ControlPc.phase]
      have none : arrival s.weapon t (.control i) = [] := by
        unfold arrival
        dsimp only
        split
        next laserMsg pc => exact absurd pc (enqueue laserMsg)
        next => rfl
      have tracked' := quiet (by simp [TimedWeapon.step, takesMessage, none])
        (queue_controlStep p enqueue i)
      simpa [Label.isControl, phase] using tracked'
  | laser => simpa [Label.isControl] using tracked.laser p c t
  | espnow i =>
    have tracked' := quiet (by simp [TimedWeapon.step, takesMessage, arrival])
      (by simp only [TimedWeapon.step, Weapon.step]; rw [espnowStep_frame])
    simpa [Label.isControl] using tracked'
  | setConfig _ | setGameConfig _ | setRespawning _ =>
    have tracked' := quiet (by simp [TimedWeapon.step, takesMessage, arrival]) rfl
    simpa [Label.isControl] using tracked'

theorem TimedWeapon.arrivalsTracked {w : Weapon} (empty : w.laserMessageQueue.items = []) (t : Nat)
    (h : List (Nat × Label)) :
    ArrivalsTracked ((TimedWeapon.initial w t).phaseTicks p c 5 h)
      ((TimedWeapon.initial w t).after p c h) := by
  induction h with
  | nil => exact ⟨by simp [after, initial, empty], by simp [after, initial]⟩
  | cons x h ih => exact ih.step p c x

theorem oldest_waited {P t : Nat} {arrivals : List Nat} (spaced : Spaced P (t :: arrivals.reverse))
    {n : Nat} (length : arrivals.length = n + 1) : ∃ a ∈ arrivals.head?, a + (n + 1) * P ≤ t := by
  obtain ⟨a, rest, rfl⟩ := List.exists_cons_of_length_eq_add_one length
  refine ⟨a, rfl, ?_⟩
  have count : (a :: rest).reverse.length = n + 1 := by rw [List.length_reverse, length]
  rw [← count]
  apply spaced.length_mul_le
  obtain ⟨now, before⟩ := List.pairwise_cons.mp spaced
  rw [List.reverse_cons] at now before
  intro t' ht'
  rcases List.mem_cons.mp ht' with rfl | ht'
  · have first := now a (by simp)
    omega
  · rw [List.reverse_cons] at ht'
    rcases List.mem_append.mp ht' with later | first
    · have gap := (List.pairwise_append.mp before).2.2 t' later a (by simp)
      omega
    · exact Nat.le_of_eq (List.mem_singleton.mp first).symm

theorem refused_waited (config : DeviceConfig) (gcfg : GameConfig) (respawning : Bool) (t₀ : Nat)
    {t : Nat} {i : ControlRead} {h : List (Nat × Label)}
    (run : (TimedWeapon.initial (.initial config gcfg respawning) t₀).PacedRun p c
      ((t, .control i) :: h))
    {laserMsg : UInt32}
    (pc : ((TimedWeapon.initial (.initial config gcfg respawning) t₀).after p c h).weapon.controlPc =
      .enqueue laserMsg)
    (refused : (((TimedWeapon.initial (.initial config gcfg respawning) t₀).after p c
      h).weapon.laserMessageQueue.send laserMsg).2 = false) :
    ∃ a ∈ ((TimedWeapon.initial (.initial config gcfg respawning) t₀).after p c h).arrivals.head?,
      a + 5 * (c.pause + 10) ≤ t := by
  obtain ⟨paced, run⟩ := Runs.each_cons.mp run
  have spaced := TimedWeapon.phaseSpaced p c (n := 5) (by decide) (by decide) rfl t₀ run
  have tracked := TimedWeapon.arrivalsTracked p c (w := .initial config gcfg respawning) rfl t₀ h
  have apart := spaced.now c (by decide) (by rw [pc]; rfl) paced.awake
  have full := (Fifo.send_fails_iff _ laserMsg).mp refused
  exact oldest_waited (List.Pairwise.sublist (tracked.sub.cons_cons t) apart)
    (tracked.length.trans full)

theorem refused_waited_sixth_shot :
    let shot (t : Nat) : List (Nat × Label) :=
      List.replicate 3 (t + 310, .control ⟨1, 0, true, true⟩) ++
      List.replicate 9 (t + 10, .control ⟨0, 0, true, true⟩)
    let s := TimedWeapon.initial (.initial ⟨1, 7, 0, 0⟩ ⟨true, 0⟩ false) 500
    let h := List.replicate 7 (2060, .control ⟨0, 0, true, true⟩) ++
      (shot 1740 ++ shot 1430 ++ shot 1120 ++ shot 810 ++ shot 500) ++
      [(500, .control ⟨0, 0, true, true⟩)]
    ∃ a ∈ (s.after .packed ⟨300, 10⟩ h).arrivals.head?, a + 5 * (300 + 10) ≤ 2060 := by
  intro shot s h
  have pc : (s.after .packed ⟨300, 10⟩ h).weapon.controlPc = .enqueue 0x0107 := by decide +kernel
  exact refused_waited .packed ⟨300, 10⟩ _ _ _ 500 (i := ⟨0, 0, true, true⟩) (by decide +kernel) pc
    (by decide +kernel)

end Refused

end RayzWeapon.Tasks
