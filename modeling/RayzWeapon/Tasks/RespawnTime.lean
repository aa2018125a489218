import RayzWeapon.Tasks.Respawn

universe u

namespace RayzWeapon.Tasks

open RayzWeapon.Lib

variable {R : Type u} (c : RespawnRecord R)

structure TimedRespawns (R : Type u) where
  respawns : Respawns R
  now : Nat
  gameWake : Nat

def TimedRespawns.initial (record : R) (t : Nat) : TimedRespawns R := ⟨.initial record, t, t⟩

/-- What the game task passes to `vTaskDelay` after the step. -/
def gameDelay (s : Respawns R) (i : GameRead) : Nat :=
  match s.gamePc with
  | .top => 0
  | .check => if (c.checkRespawn s.record i.now).1 then 0 else 100
  | .announce => 0
  | .stats => 100

def TimedRespawns.step (s : TimedRespawns R) (x : Nat × RespawnLabel R) : TimedRespawns R where
  respawns := s.respawns.step c x.2
  now := x.1
  gameWake := match x.2 with
    | .game i => x.1 + gameDelay c s.respawns i
    | _ => s.gameWake

def TimedRespawns.after (s : TimedRespawns R) (h : List (Nat × RespawnLabel R)) : TimedRespawns R :=
  Runs.after (TimedRespawns.step c) s h

/-- Time does not go back, and the game task runs when its delay is over, `latency` ticks later at
most. -/
structure GamePrompt (latency : Nat) (s : TimedRespawns R) (x : Nat × RespawnLabel R) : Prop where
  forward : s.now ≤ x.1
  awake : x.2.isGame = true → s.gameWake ≤ x.1
  inTime : x.1 ≤ s.gameWake + latency

instance (latency : Nat) (s : TimedRespawns R) (x : Nat × RespawnLabel R) :
    Decidable (GamePrompt latency s x) :=
  decidable_of_iff (s.now ≤ x.1 ∧ (x.2.isGame = true → s.gameWake ≤ x.1) ∧
      x.1 ≤ s.gameWake + latency)
    ⟨fun ⟨forward, awake, inTime⟩ => ⟨forward, awake, inTime⟩,
    fun ⟨forward, awake, inTime⟩ => ⟨forward, awake, inTime⟩⟩

def TimedRespawns.PolledRun (latency : Nat) (s : TimedRespawns R)
    (h : List (Nat × RespawnLabel R)) : Prop :=
  Runs.Each (fun k x => GamePrompt latency (s.after c k) x) h

instance (latency : Nat) (s : TimedRespawns R) (h : List (Nat × RespawnLabel R)) :
    Decidable (s.PolledRun c latency h) :=
  inferInstanceAs (Decidable (Runs.Each _ h))

def GamePc.toEnd (latency : Nat) : GamePc → Nat
  | .check => latency
  | .top => 2 * latency
  | .stats => 100 + 3 * latency
  | .announce => 100 + 4 * latency

theorem GamePc.le_toEnd (latency : Nat) (pc : GamePc) : latency ≤ pc.toEnd latency := by
  cases pc <;> simp only [GamePc.toEnd] <;> omega

variable {c} {latency : Nat} {r : R} {n : Nat} {s : TimedRespawns R}

def TimedRespawns.endsBy (latency : Nat) (s : TimedRespawns R) : Nat :=
  s.gameWake + s.respawns.gamePc.toEnd latency

theorem gamePc_quiet (s : Respawns R) {x : RespawnLabel R} (other : x.isGame = false) :
    (s.step c x).gamePc = s.gamePc := by
  cases x with
  | game i => cases other
  | ws i =>
    simp only [Respawns.step, wsStep]
    cases s.wsPc with
    | heartbeat | check =>
      dsimp only
      split <;> rfl
    | _ => rfl
  | setRecord record => rfl

theorem endsBy_game (flag : c.isRespawning r = true) (pending : Pending r n s.respawns) {t : Nat}
    {i : GameRead} (elapsed : c.elapsed r i.now = true) (inTime : t ≤ s.gameWake + latency)
    (lasts : ¬Ended c n (s.step c (t, .game i)).respawns) :
    (s.step c (t, .game i)).endsBy latency ≤ s.endsBy latency := by
  have done := c.done_of_elapsed flag elapsed
  obtain ⟨rfl, rfl⟩ := pending
  simp only [TimedRespawns.endsBy, TimedRespawns.step, Respawns.step, gameStep, gameDelay]
  cases pc : s.respawns.gamePc with
  | top =>
    simp only [flag, if_true, GamePc.toEnd]
    omega
  | check =>
    refine absurd ⟨?_, ?_⟩ lasts
    · simpa [TimedRespawns.step, Respawns.step, gameStep, pc, done] using c.check_clears _ _ done
    · simp [TimedRespawns.step, Respawns.step, gameStep, pc, done]
  | announce =>
    simp only [GamePc.toEnd]
    omega
  | stats =>
    simp only [apply_ite Respawns.gamePc, ite_self, GamePc.toEnd]
    omega

theorem endsBy_step (flag : c.isRespawning r = true) (pending : Pending r n s.respawns)
    {x : Nat × RespawnLabel R} (overdue : x.2.Overdue c r) (prompt : GamePrompt latency s x)
    (lasts : ¬Ended c n (s.step c x).respawns) :
    (s.step c x).endsBy latency ≤ s.endsBy latency := by
  obtain ⟨t, x⟩ := x
  cases x with
  | game i => exact endsBy_game flag pending overdue prompt.inTime lasts
  | ws i =>
    have same := gamePc_quiet (c := c) s.respawns (x := .ws i) rfl
    exact Nat.le_of_eq (congrArg (s.gameWake + GamePc.toEnd latency ·) same)
  | setRecord record => exact overdue.elim

theorem TimedRespawns.ends (flag : c.isRespawning r = true) (pending : Pending r n s.respawns)
    (awake : s.now ≤ s.gameWake + latency) {h : List (Nat × RespawnLabel R)}
    (run : s.PolledRun c latency h) (overdue : ∀ x ∈ h, x.2.Overdue c r)
    (late : s.endsBy latency < (s.after c h).now) : Ended c n (s.after c h).respawns := by
  apply Runs.deadline (fun t x => GamePrompt latency t x ∧ x.2.Overdue c r)
    (fun t => Pending r n t.respawns ∨ Ended c n t.respawns) (fun t => Ended c n t.respawns)
    TimedRespawns.now (TimedRespawns.endsBy latency)
  · rintro t x ⟨-, overdue⟩ (pending | ended)
    · exact (pending.step c flag overdue).symm.imp_left And.left
    · exact .inr (ended.step c overdue)
  · rintro t x ⟨prompt, overdue⟩ (pending | ended) before after
    · refine ⟨prompt.inTime.trans ?_, endsBy_step flag pending overdue prompt after⟩
      exact Nat.add_le_add_left (GamePc.le_toEnd latency _) _
    · exact absurd ended before
  · rintro t x ⟨-, overdue⟩ - ended
    exact ended.step c overdue
  · exact .inl pending
  · exact awake.trans (Nat.add_le_add_left (GamePc.le_toEnd latency _) _)
  · exact fun x k sub => ⟨run x k sub, overdue x (sub.subset (.head k))⟩
  · exact late

structure GameAwake (latency : Nat) (s : TimedRespawns R) : Prop where
  soon : s.endsBy latency ≤ s.now + (100 + 4 * latency)
  inTime : s.now ≤ s.gameWake + latency

theorem endsBy_gameStep (s : TimedRespawns R) (t : Nat) (i : GameRead) :
    (s.step c (t, .game i)).endsBy latency ≤ t + (100 + 4 * latency) := by
  simp only [TimedRespawns.endsBy, TimedRespawns.step, Respawns.step, gameStep, gameDelay]
  cases s.respawns.gamePc with
  | top | check =>
    dsimp only
    split <;> simp only [GamePc.toEnd] <;> omega
  | announce =>
    simp only [GamePc.toEnd]
    omega
  | stats =>
    simp only [apply_ite Respawns.gamePc, ite_self, GamePc.toEnd]
    omega

theorem GameAwake.step (awake : GameAwake latency s) {x : Nat × RespawnLabel R}
    (prompt : GamePrompt latency s x) : GameAwake latency (s.step c x) := by
  obtain ⟨t, x⟩ := x
  have forward : s.now ≤ t := prompt.forward
  have quiet (other : x.isGame = false) (wake : (s.step c (t, x)).gameWake = s.gameWake) :
      GameAwake latency (s.step c (t, x)) := by
    have same := gamePc_quiet (c := c) s.respawns other
    refine ⟨?_, by rw [wake]; exact prompt.inTime⟩
    rw [TimedRespawns.endsBy, wake]
    change s.gameWake + ((s.respawns.step c x).gamePc).toEnd latency ≤ t + _
    rw [same]
    exact awake.soon.trans (Nat.add_le_add_right forward _)
  cases x with
  | game i =>
    exact ⟨endsBy_gameStep s t i, (Nat.le_add_right t _).trans (Nat.le_add_right _ _)⟩
  | ws i | setRecord record => exact quiet rfl rfl

end RayzWeapon.Tasks
