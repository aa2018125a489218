import RayzWeapon.Lib.Spaced
import RayzWeapon.Lib.WrapClock
import RayzWeapon.Tasks.Respawn

universe u

namespace RayzWeapon.Tasks

open RayzWeapon.Lib

/-- `xTaskGetTickCount() / configTICK_RATE_HZ` at the true tick `t`. -/
def tickSeconds (t : Nat) : Nat := t % 2 ^ 32 / 1000

/-- `tickSeconds` without its wraps, each of which is as good as 30 seconds. -/
def logClock (t : Nat) : Nat := tickSeconds t + (2 ^ 32 / 1000 + 30) * (t / 2 ^ 32)

def Overdue30 (last t : Nat) : Prop := 30 ≤ WrapClock.age (2 ^ 32) (tickSeconds last) (tickSeconds t)

theorem tickSeconds_lt (t : Nat) : tickSeconds t < 2 ^ 32 / 1000 + 1 := by
  unfold tickSeconds
  omega

theorem tickSeconds_le {last t : Nat} (le : last ≤ t) (sameEpoch : t / 2 ^ 32 = last / 2 ^ 32) :
    tickSeconds last ≤ tickSeconds t := by
  apply Nat.div_le_div_right
  omega

theorem overdue30_iff_of_le {last t : Nat} (le : tickSeconds last ≤ tickSeconds t) :
    Overdue30 last t ↔ tickSeconds last + 30 ≤ tickSeconds t := by
  have bound := tickSeconds_lt t
  rw [Overdue30, WrapClock.age_of_le le (by omega)]
  omega

theorem logClock_succ_epoch {last t : Nat} (wrapped : last / 2 ^ 32 < t / 2 ^ 32) :
    logClock last + 30 ≤ logClock t := by
  have bound := tickSeconds_lt last
  unfold logClock
  omega

theorem logClock_of_overdue {last t : Nat} (le : last ≤ t) (due : Overdue30 last t) :
    logClock last + 30 ≤ logClock t := by
  rcases Nat.lt_or_ge (last / 2 ^ 32) (t / 2 ^ 32) with wrapped | not
  · exact logClock_succ_epoch wrapped
  · have sameEpoch : t / 2 ^ 32 = last / 2 ^ 32 := Nat.le_antisymm not (Nat.div_le_div_right le)
    have due := (overdue30_iff_of_le (tickSeconds_le le sameEpoch)).mp due
    rw [logClock, logClock, sameEpoch]
    omega

theorem overdue_of_logClock {last t : Nat} (le : last ≤ t) (near : t + 1000 ≤ last + 2 ^ 32)
    (due : logClock last + 30 ≤ logClock t) : Overdue30 last t := by
  rcases Nat.lt_or_ge (last / 2 ^ 32) (t / 2 ^ 32) with wrapped | not
  · have before : tickSeconds t < tickSeconds last := by
      unfold tickSeconds
      omega
    have bound := tickSeconds_lt last
    rw [Overdue30, WrapClock.age_of_gt before (by omega)]
    omega
  · have sameEpoch : t / 2 ^ 32 = last / 2 ^ 32 := Nat.le_antisymm not (Nat.div_le_div_right le)
    rw [overdue30_iff_of_le (tickSeconds_le le sameEpoch)]
    rw [logClock, logClock, sameEpoch] at due
    omega

theorem logClock_advanced_iff {last t : Nat} (le : last ≤ t) :
    logClock last + 30 ≤ logClock t ↔
      tickSeconds last + 30 ≤ tickSeconds t ∨ last / 2 ^ 32 < t / 2 ^ 32 := by
  rcases Nat.lt_or_ge (last / 2 ^ 32) (t / 2 ^ 32) with wrapped | not
  · exact iff_of_true (logClock_succ_epoch wrapped) (.inr wrapped)
  · have sameEpoch : t / 2 ^ 32 = last / 2 ^ 32 := Nat.le_antisymm not (Nat.div_le_div_right le)
    rw [logClock, logClock, sameEpoch]
    omega

theorem logClock_window (a d : Nat) :
    logClock (a + d) ≤ logClock a + (d / 1000 + 1 + 30 * ((a + d) / 2 ^ 32 - a / 2 ^ 32)) := by
  simp only [logClock, tickSeconds]
  omega

theorem logClock_mono {t t' : Nat} (le : t ≤ t') : logClock t ≤ logClock t' := by
  simp only [logClock, tickSeconds]
  omega

section Run

variable {R : Type u} (c : RespawnRecord R)

def Respawns.timedStep (s : Respawns R) (x : Nat × RespawnLabel R) : Respawns R := s.step c x.2

def Respawns.afterTimed (s : Respawns R) (h : List (Nat × RespawnLabel R)) : Respawns R :=
  Runs.after (Respawns.timedStep c) s h

structure Ticked (h : List (Nat × RespawnLabel R)) : Prop where
  ordered : h.Pairwise fun x y => y.1 ≤ x.1
  clock : ∀ t i, (t, .game i) ∈ h → i.seconds.toNat = tickSeconds t

def logs (s : Respawns R) : RespawnLabel R → Bool
  | .game i => s.gamePc == .stats && decide (30 ≤ i.seconds - s.lastLog)
  | _ => false

def Respawns.logTicks (s : Respawns R) (h : List (Nat × RespawnLabel R)) : List Nat :=
  Runs.collect (Respawns.timedStep c) s (fun s x => if logs s x.2 then [x.1] else []) h

variable {c}

inductive LogStep (s : Respawns R) (x : RespawnLabel R) (s' : Respawns R) : Prop
  | quiet (notLogs : logs s x = false) (lastLog : s'.lastLog = s.lastLog)
    (statsLogs : s'.statsLogs = s.statsLogs)
  | log {i : GameRead} (game : x = .game i) (logs : logs s x = true)
    (due : 30 ≤ i.seconds - s.lastLog) (lastLog : s'.lastLog = i.seconds)
    (statsLogs : s'.statsLogs = s.statsLogs + 1)

theorem logStep_game (s : Respawns R) (i : GameRead) : LogStep s (.game i) (gameStep c s i) := by
  by_cases due : s.gamePc = .stats ∧ 30 ≤ i.seconds - s.lastLog
  · refine .log rfl (by simp [logs, due]) due.2 ?_ ?_ <;>
      simp [gameStep, due]
  · have notLogs : logs s (.game i) = false := by
      simp only [logs, Bool.and_eq_false_iff, beq_eq_false_iff_ne, decide_eq_false_iff_not]
      exact not_and_or.mp due
    unfold gameStep
    cases pc : s.gamePc with
    | stats =>
      have young : ¬i.seconds - s.lastLog ≥ 30 := fun old => due ⟨pc, old⟩
      dsimp only
      rw [if_neg young]
      exact .quiet notLogs rfl rfl
    | check =>
      dsimp only
      split <;> exact .quiet notLogs rfl rfl
    | _ => exact .quiet notLogs rfl rfl

theorem logStep (s : Respawns R) (x : RespawnLabel R) : LogStep s x (s.step c x) := by
  cases x with
  | game i => exact logStep_game s i
  | ws i =>
    simp only [Respawns.step, wsStep]
    cases s.wsPc with
    | heartbeat | check =>
      dsimp only
      split <;> exact .quiet rfl rfl rfl
    | _ => exact .quiet rfl rfl rfl
  | setRecord record => exact .quiet rfl rfl rfl

structure LogLedger (ticks : List Nat) (h : List (Nat × RespawnLabel R)) (s : Respawns R) :
    Prop where
  lastLog : s.lastLog.toNat = tickSeconds (ticks.headD 0)
  logged : ∀ t ∈ ticks, ∃ x, (t, x) ∈ h
  spaced : Spaced 30 (ticks.map logClock)

theorem overdue_iff {s : Respawns R} {last t : Nat} {i : GameRead}
    (lastLog : s.lastLog.toNat = tickSeconds last) (seconds : i.seconds.toNat = tickSeconds t) :
    30 ≤ i.seconds - s.lastLog ↔ Overdue30 last t := by
  rw [UInt32.le_iff_toNat_le, UInt32.toNat_sub, lastLog, seconds]
  rfl

variable {ticks : List Nat} {h : List (Nat × RespawnLabel R)} {s : Respawns R} {t : Nat}
  {x : RespawnLabel R}

theorem LogLedger.last_le (ledger : LogLedger ticks h s) (run : Ticked ((t, x) :: h)) :
    ticks.headD 0 ≤ t := by
  cases ticks with
  | nil => exact Nat.zero_le t
  | cons last ticks =>
    obtain ⟨y, hy⟩ := ledger.logged last (.head ticks)
    exact (List.pairwise_cons.mp run.ordered).1 _ hy

theorem LogLedger.step (ledger : LogLedger ticks h s) (run : Ticked ((t, x) :: h)) :
    LogLedger ((if logs s x then [t] else []) ++ ticks) ((t, x) :: h) (s.step c x) := by
  have last_le := ledger.last_le run
  obtain ⟨lastLog, logged, spaced⟩ := ledger
  have earlier (t' : Nat) (ht' : t' ∈ ticks) : ∃ y, (t', y) ∈ (t, x) :: h :=
    (logged t' ht').imp fun y hy => .tail _ hy
  cases logStep (c := c) s x with
  | quiet notLogs lastLog' =>
    rw [notLogs, if_neg Bool.false_ne_true, List.nil_append]
    exact ⟨by rw [lastLog', lastLog], earlier, spaced⟩
  | @log i game logs due lastLog' =>
    have seconds := run.clock t i (game ▸ .head h)
    have due' := logClock_of_overdue last_le ((overdue_iff lastLog seconds).mp due)
    rw [logs, if_pos rfl, List.singleton_append]
    refine ⟨by rw [lastLog', seconds, List.headD_cons], ?_, ?_⟩
    · intro t' ht'
      rcases List.mem_cons.mp ht' with rfl | ht'
      · exact ⟨x, .head h⟩
      · exact earlier t' ht'
    · rw [List.map_cons]
      apply spaced.cons
      cases ticks with
      | nil => simp
      | cons last ticks => simpa using due'

theorem Ticked.suffix {k : List (Nat × RespawnLabel R)} (run : Ticked h) (sub : k <:+ h) :
    Ticked k :=
  ⟨run.ordered.sublist sub.sublist, fun t i hi => run.clock t i (sub.subset hi)⟩

theorem Ticked.tail {y : Nat × RespawnLabel R} (run : Ticked (y :: h)) : Ticked h :=
  run.suffix (List.suffix_cons y h)

theorem logLedger_after (c : RespawnRecord R) (record : R) (run : Ticked h) :
    LogLedger ((Respawns.initial record).logTicks c h) h
      ((Respawns.initial record).afterTimed c h) := by
  induction h with
  | nil =>
    have fresh : ((Respawns.initial record).afterTimed c []).lastLog.toNat = tickSeconds 0 := rfl
    exact ⟨fresh, by simp [Respawns.logTicks, Runs.collect], .nil⟩
  | cons y h ih => exact (ih run.tail).step run

theorem statsLogs_after (c : RespawnRecord R) (s : Respawns R) (h : List (Nat × RespawnLabel R)) :
    (s.afterTimed c h).statsLogs = s.statsLogs + (s.logTicks c h).length := by
  induction h with
  | nil => rfl
  | cons y h ih =>
    have ticks : s.logTicks c (y :: h) =
        (if logs (s.afterTimed c h) y.2 then [y.1] else []) ++ s.logTicks c h := rfl
    change ((s.afterTimed c h).step c y.2).statsLogs = _
    rw [ticks, List.length_append]
    cases logStep (c := c) (s.afterTimed c h) y.2 with
    | quiet notLogs _ same =>
      rw [same, ih, notLogs]
      simp
    | log _ logs _ _ more =>
      rw [more, ih, logs]
      simp only [if_true, List.length_singleton]
      omega

theorem mem_logTicks {s : Respawns R} (ht : t ∈ s.logTicks c h) : ∃ x, (t, x) ∈ h := by
  obtain ⟨x, k, sub, now⟩ := Runs.mem_collect _ _ _ ht
  split at now
  · rw [List.mem_singleton.mp now]
    exact ⟨x.2, sub.subset (.head k)⟩
  · cases now

def LogRate (c : RespawnRecord R) (s : Respawns R) (later earlier : List (Nat × RespawnLabel R)) :
    Prop :=
  ∀ a d, (∀ x ∈ later, a ≤ x.1 ∧ x.1 ≤ a + d) →
    (s.afterTimed c (later ++ earlier)).statsLogs ≤ (s.afterTimed c earlier).statsLogs +
      ((d / 1000 + 1) / 30 + ((a + d) / 2 ^ 32 - a / 2 ^ 32) + 1)

theorem logRate (c : RespawnRecord R) (record : R) {later earlier : List (Nat × RespawnLabel R)}
    (run : Ticked (later ++ earlier)) : LogRate c (.initial record) later earlier := by
  intro a d window
  have ticks : (Respawns.initial record).logTicks c (later ++ earlier) =
      ((Respawns.initial record).afterTimed c earlier).logTicks c later ++
        (Respawns.initial record).logTicks c earlier := Runs.collect_append ..
  have spaced := (logLedger_after c record run).spaced
  have apart : (Respawns.initial record).afterTimed c (later ++ earlier) =
      ((Respawns.initial record).afterTimed c earlier).afterTimed c later := Runs.after_append ..
  rw [ticks, List.map_append] at spaced
  have spaced' := (List.pairwise_append.mp spaced).1
  rw [apart, statsLogs_after c _ later]
  apply Nat.add_le_add_left
  have inside := Spaced.countP_le spaced' (by decide) (logClock a)
    (d / 1000 + 1 + 30 * ((a + d) / 2 ^ 32 - a / 2 ^ 32))
  rw [Nat.add_mul_div_left _ _ (by decide : 0 < 30)] at inside
  refine Nat.le_trans (Nat.le_of_eq ?_) inside
  rw [eq_comm, ← List.length_map (f := logClock), List.countP_eq_length]
  intro w hw
  obtain ⟨t', ht', rfl⟩ := List.mem_map.mp hw
  obtain ⟨x, hx⟩ := mem_logTicks ht'
  obtain ⟨after, before⟩ := window _ hx
  have upper := (logClock_mono before).trans (logClock_window a d)
  simpa using ⟨logClock_mono after, upper⟩

/-- Where the task looks whether to log, it does so if the seconds of its clock have advanced by 30
since its last line, or its clock has started again. -/
def LogDue (c : RespawnRecord R) (s : Respawns R) (h : List (Nat × RespawnLabel R))
    (x : Nat × RespawnLabel R) : Prop :=
  x.2.isGame = true → (s.afterTimed c h).gamePc = .stats →
    x.1 + 1000 ≤ (s.logTicks c h).headD 0 + 2 ^ 32 →
    ((s.afterTimed c (x :: h)).statsLogs = (s.afterTimed c h).statsLogs + 1 ↔
      tickSeconds ((s.logTicks c h).headD 0) + 30 ≤ tickSeconds x.1 ∨
        (s.logTicks c h).headD 0 / 2 ^ 32 < x.1 / 2 ^ 32)

theorem logDue (c : RespawnRecord R) (record : R) (run : Ticked ((t, x) :: h)) :
    LogDue c (.initial record) h (t, x) := by
  intro game stats near
  have ledger := logLedger_after c record run.tail
  have last_le := ledger.last_le run
  cases x with
  | game i =>
    have seconds := run.clock t i (.head h)
    have due := overdue_iff ledger.lastLog seconds
    have logs : logs ((Respawns.initial record).afterTimed c h) (.game i) = true ↔
        30 ≤ i.seconds - ((Respawns.initial record).afterTimed c h).lastLog := by
      simp [logs, stats]
    have byClock := Iff.intro (logClock_of_overdue last_le) (overdue_of_logClock last_le near)
    rw [← logClock_advanced_iff last_le, ← byClock, ← due, ← logs]
    change (((Respawns.initial record).afterTimed c h).step c (.game i)).statsLogs = _ ↔ _
    cases logStep (c := c) ((Respawns.initial record).afterTimed c h) (.game i) with
    | quiet notLogs _ same => simp [notLogs, same]
    | log _ logs _ _ more => simp [logs, more]
  | ws i | setRecord record' => cases game

structure StatsLogged (c : RespawnRecord R) (s : Respawns R) (h : List (Nat × RespawnLabel R)) :
    Prop where
  rate : ∀ later earlier, h = later ++ earlier → LogRate c s later earlier
  due : Runs.Each (LogDue c s) h

theorem stats_logged (c : RespawnRecord R) (record : R) (run : Ticked h) :
    StatsLogged c (.initial record) h := by
  constructor
  · rintro later earlier rfl
    exact logRate c record run
  · rintro ⟨t, x⟩ k sub
    exact logDue c record (run.suffix sub)

end Run

theorem stats_logged_wrap :
    let before : Nat × RespawnLabel (Option Nat) := (2 ^ 32 - 5000, .game ⟨0, 4294962⟩)
    let after : Nat × RespawnLabel (Option Nat) := (2 ^ 32 + 1000, .game ⟨0, 1⟩)
    let h := [after, after, before, before]
    ((Respawns.initial none).afterTimed deadlineRecord h).statsLogs = 2 ∧
      StatsLogged deadlineRecord (.initial none) h := by
  intro before after h
  have run : Ticked h := by
    refine ⟨by decide, ?_⟩
    intro t i hi
    simp only [h, before, after, List.mem_cons, Prod.mk.injEq, RespawnLabel.game.injEq] at hi
    rcases hi with ⟨rfl, rfl⟩ | ⟨rfl, rfl⟩ | ⟨rfl, rfl⟩ | ⟨rfl, rfl⟩ | none
    all_goals first | rfl | cases none
  exact ⟨by decide, stats_logged deadlineRecord none run⟩

end RayzWeapon.Tasks
