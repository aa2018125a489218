import RayzWeapon.Lib.Runs
import Mathlib.Data.UInt

universe u

namespace RayzWeapon.Tasks

open RayzWeapon.Lib

/-- The respawn record and what the shared component does with it; `checkRespawn` is atomic. -/
structure RespawnRecord (R : Type u) where
  isRespawning : R → Bool
  elapsed : R → Nat → Bool
  checkRespawn : R → Nat → Bool × R
  check_eq : ∀ r now, (checkRespawn r now).1 = (isRespawning r && elapsed r now)
  check_clears : ∀ r now, (checkRespawn r now).1 = true → isRespawning (checkRespawn r now).2 = false
  check_keeps : ∀ r now, (checkRespawn r now).1 = false → (checkRespawn r now).2 = r

/-- In `announce` the check has succeeded and the task is about to log it. -/
inductive GamePc
  | top
  | check
  | announce
  | stats
  deriving DecidableEq

inductive WsPc
  | init
  | waitWifi
  | cleanup
  | heartbeat
  | check
  | broadcast
  deriving DecidableEq

structure Respawns (R : Type u) where
  record : R
  gamePc : GamePc
  lastLog : UInt32
  statsLogs : Nat
  wsPc : WsPc
  statuses : Nat
  consumed : Nat
  broadcasts : Nat

structure GameRead where
  now : Nat
  seconds : UInt32

structure WsRead where
  wifiConnected : Bool
  wsConnected : Bool
  heartbeatDue : Bool
  now : Nat

/-- Between the steps of the two tasks the rest of the system may do anything to the record. -/
inductive RespawnLabel (R : Type u)
  | game (i : GameRead)
  | ws (i : WsRead)
  | setRecord (record : R)

def Respawns.initial (record : R) : Respawns R where
  record := record
  gamePc := .top
  lastLog := 0
  statsLogs := 0
  wsPc := .init
  statuses := 0
  consumed := 0
  broadcasts := 0

section Steps

variable (c : RespawnRecord R) (s : Respawns R)

def gameStep (i : GameRead) : Respawns R :=
  match s.gamePc with
  | .top => { s with gamePc := if c.isRespawning s.record then .check else .stats }
  | .check =>
    let r := c.checkRespawn s.record i.now
    if r.1 then { s with record := r.2, consumed := s.consumed + 1, gamePc := .announce }
    else { s with record := r.2, gamePc := .top }
  | .announce => { s with gamePc := .stats }
  | .stats =>
    if i.seconds - s.lastLog ≥ 30 then
      { s with statsLogs := s.statsLogs + 1, lastLog := i.seconds, gamePc := .top }
    else { s with gamePc := .top }

def wsStep (i : WsRead) : Respawns R :=
  match s.wsPc with
  | .init => { s with wsPc := .waitWifi }
  | .waitWifi => { s with wsPc := if i.wifiConnected then .cleanup else .waitWifi }
  | .cleanup => { s with wsPc := .heartbeat }
  | .heartbeat =>
    if i.wsConnected && i.heartbeatDue then { s with statuses := s.statuses + 1, wsPc := .check }
    else { s with wsPc := .check }
  | .check =>
    let r := c.checkRespawn s.record i.now
    if r.1 then { s with record := r.2, consumed := s.consumed + 1, wsPc := .broadcast }
    else { s with record := r.2, wsPc := .cleanup }
  | .broadcast => { s with broadcasts := s.broadcasts + 1, wsPc := .cleanup }

def Respawns.step : RespawnLabel R → Respawns R
  | .game i => gameStep c s i
  | .ws i => wsStep c s i
  | .setRecord record => { s with record }

def Respawns.after (h : List (RespawnLabel R)) : Respawns R := Runs.after (Respawns.step c) s h

end Steps

def Settled (s : Respawns R) : Prop := s.gamePc ≠ .announce ∧ s.wsPc ≠ .broadcast

instance (s : Respawns R) : Decidable (Settled s) :=
  inferInstanceAs (Decidable (s.gamePc ≠ .announce ∧ s.wsPc ≠ .broadcast))

def gameConsumes (c : RespawnRecord R) (s : Respawns R) : RespawnLabel R → Bool
  | .game i => s.gamePc == .check && (c.isRespawning s.record && c.elapsed s.record i.now)
  | _ => false

def WsPc.toBroadcast : WsPc → Nat
  | .broadcast => 1
  | _ => 0

def begins (c : RespawnRecord R) (_ : Respawns R) : RespawnLabel R → Bool
  | .setRecord record => c.isRespawning record
  | _ => false

def Respawns.announced (s : Respawns R) : Nat := s.broadcasts + s.wsPc.toBroadcast

/-- All a step can do to the account of respawns. -/
inductive Effect (c : RespawnRecord R) (s : Respawns R) (x : RespawnLabel R) (s' : Respawns R) : Prop
  | quiet (record : s'.record = s.record) (consumed : s'.consumed = s.consumed)
    (announced : s'.announced = s.announced) (lost : gameConsumes c s x = false)
  | game (flag : c.isRespawning s.record = true) (cleared : c.isRespawning s'.record = false)
    (consumed : s'.consumed = s.consumed + 1) (announced : s'.announced = s.announced)
    (lost : gameConsumes c s x = true)
  | ws (flag : c.isRespawning s.record = true) (cleared : c.isRespawning s'.record = false)
    (consumed : s'.consumed = s.consumed + 1) (announced : s'.announced = s.announced + 1)
    (lost : gameConsumes c s x = false)
  | begun (begins : begins c s x = c.isRespawning s'.record) (consumed : s'.consumed = s.consumed)
    (announced : s'.announced = s.announced) (lost : gameConsumes c s x = false)

section Accounting

variable (c : RespawnRecord R)

theorem RespawnRecord.flag_of_done {r : R} {now : Nat} (done : (c.checkRespawn r now).1 = true) :
    c.isRespawning r = true := by
  rw [c.check_eq, Bool.and_eq_true_iff] at done
  exact done.1

theorem gameStep_effect (s : Respawns R) (i : GameRead) : Effect c s (.game i) (gameStep c s i) := by
  unfold gameStep
  cases pc : s.gamePc with
  | check =>
    have lost : gameConsumes c s (.game i) = (c.checkRespawn s.record i.now).1 := by
      simp [gameConsumes, pc, c.check_eq]
    dsimp only
    split
    next done =>
      exact .game (c.flag_of_done done) (c.check_clears _ _ done) rfl rfl (lost.trans done)
    next failed =>
      have failed := Bool.eq_false_iff.mpr failed
      exact .quiet (c.check_keeps _ _ failed) rfl rfl (lost.trans failed)
  | stats =>
    dsimp only
    split <;> exact .quiet rfl rfl rfl (by simp [gameConsumes, pc])
  | _ => exact .quiet rfl rfl rfl (by simp [gameConsumes, pc])

theorem wsStep_effect (s : Respawns R) (i : WsRead) : Effect c s (.ws i) (wsStep c s i) := by
  unfold wsStep
  cases pc : s.wsPc with
  | check =>
    dsimp only
    split
    next done =>
      exact .ws (c.flag_of_done done) (c.check_clears _ _ done) rfl
        (by simp [Respawns.announced, WsPc.toBroadcast, pc]) rfl
    next failed =>
      exact .quiet (c.check_keeps _ _ (Bool.eq_false_iff.mpr failed)) rfl
        (by simp [Respawns.announced, WsPc.toBroadcast, pc]) rfl
  | waitWifi =>
    cases i.wifiConnected <;>
      exact .quiet rfl rfl (by simp [Respawns.announced, WsPc.toBroadcast, pc]) rfl
  | heartbeat =>
    dsimp only
    split <;> exact .quiet rfl rfl (by simp [Respawns.announced, WsPc.toBroadcast, pc]) rfl
  | _ => exact .quiet rfl rfl (by simp [Respawns.announced, WsPc.toBroadcast, pc]) rfl

theorem step_effect (s : Respawns R) (x : RespawnLabel R) : Effect c s x (s.step c x) := by
  cases x with
  | game i => exact gameStep_effect c s i
  | ws i => exact wsStep_effect c s i
  | setRecord record => exact .begun rfl rfl rfl rfl

theorem consumed_after (record : R) (h : List (RespawnLabel R)) :
    ((Respawns.initial record).after c h).consumed =
      ((Respawns.initial record).after c h).announced +
        Runs.count (Respawns.step c) (.initial record) (gameConsumes c) h := by
  induction h with
  | nil => rfl
  | cons x h ih =>
    have effect := step_effect c ((Respawns.initial record).after c h) x
    simp only [Respawns.after, Runs.after_cons, Runs.count] at ih effect ⊢
    cases effect <;> simp only [Bool.toNat_true, Bool.toNat_false, *] <;> omega

def LeftToWs (record : R) (h : List (RespawnLabel R)) (x : RespawnLabel R) : Prop :=
  gameConsumes c ((Respawns.initial record).after c h) x = false

theorem broadcasts_eq_consumed_iff (record : R) (h : List (RespawnLabel R))
    (settled : Settled ((Respawns.initial record).after c h)) :
    ((Respawns.initial record).after c h).broadcasts =
        ((Respawns.initial record).after c h).consumed ↔
      Runs.Each (LeftToWs c record) h := by
  have none : ((Respawns.initial record).after c h).wsPc.toBroadcast = 0 := by
    have quiet := settled.2
    cases pc : ((Respawns.initial record).after c h).wsPc <;> first | rfl | exact absurd pc quiet
  have announced : ((Respawns.initial record).after c h).announced =
      ((Respawns.initial record).after c h).broadcasts := by rw [Respawns.announced, none, Nat.add_zero]
  have lost : Runs.count (Respawns.step c) (.initial record) (gameConsumes c) h = 0 ↔
      Runs.Each (LeftToWs c record) h := Runs.count_eq_zero_iff
  rw [consumed_after, announced, ← lost]
  omega

end Accounting

section Ends

def RespawnLabel.Early (c : RespawnRecord R) (r : R) : RespawnLabel R → Prop
  | .game i => c.elapsed r i.now = false
  | .ws i => c.elapsed r i.now = false
  | .setRecord _ => False

theorem record_early (c : RespawnRecord R) {s : Respawns R} {x : RespawnLabel R}
    (early : x.Early c s.record) : (s.step c x).record = s.record := by
  have failed {now : Nat} (elapsed : c.elapsed s.record now = false) :
      (c.checkRespawn s.record now).1 = false := by rw [c.check_eq, elapsed, Bool.and_false]
  cases x with
  | game i =>
    simp only [Respawns.step, gameStep]
    cases pc : s.gamePc with
    | check =>
      dsimp only
      rw [if_neg (by simp [failed early])]
      exact c.check_keeps _ _ (failed early)
    | stats =>
      dsimp only
      split <;> rfl
    | _ => rfl
  | ws i =>
    simp only [Respawns.step, wsStep]
    cases pc : s.wsPc with
    | heartbeat =>
      dsimp only
      split <;> rfl
    | check =>
      dsimp only
      rw [if_neg (by simp [failed early])]
      exact c.check_keeps _ _ (failed early)
    | _ => rfl
  | setRecord record => exact early.elim

def RespawnLabel.Overdue (c : RespawnRecord R) (r : R) : RespawnLabel R → Prop
  | .game i => c.elapsed r i.now = true
  | .ws i => c.elapsed r i.now = true
  | .setRecord _ => False

def RespawnLabel.isGame : RespawnLabel R → Bool
  | .game _ => true
  | _ => false

def GamePc.toCheck : GamePc → Nat
  | .check => 0
  | .top => 1
  | .stats => 2
  | .announce => 3

def Pending (r : R) (n : Nat) (s : Respawns R) : Prop := s.record = r ∧ s.consumed = n

def Ended (c : RespawnRecord R) (n : Nat) (s : Respawns R) : Prop :=
  c.isRespawning s.record = false ∧ s.consumed = n + 1

variable (c : RespawnRecord R) {r : R} {n : Nat} {s : Respawns R}

theorem RespawnRecord.done_of_elapsed (flag : c.isRespawning r = true) {now : Nat}
    (elapsed : c.elapsed r now = true) : (c.checkRespawn r now).1 = true := by
  rw [c.check_eq, flag, elapsed]
  rfl

theorem Pending.game (flag : c.isRespawning r = true) (pending : Pending r n s) {i : GameRead}
    (elapsed : c.elapsed r i.now = true) :
    Ended c n (gameStep c s i) ∨
      Pending r n (gameStep c s i) ∧ (gameStep c s i).gamePc.toCheck + 1 ≤ s.gamePc.toCheck := by
  obtain ⟨rfl, rfl⟩ := pending
  have done := c.done_of_elapsed flag elapsed
  unfold gameStep
  cases pc : s.gamePc with
  | top => simp [Pending, flag, GamePc.toCheck]
  | check =>
    dsimp only
    rw [if_pos done]
    exact .inl ⟨c.check_clears _ _ done, rfl⟩
  | announce => exact .inr ⟨⟨rfl, rfl⟩, Nat.le_refl _⟩
  | stats =>
    refine .inr ?_
    dsimp only
    split <;> exact ⟨⟨rfl, rfl⟩, Nat.le_refl _⟩

theorem Pending.ws (flag : c.isRespawning r = true) (pending : Pending r n s) {i : WsRead}
    (elapsed : c.elapsed r i.now = true) :
    Ended c n (wsStep c s i) ∨
      Pending r n (wsStep c s i) ∧ (wsStep c s i).gamePc.toCheck = s.gamePc.toCheck := by
  obtain ⟨rfl, rfl⟩ := pending
  have done := c.done_of_elapsed flag elapsed
  unfold wsStep
  cases pc : s.wsPc with
  | heartbeat =>
    refine .inr ?_
    dsimp only
    split <;> exact ⟨⟨rfl, rfl⟩, rfl⟩
  | check =>
    dsimp only
    rw [if_pos done]
    exact .inl ⟨c.check_clears _ _ done, rfl⟩
  | _ => exact .inr ⟨⟨rfl, rfl⟩, rfl⟩

theorem Pending.step (flag : c.isRespawning r = true) (pending : Pending r n s)
    {x : RespawnLabel R} (overdue : x.Overdue c r) :
    Ended c n (s.step c x) ∨ Pending r n (s.step c x) ∧
      (s.step c x).gamePc.toCheck + x.isGame.toNat ≤ s.gamePc.toCheck := by
  cases x with
  | game i => exact pending.game c flag overdue
  | ws i =>
    rcases pending.ws c flag overdue with ended | ⟨pending', same⟩
    · exact .inl ended
    · exact .inr ⟨pending', Nat.le_of_eq same⟩
  | setRecord record => exact overdue.elim

theorem Ended.step (ended : Ended c n s) {x : RespawnLabel R} (overdue : x.Overdue c r) :
    Ended c n (s.step c x) := by
  have effect := step_effect c s x
  obtain ⟨cleared, consumed⟩ := ended
  cases effect with
  | quiet record consumed' => exact ⟨by rw [record, cleared], by rw [consumed', consumed]⟩
  | game flag | ws flag => simp [cleared] at flag
  | begun begins consumed' =>
    refine ⟨?_, by rw [consumed', consumed]⟩
    cases x with
    | setRecord record => exact overdue.elim
    | _ => exact begins.symm

end Ends

def deadlineRecord : RespawnRecord (Option Nat) where
  isRespawning := Option.isSome
  elapsed r now := r.any (· ≤ now)
  checkRespawn r now := if r.any (· ≤ now) then (true, none) else (false, r)
  check_eq r now := by
    cases r with
    | none => rfl
    | some deadline => split <;> simp [*]
  check_clears r now := by
    split <;> simp
  check_keeps r now := by
    split <;> simp

theorem broadcasts_eq_consumed_iff_ws_first :
    let read : WsRead := ⟨true, true, false, 6000⟩
    let h : List (RespawnLabel (Option Nat)) := List.replicate 6 (.ws read) ++ [.setRecord (some 5000)]
    ((Respawns.initial none).after deadlineRecord h).broadcasts =
        ((Respawns.initial none).after deadlineRecord h).consumed ↔
      Runs.Each (LeftToWs deadlineRecord none) h :=
  broadcasts_eq_consumed_iff deadlineRecord none _ (by decide)

theorem respawn_lost_game_first :
    let read : GameRead := ⟨6000, 6⟩
    let h : List (RespawnLabel (Option Nat)) := List.replicate 3 (.game read) ++ [.setRecord (some 5000)]
    let s := (Respawns.initial none).after deadlineRecord h
    Settled s ∧ ¬s.broadcasts = s.consumed := by
  intro read h s
  constructor <;> decide

end RayzWeapon.Tasks
