import RayzWeapon.Lib.Runs
import RayzWeapon.Lib.Edges
import Mathlib.Data.UInt

namespace RayzWeapon.Tasks

open RayzWeapon.Lib

structure DeviceConfig where
  playerId : Nat
  deviceId : Nat
  teamId : Nat
  colorRgb : Nat
  deriving DecidableEq

structure GameConfig where
  unlimitedAmmo : Bool
  maxAmmo : Nat
  deriving DecidableEq

inductive MsgType
  | shot
  | hitEvent
  | other (type : Nat)
  deriving DecidableEq

structure PlayerMessage where
  type : MsgType
  version : Nat
  playerId : Nat
  deviceId : Nat
  teamId : Nat
  colorRgb : Nat
  data : UInt32
  timestampMs : UInt32
  deriving DecidableEq

/-- What the tasks take from headers of the shared component. -/
structure Protocol where
  createLaserMessage : Nat → Nat → UInt32
  messageTotalBits : Nat

def Protocol.packed : Protocol where
  createLaserMessage playerId deviceId := UInt32.ofNat (playerId % 2 ^ 8 * 2 ^ 8 + deviceId % 2 ^ 8)
  messageTotalBits := 16

structure Control where
  shotCounter : UInt8
  wasPressed : Bool
  messageCount : UInt16
  deriving DecidableEq

def Control.initial : Control := ⟨0, false, 0⟩

def isTriggerPressed (level : Nat) : Bool := level == 0

def shotMessage (config : DeviceConfig) (laserMsg : UInt32) (timeUs : Nat) : PlayerMessage where
  type := .shot
  version := 1
  playerId := config.playerId
  deviceId := config.deviceId
  teamId := config.teamId
  colorRgb := config.colorRgb
  data := laserMsg
  timestampMs := UInt32.ofNat (timeUs / 1000)

/-- The calls of a shot that other parts of the system see, in the order they are made; the
broadcast with what it returned. -/
inductive Call
  | recordShot
  | broadcast (msg : PlayerMessage) (ok : Bool)
  | laserSend (msg : UInt32)
  | wsBroadcastShot
  deriving DecidableEq

structure LoopInput where
  respawning : Bool
  gcfg : GameConfig
  level : Nat
  config : DeviceConfig
  timeUs : Nat
  broadcastOk : Bool
  wsConnected : Bool

/-- One pass of the loop body.  A failed broadcast or send is only logged. -/
def controlLoop (p : Protocol) (c : Control) (i : LoopInput) : Control × List Call :=
  if i.respawning then (c, [])
  else if !i.gcfg.unlimitedAmmo && i.gcfg.maxAmmo == 0 then (c, [])
  else if !isTriggerPressed i.level then ({ c with wasPressed := false }, [])
  else if c.wasPressed then (c, [])
  else
    let laserMsg := p.createLaserMessage i.config.playerId i.config.deviceId
    ({ c with
        wasPressed := true
        shotCounter := c.shotCounter + 1
        messageCount := c.messageCount + 1 },
      [.recordShot, .broadcast (shotMessage i.config laserMsg i.timeUs) i.broadcastOk,
        .laserSend laserMsg] ++ if i.wsConnected then [.wsBroadcastShot] else [])

def LoopInput.enabled (i : LoopInput) : Bool :=
  !i.respawning && !(!i.gcfg.unlimitedAmmo && i.gcfg.maxAmmo == 0)

def LoopInput.pressed (i : LoopInput) : Bool := isTriggerPressed i.level

def LoopInput.limitedTo (maxAmmo level : Nat) : LoopInput where
  respawning := false
  gcfg := ⟨false, maxAmmo⟩
  level := level
  config := ⟨1, 7, 0, 0⟩
  timeUs := 0
  broadcastOk := true
  wsConnected := false

section Loop

variable (p : Protocol) (c : Control) {i : LoopInput}

theorem controlLoop_disabled (disabled : i.enabled = false) : controlLoop p c i = (c, []) := by
  unfold controlLoop
  by_cases respawning : i.respawning
  · rw [if_pos respawning]
  · rw [if_neg respawning, if_pos]
    simpa [LoopInput.enabled, respawning] using disabled

theorem controlLoop_enabled (enabled : i.enabled = true) :
    controlLoop p c i =
      if !isTriggerPressed i.level then ({ c with wasPressed := false }, [])
      else if c.wasPressed then (c, [])
      else
        ({ c with
            wasPressed := true
            shotCounter := c.shotCounter + 1
            messageCount := c.messageCount + 1 },
          [.recordShot,
            .broadcast (shotMessage i.config
              (p.createLaserMessage i.config.playerId i.config.deviceId) i.timeUs) i.broadcastOk,
            .laserSend (p.createLaserMessage i.config.playerId i.config.deviceId)] ++
            if i.wsConnected then [.wsBroadcastShot] else []) := by
  simp only [LoopInput.enabled, Bool.and_eq_true, Bool.not_eq_true'] at enabled
  unfold controlLoop
  rw [if_neg (by simp [enabled.1]), if_neg (by simp [enabled.2])]

theorem controlLoop_detects (enabled : i.enabled = true) :
    (controlLoop p c i).1.wasPressed = (Edges.detect c.wasPressed i.pressed).1 ∧
      (controlLoop p c i).2.count .recordShot =
        if (Edges.detect c.wasPressed i.pressed).2 then 1 else 0 := by
  rw [controlLoop_enabled p c enabled]
  cases pressed : isTriggerPressed i.level with
  | false => simp [LoopInput.pressed, Edges.detect, pressed]
  | true =>
    cases held : c.wasPressed with
    | true => simp [LoopInput.pressed, Edges.detect, pressed, held]
    | false => cases i.wsConnected <;> simp [LoopInput.pressed, Edges.detect, pressed]

end Loop

end RayzWeapon.Tasks
