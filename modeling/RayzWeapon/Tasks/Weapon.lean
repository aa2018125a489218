import RayzWeapon.Lib.Fifo
import RayzWeapon.Tasks.Control

/-! The control, laser and ESP-NOW tasks over their shared state.  A step runs one task from one access
of shared state to the next, except that the configuration is read as a whole: `ammo` and `create`
each read two fields of it in one step and `build` four.  Between steps the other tasks may do
anything. -/

namespace RayzWeapon.Tasks

open RayzWeapon.Lib

/-- Where the control task stands.  From `create` to `notify` it is in its shot block. -/
inductive ControlPc
  | start
  | top
  | ammo
  | sample
  | create
  | record (laserMsg : UInt32)
  | build (laserMsg : UInt32)
  | broadcast (laserMsg : UInt32) (shotMsg : PlayerMessage)
  | enqueue (laserMsg : UInt32)
  | notify
  deriving DecidableEq

/-- In `bit` the task is in `sendMessage` with `i` bits left. -/
inductive LaserPc
  | receive
  | bit (message : UInt32) (i : Nat)
  deriving DecidableEq

inductive EspnowPc
  | start
  | waitWifi
  | init
  | receive
  | deleted
  deriving DecidableEq

/-- The shared state, the tasks' own, and the calls made so far. -/
structure Weapon where
  config : DeviceConfig
  gcfg : GameConfig
  respawning : Bool
  laserMessageQueue : Fifo UInt32 5
  triggerInitialized : Bool
  control : Control
  controlPc : ControlPc
  laserPc : LaserPc
  laserPin : Bool
  espnowPc : EspnowPc
  selfDeviceId : Nat
  fired : List UInt32
  recordShots : Nat
  broadcasts : List (PlayerMessage × Bool)
  sends : List (UInt32 × Bool)
  wsShots : Nat
  held : List Bool
  emitted : List UInt32
  recordHits : Nat
  recordKills : Nat
  wsGameStates : Nat

structure ControlRead where
  level : Nat
  timeUs : Nat
  broadcastOk : Bool
  wsConnected : Bool

structure EspnowRead where
  wifiConnected : Bool
  initOk : Bool
  received : Option PlayerMessage

inductive Label
  | control (i : ControlRead)
  | laser
  | espnow (i : EspnowRead)
  | setConfig (config : DeviceConfig)
  | setGameConfig (gcfg : GameConfig)
  | setRespawning (respawning : Bool)

def Weapon.initial (config : DeviceConfig) (gcfg : GameConfig) (respawning : Bool) : Weapon where
  config := config
  gcfg := gcfg
  respawning := respawning
  laserMessageQueue := Fifo.empty UInt32 5
  triggerInitialized := false
  control := .initial
  controlPc := .start
  laserPc := .receive
  laserPin := false
  espnowPc := .start
  selfDeviceId := 0
  fired := []
  recordShots := 0
  broadcasts := []
  sends := []
  wsShots := 0
  held := []
  emitted := []
  recordHits := 0
  recordKills := 0
  wsGameStates := 0

def appMain (gameStateInit queueCreated : Bool) (config : DeviceConfig) (gcfg : GameConfig)
    (respawning : Bool) : Option Weapon :=
  if !gameStateInit then none
  else if !queueCreated then none
  else some (.initial config gcfg respawning)

theorem appMain_eq_some (started : appMain gameStateInit queueCreated config gcfg respawning = some w) :
    w = .initial config gcfg respawning := by
  unfold appMain at started
  split at started
  · cases started
  · split at started <;> cases started
    rfl

section Steps

variable (p : Protocol) (w : Weapon)

def controlStep (i : ControlRead) : Weapon :=
  match w.controlPc with
  | .start => { w with triggerInitialized := true, controlPc := .top }
  | .top => { w with controlPc := if w.respawning then .top else .ammo }
  | .ammo =>
    { w with controlPc := if !w.gcfg.unlimitedAmmo && w.gcfg.maxAmmo == 0 then .top else .sample }
  | .sample =>
    if !isTriggerPressed i.level then
      { w with control := { w.control with wasPressed := false }, controlPc := .top }
    else if w.control.wasPressed then { w with controlPc := .top }
    else { w with control := { w.control with wasPressed := true }, controlPc := .create }
  | .create =>
    let laserMsg := p.createLaserMessage w.config.playerId w.config.deviceId
    { w with
      control := { w.control with
        shotCounter := w.control.shotCounter + 1
        messageCount := w.control.messageCount + 1 }
      fired := w.fired ++ [laserMsg]
      controlPc := .record laserMsg }
  | .record laserMsg => { w with recordShots := w.recordShots + 1, controlPc := .build laserMsg }
  | .build laserMsg =>
    { w with controlPc := .broadcast laserMsg (shotMessage w.config laserMsg i.timeUs) }
  | .broadcast laserMsg shotMsg =>
    { w with
      broadcasts := w.broadcasts ++ [(shotMsg, i.broadcastOk)]
      controlPc := .enqueue laserMsg }
  | .enqueue laserMsg =>
    { w with
      laserMessageQueue := (w.laserMessageQueue.send laserMsg).1
      sends := w.sends ++ [(laserMsg, (w.laserMessageQueue.send laserMsg).2)]
      controlPc := .notify }
  | .notify =>
    { w with wsShots := if i.wsConnected then w.wsShots + 1 else w.wsShots, controlPc := .top }

def messageBit (message : UInt32) (i : Nat) : Bool := (message >>> UInt32.ofNat i) &&& 0x01 == 1

/-- A task that waits on an empty queue stays where it is. -/
def laserStep : Weapon :=
  match w.laserPc with
  | .receive =>
    match w.laserMessageQueue.receive with
    | none => w
    | some (message, queue) =>
      { w with laserMessageQueue := queue, laserPc := .bit message p.messageTotalBits }
  | .bit message (i + 1) =>
    { w with
      laserPin := messageBit message i
      held := w.held ++ [messageBit message i]
      laserPc := .bit message i }
  | .bit message 0 =>
    { w with laserPin := false, emitted := w.emitted ++ [message], laserPc := .receive }

/-- The pass after a reception touches nothing that another task reads, so it is one step.  The
local copy of the device id is a `uint8_t`. -/
def espnowStep (i : EspnowRead) : Weapon :=
  match w.espnowPc with
  | .start => { w with selfDeviceId := w.config.deviceId % 2 ^ 8, espnowPc := .waitWifi }
  | .waitWifi => { w with espnowPc := if i.wifiConnected then .init else .waitWifi }
  | .init => { w with espnowPc := if i.initOk then .receive else .deleted }
  | .receive =>
    match i.received with
    | none => w
    | some msg =>
      if msg.type = .hitEvent ∧ msg.deviceId = w.selfDeviceId then
        { w with
          recordHits := w.recordHits + 1
          recordKills := w.recordKills + 1
          wsGameStates := w.wsGameStates + 1 }
      else w
  | .deleted => w

def Weapon.step : Label → Weapon
  | .control i => controlStep p w i
  | .laser => laserStep p w
  | .espnow i => espnowStep w i
  | .setConfig config => { w with config }
  | .setGameConfig gcfg => { w with gcfg }
  | .setRespawning respawning => { w with respawning }

def Weapon.after (h : List Label) : Weapon := Runs.after (Weapon.step p) w h

end Steps

section Frame

variable (p : Protocol) (w : Weapon)

theorem controlStep_frame (i : ControlRead) :
    controlStep p w i =
      { w with
        laserMessageQueue := (controlStep p w i).laserMessageQueue
        triggerInitialized := (controlStep p w i).triggerInitialized
        control := (controlStep p w i).control
        controlPc := (controlStep p w i).controlPc
        fired := (controlStep p w i).fired
        recordShots := (controlStep p w i).recordShots
        broadcasts := (controlStep p w i).broadcasts
        sends := (controlStep p w i).sends
        wsShots := (controlStep p w i).wsShots } := by
  unfold controlStep
  cases w.controlPc with
  | sample =>
    dsimp only
    split
    · rfl
    · split <;> rfl
  | _ => rfl

theorem laserStep_frame :
    laserStep p w =
      { w with
        laserMessageQueue := (laserStep p w).laserMessageQueue
        laserPc := (laserStep p w).laserPc
        laserPin := (laserStep p w).laserPin
        held := (laserStep p w).held
        emitted := (laserStep p w).emitted } := by
  unfold laserStep
  cases w.laserPc with
  | receive =>
    dsimp only
    split <;> rfl
  | bit message i => cases i <;> rfl

theorem espnowStep_frame (i : EspnowRead) :
    espnowStep w i =
      { w with
        espnowPc := (espnowStep w i).espnowPc
        selfDeviceId := (espnowStep w i).selfDeviceId
        recordHits := (espnowStep w i).recordHits
        recordKills := (espnowStep w i).recordKills
        wsGameStates := (espnowStep w i).wsGameStates } := by
  unfold espnowStep
  cases w.espnowPc with
  | receive =>
    dsimp only
    split
    · rfl
    · split <;> rfl
  | _ => rfl

end Frame

def Weapon.call (w : Weapon) : Call → Weapon
  | .recordShot => { w with recordShots := w.recordShots + 1 }
  | .broadcast msg ok => { w with broadcasts := w.broadcasts ++ [(msg, ok)] }
  | .laserSend msg =>
    { w with
      laserMessageQueue := (w.laserMessageQueue.send msg).1
      fired := w.fired ++ [msg]
      sends := w.sends ++ [(msg, (w.laserMessageQueue.send msg).2)] }
  | .wsBroadcastShot => { w with wsShots := w.wsShots + 1 }

def Weapon.loopInput (w : Weapon) (i : ControlRead) : LoopInput where
  respawning := w.respawning
  gcfg := w.gcfg
  level := i.level
  config := w.config
  timeUs := i.timeUs
  broadcastOk := i.broadcastOk
  wsConnected := i.wsConnected

def Weapon.afterPass (w : Weapon) (pass : Control × List Call) : Weapon :=
  { pass.2.foldl Weapon.call w with control := pass.1 }

section Pass

variable (p : Protocol) {w : Weapon} (i : ControlRead)

theorem control_disabled (top : w.controlPc = .top) (disabled : (w.loopInput i).enabled = false) :
    ∃ n, w.after p (List.replicate n (.control i)) = w := by
  cases respawning : w.respawning with
  | true =>
    refine ⟨1, ?_⟩
    simp only [Weapon.after, List.replicate, Runs.after_cons, Runs.after_nil, Weapon.step,
      controlStep, top, respawning, if_true]
    rw [← top, ← respawning]
  | false =>
    have empty : (!w.gcfg.unlimitedAmmo && w.gcfg.maxAmmo == 0) = true := by
      simpa [LoopInput.enabled, Weapon.loopInput, respawning] using disabled
    refine ⟨2, ?_⟩
    simp only [Weapon.after, List.replicate, Runs.after_cons, Runs.after_nil, Weapon.step,
      controlStep, top, respawning, Bool.false_eq_true, if_false, empty, if_true]
    rw [← top, ← respawning]

theorem control_enabled (top : w.controlPc = .top) (enabled : (w.loopInput i).enabled = true) :
    w.after p [.control i, .control i] = { w with controlPc := .sample } := by
  simp only [LoopInput.enabled, Weapon.loopInput, Bool.and_eq_true, Bool.not_eq_true'] at enabled
  simp only [Weapon.after, Runs.after_cons, Runs.after_nil, Weapon.step, controlStep, top,
    enabled.1, enabled.2, Bool.false_eq_true, if_false]

theorem control_pass (top : w.controlPc = .top) :
    ∃ n, w.after p (List.replicate n (.control i)) =
      w.afterPass (controlLoop p w.control (w.loopInput i)) := by
  cases enabled : (w.loopInput i).enabled with
  | false =>
    rw [controlLoop_disabled p _ enabled]
    exact control_disabled p i top enabled
  | true =>
    rw [controlLoop_enabled p _ enabled]
    have gates := control_enabled p i top enabled
    have sampleStep (n : Nat) : w.after p (List.replicate (n + 2) (.control i)) =
        Runs.after (Weapon.step p) { w with controlPc := .sample }
          (List.replicate n (.control i)) := by
      rw [← gates, List.replicate_add, Weapon.after, Runs.after_append]
      rfl
    cases pressed : isTriggerPressed i.level with
    | false =>
      refine ⟨3, ?_⟩
      rw [sampleStep 1]
      simp [Weapon.step, controlStep, Weapon.afterPass, Weapon.loopInput, pressed, ← top]
    | true =>
      cases held : w.control.wasPressed with
      | true =>
        refine ⟨3, ?_⟩
        rw [sampleStep 1]
        simp [Weapon.step, controlStep, Weapon.afterPass, Weapon.loopInput, pressed, held, ← top]
      | false =>
        refine ⟨9, ?_⟩
        rw [sampleStep 7]
        cases ws : i.wsConnected <;>
          simp [List.replicate, Weapon.step, controlStep, Weapon.afterPass, Weapon.call,
            Weapon.loopInput, pressed, held, ws, ← top]

end Pass

end RayzWeapon.Tasks
