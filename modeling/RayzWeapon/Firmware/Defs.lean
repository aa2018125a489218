import RayzWeapon.Display.System
import RayzWeapon.Tasks.Gates
import RayzWeapon.Tasks.Respawn

/-! All the tasks of the firmware together.  The trigger's respawn gate and the display's event queue
are where they meet. -/

universe u v

namespace RayzWeapon

open RayzWeapon.Lib RayzWeapon.Tasks RayzWeapon.Display

variable {R : Type u} {W : Type v}

/-- The weapon's respawn flag is the one of the record that the game and WebSocket tasks check. -/
structure Firmware (c : RespawnRecord R) (W : Type v) where
  weapon : Weapon
  respawns : Respawns R
  display : DisplaySystem W
  synced : weapon.respawning = c.isRespawning respawns.record

inductive FirmwareLabel (R : Type u) (W : Type v)
  | control (i : ControlRead)
  | laser
  | espnow (i : EspnowRead)
  | game (i : GameRead)
  | ws (i : WsRead)
  | wsOnConnect (connected : Bool)
  | displayManager (r : Reading W)
  | displayManagerPost (evt : Option DmEvent)
  | setConfig (config : DeviceConfig)
  | setGameConfig (gcfg : GameConfig)
  | setRecord (record : R)

variable {c : RespawnRecord R}

def Firmware.appMain (c : RespawnRecord R) (platform : Platform W) (before : Dm W)
    (gameStateInit queueCreated disp dmQueueCreated dmTaskCreated : Bool) (config : DeviceConfig)
    (gcfg : GameConfig) (record : R) (r : Reading W) : Option (Firmware c W) :=
  if !gameStateInit then none
  else if !queueCreated then none
  else some
    { weapon := .initial config gcfg (c.isRespawning record)
      respawns := .initial record
      display := startDisplay platform before disp dmQueueCreated dmTaskCreated r
      synced := rfl }

def Firmware.withWeapon (f : Firmware c W) (weapon : Weapon)
    (same : weapon.respawning = f.weapon.respawning) : Firmware c W :=
  { f with weapon, synced := same.trans f.synced }

def Firmware.withRespawns (f : Firmware c W) (respawns : Respawns R) : Firmware c W :=
  { f with
    weapon := { f.weapon with respawning := c.isRespawning respawns.record }
    respawns
    synced := rfl }

section Steps

variable (p : Protocol) (size : Nat) (f : Firmware c W)

/-- The WebSocket task registers `ws_on_connect` in its first step. -/
def Firmware.step : FirmwareLabel R W → Firmware c W
  | .control i => f.withWeapon (controlStep p f.weapon i) (by rw [controlStep_frame])
  | .laser => f.withWeapon (laserStep p f.weapon) (by rw [laserStep_frame])
  | .espnow i => f.withWeapon (espnowStep f.weapon i) (by rw [espnowStep_frame])
  | .game i => f.withRespawns (gameStep c f.respawns i)
  | .ws i => f.withRespawns (wsStep c f.respawns i)
  | .wsOnConnect connected =>
    if f.respawns.wsPc = .init then f
    else { f with display := f.display.step (.post (some (wsOnConnect size connected))) }
  | .displayManager r => { f with display := f.display.step (.task r) }
  | .displayManagerPost evt => { f with display := f.display.step (.post evt) }
  | .setConfig config => f.withWeapon { f.weapon with config } rfl
  | .setGameConfig gcfg => f.withWeapon { f.weapon with gcfg } rfl
  | .setRecord record => f.withRespawns { f.respawns with record }

def Firmware.after (h : List (FirmwareLabel R W)) : Firmware c W :=
  Runs.after (Firmware.step p size) f h

def Firmware.weaponSteps : FirmwareLabel R W → List Tasks.Label
  | .control i => [.control i]
  | .laser => [.laser]
  | .espnow i => [.espnow i]
  | .game i => [.setRespawning (c.isRespawning (gameStep c f.respawns i).record)]
  | .ws i => [.setRespawning (c.isRespawning (wsStep c f.respawns i).record)]
  | .setConfig config => [.setConfig config]
  | .setGameConfig gcfg => [.setGameConfig gcfg]
  | .setRecord record => [.setRespawning (c.isRespawning record)]
  | _ => []

def FirmwareLabel.respawnSteps : FirmwareLabel R W → List (RespawnLabel R)
  | .game i => [.game i]
  | .ws i => [.ws i]
  | .setRecord record => [.setRecord record]
  | _ => []

end Steps

section Projections

variable (p : Protocol) (size : Nat)

theorem Firmware.weapon_step (f : Firmware c W) (x : FirmwareLabel R W) :
    (f.step p size x).weapon = f.weapon.after p (f.weaponSteps x) := by
  cases x with
  | wsOnConnect connected =>
    simp only [step]
    split <;> rfl
  | _ => rfl

theorem Firmware.respawns_step (f : Firmware c W) (x : FirmwareLabel R W) :
    (f.step p size x).respawns = f.respawns.after c x.respawnSteps := by
  cases x with
  | wsOnConnect connected =>
    simp only [step]
    split <;> rfl
  | _ => rfl

variable (f : Firmware c W)

def Firmware.weaponRun : List (FirmwareLabel R W) → List Tasks.Label :=
  Runs.collect (Firmware.step p size) f Firmware.weaponSteps

theorem Firmware.weapon_after (h : List (FirmwareLabel R W)) :
    (f.after p size h).weapon = f.weapon.after p (f.weaponRun p size h) :=
  Runs.projection _ f _ (weapon_step p size) h

end Projections

end RayzWeapon
