import RayzWeapon.Lib.Runs
import Mathlib.Data.UInt

/-! The display manager: its static state, the event handler and the body of its task loop.  `W` is
whatever the source callbacks look at; a step reads it through a `Reading`. -/

universe u

namespace RayzWeapon.Display

open RayzWeapon.Lib

/-- C strings, one character a byte and without the terminator. -/
abbrev Text := List Char

inductive DmState
  | boot
  | debug
  | overlayHit
  | overlayMsg
  | error
  deriving DecidableEq

inductive DmEvent
  | errorSet (errorCode : UInt32)
  | errorClear
  | hit
  | msg (text : Text)
  | other (type : Nat)
  deriving DecidableEq

structure Reading (W : Type u) where
  tickCount : UInt32
  world : W

/-- A callback that is a null pointer is `none`. -/
structure DmSources (W : Type u) where
  wifiConnected : Option (W → Bool)
  wifiIp : Option (W → Text)
  wifiSsid : Option (W → Text)
  wifiStatus : Option (W → Text)
  wifiRssi : Option (W → Int)
  uptimeMs : Option (W → UInt32)
  wsConnected : Option (W → Bool)
  deviceName : Option (W → Text)
  playerId : Option (W → Int)
  deviceId : Option (W → Int)

structure Rows where
  row1 : Text
  row2 : Text
  row3 : Text
  deriving DecidableEq

structure Label where
  text : Text
  hidden : Bool
  deriving DecidableEq

/-- The file's static variables, with `on` the static of the task's blink branch. -/
structure Dm (W : Type u) where
  src : DmSources W
  state : DmState
  returnState : DmState
  stateUntilMs : UInt32
  lastSlowMs : UInt32
  lastFastMs : UInt32
  errorCode : UInt32
  rows : Rows
  overlay : Label
  on : Bool

variable {W : Type u}

def configTickRateHz : UInt32 := 1000

def portTickPeriodMs : UInt32 := 1000 / configTickRateHz

def nowMs (dm : Dm W) (r : Reading W) : UInt32 :=
  match dm.src.uptimeMs with
  | some uptimeMs => uptimeMs r.world
  | none => r.tickCount * portTickPeriodMs

def setRows (dm : Dm W) (r1 r2 r3 : Text) : Dm W :=
  { dm with rows := ⟨r1, r2, r3⟩ }

def overlayShow (dm : Dm W) (txt : Text) : Dm W :=
  { dm with overlay := ⟨txt, false⟩ }

def overlayHide (dm : Dm W) : Dm W :=
  { dm with overlay := { dm.overlay with hidden := true } }

/-- Four fresh labels: the rows are written before anything reads them, the overlay is hidden. -/
def uiInit (dm : Dm W) : Dm W :=
  overlayHide dm

/-- What `snprintf` leaves in a buffer of `size` bytes for the formatted text `s`. -/
def snprintf (size : Nat) (s : Text) : Text := s.take (size - 1)

def formatLu (n : UInt32) : Text := Nat.toDigits 10 n.toNat

def formatD : Int → Text
  | .ofNat n => Nat.toDigits 10 n
  | .negSucc n => '-' :: Nat.toDigits 10 (n + 1)

def rowSize : Nat := 32

def renderDebug (dm : Dm W) (_page : UInt8) (_slow : Bool) (r : Reading W) : Dm W :=
  let wifi := dm.src.wifiConnected.elim false (· r.world)
  let ws := dm.src.wsConnected.elim false (· r.world)
  let ssid := dm.src.wifiSsid.elim "?".toList (· r.world)
  let status := dm.src.wifiStatus.elim "?".toList (· r.world)
  let ip := if wifi then dm.src.wifiIp.elim "--".toList (· r.world) else "--".toList
  let dname := dm.src.deviceName.elim "Device".toList (· r.world)
  let pid := dm.src.playerId.elim (-1) (· r.world)
  let did := dm.src.deviceId.elim (-1) (· r.world)
  let rssi := dm.src.wifiRssi.elim 0 (· r.world)
  if ws then
    setRows dm (snprintf rowSize dname)
      (snprintf rowSize ("DevID:".toList ++ formatD did))
      (snprintf rowSize ("PlyID:".toList ++ formatD pid))
  else if wifi then
    setRows dm (snprintf rowSize (ssid ++ " - OK".toList))
      (snprintf rowSize ("RSSI:".toList ++ formatD rssi))
      (snprintf rowSize ip)
  else
    setRows dm (snprintf rowSize status)
      (snprintf rowSize ssid)
      (snprintf rowSize ("RSSI:".toList ++ formatD rssi))

def renderError (dm : Dm W) : Dm W :=
  setRows dm (snprintf rowSize "ERROR".toList)
    (snprintf rowSize ("C:".toList ++ formatLu dm.errorCode))
    (snprintf rowSize "Fix & reboot".toList)

def enterState (dm : Dm W) (st : DmState) (durMs : UInt32) (r : Reading W) : Dm W :=
  { dm with state := st, stateUntilMs := if durMs ≠ 0 then nowMs dm r + durMs else 0 }

/-- `disp` and `queue` tell whether the display and the created queue are not null pointers. -/
def displayManagerInit (dm : Dm W) (disp : Bool) (src : Option (DmSources W)) (queue : Bool)
    (r : Reading W) : Bool × Dm W :=
  match disp, src with
  | true, some src =>
    let dm := { dm with src }
    if queue then
      let dm := uiInit dm
      let dm := setRows dm "RayZ".toList "BOOT".toList []
      let dm := { dm with state := .boot }
      (true, enterState dm .boot 800 r)
    else (false, dm)
  | _, _ => (false, dm)

def handleEvent (dm : Dm W) (e : DmEvent) (r : Reading W) : Dm W :=
  match e with
  | .errorSet errorCode => renderError (enterState { dm with errorCode } .error 0 r)
  | .errorClear => enterState { dm with errorCode := 0 } .debug 0 r
  | .hit => overlayShow (enterState { dm with returnState := dm.state } .overlayHit 600 r) "HIT!".toList
  | .msg text => overlayShow (enterState { dm with returnState := dm.state } .overlayMsg 800 r) text
  | .other _ => dm

def Due (dm : Dm W) (t : UInt32) : Prop := dm.stateUntilMs ≠ 0 ∧ t ≥ dm.stateUntilMs

instance (dm : Dm W) (t : UInt32) : Decidable (Due dm t) := inferInstanceAs (Decidable (_ ∧ _))

def checkDeadline (dm : Dm W) (t : UInt32) (r : Reading W) : Dm W :=
  if Due dm t then
    let dm :=
      if dm.state = .overlayHit ∨ dm.state = .overlayMsg then
        enterState (overlayHide dm) (if dm.returnState = .error then .error else .debug) 0 r
      else if dm.state = .boot then enterState dm .debug 0 r
      else dm
    { dm with stateUntilMs := 0 }
  else dm

def redraw (dm : Dm W) (t : UInt32) (r : Reading W) : Dm W :=
  let slow : Bool := t - dm.lastSlowMs ≥ 1000
  let fast : Bool := t - dm.lastFastMs ≥ 100
  match dm.state with
  | .error => if slow then { renderError dm with lastSlowMs := t } else dm
  | .debug =>
    let dm := if fast then { renderDebug dm 0 slow r with lastFastMs := t } else dm
    if slow then { dm with lastSlowMs := t } else dm
  | .overlayHit =>
    if fast then
      let dm := { dm with on := !dm.on }
      { overlayShow dm (if dm.on then "HIT!".toList else "    ".toList) with lastFastMs := t }
    else dm
  | _ => dm

def iteration (dm : Dm W) (r : Reading W) : Dm W :=
  let t := nowMs dm r
  redraw (checkDeadline dm t r) t r

/-- The task's steps: it handles one received event, or finds the queue empty and goes on to the
rest of the loop body.  A list of them in any order is a run with any batching. -/
inductive Step (W : Type u)
  | event (e : DmEvent) (r : Reading W)
  | iteration (r : Reading W)

def step (dm : Dm W) : Step W → Dm W
  | .event e r => handleEvent dm e r
  | .iteration r => iteration dm r

def Dm.after (dm : Dm W) (h : List (Step W)) : Dm W := Runs.after step dm h

end RayzWeapon.Display
