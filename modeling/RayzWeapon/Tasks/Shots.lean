import RayzWeapon.Tasks.Weapon

namespace RayzWeapon.Tasks

open RayzWeapon.Lib

def ControlPc.inShotBlock : ControlPc → Bool
  | .start | .top | .ammo | .sample => false
  | _ => true

def ControlPc.toRecord : ControlPc → List UInt32
  | .record laserMsg => [laserMsg]
  | _ => []

def ControlPc.toBroadcast : ControlPc → List UInt32
  | .record laserMsg | .build laserMsg | .broadcast laserMsg _ => [laserMsg]
  | _ => []

def ControlPc.toSend : ControlPc → List UInt32
  | .record laserMsg | .build laserMsg | .broadcast laserMsg _ | .enqueue laserMsg => [laserMsg]
  | _ => []

def LaserPc.inFlight : LaserPc → List UInt32
  | .receive => []
  | .bit message _ => [message]

def Weapon.accepted (w : Weapon) : List UInt32 := (w.sends.filter Prod.snd).map Prod.fst

def Weapon.failedSends (w : Weapon) : Nat := w.sends.countP fun send => !send.2

def Weapon.broadcastData (w : Weapon) : List UInt32 := w.broadcasts.map fun call => call.1.data

/-- The three side effects of a shot are behind it by what the control task has still to do. -/
structure ShotLedger (w : Weapon) : Prop where
  delivered : Fifo.Conserved (w.emitted ++ w.laserPc.inFlight) w.laserMessageQueue w.accepted
  sent : w.sends.map Prod.fst ++ w.controlPc.toSend = w.fired
  broadcast : w.broadcastData ++ w.controlPc.toBroadcast = w.fired
  recorded : w.recordShots + w.controlPc.toRecord.length = w.fired.length
  built : ∀ laserMsg shotMsg, w.controlPc = .broadcast laserMsg shotMsg → shotMsg.data = laserMsg

theorem shotLedger_initial (config : DeviceConfig) (gcfg : GameConfig) (respawning : Bool) :
    ShotLedger (.initial config gcfg respawning) where
  delivered := Fifo.conserved_empty
  sent := rfl
  broadcast := rfl
  recorded := rfl
  built := by simp [Weapon.initial]

theorem ControlPc.toSend_of_outside {pc : ControlPc} (outside : pc.inShotBlock = false) :
    pc.toSend = [] := by
  cases pc <;> first | rfl | cases outside

theorem ControlPc.idle_of_toSend {pc : ControlPc} (sent : pc.toSend = []) :
    pc.toBroadcast = [] ∧ pc.toRecord = [] := by
  cases pc <;> first | exact ⟨rfl, rfl⟩ | cases sent

section Ledger

variable (p : Protocol) {w : Weapon} (ledger : ShotLedger w)
include ledger

theorem ShotLedger.idle (sent : w.controlPc.toSend = []) {pc : ControlPc} (sent' : pc.toSend = [])
    (triggerInitialized : Bool) (control : Control) (wsShots : Nat) :
    ShotLedger { w with triggerInitialized, control, controlPc := pc, wsShots } := by
  obtain ⟨broadcast, recorded⟩ := ControlPc.idle_of_toSend sent
  obtain ⟨broadcast', recorded'⟩ := ControlPc.idle_of_toSend sent'
  constructor
  · exact ledger.delivered
  · rw [sent', ← sent]
    exact ledger.sent
  · rw [broadcast', ← broadcast]
    exact ledger.broadcast
  · rw [recorded', ← recorded]
    exact ledger.recorded
  · rintro laserMsg shotMsg rfl
    cases sent'

theorem ShotLedger.control (i : ControlRead) : ShotLedger (controlStep p w i) := by
  have ⟨delivered, sent, broadcast, recorded, built⟩ := ledger
  unfold controlStep
  cases pc : w.controlPc with
  | start | notify => exact ledger.idle (by rw [pc]; rfl) rfl ..
  | top | ammo => exact ledger.idle (by rw [pc]; rfl) (by split <;> rfl) ..
  | sample =>
    dsimp only
    split
    · exact ledger.idle (by rw [pc]; rfl) rfl ..
    · split <;> exact ledger.idle (by rw [pc]; rfl) rfl ..
  | create =>
    -- From here the shot owes all three of its side effects.
    simp only [pc, ControlPc.toSend, ControlPc.toBroadcast, ControlPc.toRecord, List.append_nil,
      List.length_nil, Nat.add_zero] at sent broadcast recorded
    constructor
    · exact delivered
    · rw [← sent]
      rfl
    · rw [← broadcast]
      rfl
    · simp [ControlPc.toRecord, recorded]
    · simp
  | record laserMsg =>
    rw [pc] at sent broadcast recorded
    exact ⟨delivered, sent, broadcast, recorded, by simp⟩
  | build laserMsg =>
    rw [pc] at sent broadcast recorded
    refine ⟨delivered, sent, broadcast, recorded, ?_⟩
    rintro m shotMsg eq
    cases eq
    rfl
  | broadcast laserMsg shotMsg =>
    rw [pc] at sent broadcast recorded
    constructor
    · exact delivered
    · exact sent
    · simpa [Weapon.broadcastData, ControlPc.toBroadcast, built laserMsg shotMsg pc] using broadcast
    · exact recorded
    · simp
  | enqueue laserMsg =>
    rw [pc] at sent broadcast recorded
    constructor
    · have sending := delivered.send laserMsg
      cases ok : (w.laserMessageQueue.send laserMsg).2 <;>
        simpa [Weapon.accepted, ok] using sending
    · simpa [ControlPc.toSend] using sent
    · exact broadcast
    · exact recorded
    · simp

theorem ShotLedger.laser : ShotLedger (laserStep p w) := by
  have ⟨delivered, sent, broadcast, recorded, built⟩ := ledger
  unfold laserStep
  cases pc : w.laserPc with
  | receive =>
    simp only [pc, LaserPc.inFlight, List.append_nil] at delivered
    dsimp only
    split
    next => exact ledger
    next message queue received =>
      exact ⟨delivered.receive received, sent, broadcast, recorded, built⟩
  | bit message i =>
    simp only [pc, LaserPc.inFlight] at delivered
    cases i with
    | zero =>
      have emitted : Fifo.Conserved (w.emitted ++ [message] ++ []) w.laserMessageQueue w.accepted := by
        rwa [List.append_nil]
      exact ⟨emitted, sent, broadcast, recorded, built⟩
    | succ i => exact ⟨delivered, sent, broadcast, recorded, built⟩

theorem ShotLedger.espnow (i : EspnowRead) : ShotLedger (espnowStep w i) := by
  have ⟨delivered, sent, broadcast, recorded, built⟩ := ledger
  rw [espnowStep_frame]
  exact ⟨delivered, sent, broadcast, recorded, built⟩

theorem ShotLedger.step (x : Label) : ShotLedger (w.step p x) := by
  cases x with
  | control i => exact ledger.control p i
  | laser => exact ledger.laser p
  | espnow i => exact ledger.espnow i
  | setConfig _ | setGameConfig _ | setRespawning _ =>
    exact ⟨ledger.delivered, ledger.sent, ledger.broadcast, ledger.recorded, ledger.built⟩

end Ledger

theorem shotLedger_after (p : Protocol) {w : Weapon} (ledger : ShotLedger w) (h : List Label) :
    ShotLedger (w.after p h) :=
  Runs.invariant ledger (fun _ x kept => kept.step p x) h

theorem sends_step (p : Protocol) (w : Weapon) (x : Label) :
    (w.step p x).sends = w.sends ∨ ∃ laserMsg, w.controlPc = .enqueue laserMsg ∧
      (w.step p x).sends = w.sends ++ [(laserMsg, (w.laserMessageQueue.send laserMsg).2)] := by
  cases x with
  | control i =>
    simp only [Weapon.step, controlStep]
    cases pc : w.controlPc with
    | enqueue laserMsg => exact .inr ⟨laserMsg, rfl, rfl⟩
    | sample => exact .inl (by dsimp only; split <;> [rfl; split <;> rfl])
    | _ => exact .inl rfl
  | laser => exact .inl (by rw [Weapon.step, laserStep_frame])
  | espnow i => exact .inl (by rw [Weapon.step, espnowStep_frame])
  | setConfig _ | setGameConfig _ | setRespawning _ => exact .inl rfl

def FailsOnlyFull (p : Protocol) (w : Weapon) (h : List Label) (x : Label) : Prop :=
  (w.after p h).failedSends < (w.after p (x :: h)).failedSends →
    (w.after p h).laserMessageQueue.items.length = 5

theorem failsOnlyFull (p : Protocol) (w : Weapon) (h : List Label) (x : Label) :
    FailsOnlyFull p w h x := by
  intro failed
  simp only [Weapon.after, Runs.after_cons, Weapon.failedSends] at failed ⊢
  rcases sends_step p (Runs.after (Weapon.step p) w h) x with same | ⟨laserMsg, -, sent⟩
  · rw [same] at failed
    exact absurd failed (Nat.lt_irrefl _)
  · apply (Fifo.send_fails_iff _ laserMsg).mp
    cases ok : ((Runs.after (Weapon.step p) w h).laserMessageQueue.send laserMsg).2 with
    | false => rfl
    | true => simp [sent, ok] at failed

structure ShotsConserved (w : Weapon) : Prop where
  delivered : w.emitted ++ w.laserPc.inFlight ++ w.laserMessageQueue.items = w.accepted
  fired : w.sends.map Prod.fst = w.fired
  recordShots : w.recordShots = w.accepted.length + w.failedSends
  broadcasts : w.broadcasts.length = w.accepted.length + w.failedSends
  broadcastData : w.broadcastData = w.fired

theorem Weapon.length_sends (w : Weapon) : w.sends.length = w.accepted.length + w.failedSends := by
  rw [accepted, List.length_map, ← List.countP_eq_length_filter]
  simpa [failedSends] using List.length_eq_countP_add_countP Prod.snd (l := w.sends)

theorem ShotLedger.conserved {w : Weapon} (ledger : ShotLedger w)
    (outside : w.controlPc.inShotBlock = false) : ShotsConserved w := by
  have idle := ControlPc.toSend_of_outside outside
  obtain ⟨broadcast, recorded⟩ := ControlPc.idle_of_toSend idle
  have fired : w.sends.map Prod.fst = w.fired := by simpa [idle] using ledger.sent
  have data : w.broadcastData = w.fired := by simpa [broadcast] using ledger.broadcast
  constructor
  · exact ledger.delivered
  · exact fired
  · have records : w.recordShots = w.fired.length := by simpa [recorded] using ledger.recorded
    rw [records, ← fired, List.length_map, w.length_sends]
  · have broadcasts : w.broadcasts.length = w.fired.length := by
      rw [← data, Weapon.broadcastData, List.length_map]
    rw [broadcasts, ← fired, List.length_map, w.length_sends]
  · exact data

end RayzWeapon.Tasks
