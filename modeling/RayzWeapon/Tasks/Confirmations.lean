import RayzWeapon.Tasks.Credit

namespace RayzWeapon.Tasks

open RayzWeapon.Lib

def receivedMessage (w : Weapon) : Label → List PlayerMessage
  | .espnow i => if w.espnowPc = .receive then i.received.toList else []
  | _ => []

def joins (w : Weapon) : Label → Bool
  | .espnow i => w.espnowPc == .waitWifi && i.wifiConnected
  | _ => false

def initFails (w : Weapon) : Label → Bool
  | .espnow i => w.espnowPc == .init && !i.initOk
  | _ => false

def confirms (selfDeviceId : Nat) (msg : PlayerMessage) : Bool :=
  decide (msg.type = .hitEvent ∧ msg.deviceId = selfDeviceId)

section Received

variable (p : Protocol) (w : Weapon)

def Weapon.received (h : List Label) : List PlayerMessage :=
  Runs.collect (Weapon.step p) w receivedMessage h

/-- The id of the configuration when the ESP-NOW task started, in its `uint8_t`. -/
def Weapon.copiedId (h : List Label) : Nat :=
  ((Runs.latest (Weapon.step p) w copies h).map fun s => s.config.deviceId % 2 ^ 8).getD 0

def Weapon.joined (h : List Label) : Nat := Runs.count (Weapon.step p) w joins h

def Weapon.failedInits (h : List Label) : Nat := Runs.count (Weapon.step p) w initFails h

end Received

structure Joining (joined failedInits : Nat) (w : Weapon) : Prop where
  offline : joined = 0 → w.espnowPc = .start ∨ w.espnowPc = .waitWifi
  failed : 0 < failedInits → w.espnowPc = .deleted

theorem Joining.espnow {joined failedInits : Nat} {w : Weapon}
    (joining : Joining joined failedInits w) (i : EspnowRead) :
    Joining (joined + (joins w (.espnow i)).toNat)
      (failedInits + (initFails w (.espnow i)).toNat) (espnowStep w i) := by
  constructor
  · intro none
    obtain ⟨before, notFound⟩ := Nat.add_eq_zero_iff.mp none
    rcases joining.offline before with pc | pc
    · exact .inr (by simp [espnowStep, pc])
    · have down : i.wifiConnected = false := by simpa [joins, pc] using notFound
      exact .inr (by simp [espnowStep, pc, down])
  · intro some
    by_cases before : 0 < failedInits
    · simp [espnowStep, joining.failed before]
    · have fails : initFails w (.espnow i) = true := by
        cases now : initFails w (.espnow i) with
        | true => rfl
        | false => simp [now, before] at some
      obtain ⟨pc, notOk⟩ : w.espnowPc = .init ∧ i.initOk = false := by
        simpa [initFails] using fails
      simp [espnowStep, pc, notOk]

theorem espnowPc_quiet (p : Protocol) (w : Weapon) {x : Label} (other : ∀ i, x ≠ .espnow i) :
    (w.step p x).espnowPc = w.espnowPc := by
  cases x with
  | control i => rw [Weapon.step, controlStep_frame]
  | laser => rw [Weapon.step, laserStep_frame]
  | espnow i => exact absurd rfl (other i)
  | setConfig _ | setGameConfig _ | setRespawning _ => rfl

theorem joining_after (p : Protocol) {w : Weapon} (start : w.espnowPc = .start) (h : List Label) :
    Joining (w.joined p h) (w.failedInits p h) (w.after p h) := by
  induction h with
  | nil => exact ⟨fun _ => .inl start, fun some => absurd some (Nat.lt_irrefl 0)⟩
  | cons x h ih =>
    by_cases mine : ∃ i, x = .espnow i
    · obtain ⟨i, rfl⟩ := mine
      exact ih.espnow i
    · have same := espnowPc_quiet p (w.after p h) fun i eq => mine ⟨i, eq⟩
      have none : w.joined p (x :: h) = w.joined p h ∧
          w.failedInits p (x :: h) = w.failedInits p h := by
        cases x with
        | espnow i => exact absurd ⟨i, rfl⟩ mine
        | _ => exact ⟨rfl, rfl⟩
      rw [none.1, none.2]
      constructor
      · intro offline
        exact same ▸ ih.offline offline
      · intro failed
        exact same ▸ ih.failed failed

structure HitLedger (received : List PlayerMessage) (w : Weapon) : Prop where
  hits : w.recordHits = received.countP (confirms w.selfDeviceId)
  kills : w.recordKills = w.recordHits
  states : w.wsGameStates = w.recordHits
  deaf : w.espnowPc ≠ .receive → received = []

section Ledger

variable {received : List PlayerMessage} {w : Weapon} (ledger : HitLedger received w)
include ledger

theorem HitLedger.deaf_step (deaf : w.espnowPc ≠ .receive) {w' : Weapon}
    (hits : w'.recordHits = w.recordHits) (kills : w'.recordKills = w.recordKills)
    (states : w'.wsGameStates = w.wsGameStates) : HitLedger received w' := by
  have none := ledger.deaf deaf
  refine ⟨?_, ?_, ?_, fun _ => none⟩
  · rw [hits, ledger.hits, none, List.countP_nil, List.countP_nil]
  · rw [kills, hits, ledger.kills]
  · rw [states, hits, ledger.states]

theorem HitLedger.receive (pc : w.espnowPc = .receive) (msg : PlayerMessage) (i : EspnowRead)
    (got : i.received = some msg) : HitLedger (msg :: received) (espnowStep w i) := by
  obtain ⟨hits, kills, states, -⟩ := ledger
  simp only [espnowStep, pc, got]
  by_cases confirmed : msg.type = .hitEvent ∧ msg.deviceId = w.selfDeviceId
  · rw [if_pos confirmed]
    refine ⟨?_, congrArg (· + 1) kills, congrArg (· + 1) states, fun deaf => absurd rfl deaf⟩
    simp only [List.countP_cons, confirms, confirmed, and_self, decide_true, if_true] at hits ⊢
    exact congrArg (· + 1) hits
  · rw [if_neg confirmed]
    refine ⟨?_, kills, states, fun deaf => absurd pc deaf⟩
    simp only [List.countP_cons, confirms, confirmed, decide_false, Bool.false_eq_true,
      if_false] at hits ⊢
    exact hits

theorem HitLedger.espnow (i : EspnowRead) :
    HitLedger (receivedMessage w (.espnow i) ++ received) (espnowStep w i) := by
  by_cases pc : w.espnowPc = .receive
  · rw [receivedMessage, if_pos pc]
    cases got : i.received with
    | none => simpa [espnowStep, pc, got] using ledger
    | some msg => exact ledger.receive pc msg i got
  · rw [receivedMessage, if_neg pc, List.nil_append]
    unfold espnowStep
    cases pc' : w.espnowPc with
    | receive => exact absurd pc' pc
    | _ => exact ledger.deaf_step pc rfl rfl rfl

theorem HitLedger.step (p : Protocol) (x : Label) :
    HitLedger (receivedMessage w x ++ received) (w.step p x) := by
  obtain ⟨hits, kills, states, deaf⟩ := id ledger
  cases x with
  | control i =>
    rw [Weapon.step, controlStep_frame]
    exact ⟨hits, kills, states, deaf⟩
  | laser =>
    rw [Weapon.step, laserStep_frame]
    exact ⟨hits, kills, states, deaf⟩
  | espnow i => exact ledger.espnow i
  | setConfig _ | setGameConfig _ | setRespawning _ => exact ⟨hits, kills, states, deaf⟩

end Ledger

theorem hitLedger_after (p : Protocol) {w : Weapon} (ledger : HitLedger [] w) (h : List Label) :
    HitLedger (w.received p h) (w.after p h) := by
  induction h with
  | nil => exact ledger
  | cons x h ih => exact ih.step p x

/-- What the task has received and counted, after finding WiFi up `joined` times and failing to start
ESP-NOW `failedInits` times. -/
structure HitsCounted (received : List PlayerMessage) (copiedId joined failedInits : Nat)
    (w : Weapon) : Prop where
  hits : w.recordHits = received.countP (confirms copiedId)
  kills : w.recordKills = received.countP (confirms copiedId)
  states : w.wsGameStates = received.countP (confirms copiedId)
  deaf : w.espnowPc ≠ .receive → received = []
  offline : joined = 0 → received = []
  failed : 0 < failedInits → received = []

theorem HitLedger.counted {p : Protocol} {w : Weapon} {h : List Label}
    (ledger : HitLedger (w.received p h) (w.after p h)) (start : w.espnowPc = .start) :
    HitsCounted (w.received p h) (w.copiedId p h) (w.joined p h) (w.failedInits p h)
      (w.after p h) := by
  have joining := joining_after p start h
  have hits : (w.after p h).recordHits =
      (w.received p h).countP (confirms (w.copiedId p h)) := by
    by_cases pc : (w.after p h).espnowPc = .receive
    · obtain ⟨s, latest, copy⟩ := selfDeviceId_after p start h (by rw [pc]; decide)
      rw [ledger.hits, Weapon.copiedId, latest, copy]
      rfl
    · rw [ledger.hits, ledger.deaf pc, List.countP_nil, List.countP_nil]
  constructor
  · exact hits
  · exact ledger.kills.trans hits
  · exact ledger.states.trans hits
  · exact ledger.deaf
  · intro none
    apply ledger.deaf
    rcases joining.offline none with pc | pc <;> simp [pc]
  · intro some
    exact ledger.deaf (by simp [joining.failed some])

theorem hitLedger_initial (config : DeviceConfig) (gcfg : GameConfig) (respawning : Bool) :
    HitLedger [] (.initial config gcfg respawning) :=
  ⟨rfl, rfl, rfl, fun _ => rfl⟩

theorem hits_counted (p : Protocol) (config : DeviceConfig) (gcfg : GameConfig) (respawning : Bool)
    (h : List Label) :
    HitsCounted ((Weapon.initial config gcfg respawning).received p h)
      ((Weapon.initial config gcfg respawning).copiedId p h)
      ((Weapon.initial config gcfg respawning).joined p h)
      ((Weapon.initial config gcfg respawning).failedInits p h)
      ((Weapon.initial config gcfg respawning).after p h) :=
  (hitLedger_after p (hitLedger_initial config gcfg respawning) h).counted rfl

end RayzWeapon.Tasks
