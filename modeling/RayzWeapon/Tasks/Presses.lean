import RayzWeapon.Tasks.Laser

namespace RayzWeapon.Tasks

open RayzWeapon.Lib

def sampledLevel (w : Weapon) : Label → List Bool
  | .control i => if w.controlPc = .sample then [isTriggerPressed i.level] else []
  | _ => []

def createdFrom (w : Weapon) : Label → List DeviceConfig
  | .control _ => if w.controlPc = .create then [w.config] else []
  | _ => []

def DeviceConfig.laserMessage (p : Protocol) (config : DeviceConfig) : UInt32 :=
  p.createLaserMessage config.playerId config.deviceId

def ControlPc.toFire : ControlPc → Nat
  | .create => 1
  | _ => 0

section Presses

variable (p : Protocol) (w : Weapon)

def Weapon.samples : List Label → List Bool
  | [] => []
  | x :: h => sampledLevel (w.after p h) x ++ Weapon.samples h

def Weapon.shots : List Label → List DeviceConfig
  | [] => []
  | x :: h => Weapon.shots h ++ createdFrom (w.after p h) x

end Presses

structure TriggerLedger (p : Protocol) (samples : List Bool) (shots : List DeviceConfig)
    (w : Weapon) : Prop where
  wasPressed : w.control.wasPressed = Edges.level samples
  presses : shots.length + w.controlPc.toFire = Edges.rising samples
  fired : w.fired = shots.map (DeviceConfig.laserMessage p)
  shotCounter : w.control.shotCounter.toNat = shots.length % 2 ^ 8
  messageCount : w.control.messageCount.toNat = shots.length % 2 ^ 16

theorem triggerLedger_initial (p : Protocol) (config : DeviceConfig) (gcfg : GameConfig)
    (respawning : Bool) : TriggerLedger p [] [] (.initial config gcfg respawning) :=
  ⟨rfl, rfl, rfl, rfl, rfl⟩

theorem controlStep_quiet (p : Protocol) {w : Weapon} (sample : w.controlPc ≠ .sample)
    (create : w.controlPc ≠ .create) (i : ControlRead) :
    (controlStep p w i).control = w.control ∧ (controlStep p w i).fired = w.fired ∧
      (controlStep p w i).controlPc.toFire = w.controlPc.toFire := by
  unfold controlStep
  cases pc : w.controlPc with
  | sample => exact absurd pc sample
  | create => exact absurd pc create
  | top | ammo => exact ⟨rfl, rfl, by dsimp only; split <;> rfl⟩
  | _ => exact ⟨rfl, rfl, rfl⟩

section Ledger

variable {p : Protocol} {samples : List Bool} {shots : List DeviceConfig} {w : Weapon}
  (ledger : TriggerLedger p samples shots w)
include ledger

theorem TriggerLedger.quiet {w' : Weapon} (control : w'.control = w.control)
    (fired : w'.fired = w.fired) (toFire : w'.controlPc.toFire = w.controlPc.toFire) :
    TriggerLedger p samples shots w' := by
  obtain ⟨wasPressed, presses, messages, shotCounter, messageCount⟩ := ledger
  constructor
  · rw [control, wasPressed]
  · rw [toFire, presses]
  · rw [fired, messages]
  · rw [control, shotCounter]
  · rw [control, messageCount]

theorem TriggerLedger.sample (pc : w.controlPc = .sample) (i : ControlRead) :
    TriggerLedger p (isTriggerPressed i.level :: samples) shots (controlStep p w i) := by
  obtain ⟨wasPressed, presses, messages, shotCounter, messageCount⟩ := ledger
  rw [pc] at presses
  have edge := Edges.rising_cons (isTriggerPressed i.level) samples
  rw [← presses, ← wasPressed] at edge
  unfold controlStep
  rw [pc]
  cases pressed : isTriggerPressed i.level with
  | false =>
    refine ⟨rfl, ?_, messages, shotCounter, messageCount⟩
    simpa [pressed, Edges.detect, ControlPc.toFire] using edge.symm
  | true =>
    cases held : w.control.wasPressed with
    | true =>
      refine ⟨held, ?_, messages, shotCounter, messageCount⟩
      simpa [pressed, held, Edges.detect, ControlPc.toFire] using edge.symm
    | false =>
      refine ⟨rfl, ?_, messages, shotCounter, messageCount⟩
      simpa [pressed, held, Edges.detect, ControlPc.toFire] using edge.symm

theorem TriggerLedger.create (pc : w.controlPc = .create) (i : ControlRead) :
    TriggerLedger p samples (shots ++ [w.config]) (controlStep p w i) := by
  obtain ⟨wasPressed, presses, messages, shotCounter, messageCount⟩ := ledger
  rw [pc] at presses
  unfold controlStep
  rw [pc]
  constructor
  · exact wasPressed
  · rw [← presses, List.length_append]
    rfl
  · rw [messages, List.map_append]
    rfl
  · simp [shotCounter]
  · simp [messageCount]

theorem TriggerLedger.step (x : Label) :
    TriggerLedger p (sampledLevel w x ++ samples) (shots ++ createdFrom w x) (w.step p x) := by
  cases x with
  | control i =>
    by_cases sample : w.controlPc = .sample
    · simpa [sampledLevel, createdFrom, sample, Weapon.step] using ledger.sample sample i
    · by_cases create : w.controlPc = .create
      · simpa [sampledLevel, createdFrom, create, Weapon.step] using ledger.create create i
      · rw [sampledLevel, createdFrom, if_neg sample, if_neg create, List.append_nil]
        obtain ⟨control, fired, toFire⟩ := controlStep_quiet p sample create i
        exact ledger.quiet control fired toFire
  | laser =>
    simp only [sampledLevel, createdFrom, List.nil_append, List.append_nil]
    rw [Weapon.step, laserStep_frame]
    exact ledger.quiet rfl rfl rfl
  | espnow i =>
    simp only [sampledLevel, createdFrom, List.nil_append, List.append_nil]
    rw [Weapon.step, espnowStep_frame]
    exact ledger.quiet rfl rfl rfl
  | setConfig _ | setGameConfig _ | setRespawning _ =>
    simp only [sampledLevel, createdFrom, List.nil_append, List.append_nil]
    exact ledger.quiet rfl rfl rfl

end Ledger

theorem triggerLedger_after (p : Protocol) {w : Weapon} (ledger : TriggerLedger p [] [] w)
    (h : List Label) : TriggerLedger p (w.samples p h) (w.shots p h) (w.after p h) := by
  induction h with
  | nil => exact ledger
  | cons x h ih => exact ih.step x

/-- Every press sampled is one shot, made from the configuration it found; the counters count shots
modulo their width. -/
structure PressesFire (p : Protocol) (samples : List Bool) (shots : List DeviceConfig)
    (w : Weapon) : Prop where
  presses : {B : Nat × Nat | Edges.Block samples.reverse B.1 B.2}.encard =
    (shots.length + w.controlPc.toFire : Nat)
  fired : w.fired = shots.map (DeviceConfig.laserMessage p)
  shotCounter : w.control.shotCounter.toNat = shots.length % 2 ^ 8
  messageCount : w.control.messageCount.toNat = shots.length % 2 ^ 16
  held : w.control.wasPressed = Edges.level samples

theorem TriggerLedger.fires {p : Protocol} {samples : List Bool} {shots : List DeviceConfig}
    {w : Weapon} (ledger : TriggerLedger p samples shots w) : PressesFire p samples shots w where
  presses := by rw [Edges.encard_block, ledger.presses]
  fired := ledger.fired
  shotCounter := ledger.shotCounter
  messageCount := ledger.messageCount
  held := ledger.wasPressed

theorem presses_fire (p : Protocol) (config : DeviceConfig) (gcfg : GameConfig) (respawning : Bool)
    (h : List Label) :
    PressesFire p ((Weapon.initial config gcfg respawning).samples p h)
      ((Weapon.initial config gcfg respawning).shots p h)
      ((Weapon.initial config gcfg respawning).after p h) :=
  (triggerLedger_after p (triggerLedger_initial p config gcfg respawning) h).fires

section Broadcasts

def builtFrom (w : Weapon) : Label → List (DeviceConfig × Nat)
  | .control i => match w.controlPc with
    | .build _ => [(w.config, i.timeUs)]
    | _ => []
  | _ => []

def Weapon.builds (p : Protocol) (w : Weapon) : List Label → List (DeviceConfig × Nat)
  | [] => []
  | x :: h => w.builds p h ++ builtFrom (w.after p h) x

def ControlPc.toBuild : ControlPc → List UInt32
  | .record laserMsg | .build laserMsg => [laserMsg]
  | _ => []

def ControlPc.built : ControlPc → List PlayerMessage
  | .broadcast _ shotMsg => [shotMsg]
  | _ => []

def shotOf (p : Protocol) (created : DeviceConfig) (built : DeviceConfig × Nat) : PlayerMessage :=
  shotMessage built.1 (created.laserMessage p) built.2

/-- A receiver that recomputes the data from the header finds what was sent. -/
def PlayerMessage.Coherent (p : Protocol) (msg : PlayerMessage) : Prop :=
  msg.data = p.createLaserMessage msg.playerId msg.deviceId

theorem shotOf_coherent (p : Protocol) (created : DeviceConfig) (built : DeviceConfig × Nat) :
    (shotOf p created built).Coherent p ↔ created.laserMessage p = built.1.laserMessage p := Iff.rfl

structure BroadcastLedger (p : Protocol) (done rest : List DeviceConfig)
    (builds : List (DeviceConfig × Nat)) (w : Weapon) : Prop where
  built : done.length = builds.length
  owed : rest.map (DeviceConfig.laserMessage p) = w.controlPc.toBuild
  said : w.broadcasts.map Prod.fst ++ w.controlPc.built = List.zipWith (shotOf p) done builds

section Ledger

variable {p : Protocol} {done rest : List DeviceConfig} {builds : List (DeviceConfig × Nat)}
  {w : Weapon} (ledger : BroadcastLedger p done rest builds w)
include ledger

theorem BroadcastLedger.quiet {w' : Weapon} (toBuild : w'.controlPc.toBuild = w.controlPc.toBuild)
    (said : w'.broadcasts.map Prod.fst ++ w'.controlPc.built =
      w.broadcasts.map Prod.fst ++ w.controlPc.built) : BroadcastLedger p done rest builds w' where
  built := ledger.built
  owed := by rw [toBuild, ledger.owed]
  said := by rw [said, ledger.said]

theorem BroadcastLedger.create (pc : w.controlPc = .create) (i : ControlRead) :
    BroadcastLedger p done (rest ++ [w.config]) builds (controlStep p w i) := by
  obtain ⟨built, owed, said⟩ := ledger
  rw [pc] at owed said
  unfold controlStep
  rw [pc]
  refine ⟨built, ?_, said⟩
  rw [List.map_append, owed]
  rfl

theorem BroadcastLedger.build {laserMsg : UInt32} (pc : w.controlPc = .build laserMsg)
    (i : ControlRead) :
    BroadcastLedger p (done ++ rest) [] (builds ++ [(w.config, i.timeUs)]) (controlStep p w i) := by
  obtain ⟨built, owed, said⟩ := ledger
  rw [pc] at owed said
  -- The one shot that was owed is built now.
  obtain ⟨created, rfl, rfl⟩ : ∃ created, rest = [created] ∧ created.laserMessage p = laserMsg := by
    simpa [ControlPc.toBuild, List.map_eq_singleton_iff] using owed
  unfold controlStep
  rw [pc]
  refine ⟨by simp [built], rfl, ?_⟩
  rw [List.zipWith_append built, ← said]
  simp [ControlPc.built, shotOf]

theorem BroadcastLedger.other (i : ControlRead) (create : w.controlPc ≠ .create)
    (build : ∀ laserMsg, w.controlPc ≠ .build laserMsg) :
    BroadcastLedger p done rest builds (controlStep p w i) := by
  unfold controlStep
  cases pc : w.controlPc with
  | create => exact absurd pc create
  | build laserMsg => exact absurd pc (build laserMsg)
  | top | ammo => apply ledger.quiet <;> dsimp only <;> rw [pc] <;> split <;> rfl
  | sample =>
    dsimp only
    split
    · exact ledger.quiet (by rw [pc]; rfl) (by rw [pc]; rfl)
    · split <;> exact ledger.quiet (by rw [pc]; rfl) (by rw [pc]; rfl)
  | broadcast laserMsg shotMsg =>
    exact ledger.quiet (by rw [pc]; rfl) (by simp [pc, ControlPc.built])
  | _ => exact ledger.quiet (by rw [pc]; rfl) (by rw [pc]; rfl)

theorem BroadcastLedger.step (x : Label) :
    ∃ done' rest', done' ++ rest' = done ++ rest ++ createdFrom w x ∧
      BroadcastLedger p done' rest' (builds ++ builtFrom w x) (w.step p x) := by
  cases x with
  | control i =>
    by_cases create : w.controlPc = .create
    · refine ⟨done, rest ++ [w.config], ?_, ?_⟩
      · rw [createdFrom, if_pos create, List.append_assoc]
      · simpa [builtFrom, create, Weapon.step] using ledger.create create i
    by_cases build : ∃ laserMsg, w.controlPc = .build laserMsg
    · obtain ⟨laserMsg, build⟩ := build
      refine ⟨done ++ rest, [], ?_, ?_⟩
      · rw [createdFrom, if_neg create]
      · simpa [builtFrom, build, Weapon.step] using ledger.build build i
    · simp only [not_exists] at build
      refine ⟨done, rest, ?_, ?_⟩
      · rw [createdFrom, if_neg create, List.append_nil]
      · have none : builtFrom w (.control i) = [] := by
          unfold builtFrom
          dsimp only
          split
          next laserMsg pc => exact absurd pc (build laserMsg)
          next => rfl
        rw [none, List.append_nil]
        exact ledger.other i create build
  | laser =>
    refine ⟨done, rest, by simp [createdFrom], ?_⟩
    simp only [builtFrom, List.append_nil]
    rw [Weapon.step, laserStep_frame]
    exact ledger.quiet rfl rfl
  | espnow i =>
    refine ⟨done, rest, by simp [createdFrom], ?_⟩
    simp only [builtFrom, List.append_nil]
    rw [Weapon.step, espnowStep_frame]
    exact ledger.quiet rfl rfl
  | setConfig _ | setGameConfig _ | setRespawning _ =>
    refine ⟨done, rest, by simp [createdFrom], ?_⟩
    simp only [builtFrom, List.append_nil]
    exact ledger.quiet rfl rfl

end Ledger

theorem broadcastLedger_after (p : Protocol) {w : Weapon} (ledger : BroadcastLedger p [] [] [] w)
    (h : List Label) :
    ∃ done rest, done ++ rest = w.shots p h ∧
      BroadcastLedger p done rest (w.builds p h) (w.after p h) := by
  induction h with
  | nil => exact ⟨[], [], rfl, ledger⟩
  | cons x h ih =>
    obtain ⟨done, rest, split, ledger⟩ := ih
    obtain ⟨done', rest', split', ledger'⟩ := ledger.step x
    exact ⟨done', rest', by rw [split', split]; rfl, ledger'⟩

theorem zipWith_shotOf {p : Protocol} {done rest : List DeviceConfig}
    {builds : List (DeviceConfig × Nat)} (built : done.length = builds.length) :
    List.zipWith (shotOf p) (done ++ rest) builds = List.zipWith (shotOf p) done builds := by
  have split : List.zipWith (shotOf p) (done ++ rest) (builds ++ []) =
      List.zipWith (shotOf p) done builds ++ List.zipWith (shotOf p) rest [] :=
    List.zipWith_append built
  rwa [List.append_nil, List.zipWith_nil_right, List.append_nil] at split

/-- Each broadcast is stamped with the configuration in force when it was built, and carries the
laser message of the one in force when its shot was created. -/
structure BroadcastsSay (p : Protocol) (shots : List DeviceConfig)
    (builds : List (DeviceConfig × Nat)) (w : Weapon) : Prop where
  said : w.broadcasts.map Prod.fst ++ w.controlPc.built = List.zipWith (shotOf p) shots builds
  owed : shots.length = builds.length + w.controlPc.toBuild.length
  coherent : ∀ (n : Nat) (shotMsg : PlayerMessage),
    (w.broadcasts.map Prod.fst)[n]? = some shotMsg →
    (shotMsg.Coherent p ↔ ∃ (created : DeviceConfig) (built : DeviceConfig × Nat),
      shots[n]? = some created ∧ builds[n]? = some built ∧
        created.laserMessage p = built.1.laserMessage p)

theorem BroadcastLedger.says {p : Protocol} {done rest : List DeviceConfig}
    {builds : List (DeviceConfig × Nat)} {w : Weapon}
    (ledger : BroadcastLedger p done rest builds w) : BroadcastsSay p (done ++ rest) builds w where
  said := by rw [ledger.said, zipWith_shotOf ledger.built]
  owed := by
    have owed := congrArg List.length ledger.owed
    rw [List.length_map] at owed
    rw [List.length_append, ledger.built, owed]
  coherent := by
    intro n shotMsg said
    have inside : (w.broadcasts.map Prod.fst ++ w.controlPc.built)[n]? = some shotMsg := by
      obtain ⟨lt, -⟩ := List.getElem?_eq_some_iff.mp said
      rw [List.getElem?_append_left lt, said]
    have extended : List.zipWith (shotOf p) (done ++ rest) builds = _ := zipWith_shotOf ledger.built
    rw [ledger.said, ← extended, List.getElem?_zipWith_eq_some] at inside
    obtain ⟨created, built, hc, hb, rfl⟩ := inside
    simp [shotOf_coherent, hc, hb]

theorem broadcasts_say (p : Protocol) (config : DeviceConfig) (gcfg : GameConfig)
    (respawning : Bool) (h : List Label) :
    BroadcastsSay p ((Weapon.initial config gcfg respawning).shots p h)
      ((Weapon.initial config gcfg respawning).builds p h)
      ((Weapon.initial config gcfg respawning).after p h) := by
  have initial : BroadcastLedger p [] [] [] (.initial config gcfg respawning) := ⟨rfl, rfl, rfl⟩
  obtain ⟨done, rest, split, ledger⟩ := broadcastLedger_after p initial h
  rw [← split]
  exact ledger.says

end Broadcasts

end RayzWeapon.Tasks
