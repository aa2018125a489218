import RayzWeapon.Lib.Bits
import RayzWeapon.Tasks.Shots

namespace RayzWeapon.Tasks

open RayzWeapon.Lib

structure Laser where
  pc : LaserPc
  pin : Bool
  held : List Bool
  emitted : List UInt32

def Laser.initial (pin : Bool) : Laser := ⟨.receive, pin, [], []⟩

/-- One step of the task; `received` is what its queue would give it. -/
def Laser.step (p : Protocol) (l : Laser) (received : Option UInt32) : Laser :=
  match l.pc with
  | .receive =>
    match received with
    | none => l
    | some message => { l with pc := .bit message p.messageTotalBits }
  | .bit message (i + 1) =>
    { pc := .bit message i
      pin := messageBit message i
      held := l.held ++ [messageBit message i]
      emitted := l.emitted }
  | .bit message 0 =>
    { l with pc := .receive, pin := false, emitted := l.emitted ++ [message] }

def Laser.after (p : Protocol) (l : Laser) (h : List (Option UInt32)) : Laser :=
  Runs.after (Laser.step p) l h

def Laser.takes (l : Laser) (received : Option UInt32) : List UInt32 :=
  match l.pc with
  | .receive => received.toList
  | .bit _ _ => []

def Laser.consumed (p : Protocol) (l : Laser) : List (Option UInt32) → List UInt32
  | [] => []
  | received :: h => l.consumed p h ++ (l.after p h).takes received

def messageBits (message : UInt32) : Nat → List Bool
  | 0 => []
  | i + 1 => messageBit message i :: messageBits message i

def LaserPc.owed : LaserPc → List Bool
  | .receive => []
  | .bit message i => messageBits message i

structure LaserLedger (p : Protocol) (messages : List UInt32) (l : Laser) : Prop where
  held : l.held ++ l.pc.owed = messages.flatMap (messageBits · p.messageTotalBits)
  emitted : l.emitted ++ l.pc.inFlight = messages
  low : l.pc = .receive → l.emitted ≠ [] → l.pin = false

theorem laserLedger_initial (p : Protocol) (pin : Bool) : LaserLedger p [] (.initial pin) where
  held := rfl
  emitted := rfl
  low _ started := absurd rfl started

theorem LaserLedger.step {p : Protocol} {messages : List UInt32} {l : Laser}
    (ledger : LaserLedger p messages l) (received : Option UInt32) :
    LaserLedger p (messages ++ l.takes received) (l.step p received) := by
  have ⟨held, emitted, low⟩ := ledger
  unfold Laser.step Laser.takes
  cases pc : l.pc with
  | receive =>
    cases received with
    | none => simpa using ledger
    | some message =>
      simp only [pc, LaserPc.owed, LaserPc.inFlight, List.append_nil] at held emitted
      constructor
      · simp [LaserPc.owed, held]
      · simp [LaserPc.inFlight, emitted]
      · simp
  | bit message i =>
    simp only [pc, LaserPc.owed, LaserPc.inFlight] at held emitted
    cases i with
    | zero =>
      constructor
      · simpa [LaserPc.owed, messageBits] using held
      · simpa [LaserPc.inFlight] using emitted
      · exact fun _ _ => rfl
    | succ i =>
      constructor
      · simpa [LaserPc.owed, messageBits] using held
      · simpa [LaserPc.inFlight] using emitted
      · simp

theorem laserLedger_after {p : Protocol} {l : Laser} (ledger : LaserLedger p [] l)
    (h : List (Option UInt32)) : LaserLedger p (l.consumed p h) (l.after p h) := by
  induction h with
  | nil => exact ledger
  | cons received h ih => exact ih.step received

theorem messageBit_eq_testBit {i : Nat} (inside : i < 32) (message : UInt32) :
    messageBit message i = message.toNat.testBit i := by
  have shift : (UInt32.ofNat i).toNat % 32 = i := by
    rw [UInt32.toNat_ofNat']
    omega
  rw [Nat.testBit_eq_decide_div_mod_eq, ← Nat.shiftRight_eq_div_pow, ← Nat.and_one_is_mod,
    Bool.eq_iff_iff, messageBit, beq_iff_eq, decide_eq_true_iff, ← UInt32.toNat_inj,
    UInt32.toNat_and, UInt32.toNat_shiftRight, shift]
  rfl

theorem messageBits_eq_bits {n : Nat} (upper : n ≤ 32) (message : UInt32) :
    messageBits message n = Bits.bits n message.toNat := by
  induction n with
  | zero => rfl
  | succ n ih =>
    rw [messageBits, Bits.bits, messageBit_eq_testBit upper, ih (Nat.le_of_succ_le upper)]

theorem flatMap_messageBits {n : Nat} (upper : n ≤ 32) (messages : List UInt32) :
    messages.flatMap (messageBits · n) = Bits.encode n (messages.map UInt32.toNat) := by
  simp only [messageBits_eq_bits upper, Bits.encode, List.flatMap_map]

theorem LaserLedger.waiting {p : Protocol} {messages : List UInt32} {l : Laser}
    (ledger : LaserLedger p messages l) (upper : p.messageTotalBits ≤ 32)
    (waiting : l.pc = .receive) :
    l.emitted = messages ∧
      l.held = Bits.encode p.messageTotalBits (messages.map UInt32.toNat) := by
  have ⟨held, emitted, _⟩ := ledger
  rw [waiting] at held emitted
  constructor
  · simpa [LaserPc.inFlight] using emitted
  · rw [← flatMap_messageBits upper]
    simpa [LaserPc.owed] using held

section Runs

variable (p : Protocol)

theorem Laser.after_append (l : Laser) (h k : List (Option UInt32)) :
    l.after p (h ++ k) = (l.after p k).after p h := Runs.after_append ..

end Runs

structure Laser.Sends (p : Protocol) (pin : Bool) (messages : List UInt32)
    (h : List (Option UInt32)) : Prop where
  waiting : ((Laser.initial pin).after p h).pc = .receive
  consumed : (Laser.initial pin).consumed p h = messages

theorem Laser.Sends.held {p : Protocol} {pin : Bool} {messages : List UInt32}
    {h : List (Option UInt32)} (sends : Laser.Sends p pin messages h)
    (upper : p.messageTotalBits ≤ 32) :
    ((Laser.initial pin).after p h).held =
      Bits.encode p.messageTotalBits (messages.map UInt32.toNat) := by
  obtain ⟨waiting, rfl⟩ := sends
  exact ((laserLedger_after (laserLedger_initial p pin) h).waiting upper waiting).2

theorem Laser.Sends.low {p : Protocol} {pin : Bool} {messages : List UInt32}
    {h : List (Option UInt32)} (sends : Laser.Sends p pin messages h) (sent : messages ≠ []) :
    ((Laser.initial pin).after p h).pin = false := by
  obtain ⟨waiting, rfl⟩ := sends
  have ⟨_, emitted, low⟩ := laserLedger_after (laserLedger_initial p pin) h
  apply low waiting
  rw [waiting, LaserPc.inFlight, List.append_nil] at emitted
  rwa [emitted]

section Weapon

variable (p : Protocol)

def Weapon.laser (w : Weapon) : Laser := ⟨w.laserPc, w.laserPin, w.held, w.emitted⟩

theorem laser_laserStep (w : Weapon) :
    (laserStep p w).laser = w.laser.step p (w.laserMessageQueue.receive.map Prod.fst) := by
  simp only [laserStep, Laser.step, Weapon.laser]
  cases pc : w.laserPc with
  | receive =>
    dsimp only
    split <;> simp [*]
  | bit message i => cases i <;> rfl

theorem laser_step (w : Weapon) (x : Label) :
    (w.step p x).laser = w.laser ∨ ∃ received, (w.step p x).laser = w.laser.step p received := by
  cases x with
  | laser => exact .inr ⟨_, laser_laserStep p w⟩
  | control i =>
    rw [Weapon.step, controlStep_frame]
    exact .inl rfl
  | espnow i =>
    rw [Weapon.step, espnowStep_frame]
    exact .inl rfl
  | setConfig _ | setGameConfig _ | setRespawning _ => exact .inl rfl

theorem laser_after (w : Weapon) (h : List Label) :
    ∃ k, (w.after p h).laser = w.laser.after p k :=
  Runs.simulation (laser_step p) w h

/-- The levels held on the pin are the bits of the messages emitted and those done of the one in
flight. -/
def Weapon.OnPin (w : Weapon) : Prop :=
  w.held ++ w.laserPc.owed =
    (w.emitted ++ w.laserPc.inFlight).flatMap (messageBits · p.messageTotalBits)

theorem onPin_after {w : Weapon}
    (started : appMain gameStateInit queueCreated config gcfg respawning = some w)
    (h : List Label) : (w.after p h).OnPin p := by
  obtain rfl := appMain_eq_some started
  obtain ⟨k, eq⟩ := laser_after p (.initial config gcfg respawning) h
  have ⟨held, emitted, _⟩ := laserLedger_after (laserLedger_initial p false) k
  change ((Weapon.initial config gcfg respawning).after p h).laser.held ++
      ((Weapon.initial config gcfg respawning).after p h).laser.pc.owed =
    (((Weapon.initial config gcfg respawning).after p h).laser.emitted ++
      ((Weapon.initial config gcfg respawning).after p h).laser.pc.inFlight).flatMap
      (messageBits · p.messageTotalBits)
  rw [eq]
  exact held.trans (congrArg _ emitted.symm)

theorem shots_conserved {w : Weapon}
    (started : appMain gameStateInit queueCreated config gcfg respawning = some w) (h : List Label)
    (outside : (w.after p h).controlPc.inShotBlock = false) :
    ShotsConserved (w.after p h) ∧ Runs.Each (FailsOnlyFull p w) h ∧ (w.after p h).OnPin p := by
  have onPin := onPin_after p started h
  obtain rfl := appMain_eq_some started
  have ledger := shotLedger_after p (shotLedger_initial config gcfg respawning) h
  exact ⟨ledger.conserved outside, fun x k _ => failsOnlyFull p _ k x, onPin⟩

theorem shots_conserved_first_shot :
    let w := Weapon.initial ⟨1, 7, 0, 0⟩ ⟨true, 0⟩ false
    let h := [.laser, .laser] ++ List.replicate 10 (.control ⟨0, 1000, false, true⟩)
    (w.after .packed h).fired = [0x0107] ∧ ShotsConserved (w.after .packed h) ∧
      Runs.Each (FailsOnlyFull .packed w) h ∧ (w.after .packed h).OnPin .packed :=
  have started : appMain true true ⟨1, 7, 0, 0⟩ ⟨true, 0⟩ false = some _ := rfl
  ⟨by decide, shots_conserved .packed started _ (by decide)⟩

end Weapon

end RayzWeapon.Tasks
