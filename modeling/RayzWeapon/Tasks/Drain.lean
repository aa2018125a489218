import RayzWeapon.Tasks.Shots

namespace RayzWeapon.Tasks

open RayzWeapon.Lib

def LaserPc.left : LaserPc → Nat
  | .receive => 0
  | .bit _ i => i + 1

section Drain

variable (p : Protocol)

/-- A message costs a step to take, one for each bit and one to end it. -/
def Weapon.toEmit (w : Weapon) : Nat :=
  w.laserPc.left + w.laserMessageQueue.items.length * (p.messageTotalBits + 2)

def Weapon.laserWork (k : Nat) (w : Weapon) : Nat :=
  w.laserPc.left +
    (k - (w.emitted ++ w.laserPc.inFlight).length) * (p.messageTotalBits + 2)

def Label.isLaser : Label → Bool
  | .laser => true
  | _ => false

theorem accepted_step (w : Weapon) (x : Label) : w.accepted <+: (w.step p x).accepted := by
  rcases sends_step p w x with same | ⟨laserMsg, -, sent⟩
  · rw [Weapon.accepted, Weapon.accepted, same]
  · rw [Weapon.accepted, Weapon.accepted, sent, List.filter_append, List.map_append]
    exact List.prefix_append _ _

theorem accepted_after (w : Weapon) (h : List Label) : w.accepted <+: (w.after p h).accepted :=
  Runs.invariant (P := fun t : Weapon => w.accepted <+: t.accepted) (List.prefix_refl _)
    (fun t x kept => kept.trans (accepted_step p t x)) h

theorem emitted_quiet (w : Weapon) {x : Label} (other : x.isLaser = false) :
    (w.step p x).emitted = w.emitted ∧ (w.step p x).laserPc = w.laserPc := by
  cases x with
  | laser => cases other
  | control i =>
    rw [Weapon.step, controlStep_frame]
    exact ⟨rfl, rfl⟩
  | espnow i =>
    rw [Weapon.step, espnowStep_frame]
    exact ⟨rfl, rfl⟩
  | setConfig _ | setGameConfig _ | setRespawning _ => exact ⟨rfl, rfl⟩

theorem emitted_step (w : Weapon) (x : Label) : w.emitted.length ≤ (w.step p x).emitted.length := by
  cases laser : x.isLaser with
  | false => rw [(emitted_quiet p w laser).1]
  | true =>
    cases x with
    | laser =>
      simp only [Weapon.step, laserStep]
      cases pc : w.laserPc with
      | receive =>
        dsimp only
        split <;> exact Nat.le_refl _
      | bit message i => cases i <;> simp
    | _ => cases laser

variable {p} {w : Weapon} {k : Nat}

theorem ShotLedger.waiting_pos (ledger : ShotLedger w) (accepted : k ≤ w.accepted.length)
    (more : w.emitted.length < k) (idle : w.laserPc = .receive) :
    ∃ message queue, w.laserMessageQueue.receive = some (message, queue) := by
  have delivered := congrArg List.length ledger.delivered
  rw [idle, LaserPc.inFlight, List.append_nil, List.length_append] at delivered
  cases received : w.laserMessageQueue.receive with
  | none =>
    rw [Fifo.receive_eq_none received, List.length_nil] at delivered
    omega
  | some taken => exact ⟨taken.1, taken.2, rfl⟩

theorem laserWork_pos (more : w.emitted.length < k) : 0 < w.laserWork p k := by
  unfold Weapon.laserWork
  cases w.laserPc with
  | receive =>
    have pos : 0 < (k - w.emitted.length) * (p.messageTotalBits + 2) :=
      Nat.mul_pos (by omega) (by omega)
    simpa [LaserPc.left, LaserPc.inFlight] using pos
  | bit message i => exact Nat.lt_of_lt_of_le (Nat.succ_pos i) (Nat.le_add_right _ _)

theorem ShotLedger.laserWork_step (ledger : ShotLedger w) (accepted : k ≤ w.accepted.length)
    (more : w.emitted.length < k) : (laserStep p w).laserWork p k + 1 = w.laserWork p k := by
  unfold laserStep
  cases pc : w.laserPc with
  | receive =>
    obtain ⟨message, queue, received⟩ := ledger.waiting_pos accepted more pc
    obtain ⟨d, rfl⟩ := Nat.exists_eq_add_of_lt more
    have before : w.emitted.length + d + 1 - w.emitted.length = d + 1 := by omega
    have after : w.emitted.length + d + 1 - (w.emitted.length + 1) = d := by omega
    simp only [received, Weapon.laserWork, pc, LaserPc.left, LaserPc.inFlight, List.append_nil,
      List.length_append, List.length_singleton, before, after, Nat.succ_mul]
    omega
  | bit message i =>
    cases i with
    | zero =>
      simp only [Weapon.laserWork, pc, LaserPc.left, LaserPc.inFlight, List.append_nil]
      omega
    | succ i =>
      simp only [Weapon.laserWork, pc, LaserPc.left, LaserPc.inFlight]
      omega

theorem laserWork_quiet {x : Label} (other : x.isLaser = false) :
    (w.step p x).laserWork p k = w.laserWork p k := by
  obtain ⟨emitted, pc⟩ := emitted_quiet p w other
  rw [Weapon.laserWork, Weapon.laserWork, emitted, pc]

theorem ShotLedger.laserWork_eq (ledger : ShotLedger w) :
    w.laserWork p w.accepted.length = w.toEmit p := by
  have delivered := congrArg List.length ledger.delivered
  rw [List.length_append] at delivered
  rw [Weapon.laserWork, Weapon.toEmit, ← delivered, Nat.add_sub_cancel_left]

theorem ShotLedger.emits (ledger : ShotLedger w) {h : List Label}
    (enough : w.toEmit p ≤ h.countP Label.isLaser) :
    w.accepted.length ≤ (w.after p h).emitted.length := by
  by_contra late
  have more : w.emitted.length < w.accepted.length := by
    have grown : w.emitted.length ≤ (w.after p h).emitted.length :=
      Runs.invariant (P := fun t : Weapon => w.emitted.length ≤ t.emitted.length) (Nat.le_refl _)
        (fun t x kept => kept.trans (emitted_step p t x)) h
    omega
  apply late
  apply Runs.response (fun _ => True)
    (fun t => ShotLedger t ∧ w.accepted.length ≤ t.accepted.length)
    (fun t => w.accepted.length ≤ t.emitted.length) Label.isLaser
    fun t => t.laserWork p w.accepted.length - 1
  · rintro t x - ⟨ledger, accepted⟩
    exact ⟨ledger.step p x, accepted.trans (accepted_step p t x).length_le⟩
  · rintro t x - ⟨ledger, accepted⟩ before after
    have pos := laserWork_pos (p := p) (w := t.step p x) (Nat.lt_of_not_le after)
    cases laser : x.isLaser with
    | true =>
      obtain rfl : x = .laser := by
        cases x <;> first | rfl | cases laser
      have paid := ledger.laserWork_step (p := p) accepted (Nat.lt_of_not_le before)
      rw [Weapon.step] at pos ⊢
      rw [Bool.toNat_true]
      omega
    | false =>
      rw [laserWork_quiet laser]
      exact Nat.le_refl _
  · rintro t x - - done
    exact done.trans (emitted_step p t x)
  · exact ⟨ledger, Nat.le_refl _⟩
  · exact fun _ _ => trivial
  · have pos := laserWork_pos (p := p) more
    rw [ledger.laserWork_eq] at pos ⊢
    omega

theorem laser_drains (p : Protocol)
    (started : appMain gameStateInit queueCreated config gcfg respawning = some w)
    (later earlier : List Label)
    (enough : (w.after p earlier).toEmit p ≤ later.countP Label.isLaser) :
    (w.after p earlier).accepted <+: (w.after p (later ++ earlier)).emitted := by
  obtain rfl := appMain_eq_some started
  have initial := shotLedger_initial config gcfg respawning
  have before := shotLedger_after p initial earlier
  have split : Weapon.after p (.initial config gcfg respawning) (later ++ earlier) =
      (Weapon.after p (.initial config gcfg respawning) earlier).after p later :=
    Runs.after_append ..
  have out := before.emits enough
  have after := (shotLedger_after p before later).delivered
  rw [split]
  refine List.prefix_of_prefix_length_le (accepted_after p _ later) ?_ out
  rw [← after, List.append_assoc]
  exact List.prefix_append _ _

theorem laser_drains_one_shot :
    let w := Weapon.initial ⟨1, 7, 0, 0⟩ ⟨true, 0⟩ false
    let earlier := List.replicate 10 (Label.control ⟨0, 1000, false, true⟩)
    (w.after .packed earlier).toEmit .packed = 18 ∧ (w.after .packed earlier).accepted <+:
      (w.after .packed (List.replicate 18 .laser ++ earlier)).emitted :=
  have started : appMain true true ⟨1, 7, 0, 0⟩ ⟨true, 0⟩ false = some _ := rfl
  ⟨by decide, laser_drains .packed started _ _ (by decide)⟩

end Drain

end RayzWeapon.Tasks
