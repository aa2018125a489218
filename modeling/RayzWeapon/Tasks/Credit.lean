import RayzWeapon.Tasks.Weapon

namespace RayzWeapon.Tasks

open RayzWeapon.Lib

def stamps (w : Weapon) : Label → Bool
  | .control _ => match w.controlPc with
    | .build _ => true
    | _ => false
  | _ => false

def copies (w : Weapon) : Label → Bool
  | .espnow _ => w.espnowPc == .start
  | _ => false

section Credit

variable (p : Protocol) (w : Weapon)

/-- The step receives a confirmation with the id of the latest shot, and the configuration has not
changed since. -/
structure HitConfirmation (h : List Label) (x : Label) (msg : PlayerMessage) : Prop where
  receiving : (w.after p h).espnowPc = .receive
  received : ∃ i : EspnowRead, x = .espnow i ∧ i.received = some msg
  hitEvent : msg.type = .hitEvent
  sameId : ∃ s, Runs.latest (Weapon.step p) w stamps h = some s ∧ msg.deviceId = s.config.deviceId
  unchanged : Runs.KeptSince (Weapon.step p) w stamps Weapon.config h

def CreditLaw (h : List Label) (x : Label) : Prop :=
  ∀ msg, HitConfirmation p w h x msg →
    (w.after p (x :: h)).recordHits = (w.after p h).recordHits + 1 ∧
      (w.after p (x :: h)).recordKills = (w.after p h).recordKills + 1

/-- Such a confirmation carries the id the configuration had when the ESP-NOW task started. -/
def StartIdKept (h : List Label) (x : Label) : Prop :=
  ∀ msg, HitConfirmation p w h x msg →
    ∃ s, Runs.latest (Weapon.step p) w copies h = some s ∧ msg.deviceId = s.config.deviceId % 2 ^ 8

end Credit

theorem espnow_frame (p : Protocol) (w : Weapon) {x : Label} (other : ∀ i, x ≠ .espnow i) :
    (w.step p x).espnowPc = w.espnowPc ∧ (w.step p x).selfDeviceId = w.selfDeviceId := by
  cases x with
  | control i =>
    rw [Weapon.step, controlStep_frame]
    exact ⟨rfl, rfl⟩
  | laser =>
    rw [Weapon.step, laserStep_frame]
    exact ⟨rfl, rfl⟩
  | espnow i => exact absurd rfl (other i)
  | setConfig _ | setGameConfig _ | setRespawning _ => exact ⟨rfl, rfl⟩

theorem espnow_started {w : Weapon} (started : w.espnowPc ≠ .start) (i : EspnowRead) :
    (espnowStep w i).espnowPc ≠ .start ∧ (espnowStep w i).selfDeviceId = w.selfDeviceId := by
  unfold espnowStep
  cases pc : w.espnowPc with
  | start => exact absurd pc started
  | waitWifi => cases i.wifiConnected <;> simp
  | init => cases i.initOk <;> simp
  | receive =>
    cases i.received with
    | none => simp [pc]
    | some msg =>
      dsimp only
      split <;> simp [pc]
  | deleted => simp [pc]

theorem selfDeviceId_after (p : Protocol) {w : Weapon} (start : w.espnowPc = .start)
    (h : List Label) (started : (w.after p h).espnowPc ≠ .start) :
    ∃ s, Runs.latest (Weapon.step p) w copies h = some s ∧
      (w.after p h).selfDeviceId = s.config.deviceId % 2 ^ 8 := by
  induction h with
  | nil => exact absurd start started
  | cons x h ih =>
    simp only [Weapon.after, Runs.after_cons, Runs.latest] at ih started ⊢
    by_cases mine : ∃ i, x = .espnow i
    · obtain ⟨i, rfl⟩ := mine
      by_cases pc : (Runs.after (Weapon.step p) w h).espnowPc = .start
      · exact ⟨_, if_pos (by simp [copies, pc]), by simp [Weapon.step, espnowStep, pc]⟩
      · rw [if_neg (by simp [copies, pc])]
        obtain ⟨s, latest, copy⟩ := ih pc
        exact ⟨s, latest, (espnow_started pc i).2.trans copy⟩
    · have other (i : EspnowRead) : x ≠ .espnow i := fun eq => mine ⟨i, eq⟩
      have notCopy : copies (Runs.after (Weapon.step p) w h) x = false := by
        cases x with
        | espnow i => exact absurd rfl (other i)
        | _ => rfl
      obtain ⟨samePc, sameId⟩ := espnow_frame p (Runs.after (Weapon.step p) w h) other
      rw [samePc] at started
      rw [notCopy, sameId]
      exact ih started

theorem espnow_hitEvent {w : Weapon} (receiving : w.espnowPc = .receive) {i : EspnowRead}
    {msg : PlayerMessage} (received : i.received = some msg) (hitEvent : msg.type = .hitEvent) :
    espnowStep w i =
      if msg.deviceId = w.selfDeviceId then
        { w with
          recordHits := w.recordHits + 1
          recordKills := w.recordKills + 1
          wsGameStates := w.wsGameStates + 1 }
      else w := by
  simp [espnowStep, receiving, received, hitEvent]

theorem creditLaw_iff (p : Protocol) {w : Weapon} (start : w.espnowPc = .start) (h : List Label)
    (x : Label) : CreditLaw p w h x ↔ StartIdKept p w h x := by
  unfold CreditLaw StartIdKept
  apply forall_congr'
  intro msg
  apply imp_congr_right
  rintro ⟨receiving, ⟨i, rfl, received⟩, hitEvent, -, -⟩
  obtain ⟨s, latest, copy⟩ := selfDeviceId_after p start h (by rw [receiving]; decide)
  have sameCopy : (∃ s, Runs.latest (Weapon.step p) w copies h = some s ∧
      msg.deviceId = s.config.deviceId % 2 ^ 8) ↔ msg.deviceId = (w.after p h).selfDeviceId := by
    simp only [latest, Option.some.injEq, exists_eq_left', copy]
  have step : w.after p (.espnow i :: h) = _ := espnow_hitEvent receiving received hitEvent
  rw [sameCopy, step]
  by_cases sameId : msg.deviceId = (w.after p h).selfDeviceId
  · rw [if_pos sameId]
    exact ⟨fun _ => sameId, fun _ => ⟨rfl, rfl⟩⟩
  · rw [if_neg sameId]
    exact ⟨fun credited => absurd credited.1 (Nat.ne_add_one _), fun same => absurd same sameId⟩

theorem each_creditLaw_iff (p : Protocol) (config : DeviceConfig) (gcfg : GameConfig)
    (respawning : Bool) (h : List Label) :
    Runs.Each (CreditLaw p (.initial config gcfg respawning)) h ↔
      Runs.Each (StartIdKept p (.initial config gcfg respawning)) h := by
  have start : (Weapon.initial config gcfg respawning).espnowPc = .start := rfl
  simp only [Runs.Each, creditLaw_iff p start]

theorem confirmation_ignored_after_id_change :
    let w := Weapon.initial ⟨1, 1, 0, 0⟩ ⟨true, 0⟩ false
    let confirmation : PlayerMessage := ⟨.hitEvent, 1, 9, 2, 0, 0, 0, 0⟩
    let quiet : EspnowRead := ⟨true, true, none⟩
    let h : List Label :=
      .espnow ⟨true, true, some confirmation⟩ :: List.replicate 10 (.control ⟨0, 1000, true, true⟩) ++
        [.setConfig ⟨1, 2, 0, 0⟩, .espnow quiet, .espnow quiet, .espnow quiet]
    (w.after .packed h).recordHits = 0 ∧ ¬Runs.Each (CreditLaw .packed w) h := by
  intro w confirmation quiet h
  refine ⟨by decide, fun law => ?_⟩
  have credited := law _ _ (List.suffix_refl h) confirmation
    { receiving := by decide
      received := ⟨_, rfl, rfl⟩
      hitEvent := rfl
      sameId := ⟨_, rfl, rfl⟩
      unchanged := by decide }
  exact absurd credited.1 (by decide)

end RayzWeapon.Tasks
