import RayzWeapon.Display.Defs
import Mathlib.Data.Nat.Digits.Defs

universe u

namespace RayzWeapon.Display

open RayzWeapon.Lib

variable {W : Type u}

def DmState.IsOverlay (st : DmState) : Prop := st = .overlayHit ∨ st = .overlayMsg

instance (st : DmState) : Decidable st.IsOverlay := inferInstanceAs (Decidable (_ ∨ _))

@[simp] theorem DmState.isOverlay_overlayHit : DmState.IsOverlay .overlayHit := .inl rfl

@[simp] theorem DmState.isOverlay_overlayMsg : DmState.IsOverlay .overlayMsg := .inr rfl

@[simp] theorem DmState.not_isOverlay_boot : ¬DmState.IsOverlay .boot := by decide

@[simp] theorem DmState.not_isOverlay_debug : ¬DmState.IsOverlay .debug := by decide

@[simp] theorem DmState.not_isOverlay_error : ¬DmState.IsOverlay .error := by decide

def errorPage (errorCode : UInt32) : Rows :=
  ⟨"ERROR".toList, "C:".toList ++ formatLu errorCode, "Fix & reboot".toList⟩

theorem length_formatLu (n : UInt32) : (formatLu n).length ≤ 10 := by
  apply Nat.toDigits_length 10 n.toNat 10 (by decide)
  have bound := n.toNat_lt
  omega

theorem snprintf_errorCode (n : UInt32) :
    snprintf rowSize ("C:".toList ++ formatLu n) = "C:".toList ++ formatLu n := by
  apply List.take_of_length_le
  have bound := length_formatLu n
  simp only [List.length_append, rowSize]
  have prefixLength : "C:".toList.length = 2 := rfl
  omega

@[simp] theorem renderError_eq (dm : Dm W) :
    renderError dm = { dm with rows := errorPage dm.errorCode } := by
  simp only [renderError, setRows, snprintf_errorCode]
  rfl

@[simp] theorem handleEvent_errorSet (dm : Dm W) (errorCode : UInt32) (r : Reading W) :
    handleEvent dm (.errorSet errorCode) r =
      { dm with errorCode, state := .error, stateUntilMs := 0, rows := errorPage errorCode } := by
  simp [handleEvent, enterState]

@[simp] theorem handleEvent_errorClear (dm : Dm W) (r : Reading W) :
    handleEvent dm .errorClear r =
      { dm with errorCode := 0, state := .debug, stateUntilMs := 0 } := rfl

@[simp] theorem handleEvent_hit (dm : Dm W) (r : Reading W) :
    handleEvent dm .hit r =
      { dm with
        returnState := dm.state
        state := .overlayHit
        stateUntilMs := nowMs dm r + 600
        overlay := ⟨"HIT!".toList, false⟩ } := rfl

@[simp] theorem handleEvent_msg (dm : Dm W) (text : Text) (r : Reading W) :
    handleEvent dm (.msg text) r =
      { dm with
        returnState := dm.state
        state := .overlayMsg
        stateUntilMs := nowMs dm r + 800
        overlay := ⟨text, false⟩ } := rfl

@[simp] theorem handleEvent_other (dm : Dm W) (type : Nat) (r : Reading W) :
    handleEvent dm (.other type) r = dm := rfl

/-- Everything the deadline check can do. -/
inductive Checked (dm : Dm W) (t : UInt32) : Dm W → Prop
  | waiting : ¬Due dm t → Checked dm t dm
  | overlay : Due dm t → dm.state.IsOverlay → Checked dm t
      { dm with
        state := if dm.returnState = .error then .error else .debug
        stateUntilMs := 0
        overlay := { dm.overlay with hidden := true } }
  | boot : Due dm t → dm.state = .boot → Checked dm t { dm with state := .debug, stateUntilMs := 0 }
  | stale : Due dm t → dm.state = .debug ∨ dm.state = .error →
      Checked dm t { dm with stateUntilMs := 0 }

theorem checkDeadline_checked (dm : Dm W) (t : UInt32) (r : Reading W) :
    Checked dm t (checkDeadline dm t r) := by
  unfold checkDeadline
  split
  next due =>
    split
    next overlay => exact .overlay due overlay
    next notOverlay =>
      split
      next boot => exact .boot due boot
      next notBoot =>
        refine .stale due ?_
        cases h : dm.state <;> simp_all
  next notDue => exact .waiting notDue

@[simp] theorem renderDebug_rows (dm : Dm W) (page : UInt8) (slow : Bool) (r : Reading W) :
    renderDebug dm page slow r = { dm with rows := (renderDebug dm page slow r).rows } := by
  unfold renderDebug
  dsimp only
  split
  · rfl
  · split <;> rfl

theorem redraw_frame (dm : Dm W) (t : UInt32) (r : Reading W) :
    redraw dm t r =
      { dm with
        lastSlowMs := (redraw dm t r).lastSlowMs
        lastFastMs := (redraw dm t r).lastFastMs
        rows := (redraw dm t r).rows
        overlay := (redraw dm t r).overlay
        on := (redraw dm t r).on } := by
  unfold redraw
  dsimp only
  split
  next => split <;> simp
  next =>
    split <;> split
    all_goals first | rfl | (rw [renderDebug_rows])
  next => split <;> rfl
  next => rfl

section Redraw

variable (dm : Dm W) (t : UInt32) (r : Reading W)

@[simp] theorem redraw_src : (redraw dm t r).src = dm.src := by rw [redraw_frame]

@[simp] theorem redraw_state : (redraw dm t r).state = dm.state := by rw [redraw_frame]

@[simp] theorem redraw_returnState : (redraw dm t r).returnState = dm.returnState := by
  rw [redraw_frame]

@[simp] theorem redraw_stateUntilMs : (redraw dm t r).stateUntilMs = dm.stateUntilMs := by
  rw [redraw_frame]

@[simp] theorem redraw_errorCode : (redraw dm t r).errorCode = dm.errorCode := by rw [redraw_frame]

variable {dm}

theorem redraw_rows_error (error : dm.state = .error) (page : dm.rows = errorPage dm.errorCode) :
    (redraw dm t r).rows = errorPage dm.errorCode := by
  unfold redraw
  rw [error]
  dsimp only
  split
  · simp
  · exact page

theorem redraw_rows_overlay (overlay : dm.state.IsOverlay) : (redraw dm t r).rows = dm.rows := by
  unfold redraw
  rcases overlay with hit | msg
  · rw [hit]
    dsimp only
    split <;> rfl
  · rw [msg]

theorem redraw_overlay (notHit : dm.state ≠ .overlayHit) :
    (redraw dm t r).overlay = dm.overlay := by
  unfold redraw
  dsimp only
  split
  next => split <;> simp
  next =>
    split <;> split
    all_goals first | rfl | rw [renderDebug_rows]
  next hit => exact absurd hit notHit
  next => rfl

end Redraw

def Dm.expiresInto (dm : Dm W) : DmState :=
  match dm.state with
  | .overlayHit | .overlayMsg => if dm.returnState = .error then .error else .debug
  | .boot => .debug
  | st => st

theorem Dm.expiresInto_overlay {dm : Dm W} (overlay : dm.state.IsOverlay) :
    dm.expiresInto = if dm.returnState = .error then .error else .debug := by
  rcases overlay with hit | msg <;> simp [Dm.expiresInto, *]

theorem Dm.expiresInto_error {dm : Dm W} (error : dm.state = .error) :
    dm.expiresInto = .error := by simp [Dm.expiresInto, error]

theorem Dm.not_isOverlay_expiresInto (dm : Dm W) : ¬dm.expiresInto.IsOverlay := by
  cases hst : dm.state <;> simp [Dm.expiresInto, hst] <;> split <;> simp

section Iteration

variable (dm : Dm W) (r : Reading W)

theorem iteration_checked :
    ∃ dm', Checked dm (nowMs dm r) dm' ∧ iteration dm r = redraw dm' (nowMs dm r) r :=
  ⟨_, checkDeadline_checked dm (nowMs dm r) r, rfl⟩

theorem iteration_state :
    (iteration dm r).state = if Due dm (nowMs dm r) then dm.expiresInto else dm.state := by
  obtain ⟨dm', checked, eq⟩ := iteration_checked dm r
  rw [eq, redraw_state]
  cases checked with
  | waiting notDue => rw [if_neg notDue]
  | overlay due overlay => rw [if_pos due, Dm.expiresInto_overlay overlay]
  | boot due boot => simp [Dm.expiresInto, *]
  | stale due rest =>
    rw [if_pos due]
    rcases rest with debug | error <;> simp [Dm.expiresInto, *]

@[simp] theorem iteration_returnState : (iteration dm r).returnState = dm.returnState := by
  obtain ⟨dm', checked, eq⟩ := iteration_checked dm r
  rw [eq, redraw_returnState]
  cases checked <;> rfl

@[simp] theorem iteration_errorCode : (iteration dm r).errorCode = dm.errorCode := by
  obtain ⟨dm', checked, eq⟩ := iteration_checked dm r
  rw [eq, redraw_errorCode]
  cases checked <;> rfl

theorem iteration_stateUntilMs :
    (iteration dm r).stateUntilMs = if Due dm (nowMs dm r) then 0 else dm.stateUntilMs := by
  obtain ⟨dm', checked, eq⟩ := iteration_checked dm r
  rw [eq, redraw_stateUntilMs]
  cases checked <;> simp [*]

@[simp] theorem iteration_src : (iteration dm r).src = dm.src := by
  obtain ⟨dm', checked, eq⟩ := iteration_checked dm r
  rw [eq, redraw_src]
  cases checked <;> rfl

end Iteration

@[simp] theorem step_src (dm : Dm W) (x : Step W) : (step dm x).src = dm.src := by
  cases x with
  | event e r => cases e <;> simp [step]
  | iteration r => simp [step]

theorem Dm.after_src (dm : Dm W) (k : List (Step W)) : (dm.after k).src = dm.src :=
  Runs.invariant (P := fun dm' => dm'.src = dm.src) rfl
    (fun dm' x same => (step_src dm' x).trans same) k

/-- A successful call of `display_manager_init`, from whatever the statics held before. -/
structure Boot (W : Type u) where
  before : Dm W
  disp : Bool
  sources : Option (DmSources W)
  queue : Bool
  reading : Reading W
  dm : Dm W
  success : displayManagerInit before disp sources queue reading = (true, dm)

def zeroDm : Dm W :=
  { src := ⟨none, none, none, none, none, none, none, none, none, none⟩
    state := .boot
    returnState := .boot
    stateUntilMs := 0
    lastSlowMs := 0
    lastFastMs := 0
    errorCode := 0
    rows := ⟨[], [], []⟩
    overlay := ⟨[], false⟩
    on := false }

def Boot.bare (t : UInt32) : Boot Unit where
  before := zeroDm
  disp := true
  sources := some zeroDm.src
  queue := true
  reading := ⟨t, ()⟩
  dm := (displayManagerInit zeroDm true (some zeroDm.src) true ⟨t, ()⟩).2
  success := rfl

theorem Boot.spec (b : Boot W) :
    ∃ src, b.sources = some src ∧
      b.dm = { b.before with
        src
        state := .boot
        stateUntilMs := nowMs b.dm b.reading + 800
        rows := ⟨"RayZ".toList, "BOOT".toList, []⟩
        overlay := { b.before.overlay with hidden := true } } := by
  obtain ⟨before, disp, sources, queue, reading, dm, success⟩ := b
  unfold displayManagerInit at success
  split at success
  next src =>
    dsimp only at success
    split at success
    next =>
      obtain ⟨-, rfl⟩ := Prod.mk.inj success
      refine ⟨src, rfl, ?_⟩
      simp only [enterState, setRows, uiInit, overlayHide, nowMs]
      simp
    next => cases success
  next => cases success

@[simp] theorem Boot.state (b : Boot W) : b.dm.state = .boot := by
  obtain ⟨src, -, eq⟩ := b.spec
  rw [eq]

@[simp] theorem Boot.overlay_hidden (b : Boot W) : b.dm.overlay.hidden = true := by
  obtain ⟨src, -, eq⟩ := b.spec
  rw [eq]

theorem Boot.stateUntilMs (b : Boot W) : b.dm.stateUntilMs = nowMs b.dm b.reading + 800 := by
  obtain ⟨src, -, eq⟩ := b.spec
  have deadline := congrArg Dm.stateUntilMs eq
  dsimp only at deadline
  exact deadline

def Boot.after (b : Boot W) (h : List (Step W)) : Dm W := b.dm.after h

@[simp] theorem Boot.after_nil (b : Boot W) : b.after [] = b.dm := rfl

@[simp] theorem Boot.after_cons (b : Boot W) (x : Step W) (h : List (Step W)) :
    b.after (x :: h) = step (b.after h) x := rfl

@[simp] theorem Boot.after_src (b : Boot W) (h : List (Step W)) : (b.after h).src = b.dm.src :=
  Runs.invariant (P := fun dm => dm.src = b.dm.src) rfl (fun dm x same => (step_src dm x).trans same) h

def Boot.clock (b : Boot W) (r : Reading W) : UInt32 := nowMs b.dm r

@[simp] theorem Boot.nowMs_after (b : Boot W) (h : List (Step W)) (r : Reading W) :
    nowMs (b.after h) r = b.clock r := by
  simp only [nowMs, clock, after_src]

end RayzWeapon.Display
