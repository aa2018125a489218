import RayzWeapon.Display.History

universe u

namespace RayzWeapon.Display

open RayzWeapon.Lib

variable {W : Type u}

def Dm.OverError (dm : Dm W) : Prop :=
  dm.state = .error ∨ dm.state.IsOverlay ∧ dm.returnState = .error

structure ShowsError (h : List (Step W)) (dm : Dm W) : Prop where
  code : outstandingError h = some dm.errorCode
  page : dm.rows = errorPage dm.errorCode

theorem handleEvent_showsError {h : List (Step W)} {dm : Dm W}
    (shows : dm.OverError → ShowsError h dm) (e : DmEvent) (r : Reading W)
    (above : (handleEvent dm e r).OverError) :
    ShowsError (.event e r :: h) (handleEvent dm e r) := by
  cases e with
  | errorSet errorCode => exact ⟨by simp [outstandingError], by simp⟩
  | errorClear => simp [Dm.OverError] at above
  | hit | msg _ =>
    -- The rows below the new overlay are those of the state it returns to.
    have below : dm.state = .error := by simpa [Dm.OverError] using above
    obtain ⟨code, page⟩ := shows (.inl below)
    exact ⟨code, page⟩
  | other type =>
    obtain ⟨code, page⟩ := shows above
    exact ⟨code, page⟩

theorem redraw_showsError {h : List (Step W)} {dm : Dm W} (shows : dm.OverError → ShowsError h dm)
    (t : UInt32) (r : Reading W) (above : (redraw dm t r).OverError) :
    ShowsError h (redraw dm t r) := by
  have above' : dm.OverError := by simpa [Dm.OverError] using above
  obtain ⟨code, page⟩ := shows above'
  refine ⟨by simpa using code, ?_⟩
  rw [redraw_errorCode]
  rcases above' with error | ⟨overlay, -⟩
  · exact redraw_rows_error t r error page
  · exact (redraw_rows_overlay t r overlay).trans page

theorem iteration_showsError {h : List (Step W)} {dm : Dm W}
    (shows : dm.OverError → ShowsError h dm) (r : Reading W) (above : (iteration dm r).OverError) :
    ShowsError (.iteration r :: h) (iteration dm r) := by
  obtain ⟨dm', checked, eq⟩ := iteration_checked dm r
  have shows' : dm'.OverError → ShowsError (.iteration r :: h) dm' := by
    intro above'
    cases checked with
    | waiting notDue =>
      obtain ⟨code, page⟩ := shows above'
      exact ⟨code, page⟩
    | overlay due overlay =>
      have below : dm.returnState = .error := by
        rcases above' with error | ⟨still, -⟩
        · by_contra other
          simp [other] at error
        · dsimp only at still
          split at still <;> simp at still
      obtain ⟨code, page⟩ := shows (.inr ⟨overlay, below⟩)
      exact ⟨code, page⟩
    | boot due boot => simp [Dm.OverError] at above'
    | stale due rest =>
      obtain ⟨code, page⟩ := shows above'
      exact ⟨code, page⟩
  rw [eq] at above ⊢
  exact redraw_showsError shows' _ r above

theorem Boot.showsError (b : Boot W) (h : List (Step W)) :
    (b.after h).OverError → ShowsError h (b.after h) := by
  induction h with
  | nil => simp [Dm.OverError]
  | cons x h ih =>
    cases x with
    | event e r => exact handleEvent_showsError ih e r
    | iteration r => exact iteration_showsError ih r

theorem Boot.error_screen (b : Boot W) (h : List (Step W)) (error : (b.after h).state = .error) :
    (∃ later r earlier, h = later ++ .event (.errorSet (b.after h).errorCode) r :: earlier ∧
      ∀ x ∈ later, ¬x.TouchesError) ∧
    (b.after h).rows = ⟨"ERROR".toList,
      "C:".toList ++ Nat.toDigits 10 (b.after h).errorCode.toNat, "Fix & reboot".toList⟩ := by
  obtain ⟨code, page⟩ := b.showsError h (.inl error)
  exact ⟨outstandingError_eq_some.mp code, page⟩

theorem Boot.error_screen_after_hit :
    let h : List (Step Unit) :=
      [.iteration ⟨900, ()⟩, .event .hit ⟨200, ()⟩, .event (.errorSet 4294967295) ⟨100, ()⟩]
    (∃ later r earlier, h = later ++ .event (.errorSet 4294967295) r :: earlier ∧
      ∀ x ∈ later, ¬x.TouchesError) ∧
    ((Boot.bare 0).after h).rows =
      ⟨"ERROR".toList, "C:4294967295".toList, "Fix & reboot".toList⟩ :=
  (Boot.bare 0).error_screen _ (by decide)

section OutstandingError

/-- What an outstanding error is owed after the history `h`: it is on screen or below an overlay,
and an overlay that has just run out has given way to it. -/
def Boot.ErrorKept (b : Boot W) (h : List (Step W)) : Prop :=
  (outstandingError h ≠ none → (b.after h).state = .error ∨ (b.after h).state.IsOverlay) ∧
  ∀ r k, h = .iteration r :: k → outstandingError k ≠ none → (b.after k).state.IsOverlay →
    Due (b.after k) (b.clock r) → (b.after h).state = .error

/-- The latest HIT or MSG was handled while an overlay was already up, and no ERROR_SET or
ERROR_CLEAR came after it. -/
def Boot.Stacked (b : Boot W) : List (Step W) → Prop
  | [] => False
  | .event (.errorSet _) _ :: _ => False
  | .event .errorClear _ :: _ => False
  | .event .hit _ :: h => (b.after h).state.IsOverlay
  | .event (.msg _) _ :: h => (b.after h).state.IsOverlay
  | .event (.other _) _ :: h => b.Stacked h
  | .iteration _ :: h => b.Stacked h

def Boot.NoStackedExpiry (b : Boot W) (h : List (Step W)) (x : Step W) : Prop :=
  ∀ r, x = .iteration r → outstandingError h ≠ none → b.Stacked h →
    (b.after h).state.IsOverlay → ¬Due (b.after h) (b.clock r)

structure Boot.ReturnSlot (b : Boot W) (h : List (Step W)) : Prop where
  stacked : b.Stacked h → (b.after h).state.IsOverlay → (b.after h).returnState.IsOverlay
  kept : outstandingError h ≠ none → (b.after h).state.IsOverlay →
    b.Stacked h ∨ (b.after h).returnState = .error

theorem Boot.returnSlot_event (b : Boot W) {h : List (Step W)} (owed : b.ErrorKept h)
    (slot : b.ReturnSlot h) (e : DmEvent) (r : Reading W) : b.ReturnSlot (.event e r :: h) := by
  cases e with
  | errorSet errorCode => constructor <;> simp [step, Boot.Stacked]
  | errorClear => constructor <;> simp [step, Boot.Stacked]
  | hit | msg _ =>
    constructor
    · simp [step, Boot.Stacked]
    · intro outstanding _
      simpa [step, Boot.Stacked, or_comm] using owed.1 outstanding
  | other type => exact ⟨slot.stacked, slot.kept⟩

theorem Boot.returnSlot_iteration (b : Boot W) {h : List (Step W)} (slot : b.ReturnSlot h)
    (r : Reading W) : b.ReturnSlot (.iteration r :: h) := by
  -- An iteration never puts an overlay up, so one that is up now was up before.
  have before : (b.after (.iteration r :: h)).state.IsOverlay → (b.after h).state.IsOverlay := by
    simp only [Boot.after_cons, step, iteration_state]
    split
    · intro overlay
      exact absurd overlay (Dm.not_isOverlay_expiresInto _)
    · exact id
  constructor
  · intro stacked overlay
    simpa [step] using slot.stacked stacked (before overlay)
  · intro outstanding overlay
    simpa [step, Boot.Stacked] using slot.kept outstanding (before overlay)

theorem Boot.errorKept_event (b : Boot W) {h : List (Step W)} (owed : b.ErrorKept h)
    (e : DmEvent) (r : Reading W) : b.ErrorKept (.event e r :: h) := by
  refine ⟨?_, by simp⟩
  cases e with
  | errorSet errorCode => simp [step]
  | errorClear => simp [outstandingError]
  | hit => simp [step]
  | msg text => simp [step]
  | other type => exact owed.1

theorem Boot.errorKept_iteration (b : Boot W) {h : List (Step W)} (owed : b.ErrorKept h)
    (slot : b.ReturnSlot h) (r : Reading W) :
    b.ErrorKept (.iteration r :: h) ↔ b.NoStackedExpiry h (.iteration r) := by
  have waits (notDue : ¬Due (b.after h) (b.clock r)) :
      (b.after (.iteration r :: h)).state = (b.after h).state := by
    simp [step, iteration_state, notDue]
  have expires (overlay : (b.after h).state.IsOverlay) (due : Due (b.after h) (b.clock r)) :
      (b.after (.iteration r :: h)).state =
        if (b.after h).returnState = .error then .error else .debug := by
    simp [step, iteration_state, due, Dm.expiresInto_overlay overlay]
  constructor
  · rintro ⟨-, afterExpiry⟩ r' hr outstanding stacked overlay due
    cases hr
    have error := afterExpiry r h rfl outstanding overlay due
    have lost : (b.after h).returnState ≠ .error := by
      intro back
      simpa [back] using slot.stacked stacked overlay
    rw [expires overlay due, if_neg lost] at error
    cases error
  · intro safe
    have afterExpiry (outstanding : outstandingError h ≠ none)
        (overlay : (b.after h).state.IsOverlay) (due : Due (b.after h) (b.clock r)) :
        (b.after (.iteration r :: h)).state = .error := by
      have back := (slot.kept outstanding overlay).resolve_left fun stacked =>
        safe r rfl outstanding stacked overlay due
      rw [expires overlay due, if_pos back]
    constructor
    · intro outstanding
      rcases owed.1 outstanding with error | overlay
      · left
        simp [step, iteration_state, Dm.expiresInto_error error, error]
      · by_cases due : Due (b.after h) (b.clock r)
        · exact .inl (afterExpiry outstanding overlay due)
        · right
          rwa [waits due]
    · rintro r' k hk outstanding overlay due
      cases hk
      exact afterExpiry outstanding overlay due

theorem Boot.noStackedExpiry_event (b : Boot W) (h : List (Step W)) (e : DmEvent) (r : Reading W) :
    b.NoStackedExpiry h (.event e r) := by
  intro r' hr
  cases hr

theorem Boot.always_errorKept_iff (b : Boot W) (h : List (Step W)) :
    Runs.Always b.ErrorKept h ↔ Runs.Each b.NoStackedExpiry h := by
  apply Runs.always_iff_each (J := b.ReturnSlot)
  · simp [Boot.ErrorKept, outstandingError]
  · constructor <;> simp [Boot.Stacked]
  · intro h x owed slot _
    cases x with
    | event e r => exact b.returnSlot_event owed slot e r
    | iteration r => exact b.returnSlot_iteration slot r
  · intro h x owed slot
    cases x with
    | event e r =>
      simp only [b.errorKept_event owed e r, b.noStackedExpiry_event h e r]
    | iteration r => exact b.errorKept_iteration owed slot r

theorem Boot.error_lost_under_two_overlays :
    let h : List (Step Unit) :=
      [.iteration ⟨2000, ()⟩, .event (.msg "WS ON".toList) ⟨1100, ()⟩, .event .hit ⟨1050, ()⟩,
        .event (.errorSet 7) ⟨1000, ()⟩]
    ((Boot.bare 0).after h).state = .debug ∧ ¬Runs.Always (Boot.bare 0).ErrorKept h := by
  refine ⟨by decide, fun kept => ?_⟩
  have owed := kept.now.1 (by decide)
  exact absurd owed (by decide)

end OutstandingError

end RayzWeapon.Display
