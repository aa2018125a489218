import RayzWeapon.Display.History

universe u

namespace RayzWeapon.Display

open RayzWeapon.Lib

variable {W : Type u}

def Dm.LabelUp (dm : Dm W) : Prop := dm.state.IsOverlay → dm.overlay.hidden = false

def Dm.NoLinger (dm : Dm W) : Prop := ¬dm.state.IsOverlay → dm.overlay.hidden = true

theorem redraw_overlay_hit {dm : Dm W} (hit : dm.state = .overlayHit) (t : UInt32) (r : Reading W) :
    (redraw dm t r).overlay = dm.overlay ∨ (redraw dm t r).overlay = ⟨"HIT!".toList, false⟩ ∨
      (redraw dm t r).overlay = ⟨"    ".toList, false⟩ := by
  unfold redraw
  rw [hit]
  dsimp only
  split
  · right
    cases dm.on
    · exact .inl rfl
    · exact .inr rfl
  · exact .inl rfl

structure OverlayLabel (h : List (Step W)) (dm : Dm W) : Prop where
  msg : dm.state = .overlayMsg → ∃ text, LastHandled (.msg text) h ∧ dm.overlay = ⟨text, false⟩
  hit : dm.state = .overlayHit → LastHandled .hit h ∧
    (dm.overlay = ⟨"HIT!".toList, false⟩ ∨ dm.overlay = ⟨"    ".toList, false⟩)

theorem OverlayLabel.of_not_isOverlay {h : List (Step W)} {dm : Dm W}
    (notOverlay : ¬dm.state.IsOverlay) : OverlayLabel h dm where
  msg msg := absurd (.inr msg) notOverlay
  hit hit := absurd (.inl hit) notOverlay

section Step

variable {h : List (Step W)} {dm : Dm W} (label : OverlayLabel h dm)
include label

theorem OverlayLabel.skip {x : Step W} (unrecognised : ¬x.Recognised) :
    OverlayLabel (x :: h) dm where
  msg msg := by
    obtain ⟨text, last, shown⟩ := label.msg msg
    exact ⟨text, last.skip unrecognised, shown⟩
  hit hit := ⟨(label.hit hit).1.skip unrecognised, (label.hit hit).2⟩

theorem OverlayLabel.redraw (t : UInt32) (r : Reading W) :
    OverlayLabel h (Display.redraw dm t r) where
  msg msg := by
    rw [redraw_state] at msg
    rw [redraw_overlay t r (by simp [msg])]
    exact label.msg msg
  hit hit := by
    rw [redraw_state] at hit
    obtain ⟨last, shown⟩ := label.hit hit
    refine ⟨last, ?_⟩
    rcases redraw_overlay_hit hit t r with same | frame
    · rwa [same]
    · exact frame

theorem OverlayLabel.event (e : DmEvent) (r : Reading W) :
    OverlayLabel (.event e r :: h) (handleEvent dm e r) := by
  cases e with
  | errorSet errorCode => exact .of_not_isOverlay (by simp)
  | errorClear => exact .of_not_isOverlay (by simp)
  | hit => exact ⟨by simp, fun _ => ⟨.now .hit r h, .inl rfl⟩⟩
  | msg text => exact ⟨fun _ => ⟨text, .now (.msg text) r h, rfl⟩, by simp⟩
  | other type => exact label.skip id

theorem OverlayLabel.iteration (r : Reading W) :
    OverlayLabel (.iteration r :: h) (Display.iteration dm r) := by
  obtain ⟨dm', checked, eq⟩ := iteration_checked dm r
  rw [eq]
  apply OverlayLabel.redraw
  cases checked with
  | waiting notDue => exact label.skip id
  | overlay due overlay =>
    apply OverlayLabel.of_not_isOverlay
    dsimp only
    split <;> simp
  | boot due boot => exact .of_not_isOverlay (by simp)
  | stale due rest =>
    apply OverlayLabel.of_not_isOverlay
    rcases rest with debug | error <;> simp [*]

end Step

theorem Boot.overlayLabel (b : Boot W) (h : List (Step W)) : OverlayLabel h (b.after h) := by
  induction h with
  | nil => exact .of_not_isOverlay (by simp)
  | cons x h ih =>
    cases x with
    | event e r => exact ih.event e r
    | iteration r => exact ih.iteration r

theorem Boot.labelUp (b : Boot W) (h : List (Step W)) : (b.after h).LabelUp := by
  have label := b.overlayLabel h
  rintro (hit | msg)
  · rcases (label.hit hit).2 with shown | blank
    · rw [shown]
    · rw [blank]
  · obtain ⟨text, -, shown⟩ := label.msg msg
    rw [shown]

theorem iteration_noLinger {dm : Dm W} (hides : dm.NoLinger) (r : Reading W) :
    (iteration dm r).NoLinger := by
  obtain ⟨dm', checked, eq⟩ := iteration_checked dm r
  intro notOverlay
  rw [eq] at notOverlay ⊢
  rw [redraw_state] at notOverlay
  rw [redraw_overlay _ r (fun hit => notOverlay (.inl hit))]
  cases checked with
  | waiting notDue => exact hides notOverlay
  | overlay due overlay => rfl
  | boot due boot => exact hides (by simp [boot])
  | stale due rest => exact hides notOverlay

def Boot.NoErrorOverOverlay (b : Boot W) (h : List (Step W)) (x : Step W) : Prop :=
  x.TouchesError → ¬(b.after h).state.IsOverlay

theorem Boot.noLinger_cons (b : Boot W) {h : List (Step W)} (hides : (b.after h).NoLinger)
    (x : Step W) : (b.after (x :: h)).NoLinger ↔ b.NoErrorOverOverlay h x := by
  cases x with
  | event e r =>
    -- The two error events leave the label as it is, so it lingers exactly when it was up.
    have shown : (b.after h).overlay.hidden = true ↔ ¬(b.after h).state.IsOverlay := by
      constructor
      · intro hidden overlay
        simp [b.labelUp h overlay] at hidden
      · exact hides
    cases e with
    | errorSet errorCode => simpa [Dm.NoLinger, step, NoErrorOverOverlay, Step.TouchesError] using shown
    | errorClear => simpa [Dm.NoLinger, step, NoErrorOverOverlay, Step.TouchesError] using shown
    | hit => simp [Dm.NoLinger, step, NoErrorOverOverlay, Step.TouchesError]
    | msg text => simp [Dm.NoLinger, step, NoErrorOverOverlay, Step.TouchesError]
    | other type => simpa [step, NoErrorOverOverlay, Step.TouchesError] using hides
  | iteration r =>
    simpa [step, NoErrorOverOverlay, Step.TouchesError] using iteration_noLinger hides r

/-- No overlay lingers in a run exactly when no error event is handled while one is up: only the
timeout hides the label. -/
theorem Boot.always_noLinger_iff (b : Boot W) (h : List (Step W)) :
    Runs.Always (fun k => (b.after k).NoLinger) h ↔ Runs.Each b.NoErrorOverOverlay h := by
  apply Runs.always_iff_each (J := fun _ => True)
  · simp [Dm.NoLinger]
  · trivial
  · simp
  · intro h x hides _
    exact b.noLinger_cons hides x

theorem Boot.label_lingers_after_errorClear :
    let h : List (Step Unit) :=
      [.iteration ⟨5000, ()⟩, .event .errorClear ⟨1100, ()⟩, .event (.msg "WS ON".toList) ⟨1000, ()⟩]
    ((Boot.bare 0).after h).overlay = ⟨"WS ON".toList, false⟩ ∧
      ¬Runs.Always (fun k => ((Boot.bare 0).after k).NoLinger) h := by
  refine ⟨by decide, fun hides => ?_⟩
  have hidden := hides.now (by decide)
  exact absurd hidden (by decide)

theorem step_rows_overlay {dm : Dm W} {x : Step W} (overlay : (step dm x).state.IsOverlay) :
    (step dm x).rows = dm.rows := by
  cases x with
  | event e r =>
    cases e with
    | errorSet errorCode => simp [step] at overlay
    | _ => rfl
  | iteration r =>
    simp only [step] at overlay ⊢
    obtain ⟨dm', checked, eq⟩ := iteration_checked dm r
    rw [eq, redraw_state] at overlay
    rw [eq, redraw_rows_overlay _ r overlay]
    cases checked <;> rfl

theorem Boot.rows_overlay (b : Boot W) {later k : List (Step W)}
    (overlay : ∀ l, l <:+ later → l ≠ [] → (b.after (l ++ k)).state.IsOverlay) :
    (b.after (later ++ k)).rows = (b.after k).rows := by
  induction later with
  | nil => rfl
  | cons x later ih =>
    have now : (step (b.after (later ++ k)) x).state.IsOverlay :=
      overlay (x :: later) (List.suffix_refl _) (by simp)
    rw [List.cons_append, b.after_cons, step_rows_overlay now]
    exact ih fun l sub => overlay l (sub.trans (List.suffix_cons x later))

structure Boot.OverlayShows (b : Boot W) (h : List (Step W)) : Prop where
  msg : (b.after h).state = .overlayMsg →
    ∃ text, LastHandled (.msg text) h ∧ (b.after h).overlay = ⟨text, false⟩
  hit : (b.after h).state = .overlayHit → LastHandled .hit h ∧
    ((b.after h).overlay = ⟨"HIT!".toList, false⟩ ∨ (b.after h).overlay = ⟨"    ".toList, false⟩)
  rows : ∀ later k, h = later ++ k →
    (∀ l, l <:+ later → l ≠ [] → (b.after (l ++ k)).state.IsOverlay) →
    (b.after h).rows = (b.after k).rows

theorem Boot.overlay_shows (b : Boot W) (h : List (Step W)) : b.OverlayShows h where
  msg := (b.overlayLabel h).msg
  hit := (b.overlayLabel h).hit
  rows := by
    rintro later k rfl overlay
    exact b.rows_overlay overlay

end RayzWeapon.Display
