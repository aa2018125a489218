import RayzWeapon.Display.Errors
import RayzWeapon.Display.Redraws

universe u

namespace RayzWeapon.Display

open RayzWeapon.Lib

variable {W : Type u}

def bootPage : Rows := ⟨"RayZ".toList, "BOOT".toList, []⟩

def debugPage (src : DmSources W) (r : Reading W) : Rows :=
  (renderDebug { (zeroDm : Dm W) with src } 0 false r).rows

theorem renderDebug_eq (dm : Dm W) (page : UInt8) (slow : Bool) (r : Reading W) :
    renderDebug dm page slow r = { dm with rows := debugPage dm.src r } := by
  unfold debugPage renderDebug
  dsimp only
  split
  · rfl
  · split <;> rfl

/-- The page of the latest draw of a run; repainting the error page is not one. -/
def Boot.screen (b : Boot W) : List (Step W) → Rows
  | [] => bootPage
  | .event (.errorSet errorCode) _ :: _ => errorPage errorCode
  | .event _ _ :: h => b.screen h
  | .iteration r :: h =>
    if drawn (b.after h) r = some .debug then debugPage b.dm.src r else b.screen h

theorem Boot.rows (b : Boot W) : b.dm.rows = bootPage := by
  obtain ⟨src, -, eq⟩ := b.spec
  rw [eq]
  rfl

theorem overError_of_iteration {dm : Dm W} {r : Reading W}
    (error : (iteration dm r).state = .error) :
    dm.OverError := by
  rw [iteration_state] at error
  split at error
  next =>
    cases state : dm.state with
    | error => exact .inl state
    | boot => simp [Dm.expiresInto, state] at error
    | debug => simp [Dm.expiresInto, state] at error
    | overlayHit | overlayMsg =>
      refine .inr ⟨by simp [state], ?_⟩
      by_contra other
      simp [Dm.expiresInto, state, other] at error
  next => exact .inl error

theorem Boot.rows_iteration_error (b : Boot W) {h : List (Step W)} {r : Reading W}
    (error : (iteration (b.after h) r).state = .error) :
    (iteration (b.after h) r).rows = (b.after h).rows := by
  have before := (b.showsError h (overError_of_iteration error)).page
  have after := (b.showsError (.iteration r :: h) (.inl error)).page
  simp only [b.after_cons, step, iteration_errorCode] at after
  rw [after, before]

theorem rows_iteration (dm : Dm W) (r : Reading W)
    (repaint : (iteration dm r).state = .error → (iteration dm r).rows = dm.rows) :
    (iteration dm r).rows =
      if drawn dm r = some .debug then debugPage dm.src r else dm.rows := by
  obtain ⟨dm', checked, eq⟩ : ∃ dm', Checked dm (nowMs dm r) dm' ∧
      dm' = checkDeadline dm (nowMs dm r) r := ⟨_, checkDeadline_checked .., rfl⟩
  have src : dm'.src = dm.src := by cases checked <;> rfl
  have rows : dm'.rows = dm.rows := by cases checked <;> rfl
  have draw := redraw_fastRedraw dm' (nowMs dm r) r
  simp only [iteration, drawn, ← eq] at repaint ⊢
  cases draws : fastDraw dm' (nowMs dm r) with
  | none =>
    rw [draws] at draw
    cases draw with
    | still _ same _ =>
      by_cases error : dm'.state = .error
      · simpa using repaint (by rw [redraw_state, error])
      · simpa [rows] using same error
  | some kind =>
    rw [draws] at draw
    cases kind with
    | debug =>
      cases draw with
      | debug page _ => rw [if_pos rfl, page, renderDebug_eq, src]
    | blink =>
      have hit : dm'.state.IsOverlay := by
        unfold fastDraw at draws
        split at draws
        · split at draws <;> simp_all
        · cases draws
      simpa [rows] using redraw_rows_overlay (nowMs dm r) r hit

theorem Boot.rows_eq_screen (b : Boot W) (h : List (Step W)) : (b.after h).rows = b.screen h := by
  induction h with
  | nil => exact b.rows
  | cons x h ih =>
    cases x with
    | event e r => cases e <;> simp [step, Boot.screen, ih]
    | iteration r =>
      simp only [b.after_cons, step, Boot.screen]
      rw [rows_iteration _ _ b.rows_iteration_error, b.after_src, ih]

section Fit

structure Rows.Fit (rows : Rows) : Prop where
  row1 : rows.row1.length < rowSize
  row2 : rows.row2.length < rowSize
  row3 : rows.row3.length < rowSize

theorem length_snprintf_lt (s : Text) : (snprintf rowSize s).length < rowSize := by
  rw [snprintf, List.length_take, rowSize]
  omega

theorem bootPage_fit : bootPage.Fit := ⟨by decide, by decide, by decide⟩

theorem errorPage_fit (errorCode : UInt32) : (errorPage errorCode).Fit where
  row1 := (by decide : "ERROR".toList.length < rowSize)
  row2 := by
    have bound := length_snprintf_lt ("C:".toList ++ formatLu errorCode)
    rwa [snprintf_errorCode] at bound
  row3 := (by decide : "Fix & reboot".toList.length < rowSize)

theorem debugPage_fit (src : DmSources W) (r : Reading W) : (debugPage src r).Fit := by
  unfold debugPage renderDebug
  dsimp only
  split
  · exact ⟨length_snprintf_lt _, length_snprintf_lt _, length_snprintf_lt _⟩
  · split
    all_goals exact ⟨length_snprintf_lt _, length_snprintf_lt _, length_snprintf_lt _⟩

theorem Boot.screen_fit (b : Boot W) (h : List (Step W)) : (b.screen h).Fit := by
  induction h with
  | nil => exact bootPage_fit
  | cons x h ih =>
    cases x with
    | event e r =>
      cases e with
      | errorSet errorCode => exact errorPage_fit errorCode
      | _ => exact ih
    | iteration r =>
      rw [Boot.screen]
      split
      · exact debugPage_fit b.dm.src r
      · exact ih

theorem Boot.rows_screen (b : Boot W) (h : List (Step W)) :
    (b.after h).rows = b.screen h ∧ (b.after h).rows.Fit := by
  constructor
  · exact b.rows_eq_screen h
  · rw [b.rows_eq_screen]
    exact b.screen_fit h

end Fit

section Fresh

variable {dm : Dm W} {g t : Nat} {r : Reading W} {steps earlier : List (Nat × Step W)}

/-- The rows were drawn at `t`, and none of the iterations since came 100 ms later. -/
structure Drawn (dm : Dm W) (steps earlier : List (Nat × Step W)) (t : Nat) (r : Reading W) :
    Prop where
  member : (t, .iteration r) ∈ steps
  rows : (dm.afterTimed (steps ++ earlier)).rows = debugPage dm.src r
  stamp : (dm.afterTimed (steps ++ earlier)).lastFastMs.toNat = t % 2 ^ 32
  latest : ∀ t' ∈ iterationTimes steps, t' < t + 100

theorem src_afterTimed (dm : Dm W) (h : List (Nat × Step W)) : (dm.afterTimed h).src = dm.src :=
  dm.after_src _

theorem rows_debug {dm : Dm W} {r : Reading W} (debug : ReachesDebug dm r) :
    (iteration dm r).rows = if drawn dm r = some .debug then debugPage dm.src r else dm.rows := by
  apply rows_iteration
  intro error
  rw [iteration, redraw_state, debug] at error
  cases error

theorem mem_iterationTimes {h : List (Nat × Step W)} (member : (t, .iteration r) ∈ h) :
    t ∈ iterationTimes h := by
  obtain ⟨later, earlier, rfl⟩ := List.append_of_mem member
  simp [iterationTimes_append, iterationTimes]

theorem Drawn.event (drawn : Drawn dm steps earlier t r) {e : DmEvent}
    (noError : ∀ errorCode, e ≠ .errorSet errorCode) (t' : Nat) (u : Reading W) :
    Drawn dm ((t', .event e u) :: steps) earlier t r where
  member := .tail _ drawn.member
  rows := by
    rw [← drawn.rows]
    cases e with
    | errorSet errorCode => exact absurd rfl (noError errorCode)
    | _ => rfl
  stamp := by
    rw [← drawn.stamp]
    exact congrArg UInt32.toNat (handleEvent_lastFastMs ..)
  latest := drawn.latest

theorem Drawn.now (run : TimedRun dm ((t, .iteration r) :: (steps ++ earlier)))
    (debug : ReachesDebug (dm.afterTimed (steps ++ earlier)) r)
    (draws : drawnAt dm (steps ++ earlier) (.iteration r) = some .debug) :
    Drawn dm ((t, .iteration r) :: steps) earlier t r where
  member := .head steps
  rows := by
    have page := rows_debug debug
    rw [drawnAt] at draws
    rw [if_pos draws, src_afterTimed] at page
    exact page
  stamp := by
    have stamp := run.lastFastMs
    rw [draws] at stamp
    exact stamp
  latest := by
    intro t' ht'
    rcases List.mem_cons.mp ht' with rfl | ht'
    · omega
    · obtain ⟨r', member⟩ := mem_of_mem_iterationTimes ht'
      have before := (List.pairwise_cons.mp run.ordered).1 _ (List.mem_append_left earlier member)
      dsimp only at before
      omega

theorem Drawn.iteration (drawn : Drawn dm steps earlier t r) (hg : g < 2 ^ 31) {t' : Nat}
    {r' : Reading W} (run : TimedRun dm ((t', .iteration r') :: (steps ++ earlier)))
    (gaps : (iterationTimes ((t', .iteration r') :: steps)).IsChain fun t t' => t ≤ t' + g)
    (debug : ReachesDebug (dm.afterTimed (steps ++ earlier)) r') :
    ∃ t₁ r₁, Drawn dm ((t', .iteration r') :: steps) earlier t₁ r₁ := by
  have order := (List.pairwise_cons.mp run.ordered).1 _
    (List.mem_append_left earlier drawn.member)
  obtain ⟨d, rfl⟩ := Nat.exists_eq_add_of_le order
  -- The iteration before this one came less than 100 ms after the draw.
  have soon : d < 100 + g := by
    rw [iterationTimes, List.isChain_cons] at gaps
    cases times : iterationTimes steps with
    | nil =>
      have member := mem_iterationTimes drawn.member
      simp [times] at member
    | cons t₂ times' =>
      have before := drawn.latest t₂ (by simp [times])
      have gap := gaps.1 t₂ (by simp [times])
      dsimp only at gap
      omega
  have age : (dm.afterTimed (steps ++ earlier)).fastAge
      (nowMs (dm.afterTimed (steps ++ earlier)) r') = d := by
    rw [nowMs_afterTimed, Dm.fastAge, drawn.stamp, run.clock _ r' (.head _)]
    have young := WrapClock.age_self (M := 2 ^ 32) (by decide) t
    simpa using WrapClock.age_of_young young (d := d) (by omega)
  have draws := drawn_debug debug
  rw [age] at draws
  by_cases old : 100 ≤ d
  · rw [if_pos old] at draws
    exact ⟨_, r', .now run debug draws⟩
  · rw [if_neg old] at draws
    refine ⟨t, r, .tail _ drawn.member, ?_, ?_, ?_⟩
    · have page := rows_debug debug
      rw [draws, if_neg (by simp), drawn.rows] at page
      exact page
    · rw [← drawn.stamp]
      refine run.lastFastMs.trans ?_
      rw [drawnAt, draws]
      rfl
    · intro t₂ ht₂
      rcases List.mem_cons.mp ht₂ with rfl | ht₂
      · dsimp only
        omega
      · exact drawn.latest t₂ ht₂

theorem TimedRun.drawn_of_drawn {base : List (Nat × Step W)}
    (run : TimedRun dm (steps ++ (base ++ earlier))) (hg : g < 2 ^ 31)
    (stretch : DebugStretch dm g (steps ++ base) earlier)
    (noError : ∀ t errorCode u, (t, .event (.errorSet errorCode) u) ∉ steps)
    (drawn : ∃ t r, Drawn dm base earlier t r) :
    ∃ t r, Drawn dm (steps ++ base) earlier t r := by
  induction steps with
  | nil => exact drawn
  | cons x steps ih =>
    obtain ⟨t, x⟩ := x
    have stretch' : DebugStretch dm g (steps ++ base) earlier := by
      refine ⟨fun t r k sub => stretch.debug t r k (sub.trans (List.suffix_cons _ _)), ?_⟩
      have gaps := stretch.gaps
      cases x with
      | event e u => exact gaps
      | iteration r => exact gaps.tail
    obtain ⟨t₁, r₁, before⟩ := ih (run.suffix (List.suffix_cons _ _)) stretch'
      (fun t errorCode u mem => noError t errorCode u (.tail _ mem))
    cases x with
    | event e u =>
      refine ⟨t₁, r₁, before.event ?_ t u⟩
      rintro errorCode rfl
      exact noError t errorCode u (.head _)
    | iteration r =>
      have run' : TimedRun dm ((t, .iteration r) :: ((steps ++ base) ++ earlier)) := by
        simpa using run
      exact before.iteration hg run' stretch.gaps (stretch.debug t r _ (List.suffix_refl _))

theorem TimedRun.debug_fresh (run : TimedRun dm (steps ++ earlier)) (hg : g < 2 ^ 31)
    (stretch : DebugStretch dm g steps earlier)
    (noError : ∀ t errorCode u, (t, .event (.errorSet errorCode) u) ∉ steps)
    (drew : ∃ t r k, (t, .iteration r) :: k <:+ steps ∧
      drawnAt dm (k ++ earlier) (.iteration r) = some .debug) :
    ∃ t r, Drawn dm steps earlier t r := by
  obtain ⟨t, r, before, ⟨later, rfl⟩, draws⟩ := drew
  have run' : TimedRun dm (later ++ (((t, .iteration r) :: before) ++ earlier)) := by
    simpa using run
  have reached := stretch.debug t r before (List.suffix_append later _)
  have drawn : Drawn dm ((t, .iteration r) :: before) earlier t r :=
    .now (run'.suffix (List.suffix_append later _)) reached draws
  apply run'.drawn_of_drawn hg stretch ?_ ⟨t, r, drawn⟩
  intro t' errorCode u mem
  exact noError t' errorCode u (List.mem_append_left _ mem)

theorem TimedRun.debug_fresh_booted :
    let steps : List (Nat × Step Unit) :=
      [(950, .iteration ⟨950, ()⟩), (900, .iteration ⟨900, ()⟩)]
    ∃ t r, Drawn (Boot.bare 0).dm steps [] t r :=
  TimedRun.debug_fresh (g := 100)
    { ordered := by simp
      clock := by
        simp only [List.append_nil, List.mem_cons, Prod.mk.injEq, List.not_mem_nil, or_false]
        rintro t r (⟨rfl, hr⟩ | ⟨rfl, hr⟩)
        all_goals
          cases hr
          decide }
    (by decide)
    { debug := by
        intro t r k sub
        simp only [List.suffix_cons_iff, List.cons.injEq, Prod.mk.injEq, Step.iteration.injEq,
          List.suffix_nil, reduceCtorEq, or_false] at sub
        rcases sub with ⟨⟨rfl, rfl⟩, rfl⟩ | ⟨⟨rfl, rfl⟩, rfl⟩
        all_goals rfl
      gaps := by simp [iterationTimes] }
    (by simp)
    ⟨900, ⟨900, ()⟩, [], List.suffix_cons _ _, rfl⟩

end Fresh

section SlowTimer

/-- The drawing step without the slow timer: an error page is never painted again. -/
def redrawFast (dm : Dm W) (t : UInt32) (r : Reading W) : Dm W :=
  let fast : Bool := t - dm.lastFastMs ≥ 100
  match dm.state with
  | .debug => if fast then { renderDebug dm 0 false r with lastFastMs := t } else dm
  | .overlayHit =>
    if fast then
      let dm := { dm with on := !dm.on }
      { overlayShow dm (if dm.on then "HIT!".toList else "    ".toList) with lastFastMs := t }
    else dm
  | _ => dm

def stepFast (dm : Dm W) : Step W → Dm W
  | .event e r => handleEvent dm e r
  | .iteration r => redrawFast (checkDeadline dm (nowMs dm r) r) (nowMs dm r) r

def Dm.withSlow (dm : Dm W) (t : UInt32) : Dm W := { dm with lastSlowMs := t }

variable (dm : Dm W) (last t : UInt32) (r : Reading W)

theorem handleEvent_withSlow (e : DmEvent) :
    handleEvent (dm.withSlow last) e r = (handleEvent dm e r).withSlow last := by
  cases e <;> rfl

theorem enterState_withSlow (st : DmState) (durMs : UInt32) :
    enterState (dm.withSlow last) st durMs r = (enterState dm st durMs r).withSlow last := rfl

theorem checkDeadline_withSlow :
    checkDeadline (dm.withSlow last) t r = (checkDeadline dm t r).withSlow last := by
  have overlay : overlayHide (dm.withSlow last) = (overlayHide dm).withSlow last := rfl
  have state : (dm.withSlow last).state = dm.state := rfl
  have returnState : (dm.withSlow last).returnState = dm.returnState := rfl
  unfold checkDeadline
  by_cases due : Due dm t
  · rw [if_pos due, if_pos (show Due (dm.withSlow last) t from due)]
    simp only [state, returnState, overlay, enterState_withSlow]
    split
    · rfl
    · split <;> rfl
  · rw [if_neg due, if_neg (show ¬Due (dm.withSlow last) t from due)]

theorem redraw_debug_withSlow (debug : dm.state = .debug) :
    (redraw dm t r).withSlow last = redrawFast (dm.withSlow last) t r := by
  have debug' : (dm.withSlow last).state = .debug := debug
  have fastMs : (dm.withSlow last).lastFastMs = dm.lastFastMs := rfl
  have src : (dm.withSlow last).src = dm.src := rfl
  unfold redraw redrawFast
  simp only [debug, debug', fastMs, renderDebug_eq, src]
  split <;> split <;> simp only [Dm.withSlow, debug]

theorem redraw_withSlow {dm : Dm W} (page : dm.state = .error → dm.rows = errorPage dm.errorCode) :
    (redraw dm t r).withSlow last = redrawFast (dm.withSlow last) t r := by
  cases state : dm.state with
  | error =>
    have same : renderError dm = dm := by rw [renderError_eq, ← page state]
    have state' : (dm.withSlow last).state = .error := state
    unfold redraw redrawFast
    simp only [state, state', same]
    split
    · simp only [Dm.withSlow, state]
    · rfl
  | debug => exact redraw_debug_withSlow dm last t r state
  | overlayHit =>
    have state' : (dm.withSlow last).state = .overlayHit := state
    have fastMs : (dm.withSlow last).lastFastMs = dm.lastFastMs := rfl
    unfold redraw redrawFast
    simp only [state, state', fastMs]
    split <;> simp only [Dm.withSlow, state]
    rfl
  | boot | overlayMsg =>
    unfold redraw redrawFast
    simp [Dm.withSlow, state]

theorem Boot.page_checkDeadline (b : Boot W) (h : List (Step W)) (r : Reading W)
    (error : (checkDeadline (b.after h) (nowMs (b.after h) r) r).state = .error) :
    (checkDeadline (b.after h) (nowMs (b.after h) r) r).rows =
      errorPage (checkDeadline (b.after h) (nowMs (b.after h) r) r).errorCode := by
  have before : (b.after h).OverError :=
    overError_of_iteration (r := r) (by rw [iteration, redraw_state, error])
  have page := (b.showsError h before).page
  have checked := checkDeadline_checked (b.after h) (nowMs (b.after h) r) r
  generalize checkDeadline (b.after h) (nowMs (b.after h) r) r = dm' at checked ⊢
  cases checked <;> exact page

theorem Boot.slow_unobserved (b : Boot W) (h : List (Step W)) :
    (b.after h).withSlow b.dm.lastSlowMs = Runs.after stepFast b.dm h := by
  induction h with
  | nil => rfl
  | cons x h ih =>
    rw [b.after_cons, Runs.after_cons, ← ih]
    cases x with
    | event e r => exact (handleEvent_withSlow (b.after h) b.dm.lastSlowMs r e).symm
    | iteration r =>
      have clock : nowMs ((b.after h).withSlow b.dm.lastSlowMs) r = nowMs (b.after h) r := rfl
      rw [step, stepFast, iteration, clock, checkDeadline_withSlow]
      exact redraw_withSlow _ _ r (b.page_checkDeadline h r)

end SlowTimer

end RayzWeapon.Display
