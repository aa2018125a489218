import RayzWeapon.Display.Deadlines

universe u

namespace RayzWeapon.Display

open RayzWeapon.Lib

variable {W : Type u}

def DmEvent.overlay : DmEvent → Option (DmState × Nat)
  | .hit => some (.overlayHit, 600)
  | .msg _ => some (.overlayMsg, 800)
  | _ => none

def Boot.Early (b : Boot W) (u : Reading W) (d : Nat) (later : List (Step W)) : Prop :=
  ∀ r, .iteration r ∈ later → (b.clock r).toNat < (b.clock u).toNat + d

/-- An iteration check at or past `u` plus `d` milliseconds came among the steps before the first
recognised event. -/
def Boot.Expired (b : Boot W) (u : Reading W) (d : Nat) (later : List (Step W)) : Prop :=
  ∃ r k, .iteration r :: k <:+ later ∧ (∀ x ∈ k, ¬x.Recognised) ∧
    (b.clock u).toNat + d ≤ (b.clock r).toNat

/-- Some ERROR_SET was handled, no ERROR_CLEAR after the latest one, and each HIT or MSG after it
expired. -/
def Boot.ErrorUp (b : Boot W) (h : List (Step W)) : Prop :=
  ∃ errorCode u later earlier, h = later ++ .event (.errorSet errorCode) u :: earlier ∧
    (∀ x ∈ later, ¬x.TouchesError) ∧
    ∀ e st d u' after before, later = after ++ .event e u' :: before →
      e.overlay = some (st, d) → b.Expired u' d after

structure Boot.ClosedForm (b : Boot W) (h : List (Step W)) : Prop where
  boot : (∀ x ∈ h, ¬x.Recognised) → b.Early b.reading 800 h → (b.after h).state = .boot
  booted : (∀ x ∈ h, ¬x.Recognised) → ¬b.Early b.reading 800 h → (b.after h).state = .debug
  errorSet : ∀ errorCode u later earlier, h = later ++ .event (.errorSet errorCode) u :: earlier →
    (∀ x ∈ later, ¬x.Recognised) → (b.after h).state = .error
  errorClear : ∀ u later earlier, h = later ++ .event .errorClear u :: earlier →
    (∀ x ∈ later, ¬x.Recognised) → (b.after h).state = .debug
  overlay : ∀ e st d u later earlier, h = later ++ .event e u :: earlier →
    (∀ x ∈ later, ¬x.Recognised) → e.overlay = some (st, d) → b.Early u d later →
    (b.after h).state = st
  expired : ∀ e st d u later earlier, h = later ++ .event e u :: earlier →
    (∀ x ∈ later, ¬x.Recognised) → e.overlay = some (st, d) → ¬b.Early u d later →
    (b.after h).state = if (b.after earlier).state = .error then .error else .debug
  underError : ∀ e st d u later earlier, h = later ++ .event e u :: earlier →
    e.overlay = some (st, d) → ((b.after earlier).state = .error ↔ b.ErrorUp earlier)

theorem DmEvent.recognised_of_overlay {e : DmEvent} {st : DmState} {d : Nat}
    (overlay : e.overlay = some (st, d)) : e.Recognised := by
  cases e with
  | other type => cases overlay
  | _ => trivial

theorem handleEvent_overlay {e : DmEvent} {st : DmState} {d : Nat}
    (overlay : e.overlay = some (st, d)) (dm : Dm W) (u : Reading W) :
    st.IsOverlay ∧ 0 < d ∧ d ≤ 800 ∧ (handleEvent dm e u).state = st ∧
      (handleEvent dm e u).returnState = dm.state ∧ (handleEvent dm e u).src = dm.src ∧
      (handleEvent dm e u).stateUntilMs.toNat = ((nowMs dm u).toNat + d) % 2 ^ 32 := by
  cases e with
  | hit =>
    cases overlay
    simp
  | msg text =>
    cases overlay
    simp
  | _ => cases overlay

theorem Boot.after_append (b : Boot W) (later h : List (Step W)) :
    b.after (later ++ h) = (b.after h).after later := Runs.after_append ..

theorem due_iff_le {dm : Dm W} {c : UInt32} {d : Nat} (hd : 0 < d) (noWrap : c.toNat + d < 2 ^ 32)
    (deadline : dm.stateUntilMs.toNat = (c.toNat + d) % 2 ^ 32) (t : UInt32) :
    Due dm t ↔ c.toNat + d ≤ t.toNat := by
  rw [due_iff, deadline, WrapClock.reached_of_no_wrap hd noWrap]

section Timed

variable {dm : Dm W} {c : UInt32} {d : Nat} {later : List (Step W)}

theorem Dm.after_early (hd : 0 < d) (noWrap : c.toNat + d < 2 ^ 32)
    (deadline : dm.stateUntilMs.toNat = (c.toNat + d) % 2 ^ 32)
    (quiet : ∀ x ∈ later, ¬x.Recognised)
    (early : ∀ r, .iteration r ∈ later → (nowMs dm r).toNat < c.toNat + d) :
    (dm.after later).state = dm.state := by
  apply (dm.after_waiting quiet ?_).state
  intro r hr due
  have reached := (due_iff_le hd noWrap deadline _).mp due
  have notYet := early r hr
  omega

theorem Dm.after_late (hd : 0 < d) (noWrap : c.toNat + d < 2 ^ 32)
    (deadline : dm.stateUntilMs.toNat = (c.toNat + d) % 2 ^ 32)
    (quiet : ∀ x ∈ later, ¬x.Recognised)
    (late : ¬∀ r, .iteration r ∈ later → (nowMs dm r).toNat < c.toNat + d) :
    (dm.after later).state = dm.expiresInto := by
  apply (dm.after_expired quiet ?_).1
  push Not at late
  obtain ⟨r, hr, reached⟩ := late
  exact ⟨r, hr, (due_iff_le hd noWrap deadline _).mpr reached⟩

end Timed

theorem Boot.expired_iff_not_early (b : Boot W) {u : Reading W} {d : Nat} {later : List (Step W)}
    (quiet : ∀ x ∈ later, ¬x.Recognised) : b.Expired u d later ↔ ¬b.Early u d later := by
  simp only [Expired, Early, not_forall, not_lt]
  constructor
  · rintro ⟨r, k, sub, -, late⟩
    exact ⟨r, sub.subset (.head k), late⟩
  · rintro ⟨r, hr, late⟩
    obtain ⟨l, k, rfl⟩ := List.append_of_mem hr
    exact ⟨r, k, List.suffix_append l _, fun x hx => quiet x (by simp [hx]), late⟩

theorem Boot.expired_append (b : Boot W) {u : Reading W} {d : Nat} (later : List (Step W))
    {x : Step W} (recognised : x.Recognised) (after : List (Step W)) :
    b.Expired u d (later ++ x :: after) ↔ b.Expired u d after := by
  constructor
  · rintro ⟨r, k, sub, quiet, late⟩
    refine ⟨r, k, ?_, quiet, late⟩
    rcases List.suffix_or_suffix_of_suffix (List.suffix_append later (x :: after)) sub with longer | shorter
    · rcases List.suffix_cons_iff.mp longer with eq | longer
      · obtain ⟨rfl, -⟩ := List.cons_eq_cons.mp eq
        exact absurd recognised (Step.not_recognised_iteration r)
      · exact absurd recognised (quiet x (longer.subset (.head after)))
    · rcases List.suffix_cons_iff.mp shorter with eq | shorter
      · obtain ⟨rfl, -⟩ := List.cons_eq_cons.mp eq
        exact absurd recognised (Step.not_recognised_iteration r)
      · exact shorter
  · rintro ⟨r, k, sub, quiet, late⟩
    exact ⟨r, k, (sub.trans (List.suffix_cons x after)).trans (List.suffix_append later _), quiet, late⟩

section ErrorUp

variable (b : Boot W) {later earlier : List (Step W)} (quiet : ∀ x ∈ later, ¬x.Recognised)
include quiet

theorem Boot.not_errorUp_of_quiet : ¬b.ErrorUp later := by
  rintro ⟨errorCode, u, after, before, rfl, -⟩
  exact quiet (.event (.errorSet errorCode) u) (by simp) trivial

theorem Boot.errorUp_errorSet (errorCode : UInt32) (u : Reading W) :
    b.ErrorUp (later ++ .event (.errorSet errorCode) u :: earlier) := by
  refine ⟨errorCode, u, later, earlier, rfl, fun x hx touches => quiet x hx touches.recognised, ?_⟩
  rintro e st d u' after before rfl overlay
  exact absurd (DmEvent.recognised_of_overlay overlay) (quiet (.event e u') (by simp))

theorem Boot.not_errorUp_errorClear (u : Reading W) :
    ¬b.ErrorUp (later ++ .event .errorClear u :: earlier) := by
  rintro ⟨errorCode, u', later', earlier', eq, untouched, -⟩
  rcases Runs.latest_or_earlier quiet (by trivial) eq with ⟨-, same, -⟩ | ⟨between, rfl, -⟩
  · cases same
  · exact untouched (.event .errorClear u) (by simp) trivial

theorem Boot.errorUp_overlay {e : DmEvent} {st : DmState} {d : Nat}
    (overlay : e.overlay = some (st, d)) (u : Reading W) :
    b.ErrorUp (later ++ .event e u :: earlier) ↔ b.Expired u d later ∧ b.ErrorUp earlier := by
  have recognised : (Step.event e u).Recognised := DmEvent.recognised_of_overlay overlay
  constructor
  · rintro ⟨errorCode, u', later', earlier', eq, untouched, expired⟩
    rcases Runs.latest_or_earlier quiet (by trivial) eq with ⟨-, same, -⟩ | ⟨between, rfl, rfl⟩
    · cases same
      cases overlay
    · refine ⟨expired e st d u later between rfl overlay, errorCode, u', between, earlier', rfl,
        fun x hx => untouched x (by simp [hx]), ?_⟩
      rintro e' st' d' u'' after before rfl overlay'
      have whole := expired e' st' d' u'' (later ++ .event e u :: after) before (by simp) overlay'
      exact (b.expired_append later recognised after).mp whole
  · rintro ⟨expired, errorCode, u', between, earlier', rfl, untouched, expired'⟩
    have overlayUntouched : ¬(Step.event e u).TouchesError := by
      cases e with
      | hit => exact id
      | msg text => exact id
      | _ => cases overlay
    refine ⟨errorCode, u', later ++ .event e u :: between, earlier', by simp, ?_, ?_⟩
    · intro x hx
      rcases List.mem_append.mp hx with hx | hx
      · exact fun touches => quiet x hx touches.recognised
      · rcases List.mem_cons.mp hx with rfl | hx
        · exact overlayUntouched
        · exact untouched x hx
    · intro e' st' d' u'' after before eq overlay'
      have recognised' : (Step.event e' u'').Recognised := DmEvent.recognised_of_overlay overlay'
      rcases Runs.latest_or_earlier quiet recognised' eq with ⟨rfl, same, -⟩ | ⟨after', rfl, rfl⟩
      · cases same
        rw [overlay] at overlay'
        cases overlay'
        exact expired
      · have inner := expired' e' st' d' u'' after' before rfl overlay'
        exact (b.expired_append later recognised after').mpr inner

end ErrorUp

structure Boot.ClockBelow (b : Boot W) (h : List (Step W)) : Prop where
  start : (b.clock b.reading).toNat < 2 ^ 32 - 800
  steps : ∀ x ∈ h, (b.clock x.reading).toNat < 2 ^ 32 - 800

theorem Boot.ClockBelow.suffix {b : Boot W} {h k : List (Step W)} (below : b.ClockBelow h)
    (sub : k <:+ h) : b.ClockBelow k :=
  ⟨below.start, fun x hx => below.steps x (sub.subset hx)⟩

section State

variable {b : Boot W} {later earlier : List (Step W)} {e : DmEvent} {st : DmState} {d : Nat}
  {u : Reading W} (quiet : ∀ x ∈ later, ¬x.Recognised)
include quiet

theorem Boot.boot_state (start : (b.clock b.reading).toNat < 2 ^ 32 - 800) :
    (b.Early b.reading 800 later → (b.after later).state = .boot) ∧
      (¬b.Early b.reading 800 later → (b.after later).state = .debug) := by
  have noWrap : (b.clock b.reading).toNat + 800 < 2 ^ 32 := by omega
  have deadline : b.dm.stateUntilMs.toNat = ((b.clock b.reading).toNat + 800) % 2 ^ 32 := by
    rw [b.stateUntilMs, UInt32.toNat_add]
    rfl
  constructor
  · intro early
    exact (Dm.after_early (by decide) noWrap deadline quiet early).trans b.state
  · intro late
    exact (Dm.after_late (by decide) noWrap deadline quiet late).trans (by simp [Dm.expiresInto])

theorem Boot.overlay_state (overlay : e.overlay = some (st, d))
    (below : (b.clock u).toNat < 2 ^ 32 - 800) :
    (b.Early u d later → (b.after (later ++ .event e u :: earlier)).state = st) ∧
      (¬b.Early u d later → (b.after (later ++ .event e u :: earlier)).state =
        if (b.after earlier).state = .error then .error else .debug) := by
  obtain ⟨isOverlay, hd, hd', state, returnState, src, deadline⟩ :=
    handleEvent_overlay overlay (b.after earlier) u
  rw [b.nowMs_after] at deadline
  have noWrap : (b.clock u).toNat + d < 2 ^ 32 := by omega
  have clock (r : Reading W) : nowMs (handleEvent (b.after earlier) e u) r = b.clock r := by
    rw [← b.nowMs_after earlier r]
    simp only [nowMs, src]
  simp only [b.after_append, b.after_cons, step]
  constructor
  · intro early
    rw [Dm.after_early hd noWrap deadline quiet (by simpa only [clock, Early] using early), state]
  · intro late
    rw [Dm.after_late hd noWrap deadline quiet (by simpa only [clock, Early] using late),
      Dm.expiresInto_overlay (by rwa [state]), returnState]

theorem Boot.untimed_state (touches : (Step.event e u).TouchesError) :
    (b.after (later ++ .event e u :: earlier)).state =
      (handleEvent (b.after earlier) e u).state := by
  have untimed : (handleEvent (b.after earlier) e u).stateUntilMs = 0 := by
    cases e with
    | errorSet errorCode => simp
    | errorClear => simp
    | _ => cases touches
  rw [b.after_append]
  apply (Dm.after_waiting _ quiet ?_).state
  rintro r - ⟨set, -⟩
  exact set untimed

theorem Boot.error_iff_overlay (overlay : e.overlay = some (st, d))
    (below : (b.clock u).toNat < 2 ^ 32 - 800)
    (under : (b.after earlier).state = .error ↔ b.ErrorUp earlier) :
    (b.after (later ++ .event e u :: earlier)).state = .error ↔
      b.ErrorUp (later ++ .event e u :: earlier) := by
  rw [b.errorUp_overlay quiet overlay, b.expired_iff_not_early quiet, ← under]
  by_cases early : b.Early u d later
  · have shown : (b.after (later ++ .event e u :: earlier)).state = st :=
      (b.overlay_state quiet overlay below).1 early
    have isOverlay := (handleEvent_overlay overlay (b.after earlier) u).1
    rw [shown]
    simp only [early, not_true_eq_false, false_and, iff_false]
    rintro rfl
    simp at isOverlay
  · have gone : (b.after (later ++ .event e u :: earlier)).state =
        if (b.after earlier).state = .error then .error else .debug :=
      (b.overlay_state quiet overlay below).2 early
    simp [gone, early]

end State

theorem Boot.error_iff_errorUp (b : Boot W) (h : List (Step W)) (below : b.ClockBelow h) :
    (b.after h).state = .error ↔ b.ErrorUp h := by
  -- Each latest recognised event refers the question to the history before it.
  induction n : h.length using Nat.strong_induction_on generalizing h with
  | _ n ih =>
  rcases Runs.exists_latest Step.Recognised h with quiet | ⟨later, x, earlier, rfl, hx, quiet⟩
  · have state := b.boot_state quiet below.start
    by_cases early : b.Early b.reading 800 h
    · simp [state.1 early, b.not_errorUp_of_quiet quiet]
    · simp [state.2 early, b.not_errorUp_of_quiet quiet]
  · have under : (b.after earlier).state = .error ↔ b.ErrorUp earlier := by
      refine ih earlier.length ?_ earlier (below.suffix ?_) rfl
      · simp only [List.length_append, List.length_cons] at n
        omega
      · exact (List.suffix_cons x earlier).trans (List.suffix_append later _)
    cases x with
    | iteration r => exact absurd hx (Step.not_recognised_iteration r)
    | event e u =>
      have small : (b.clock u).toNat < 2 ^ 32 - 800 := below.steps (.event e u) (by simp)
      cases e with
      | other type => cases hx
      | errorSet errorCode =>
        have touches : (Step.event (.errorSet errorCode) u).TouchesError := trivial
        simp [b.untimed_state quiet touches, b.errorUp_errorSet quiet]
      | errorClear =>
        have touches : (Step.event .errorClear u).TouchesError := trivial
        simp [b.untimed_state quiet touches, b.not_errorUp_errorClear quiet]
      | hit => exact b.error_iff_overlay quiet rfl small under
      | msg text => exact b.error_iff_overlay quiet rfl small under

theorem Boot.state_closedForm (b : Boot W) (h : List (Step W)) (below : b.ClockBelow h) :
    b.ClosedForm h where
  boot quiet := (b.boot_state quiet below.start).1
  booted quiet := (b.boot_state quiet below.start).2
  errorSet := by
    rintro errorCode u later earlier rfl quiet
    have touches : (Step.event (.errorSet errorCode) u).TouchesError := trivial
    simp [b.untimed_state quiet touches]
  errorClear := by
    rintro u later earlier rfl quiet
    have touches : (Step.event .errorClear u).TouchesError := trivial
    simp [b.untimed_state quiet touches]
  overlay := by
    rintro e st d u later earlier rfl quiet overlay
    exact (b.overlay_state quiet overlay (below.steps (.event e u) (by simp))).1
  expired := by
    rintro e st d u later earlier rfl quiet overlay
    exact (b.overlay_state quiet overlay (below.steps (.event e u) (by simp))).2
  underError := by
    rintro e st d u later earlier rfl overlay
    apply b.error_iff_errorUp earlier (below.suffix ?_)
    exact (List.suffix_cons _ earlier).trans (List.suffix_append later _)

theorem Boot.state_closedForm_hit_over_error :
    (Boot.bare 0).ClosedForm
      [.iteration ⟨1700, ()⟩, .event .hit ⟨1000, ()⟩, .iteration ⟨950, ()⟩,
        .event (.errorSet 7) ⟨900, ()⟩] :=
  (Boot.bare 0).state_closedForm _
    { start := by decide
      steps := by
        simp only [List.mem_cons, List.not_mem_nil, or_false]
        rintro x (rfl | rfl | rfl | rfl)
        all_goals decide }

end RayzWeapon.Display
