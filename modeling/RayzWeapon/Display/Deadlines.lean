import RayzWeapon.Display.History
import RayzWeapon.Lib.WrapClock

universe u

namespace RayzWeapon.Display

open RayzWeapon.Lib

variable {W : Type u}

theorem due_iff (dm : Dm W) (t : UInt32) :
    Due dm t ↔ WrapClock.Reached dm.stateUntilMs.toNat t.toNat := by
  simp only [Due, WrapClock.Reached, ge_iff_le, UInt32.le_iff_toNat_le, ne_eq,
    ← UInt32.toNat_inj, UInt32.toNat_zero]

structure Dm.SameTimer (dm dm' : Dm W) : Prop where
  src : dm'.src = dm.src
  state : dm'.state = dm.state
  stateUntilMs : dm'.stateUntilMs = dm.stateUntilMs
  returnState : dm'.returnState = dm.returnState

theorem Dm.SameTimer.nowMs {dm dm' : Dm W} (same : dm.SameTimer dm') (r : Reading W) :
    nowMs dm' r = Display.nowMs dm r := by simp only [Display.nowMs, same.src]

theorem Dm.SameTimer.due {dm dm' : Dm W} (same : dm.SameTimer dm') (t : UInt32) :
    Due dm' t ↔ Due dm t := by simp only [Due, same.stateUntilMs]

theorem Dm.SameTimer.expiresInto {dm dm' : Dm W} (same : dm.SameTimer dm') :
    dm'.expiresInto = dm.expiresInto := by
  simp only [Dm.expiresInto, same.state, same.returnState]

theorem Dm.after_waiting (dm : Dm W) {later : List (Step W)} (quiet : ∀ x ∈ later, ¬x.Recognised)
    (early : ∀ r, .iteration r ∈ later → ¬Due dm (nowMs dm r)) :
    dm.SameTimer (dm.after later) := by
  induction later with
  | nil => exact ⟨rfl, rfl, rfl, rfl⟩
  | cons x later ih =>
    have same : dm.SameTimer (dm.after later) :=
      ih (fun y hy => quiet y (.tail x hy)) (fun r hr => early r (.tail x hr))
    have unrecognised := quiet x (.head later)
    simp only [Dm.after, Runs.after_cons] at same ⊢
    cases x with
    | event e r =>
      cases e with
      | other type => exact same
      | _ => exact absurd trivial unrecognised
    | iteration r =>
      have notDue : ¬Due (Runs.after step dm later) (nowMs (Runs.after step dm later) r) := by
        rw [same.nowMs, same.due]
        exact early r (.head later)
      constructor
      · simp [step, same.src]
      · simp [step, iteration_state, notDue, same.state]
      · simp [step, iteration_stateUntilMs, notDue, same.stateUntilMs]
      · simp [step, same.returnState]

theorem step_untimed {dm : Dm W} (untimed : dm.stateUntilMs = 0) {x : Step W}
    (unrecognised : ¬x.Recognised) :
    (step dm x).state = dm.state ∧ (step dm x).stateUntilMs = 0 := by
  cases x with
  | event e r =>
    cases e with
    | other type => exact ⟨rfl, untimed⟩
    | _ => exact absurd trivial unrecognised
  | iteration r => simp [step, iteration_state, iteration_stateUntilMs, Due, untimed]

theorem Dm.after_expired (dm : Dm W) {later : List (Step W)} (quiet : ∀ x ∈ later, ¬x.Recognised)
    (late : ∃ r, .iteration r ∈ later ∧ Due dm (nowMs dm r)) :
    (dm.after later).state = dm.expiresInto ∧ (dm.after later).stateUntilMs = 0 := by
  induction later with
  | nil => simp at late
  | cons x later ih =>
    have quiet' : ∀ y ∈ later, ¬y.Recognised := fun y hy => quiet y (.tail x hy)
    by_cases before : ∃ r, .iteration r ∈ later ∧ Due dm (nowMs dm r)
    · obtain ⟨state, untimed⟩ := ih quiet' before
      obtain ⟨state', untimed'⟩ := step_untimed untimed (quiet x (.head later))
      exact ⟨state'.trans state, untimed'⟩
    · -- The step just taken is the check that finds it.
      obtain ⟨r, member, due⟩ := late
      obtain rfl : x = .iteration r := by
        rcases List.mem_cons.mp member with eq | tail
        · exact eq.symm
        · exact absurd ⟨r, tail, due⟩ before
      have same : dm.SameTimer (Runs.after step dm later) :=
        dm.after_waiting quiet' (fun r' hr' due' => before ⟨r', hr', due'⟩)
      have due' : Due (Runs.after step dm later) (nowMs (Runs.after step dm later) r) := by
        rw [same.nowMs, same.due]
        exact due
      simp [Dm.after, step, iteration_state, iteration_stateUntilMs, due', same.expiresInto]

inductive Entered : Dm W → UInt32 → UInt32 → Prop
  | boot (b : Boot W) : Entered b.dm 800 (b.clock b.reading)
  | hit (dm : Dm W) (r : Reading W) : Entered (handleEvent dm .hit r) 600 (nowMs dm r)
  | msg (dm : Dm W) (text : Text) (r : Reading W) :
      Entered (handleEvent dm (.msg text) r) 800 (nowMs dm r)

theorem Entered.stateUntilMs {dm : Dm W} {d c : UInt32} (entered : Entered dm d c) :
    dm.stateUntilMs = c + d := by
  cases entered with
  | boot b => exact b.stateUntilMs
  | hit dm r => simp
  | msg dm text r => simp

theorem Entered.duration_pos {dm : Dm W} {d c : UInt32} (entered : Entered dm d c) :
    0 < d.toNat := by
  cases entered <;> decide

theorem Entered.expiresInto_ne {dm : Dm W} {d c : UInt32} (entered : Entered dm d c) :
    dm.expiresInto ≠ dm.state := by
  intro stays
  have left := dm.not_isOverlay_expiresInto
  rw [stays] at left
  cases entered with
  | boot b => simp [Dm.expiresInto] at stays
  | hit dm r => simp at left
  | msg dm text r => simp at left

/-- Steps after the entry at the clock value `c`, each with the true time elapsed since: none is a
recognised event, and each iteration reads the clock as it then stands. -/
structure QuietRun (dm : Dm W) (c : UInt32) (h : List (Nat × Step W)) : Prop where
  quiet : ∀ x ∈ h, ¬x.2.Recognised
  elapsed : ∀ x ∈ h, x.1 < 2 ^ 31
  clock : ∀ e r, (e, .iteration r) ∈ h → (nowMs dm r).toNat = (c.toNat + e) % 2 ^ 32

theorem QuietRun.tail {dm : Dm W} {c : UInt32} {h : List (Nat × Step W)} {x : Nat × Step W}
    (run : QuietRun dm c (x :: h)) : QuietRun dm c h where
  quiet y hy := run.quiet y (.tail x hy)
  elapsed y hy := run.elapsed y (.tail x hy)
  clock e r hr := run.clock e r (.tail x hr)

def Before (d : UInt32) (h : List (Nat × Step W)) : Prop :=
  ∀ e r, (e, .iteration r) ∈ h → e < d.toNat

def OnTime (dm : Dm W) (d : UInt32) (h : List (Nat × Step W)) : Prop :=
  ∀ e r k, h = (e, .iteration r) :: k → Before d k →
    ((dm.after (h.map Prod.snd)).state = dm.state ↔ e < d.toNat)

/-- The clock has wrapped by the iteration if and only if the deadline has; and if the deadline
is `0`, the iteration comes before it. -/
def NoWrapBetween (d c : UInt32) (h : List (Nat × Step W)) (x : Nat × Step W) : Prop :=
  ∀ e r, x = (e, .iteration r) → Before d h →
    if c.toNat + d.toNat = 2 ^ 32 then e < d.toNat
    else (c.toNat + e < 2 ^ 32 ↔ c.toNat + d.toNat < 2 ^ 32)

def NotYet (dm : Dm W) (d : UInt32) (h : List (Nat × Step W)) : Prop :=
  Before d h → ∀ r, .iteration r ∈ h.map Prod.snd → ¬Due dm (nowMs dm r)

theorem Entered.stays_iff {dm : Dm W} {d c : UInt32} (entered : Entered dm d c)
    {h : List (Nat × Step W)} {e : Nat} {r : Reading W}
    (run : QuietRun dm c ((e, .iteration r) :: h)) (before : Before d h) (notYet : NotYet dm d h) :
    (dm.after (((e, .iteration r) :: h).map Prod.snd)).state = dm.state ↔ ¬Due dm (nowMs dm r) := by
  have same : dm.SameTimer (Runs.after step dm (h.map Prod.snd)) := by
    apply dm.after_waiting ?_ (notYet before)
    intro x hx
    obtain ⟨y, hy, rfl⟩ := List.mem_map.mp hx
    exact run.tail.quiet y hy
  simp only [Dm.after, List.map_cons, Runs.after_cons, step, iteration_state, same.nowMs, same.due,
    same.expiresInto, same.state]
  by_cases due : Due dm (nowMs dm r) <;> simp [due, entered.expiresInto_ne]

theorem Entered.onTime_cons {dm : Dm W} {d c : UInt32} (entered : Entered dm d c)
    {h : List (Nat × Step W)} {e : Nat} {r : Reading W}
    (run : QuietRun dm c ((e, .iteration r) :: h)) (before : Before d h) (notYet : NotYet dm d h) :
    ((dm.after (((e, .iteration r) :: h).map Prod.snd)).state = dm.state ↔ e < d.toNat) ↔
      if c.toNat + d.toNat = 2 ^ 32 then e < d.toNat
      else (c.toNat + e < 2 ^ 32 ↔ c.toNat + d.toNat < 2 ^ 32) := by
  have reached : Due dm (nowMs dm r) ↔
      WrapClock.Reached ((c.toNat + d.toNat) % 2 ^ 32) ((c.toNat + e) % 2 ^ 32) := by
    rw [due_iff, entered.stateUntilMs, UInt32.toNat_add, run.clock e r (.head h)]
  have small : e < 2 ^ 32 := by
    have bound := run.elapsed _ (.head h)
    dsimp only at bound
    omega
  rw [entered.stays_iff run before notYet, reached,
    ← WrapClock.reached_iff c.toNat_lt entered.duration_pos d.toNat_lt small, ← Nat.not_le,
    not_iff_not]

theorem Entered.always_onTime_iff {dm : Dm W} {d c : UInt32} (entered : Entered dm d c)
    (h : List (Nat × Step W)) (run : QuietRun dm c h) :
    Runs.Always (OnTime dm d) h ↔ Runs.Each (NoWrapBetween d c) h := by
  refine Runs.always_iff_each_of (H := QuietRun dm c) (J := NotYet dm d) ?_ ?_ ?_ ?_ ?_ h run
  · intro h x run
    exact run.tail
  · simp [OnTime]
  · simp [NotYet]
  · intro h x run _ notYet onTime before r member
    have before' : Before d h := fun e r hr => before e r (.tail x hr)
    rcases List.mem_cons.mp member with eq | tail
    · obtain ⟨e, s⟩ := x
      obtain rfl : s = .iteration r := eq.symm
      intro due
      have stays := (onTime e r h rfl before').mpr (before e r (.head h))
      exact (entered.stays_iff run before' notYet).mp stays due
    · exact notYet before' r tail
  · intro h x run _ notYet
    obtain ⟨e, s⟩ := x
    constructor
    · rintro onTime e' r hx before
      cases hx
      exact (entered.onTime_cons run before notYet).mp (onTime e r h rfl before)
    · rintro good e' r k hx before
      cases hx
      exact (entered.onTime_cons run before notYet).mpr (good e r rfl before)

theorem Entered.always_onTime_iff_hit_iteration :
    Runs.Always (OnTime (handleEvent (Boot.bare 0).dm .hit ⟨1000, ()⟩) 600)
        [(600, .iteration ⟨1600, ()⟩), (599, .iteration ⟨1599, ()⟩)] ↔
      Runs.Each (NoWrapBetween 600 1000)
        [(600, .iteration ⟨1600, ()⟩), (599, .iteration ⟨1599, ()⟩)] :=
  Entered.always_onTime_iff (.hit (Boot.bare 0).dm ⟨1000, ()⟩) _
    { quiet := by simp
      elapsed := by simp
      clock := by
        simp only [List.mem_cons, Prod.mk.injEq, List.not_mem_nil, or_false]
        rintro e r (⟨rfl, hr⟩ | ⟨rfl, hr⟩)
        all_goals
          cases hr
          decide }

theorem hit_overlay_ends_at_once_before_wrap :
    let dm := handleEvent (Boot.bare 0).dm .hit ⟨4294967196, ()⟩
    let h : List (Nat × Step Unit) := [(0, .iteration ⟨4294967196, ()⟩)]
    QuietRun dm 4294967196 h ∧ ¬Runs.Always (OnTime dm 600) h := by
  constructor
  · constructor
    · simp
    · simp
    · simp only [List.mem_singleton, Prod.mk.injEq]
      rintro e r ⟨rfl, hr⟩
      cases hr
      decide
  · intro onTime
    have early := onTime.now 0 ⟨4294967196, ()⟩ [] rfl (by simp [Before])
    exact absurd early (by decide)

end RayzWeapon.Display
