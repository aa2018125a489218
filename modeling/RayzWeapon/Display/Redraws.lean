import RayzWeapon.Display.Steps
import RayzWeapon.Lib.WrapClock
import Mathlib.Data.List.Chain

universe u

namespace RayzWeapon.Display

open RayzWeapon.Lib

variable {W : Type u}

/-- A `render_debug`, or a frame of the blinking hit text. -/
inductive FastDraw
  | debug
  | blink
  deriving DecidableEq

def fastDraw (dm : Dm W) (t : UInt32) : Option FastDraw :=
  if t - dm.lastFastMs ≥ 100 then
    match dm.state with
    | .debug => some .debug
    | .overlayHit => some .blink
    | _ => none
  else none

inductive FastRedraw (dm : Dm W) (t : UInt32) (r : Reading W) (dm' : Dm W) : Option FastDraw → Prop
  | debug (rows : dm'.rows = (renderDebug dm 0 (t - dm.lastSlowMs ≥ 1000) r).rows)
    (stamp : dm'.lastFastMs = t) : FastRedraw dm t r dm' (some .debug)
  | blink (frame : dm'.overlay = ⟨if dm.on then "    ".toList else "HIT!".toList, false⟩)
    (stamp : dm'.lastFastMs = t) : FastRedraw dm t r dm' (some .blink)
  | still (overlay : dm'.overlay = dm.overlay) (rows : dm.state ≠ .error → dm'.rows = dm.rows)
    (stamp : dm'.lastFastMs = dm.lastFastMs) : FastRedraw dm t r dm' none

theorem redraw_fastRedraw (dm : Dm W) (t : UInt32) (r : Reading W) :
    FastRedraw dm t r (redraw dm t r) (fastDraw dm t) := by
  unfold redraw fastDraw
  dsimp only
  cases state : dm.state with
  | error =>
    dsimp only
    rw [ite_self]
    split
    · exact .still (by simp) (absurd state) (by simp)
    · exact .still rfl (fun _ => rfl) rfl
  | debug =>
    dsimp only
    by_cases fast : t - dm.lastFastMs ≥ 100
    · rw [if_pos fast, if_pos (decide_eq_true fast)]
      split <;> exact .debug rfl rfl
    · simp only [fast, decide_false, Bool.false_eq_true, if_false]
      split <;> exact .still rfl (fun _ => rfl) rfl
  | overlayHit =>
    dsimp only
    by_cases fast : t - dm.lastFastMs ≥ 100
    · rw [if_pos fast, if_pos (decide_eq_true fast)]
      refine .blink ?_ rfl
      cases dm.on <;> simp [overlayShow]
    · rw [if_neg fast, if_neg (by simpa using fast)]
      exact .still rfl (fun _ => rfl) rfl
  | boot | overlayMsg =>
    dsimp only
    rw [ite_self]
    exact .still rfl (fun _ => rfl) rfl

theorem redraw_lastFastMs (dm : Dm W) (t : UInt32) (r : Reading W) :
    (redraw dm t r).lastFastMs = if (fastDraw dm t).isSome then t else dm.lastFastMs := by
  have drawn := redraw_fastRedraw dm t r
  generalize fastDraw dm t = draw at drawn ⊢
  cases drawn with
  | debug rows stamp => exact stamp
  | blink frame stamp => exact stamp
  | still overlay rows stamp => exact stamp

def drawn (dm : Dm W) (r : Reading W) : Option FastDraw :=
  fastDraw (checkDeadline dm (nowMs dm r) r) (nowMs dm r)

theorem checkDeadline_lastFastMs (dm : Dm W) (t : UInt32) (r : Reading W) :
    (checkDeadline dm t r).lastFastMs = dm.lastFastMs := by
  have checked := checkDeadline_checked dm t r
  generalize checkDeadline dm t r = dm' at checked ⊢
  cases checked <;> rfl

theorem iteration_lastFastMs (dm : Dm W) (r : Reading W) :
    (iteration dm r).lastFastMs = if (drawn dm r).isSome then nowMs dm r else dm.lastFastMs := by
  rw [iteration, drawn, redraw_lastFastMs, checkDeadline_lastFastMs]

theorem handleEvent_lastFastMs (dm : Dm W) (e : DmEvent) (r : Reading W) :
    (handleEvent dm e r).lastFastMs = dm.lastFastMs := by
  cases e <;> simp

def Dm.fastAge (dm : Dm W) (t : UInt32) : Nat :=
  WrapClock.age (2 ^ 32) dm.lastFastMs.toNat t.toNat

theorem fast_iff (dm : Dm W) (t : UInt32) : t - dm.lastFastMs ≥ 100 ↔ 100 ≤ dm.fastAge t := by
  rw [ge_iff_le, UInt32.le_iff_toNat_le, UInt32.toNat_sub]
  rfl

theorem fastDraw_eq (dm : Dm W) (t : UInt32) :
    fastDraw dm t = if 100 ≤ dm.fastAge t then
      match dm.state with
      | .debug => some .debug
      | .overlayHit => some .blink
      | _ => none
    else none := by
  simp only [fastDraw, fast_iff]

theorem drawn_eq (dm : Dm W) (r : Reading W) :
    drawn dm r = if 100 ≤ dm.fastAge (nowMs dm r) then
      match (checkDeadline dm (nowMs dm r) r).state with
      | .debug => some .debug
      | .overlayHit => some .blink
      | _ => none
    else none := by
  rw [drawn, fastDraw_eq, Dm.fastAge, checkDeadline_lastFastMs, ← Dm.fastAge]

theorem le_fastAge_of_drawn {dm : Dm W} {r : Reading W} (draws : (drawn dm r).isSome) :
    100 ≤ dm.fastAge (nowMs dm r) := by
  rw [drawn_eq] at draws
  by_contra young
  simp [young] at draws

def ReachesDebug (dm : Dm W) (r : Reading W) : Prop :=
  (checkDeadline dm (nowMs dm r) r).state = .debug

theorem drawn_debug {dm : Dm W} {r : Reading W} (debug : ReachesDebug dm r) :
    drawn dm r = if 100 ≤ dm.fastAge (nowMs dm r) then some .debug else none := by
  rw [drawn_eq, debug]

section TimedRun

variable (dm : Dm W)

def Dm.afterTimed (h : List (Nat × Step W)) : Dm W := dm.after (h.map Prod.snd)

/-- The true time of the steps never goes back, and an iteration reads it modulo `2 ^ 32`. -/
structure TimedRun (h : List (Nat × Step W)) : Prop where
  ordered : h.Pairwise fun x y => y.1 ≤ x.1
  clock : ∀ t r, (t, .iteration r) ∈ h → (nowMs dm r).toNat = t % 2 ^ 32

def drawnAt (h : List (Nat × Step W)) : Step W → Option FastDraw
  | .event _ _ => none
  | .iteration r => drawn (dm.afterTimed h) r

theorem nowMs_afterTimed (h : List (Nat × Step W)) (r : Reading W) :
    nowMs (dm.afterTimed h) r = nowMs dm r := by
  have src : (dm.afterTimed h).src = dm.src :=
    Runs.invariant (P := fun dm' => dm'.src = dm.src) rfl
      (fun dm' x same => (step_src dm' x).trans same) _
  simp only [nowMs, src]

variable {dm}

theorem TimedRun.suffix {h k : List (Nat × Step W)} (run : TimedRun dm h) (sub : k <:+ h) :
    TimedRun dm k where
  ordered := run.ordered.sublist sub.sublist
  clock t r hr := run.clock t r (sub.subset hr)

theorem TimedRun.lastFastMs {x : Nat × Step W} {h : List (Nat × Step W)}
    (run : TimedRun dm (x :: h)) :
    (dm.afterTimed (x :: h)).lastFastMs.toNat =
      if (drawnAt dm h x.2).isSome then x.1 % 2 ^ 32 else (dm.afterTimed h).lastFastMs.toNat := by
  obtain ⟨t, x⟩ := x
  cases x with
  | event e r => exact congrArg UInt32.toNat (handleEvent_lastFastMs (dm.afterTimed h) e r)
  | iteration r =>
    have stamp := congrArg UInt32.toNat (iteration_lastFastMs (dm.afterTimed h) r)
    rw [nowMs_afterTimed, apply_ite UInt32.toNat, run.clock t r (.head h)] at stamp
    exact stamp

theorem TimedRun.stamped {x : Nat × Step W} {h between : List (Nat × Step W)}
    (run : TimedRun dm (between ++ x :: h)) (draws : (drawnAt dm h x.2).isSome) :
    ∃ y ∈ between ++ x :: h, x.1 ≤ y.1 ∧
      (dm.afterTimed (between ++ x :: h)).lastFastMs.toNat = y.1 % 2 ^ 32 := by
  induction between with
  | nil => exact ⟨x, .head h, Nat.le_refl _, run.lastFastMs.trans (if_pos draws)⟩
  | cons z between ih =>
    by_cases again : (drawnAt dm (between ++ x :: h) z.2).isSome
    · refine ⟨z, .head _, ?_, run.lastFastMs.trans (if_pos again)⟩
      exact (List.pairwise_cons.mp run.ordered).1 x (by simp)
    · obtain ⟨y, member, later, stamp⟩ := ih (run.suffix (List.suffix_cons z _))
      exact ⟨y, .tail z member, later, (run.lastFastMs.trans (if_neg again)).trans stamp⟩

theorem TimedRun.spaced {x y : Nat × Step W} {h between : List (Nat × Step W)}
    (run : TimedRun dm (x :: (between ++ y :: h)))
    (draws : (drawnAt dm (between ++ y :: h) x.2).isSome) (draws' : (drawnAt dm h y.2).isSome) :
    y.1 + 100 ≤ x.1 := by
  obtain ⟨z, member, later, stamp⟩ := (run.suffix (List.suffix_cons x _)).stamped draws'
  obtain ⟨t, x⟩ := x
  cases x with
  | event e r => cases draws
  | iteration r =>
    have old := le_fastAge_of_drawn draws
    obtain ⟨d, rfl⟩ := Nat.exists_eq_add_of_le ((List.pairwise_cons.mp run.ordered).1 z member)
    rw [nowMs_afterTimed, Dm.fastAge, stamp, run.clock _ r (.head _)] at old
    have young := WrapClock.age_stamp_le (M := 2 ^ 32) (by decide) z.1 d
    dsimp only
    omega

def iterationTimes : List (Nat × Step W) → List Nat
  | [] => []
  | (t, .iteration _) :: h => t :: iterationTimes h
  | (_, .event _ _) :: h => iterationTimes h

/-- The iterations of the stretch all reach the drawing step in the debug state, at most `g`
milliseconds apart. -/
structure DebugStretch (dm : Dm W) (g : Nat) (stretch earlier : List (Nat × Step W)) : Prop where
  debug : ∀ t r k, (t, .iteration r) :: k <:+ stretch →
    ReachesDebug (dm.afterTimed (k ++ earlier)) r
  gaps : (iterationTimes stretch).IsChain fun t t' => t ≤ t' + g

def DrawnBefore (dm : Dm W) (limit : Nat) (steps earlier : List (Nat × Step W)) : Prop :=
  ∃ t r later before, steps = later ++ (t, .iteration r) :: before ∧
    drawnAt dm (before ++ earlier) (.iteration r) = some .debug ∧
    (∀ x k, x :: k <:+ before → drawnAt dm (k ++ earlier) x.2 = none) ∧ t < limit

theorem DrawnBefore.cons {limit : Nat} {steps earlier : List (Nat × Step W)}
    (drawn : DrawnBefore dm limit steps earlier) (x : Nat × Step W) :
    DrawnBefore dm limit (x :: steps) earlier := by
  obtain ⟨t, r, later, before, rfl, draws, first, early⟩ := drawn
  exact ⟨t, r, x :: later, before, rfl, draws, first, early⟩

structure Waiting (dm : Dm W) (t₀ a : Nat) (steps earlier : List (Nat × Step W)) : Prop where
  quiet : ∀ x k, x :: k <:+ steps → drawnAt dm (k ++ earlier) x.2 = none
  stamp : (dm.afterTimed (steps ++ earlier)).lastFastMs = (dm.afterTimed earlier).lastFastMs
  young : ∀ t ∈ iterationTimes steps, a + t < t₀ + 100

theorem Waiting.cons {t₀ a : Nat} {steps earlier : List (Nat × Step W)}
    (waiting : Waiting dm t₀ a steps earlier) {x : Nat × Step W}
    (run : TimedRun dm (x :: (steps ++ earlier)))
    (quiet : drawnAt dm (steps ++ earlier) x.2 = none)
    (young : ∀ t ∈ iterationTimes (x :: steps), a + t < t₀ + 100) :
    Waiting dm t₀ a (x :: steps) earlier where
  quiet y k sub := by
    rcases List.suffix_cons_iff.mp sub with eq | sub
    · obtain ⟨rfl, rfl⟩ := List.cons_eq_cons.mp eq
      exact quiet
    · exact waiting.quiet y k sub
  stamp := by
    have same := run.lastFastMs
    rw [quiet] at same
    exact (UInt32.toNat_inj.mp same).trans waiting.stamp
  young := young

section Liveness

variable {g t₀ a : Nat} {earlier : List (Nat × Step W)}

theorem exists_young_before {steps : List (Nat × Step W)} {t : Nat} (ha : a < 100)
    (young : ∀ t ∈ iterationTimes steps, a + t < t₀ + 100)
    (gap : ∀ t' ∈ (iterationTimes steps ++ [t₀]).head?, t ≤ t' + g) : a + t < t₀ + 100 + g := by
  cases times : iterationTimes steps with
  | nil =>
    have first := gap t₀ (by simp [times])
    omega
  | cons t' times' =>
    have next := gap t' (by simp [times])
    have before := young t' (by simp [times])
    omega

theorem TimedRun.drawnBefore_or_waiting {steps : List (Nat × Step W)}
    (run : TimedRun dm (steps ++ earlier)) (hg : g < 2 ^ 31)
    (stamp : WrapClock.age (2 ^ 32) (dm.afterTimed earlier).lastFastMs.toNat (t₀ % 2 ^ 32) = a)
    (ha : a < 100) (since : ∀ t ∈ iterationTimes steps, t₀ ≤ t)
    (debug : ∀ t r k, (t, .iteration r) :: k <:+ steps →
      ReachesDebug (dm.afterTimed (k ++ earlier)) r)
    (gaps : (iterationTimes steps ++ [t₀]).IsChain fun t t' => t ≤ t' + g) :
    DrawnBefore dm (t₀ + 100 + g) steps earlier ∨ Waiting dm t₀ a steps earlier := by
  induction steps with
  | nil => exact .inr ⟨by simp, rfl, by simp [iterationTimes]⟩
  | cons x steps ih =>
    obtain ⟨t, x⟩ := x
    have run' := run.suffix (List.suffix_cons (t, x) (steps ++ earlier))
    have debug' (t r k) (sub : (t, .iteration r) :: k <:+ steps) :=
      debug t r k (sub.trans (List.suffix_cons _ steps))
    cases x with
    | event e r =>
      rcases ih run' since debug' gaps with drawn | waiting
      · exact .inl (drawn.cons _)
      · exact .inr (waiting.cons run rfl waiting.young)
    | iteration r =>
      simp only [iterationTimes, List.cons_append, List.isChain_cons, List.mem_cons,
        forall_eq_or_imp] at since gaps
      rcases ih run' since.2 debug' gaps.2 with drawn | waiting
      · exact .inl (drawn.cons _)
      · have soon := exists_young_before ha waiting.young gaps.1
        obtain ⟨d, rfl⟩ := Nat.exists_eq_add_of_le since.1
        -- The stamp is less than 100 + g old: its age has not wrapped yet.
        have age : (dm.afterTimed (steps ++ earlier)).fastAge
            (nowMs (dm.afterTimed (steps ++ earlier)) r) = a + d := by
          rw [nowMs_afterTimed, Dm.fastAge, waiting.stamp, run.clock _ r (.head _)]
          exact WrapClock.age_of_young stamp (by omega)
        have draws := drawn_debug (debug _ r steps (List.suffix_refl _))
        rw [age] at draws
        by_cases old : 100 ≤ a + d
        · rw [if_pos old] at draws
          exact .inl ⟨_, r, [], steps, rfl, draws, waiting.quiet, by omega⟩
        · rw [if_neg old] at draws
          refine .inr (waiting.cons run draws ?_)
          simp only [iterationTimes, List.mem_cons, forall_eq_or_imp]
          exact ⟨by omega, waiting.young⟩

end Liveness

theorem iterationTimes_append (h k : List (Nat × Step W)) :
    iterationTimes (h ++ k) = iterationTimes h ++ iterationTimes k := by
  induction h with
  | nil => rfl
  | cons x h ih =>
    obtain ⟨t, e | r⟩ := x
    · exact ih
    · exact congrArg (t :: ·) ih

theorem mem_of_mem_iterationTimes {h : List (Nat × Step W)} {t : Nat} (ht : t ∈ iterationTimes h) :
    ∃ r, (t, .iteration r) ∈ h := by
  induction h with
  | nil => cases ht
  | cons x h ih =>
    obtain ⟨t', e | r⟩ := x
    · obtain ⟨r, hr⟩ := ih ht
      exact ⟨r, .tail _ hr⟩
    · rcases List.mem_cons.mp ht with rfl | ht
      · exact ⟨r, .head h⟩
      · obtain ⟨r', hr⟩ := ih ht
        exact ⟨r', .tail _ hr⟩

theorem TimedRun.le_of_mem {later k : List (Nat × Step W)} {x : Nat × Step W}
    (run : TimedRun dm (later ++ x :: k)) {t : Nat} (ht : t ∈ iterationTimes later) : x.1 ≤ t := by
  obtain ⟨r, hr⟩ := mem_of_mem_iterationTimes ht
  exact (List.pairwise_append.mp run.ordered).2.2 _ hr x (.head k)

section Stretch

variable {g t : Nat} {r : Reading W} {later earlier : List (Nat × Step W)} (hg : g < 2 ^ 31)
  (lasts : ∃ t' ∈ iterationTimes later, t + 100 ≤ t')
include hg lasts

theorem TimedRun.first_debug (run : TimedRun dm (later ++ (t, .iteration r) :: earlier))
    (stretch : DebugStretch dm g (later ++ [(t, .iteration r)]) earlier) :
    DrawnBefore dm (t + 100 + g) (later ++ [(t, .iteration r)]) earlier := by
  have times : iterationTimes (later ++ [(t, .iteration r)]) = iterationTimes later ++ [t] :=
    iterationTimes_append later _
  have age : (dm.afterTimed earlier).fastAge (nowMs (dm.afterTimed earlier) r) =
      WrapClock.age (2 ^ 32) (dm.afterTimed earlier).lastFastMs.toNat (t % 2 ^ 32) := by
    rw [nowMs_afterTimed, Dm.fastAge, run.clock t r (by simp)]
  by_cases old : 100 ≤ (dm.afterTimed earlier).fastAge (nowMs (dm.afterTimed earlier) r)
  · -- The stretch opens with a draw.
    have draws := drawn_debug (stretch.debug t r [] (List.suffix_append later _))
    rw [List.nil_append, if_pos old] at draws
    exact ⟨t, r, later, [], rfl, draws, by simp, by omega⟩
  · rw [age] at old
    have run' : TimedRun dm ((later ++ [(t, .iteration r)]) ++ earlier) := by simpa using run
    have since : ∀ t' ∈ iterationTimes (later ++ [(t, .iteration r)]), t ≤ t' := by
      intro t' ht'
      rw [times, List.mem_append, List.mem_singleton] at ht'
      rcases ht' with ht' | rfl
      · exact run.le_of_mem ht'
      · exact Nat.le_refl t'
    have gaps : (iterationTimes (later ++ [(t, .iteration r)]) ++ [t]).IsChain
        fun t t' => t ≤ t' + g := by
      rw [List.isChain_append]
      refine ⟨stretch.gaps, List.isChain_singleton t, ?_⟩
      simp [times]
    rcases run'.drawnBefore_or_waiting hg rfl (by omega) since stretch.debug gaps
      with drawn | waiting
    · exact drawn
    · obtain ⟨t', ht', late⟩ := lasts
      have young := waiting.young t' (by simp [times, ht'])
      omega

theorem TimedRun.next_debug {before : List (Nat × Step W)}
    (run : TimedRun dm (later ++ (t, .iteration r) :: (before ++ earlier)))
    (stretch : DebugStretch dm g (later ++ (t, .iteration r) :: before) earlier)
    (draws : drawnAt dm (before ++ earlier) (.iteration r) = some .debug) :
    DrawnBefore dm (t + 100 + g) later ((t, .iteration r) :: (before ++ earlier)) := by
  have run' := run.suffix (List.suffix_append later _)
  have stamp : WrapClock.age (2 ^ 32)
      (dm.afterTimed ((t, .iteration r) :: (before ++ earlier))).lastFastMs.toNat
      (t % 2 ^ 32) = 0 := by
    rw [run'.lastFastMs, draws]
    exact WrapClock.age_self (by decide) t
  have debug : ∀ t' r' k, (t', .iteration r') :: k <:+ later →
      ReachesDebug (dm.afterTimed (k ++ (t, .iteration r) :: (before ++ earlier))) r' := by
    rintro t' r' k ⟨l, rfl⟩
    have reached := stretch.debug t' r' (k ++ (t, .iteration r) :: before) ⟨l, by simp⟩
    simpa using reached
  have gaps : (iterationTimes later ++ [t]).IsChain fun t t' => t ≤ t' + g := by
    have all := stretch.gaps
    rw [iterationTimes_append, iterationTimes, List.append_cons] at all
    exact all.left_of_append
  rcases run.drawnBefore_or_waiting hg stamp (by decide) (fun _ => run.le_of_mem) debug gaps
    with drawn | waiting
  · exact drawn
  · obtain ⟨t', ht', late⟩ := lasts
    have young := waiting.young t' ht'
    omega

end Stretch

end TimedRun

/-- The fast rate over a run: `drawnAt` names what an iteration draws, two draws are 100 ms apart, and
in a stretch of iterations in the debug state, at most `g` ms apart, the first draw and each further
one come within `100 + g` ms. -/
structure FastRedraws (dm : Dm W) (h : List (Nat × Step W)) : Prop where
  draws : ∀ later t r earlier, h = later ++ (t, .iteration r) :: earlier →
    let before := dm.afterTimed earlier
    FastRedraw (checkDeadline before (nowMs before r) r) (nowMs before r) r
      (dm.afterTimed ((t, .iteration r) :: earlier)) (drawnAt dm earlier (.iteration r))
  spaced : ∀ later x between y earlier, h = later ++ x :: (between ++ y :: earlier) →
    (drawnAt dm (between ++ y :: earlier) x.2).isSome → (drawnAt dm earlier y.2).isSome →
    y.1 + 100 ≤ x.1
  first : ∀ g recent stretch earlier t r later, g < 2 ^ 31 → h = recent ++ (stretch ++ earlier) →
    DebugStretch dm g stretch earlier → stretch = later ++ [(t, .iteration r)] →
    (∃ t' ∈ iterationTimes later, t + 100 ≤ t') →
    DrawnBefore dm (t + 100 + g) stretch earlier
  next : ∀ g recent stretch earlier later t r before, g < 2 ^ 31 →
    h = recent ++ (stretch ++ earlier) → DebugStretch dm g stretch earlier →
    stretch = later ++ (t, .iteration r) :: before →
    drawnAt dm (before ++ earlier) (.iteration r) = some .debug →
    (∃ t' ∈ iterationTimes later, t + 100 ≤ t') →
    DrawnBefore dm (t + 100 + g) later ((t, .iteration r) :: (before ++ earlier))

theorem TimedRun.fastRedraws {dm : Dm W} {h : List (Nat × Step W)} (run : TimedRun dm h) :
    FastRedraws dm h where
  draws _ _ _ _ _ := redraw_fastRedraw _ _ _
  spaced := by
    rintro later x between y earlier rfl draws draws'
    exact (run.suffix (List.suffix_append later _)).spaced draws draws'
  first := by
    rintro g recent stretch earlier t r later hg rfl debug rfl lasts
    have run' := run.suffix (List.suffix_append recent _)
    rw [List.append_assoc] at run'
    exact run'.first_debug hg lasts debug
  next := by
    rintro g recent stretch earlier later t r before hg rfl debug rfl draws lasts
    have run' := run.suffix (List.suffix_append recent _)
    rw [List.append_assoc] at run'
    exact run'.next_debug hg lasts debug draws

theorem TimedRun.fastRedraws_wrap :
    FastRedraws (Boot.bare 4294966000).dm
      [(4294967396, .iteration ⟨100, ()⟩), (4294967196, .iteration ⟨4294967196, ()⟩),
        (4294966800, .iteration ⟨4294966800, ()⟩)] :=
  TimedRun.fastRedraws
    { ordered := by simp
      clock := by
        simp only [List.mem_cons, Prod.mk.injEq, List.not_mem_nil, or_false]
        rintro t r (⟨rfl, hr⟩ | ⟨rfl, hr⟩ | ⟨rfl, hr⟩)
        all_goals
          cases hr
          decide }

end RayzWeapon.Display
