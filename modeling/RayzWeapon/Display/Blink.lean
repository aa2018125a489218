import RayzWeapon.Display.ClosedForm
import RayzWeapon.Display.Screen
import RayzWeapon.Lib.Spaced
import Mathlib.Data.Nat.Bits

universe u

namespace RayzWeapon.Display

open RayzWeapon.Lib

variable {W : Type u}

theorem redraw_on (dm : Dm W) (t : UInt32) (r : Reading W) :
    (redraw dm t r).on = if fastDraw dm t = some .blink then !dm.on else dm.on := by
  have never : ¬(none : Option FastDraw) = some .blink := nofun
  unfold redraw fastDraw
  dsimp only
  cases state : dm.state with
  | error =>
    dsimp only
    rw [ite_self, if_neg never]
    split <;> rfl
  | debug =>
    dsimp only
    have other : ¬(if t - dm.lastFastMs ≥ 100 then some FastDraw.debug else none) = some .blink := by
      split <;> simp
    rw [if_neg other]
    split <;> split
    all_goals first | rfl | rw [renderDebug_rows]
  | overlayHit =>
    dsimp only
    by_cases fast : t - dm.lastFastMs ≥ 100
    · rw [if_pos fast, if_pos rfl, if_pos (decide_eq_true fast)]
      rfl
    · rw [if_neg fast, if_neg never, if_neg (by simpa using fast)]
  | boot | overlayMsg =>
    dsimp only
    rw [ite_self, if_neg never]

theorem checkDeadline_on (dm : Dm W) (t : UInt32) (r : Reading W) :
    (checkDeadline dm t r).on = dm.on := by
  have checked := checkDeadline_checked dm t r
  generalize checkDeadline dm t r = dm' at checked ⊢
  cases checked <;> rfl

theorem iteration_on (dm : Dm W) (r : Reading W) :
    (iteration dm r).on = if drawn dm r = some .blink then !dm.on else dm.on := by
  rw [iteration, drawn, redraw_on, checkDeadline_on]

theorem iteration_blink {dm : Dm W} {r : Reading W} (blink : drawn dm r = some .blink) :
    (iteration dm r).state = .overlayHit ∧
      (iteration dm r).overlay = ⟨if dm.on then "    ".toList else "HIT!".toList, false⟩ := by
  have redrawn := redraw_fastRedraw (checkDeadline dm (nowMs dm r) r) (nowMs dm r) r
  rw [drawn] at blink
  rw [blink] at redrawn
  constructor
  · rw [iteration, redraw_state]
    unfold fastDraw at blink
    split at blink
    · cases state : (checkDeadline dm (nowMs dm r) r).state <;> simp [state] at blink ⊢
    · cases blink
  · cases redrawn with
    | blink frame => rw [iteration, frame, checkDeadline_on]

section Frames

variable (dm : Dm W) (earlier : List (Nat × Step W))

def blinkTimes : List (Nat × Step W) → List Nat
  | [] => []
  | x :: later =>
    (if drawnAt dm (later ++ earlier) x.2 = some .blink then [x.1] else []) ++ blinkTimes later

theorem on_after (later : List (Nat × Step W)) :
    (dm.afterTimed (later ++ earlier)).on =
      ((dm.afterTimed earlier).on ^^ (blinkTimes dm earlier later).length.bodd) := by
  induction later with
  | nil => simp [blinkTimes]
  | cons x later ih =>
    obtain ⟨t, x⟩ := x
    rw [List.cons_append, blinkTimes]
    cases x with
    | event e r =>
      have same : (dm.afterTimed ((t, .event e r) :: (later ++ earlier))).on =
          (dm.afterTimed (later ++ earlier)).on := by
        cases e <;> rfl
      rw [same, ih]
      simp [drawnAt]
    | iteration r =>
      have flips : (dm.afterTimed ((t, .iteration r) :: (later ++ earlier))).on = _ :=
        iteration_on (dm.afterTimed (later ++ earlier)) r
      rw [flips, ih, drawnAt]
      split
      · simp [Nat.bodd_succ]
      · simp

end Frames

section Hit

variable {dm : Dm W} {earlier later : List (Nat × Step W)} {t t₀ : Nat} {u : Reading W}

theorem mem_blinkTimes (ht : t ∈ blinkTimes dm earlier later) :
    ∃ r k, (t, .iteration r) :: k <:+ later ∧
      drawnAt dm (k ++ earlier) (.iteration r) = some .blink := by
  induction later with
  | nil => cases ht
  | cons x later ih =>
    obtain ⟨t', x⟩ := x
    rcases List.mem_append.mp ht with now | before
    · dsimp only at now
      split at now
      next blink =>
        obtain rfl := List.mem_singleton.mp now
        cases x with
        | event e r => cases blink
        | iteration r => exact ⟨r, later, List.suffix_refl _, blink⟩
      next => cases now
    · obtain ⟨r, k, sub, blink⟩ := ih before
      exact ⟨r, k, sub.trans (List.suffix_cons _ later), blink⟩

theorem TimedRun.blinkTimes_spaced (run : TimedRun dm (later ++ earlier)) :
    Spaced 100 (blinkTimes dm earlier later) := by
  induction later with
  | nil => exact .nil
  | cons x later ih =>
    have before := ih (run.suffix (List.suffix_cons x _))
    rw [blinkTimes]
    split
    next blink =>
      refine List.Pairwise.cons (fun t' ht' => ?_) before
      obtain ⟨r, k, ⟨l, rfl⟩, blink'⟩ := mem_blinkTimes ht'
      have run' : TimedRun dm (x :: (l ++ (t', .iteration r) :: (k ++ earlier))) := by
        simpa using run
      have draws : (drawnAt dm (l ++ (t', .iteration r) :: (k ++ earlier)) x.2).isSome := by
        simpa using congrArg Option.isSome blink
      exact run'.spaced draws (by rw [blink']; rfl)
    next => exact before

theorem TimedRun.blink_early (run : TimedRun dm (later ++ (t₀, .event .hit u) :: earlier))
    (clock : (nowMs dm u).toNat = t₀ % 2 ^ 32) (quiet : ∀ x ∈ later, ¬x.2.Recognised)
    (epoch : ∀ t ∈ iterationTimes later, t / 2 ^ 32 = t₀ / 2 ^ 32)
    (ht : t ∈ blinkTimes dm ((t₀, .event .hit u) :: earlier) later) : t₀ ≤ t ∧ t ≤ t₀ + 599 := by
  obtain ⟨r, k, sub, blink⟩ := mem_blinkTimes ht
  have member : (t, Step.iteration r) ∈ later := sub.subset (.head k)
  have since : t₀ ≤ t := (List.pairwise_append.mp run.ordered).2.2 _ member _ (.head earlier)
  have same := epoch t (mem_iterationTimes member)
  have read := run.clock t r (by simp [member])
  refine ⟨since, ?_⟩
  by_cases noWrap : (nowMs dm u).toNat + 600 < 2 ^ 32
  · by_contra late
    have hit : (dm.afterTimed ((t₀, .event .hit u) :: earlier)).stateUntilMs.toNat =
        ((nowMs dm u).toNat + 600) % 2 ^ 32 := by
      have clock' := nowMs_afterTimed dm earlier u
      change (if (600 : UInt32) ≠ 0 then nowMs (dm.afterTimed earlier) u + 600 else 0).toNat = _
      rw [clock', if_pos (by decide), UInt32.toNat_add]
      rfl
    have quiet' : ∀ x ∈ ((t, Step.iteration r) :: k).map Prod.snd, ¬x.Recognised := by
      intro x hx
      obtain ⟨y, hy, rfl⟩ := List.mem_map.mp hx
      exact quiet y (sub.subset hy)
    have ended := Dm.after_late (by decide) noWrap hit quiet' (fun early => by
      have soon := early r (by simp)
      rw [nowMs_afterTimed, read] at soon
      omega)
    have shown := (iteration_blink blink).1
    have apart : dm.afterTimed ((t, .iteration r) :: (k ++ (t₀, .event .hit u) :: earlier)) =
        (dm.afterTimed ((t₀, .event .hit u) :: earlier)).after
          (((t, Step.iteration r) :: k).map Prod.snd) := by
      rw [Dm.afterTimed, ← List.cons_append, List.map_append]
      exact Runs.after_append ..
    change (dm.afterTimed ((t, .iteration r) :: (k ++ (t₀, .event .hit u) :: earlier))).state = _
      at shown
    rw [apart, ended] at shown
    exact absurd (.inl shown) (Dm.not_isOverlay_expiresInto _)
  · omega

theorem overlay_of_blink {k : List (Nat × Step W)} {r : Reading W}
    (blink : drawnAt dm k (.iteration r) = some .blink) :
    (dm.afterTimed ((t, .iteration r) :: k)).overlay =
      ⟨if dm.on ^^ (blinkTimes dm [] k).length.bodd then "    ".toList else "HIT!".toList,
        false⟩ := by
  have count := on_after dm [] k
  rw [List.append_nil] at count
  change (dm.afterTimed k).on = (dm.on ^^ _) at count
  rw [← count]
  exact (iteration_blink blink).2

end Hit

/-- The steps after a hit draw six frames at most, and which text a frame shows is decided by how many
the whole run has drawn before it, the frames of earlier hits included. -/
structure HitFrames (dm : Dm W) (later earlier : List (Nat × Step W)) : Prop where
  few : (blinkTimes dm earlier later).length ≤ 6
  frames : ∀ t r k, (t, .iteration r) :: k <:+ later →
    drawnAt dm (k ++ earlier) (.iteration r) = some .blink →
    (dm.afterTimed ((t, .iteration r) :: (k ++ earlier))).overlay =
      ⟨if dm.on ^^ (blinkTimes dm [] (k ++ earlier)).length.bodd then "    ".toList
        else "HIT!".toList, false⟩

theorem TimedRun.hitFrames {dm : Dm W} {later earlier : List (Nat × Step W)} {t₀ : Nat}
    {u : Reading W} (run : TimedRun dm (later ++ (t₀, .event .hit u) :: earlier))
    (clock : (nowMs dm u).toNat = t₀ % 2 ^ 32) (quiet : ∀ x ∈ later, ¬x.2.Recognised)
    (epoch : ∀ t ∈ iterationTimes later, t / 2 ^ 32 = t₀ / 2 ^ 32) :
    HitFrames dm later ((t₀, .event .hit u) :: earlier) := by
  constructor
  · have few := run.blinkTimes_spaced.countP_le (by decide) t₀ 599
    refine Nat.le_trans (Nat.le_of_eq ?_) few
    rw [eq_comm, List.countP_eq_length]
    intro t ht
    simpa using run.blink_early clock quiet epoch ht
  · exact fun t r k _ blink => overlay_of_blink blink

theorem TimedRun.hitFrames_after_one :
    let look (t : UInt32) : Nat × Step Unit := (t.toNat, .iteration ⟨t, ()⟩)
    let later := [look 2600, look 2500, look 2400, look 2300, look 2200, look 2100, look 2000]
    let before := [look 1600, look 1000, (1000, .event .hit ⟨1000, ()⟩)]
    let hit : Nat × Step Unit := (2000, .event .hit ⟨2000, ()⟩)
    (blinkTimes (Boot.bare 0).dm [] (hit :: before)).length = 1 ∧
      (blinkTimes (Boot.bare 0).dm (hit :: before) later).length = 6 ∧
      HitFrames (Boot.bare 0).dm later (hit :: before) := by
  intro look later before hit
  refine ⟨by decide +kernel, by decide +kernel, TimedRun.hitFrames ⟨?_, ?_⟩ rfl ?_ ?_⟩
  · simp [later, before, look]
  · intro t r hr
    have looked : ∃ c, t = c.toNat ∧ r = ⟨c, ()⟩ := by
      simp only [later, before, look, List.cons_append, List.nil_append, List.mem_cons,
        Prod.mk.injEq, Step.iteration.injEq, List.not_mem_nil, reduceCtorEq, and_false,
        false_or, or_false] at hr
      rcases hr with hr | hr | hr | hr | hr | hr | hr | hr | hr <;> exact ⟨_, hr⟩
    obtain ⟨c, rfl, rfl⟩ := looked
    have unit : portTickPeriodMs = 1 := by decide
    simp only [nowMs, Boot.bare, unit, UInt32.mul_one]
    exact (Nat.mod_eq_of_lt c.toNat_lt).symm
  · simp [later, look]
  · simp [later, look, iterationTimes]

end RayzWeapon.Display
