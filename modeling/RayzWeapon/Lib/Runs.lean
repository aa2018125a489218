import Mathlib.Data.List.Infix

/-! Runs of a deterministic labelled machine.  A history lists the labels latest first: its head is
the last step taken, and each of its suffixes is an earlier moment of the same run. -/

universe u v w

namespace RayzWeapon.Lib.Runs

variable {σ : Type u} {ι : Type v}

def after (step : σ → ι → σ) (s : σ) : List ι → σ
  | [] => s
  | x :: h => step (after step s h) x

@[simp] theorem after_nil (step : σ → ι → σ) (s : σ) : after step s [] = s := rfl

@[simp] theorem after_cons (step : σ → ι → σ) (s : σ) (x : ι) (h : List ι) :
    after step s (x :: h) = step (after step s h) x := rfl

theorem after_append (step : σ → ι → σ) (s : σ) (h k : List ι) :
    after step s (h ++ k) = after step (after step s k) h := by
  induction h with
  | nil => rfl
  | cons x h ih => simp only [List.cons_append, after_cons, ih]

theorem invariant {step : σ → ι → σ} {s : σ} {P : σ → Prop} (base : P s)
    (keep : ∀ t x, P t → P (step t x)) (h : List ι) : P (after step s h) := by
  induction h with
  | nil => exact base
  | cons x h ih => exact keep _ x ih

theorem simulation {τ : Type w} {κ : Type*} {step : σ → ι → σ} {step' : τ → κ → τ} {f : σ → τ}
    (sim : ∀ s x, f (step s x) = f s ∨ ∃ y, f (step s x) = step' (f s) y) (s : σ) (h : List ι) :
    ∃ k, f (after step s h) = after step' (f s) k := by
  induction h with
  | nil => exact ⟨[], rfl⟩
  | cons x h ih =>
    obtain ⟨k, eq⟩ := ih
    rcases sim (after step s h) x with stutter | ⟨y, stepped⟩
    · exact ⟨k, stutter.trans eq⟩
    · exact ⟨y :: k, stepped.trans (by rw [eq, after_cons])⟩

section Collect

variable {κ : Type w} (step : σ → ι → σ) (s : σ) (out : σ → ι → List κ)

/-- What the steps of a run put out, latest first. -/
def collect : List ι → List κ
  | [] => []
  | x :: h => out (after step s h) x ++ collect h

theorem collect_append (h k : List ι) :
    collect step s out (h ++ k) = collect step (after step s k) out h ++ collect step s out k := by
  induction h with
  | nil => rfl
  | cons x h ih =>
    rw [List.cons_append, collect, collect, ih, after_append, List.append_assoc]

theorem mem_collect {h : List ι} {y : κ} (hy : y ∈ collect step s out h) :
    ∃ x k, x :: k <:+ h ∧ y ∈ out (after step s k) x := by
  induction h with
  | nil => cases hy
  | cons x h ih =>
    rcases List.mem_append.mp hy with now | earlier
    · exact ⟨x, h, List.suffix_refl _, now⟩
    · obtain ⟨z, k, sub, mem⟩ := ih earlier
      exact ⟨z, k, sub.trans (List.suffix_cons x h), mem⟩

theorem projection {τ : Type*} {step' : τ → κ → τ} {f : σ → τ}
    (steps : ∀ s x, f (step s x) = after step' (f s) (out s x)) (h : List ι) :
    f (after step s h) = after step' (f s) (collect step s out h) := by
  induction h with
  | nil => rfl
  | cons x h ih => rw [after_cons, steps, ih, collect, after_append]

end Collect

section Latest

variable (step : σ → ι → σ) (s : σ) (kind : σ → ι → Bool)

def latest : List ι → Option σ
  | [] => none
  | x :: h => if kind (after step s h) x then some (after step s h) else latest h

def KeptSince {α : Type w} (f : σ → α) : List ι → Prop
  | [] => True
  | x :: h => f (after step s (x :: h)) = f (after step s h) ∧
      (kind (after step s h) x = true ∨ KeptSince f h)

instance instDecidableKeptSince {α : Type w} [DecidableEq α] (f : σ → α) :
    (h : List ι) → Decidable (KeptSince step s kind f h)
  | [] => .isTrue trivial
  | _ :: h =>
    have : Decidable (KeptSince step s kind f h) := instDecidableKeptSince f h
    inferInstanceAs (Decidable (_ = _ ∧ (_ = _ ∨ _)))

end Latest

def count (step : σ → ι → σ) (s : σ) (kind : σ → ι → Bool) : List ι → Nat
  | [] => 0
  | x :: h => count step s kind h + (kind (after step s h) x).toNat

def Always (P : List ι → Prop) (h : List ι) : Prop := ∀ k, k <:+ h → P k

def Each (good : List ι → ι → Prop) (h : List ι) : Prop := ∀ x k, x :: k <:+ h → good k x

@[simp] theorem always_nil {P : List ι → Prop} : Always P [] ↔ P [] := by
  constructor
  · intro hP
    exact hP [] (List.suffix_refl [])
  · intro hP k hk
    rwa [List.suffix_nil.mp hk]

@[simp] theorem always_cons {P : List ι → Prop} {x : ι} {h : List ι} :
    Always P (x :: h) ↔ P (x :: h) ∧ Always P h := by
  constructor
  · intro hP
    exact ⟨hP _ (List.suffix_refl _), fun k hk => hP k (hk.trans (List.suffix_cons x h))⟩
  · rintro ⟨hx, hP⟩ k hk
    rcases List.suffix_cons_iff.mp hk with rfl | hk
    · exact hx
    · exact hP k hk

theorem Always.now {P : List ι → Prop} {h : List ι} (hP : Always P h) : P h :=
  hP h (List.suffix_refl h)

@[simp] theorem each_nil {good : List ι → ι → Prop} : Each good [] := by
  intro x k hk
  simp at hk

@[simp] theorem each_cons {good : List ι → ι → Prop} {x : ι} {h : List ι} :
    Each good (x :: h) ↔ good h x ∧ Each good h := by
  constructor
  · intro hg
    exact ⟨hg x h (List.suffix_refl _), fun y k hk => hg y k (hk.trans (List.suffix_cons x h))⟩
  · rintro ⟨hx, hg⟩ y k hk
    rcases List.suffix_cons_iff.mp hk with heq | hk
    · obtain ⟨rfl, rfl⟩ := List.cons_eq_cons.mp heq
      exact hx
    · exact hg y k hk

instance instDecidableEach {good : List ι → ι → Prop} [∀ k x, Decidable (good k x)] :
    (h : List ι) → Decidable (Each good h)
  | [] => .isTrue each_nil
  | x :: h =>
    have : Decidable (Each good h) := instDecidableEach h
    decidable_of_iff (good h x ∧ Each good h) each_cons.symm

theorem invariant_of_each {step : σ → ι → σ} {s : σ} {good : σ → ι → Prop} {P : σ → Prop}
    (base : P s) (keep : ∀ t x, good t x → P t → P (step t x)) {h : List ι}
    (each : Each (fun k x => good (after step s k) x) h) : P (after step s h) := by
  induction h with
  | nil => exact base
  | cons x h ih =>
    obtain ⟨now, each⟩ := each_cons.mp each
    exact keep _ x now (ih each)

theorem each_append {step : σ → ι → σ} {s : σ} {good : σ → ι → Prop} {h k : List ι} :
    Each (fun l x => good (after step s l) x) (h ++ k) ↔
      Each (fun l x => good (after step (after step s k) l) x) h ∧
        Each (fun l x => good (after step s l) x) k := by
  induction h with
  | nil => simp
  | cons x h ih => rw [List.cons_append, each_cons, each_cons, ih, after_append, and_assoc]

theorem count_eq_zero_iff {step : σ → ι → σ} {s : σ} {kind : σ → ι → Bool} {h : List ι} :
    count step s kind h = 0 ↔ Each (fun k x => kind (after step s k) x = false) h := by
  induction h with
  | nil => simp [count]
  | cons x h ih =>
    rw [each_cons, ← ih, count]
    cases kind (after step s h) x <;> simp

/-- A property that admissible steps keep and the others break holds throughout a run exactly when
all its steps are admissible.  `H` is what is known of the run, `J` the extra invariant available as
long as `P` has held. -/
theorem always_iff_each_of {H P J : List ι → Prop} {good : List ι → ι → Prop}
    (closed : ∀ h x, H (x :: h) → H h) (base : P []) (base' : J [])
    (keep' : ∀ h x, H (x :: h) → P h → J h → P (x :: h) → J (x :: h))
    (keep : ∀ h x, H (x :: h) → P h → J h → (P (x :: h) ↔ good h x)) (h : List ι) (hH : H h) :
    Always P h ↔ Each good h := by
  have strong : (Always P h ↔ Each good h) ∧ (Always P h → J h) := by
    induction h with
    | nil => simp [base, base']
    | cons x h ih =>
      obtain ⟨iff, hJ⟩ := ih (closed h x hH)
      simp only [always_cons, each_cons]
      constructor
      · constructor
        · rintro ⟨hx, hP⟩
          exact ⟨(keep h x hH hP.now (hJ hP)).mp hx, iff.mp hP⟩
        · rintro ⟨hx, hg⟩
          have hP := iff.mpr hg
          exact ⟨(keep h x hH hP.now (hJ hP)).mpr hx, hP⟩
      · rintro ⟨hx, hP⟩
        exact keep' h x hH hP.now (hJ hP) hx
  exact strong.1

theorem always_iff_each {P J : List ι → Prop} {good : List ι → ι → Prop}
    (base : P []) (base' : J []) (keep' : ∀ h x, P h → J h → P (x :: h) → J (x :: h))
    (keep : ∀ h x, P h → J h → (P (x :: h) ↔ good h x)) (h : List ι) :
    Always P h ↔ Each good h :=
  always_iff_each_of (H := fun _ => True) (fun _ _ _ => trivial) base base'
    (fun h x _ => keep' h x) (fun h x _ => keep h x) h trivial

section Response

theorem invariant_of_ok {step : σ → ι → σ} {s : σ} {ok : ι → Prop} {P : σ → Prop} (base : P s)
    (keep : ∀ t x, ok x → P t → P (step t x)) {h : List ι} (oks : ∀ x ∈ h, ok x) :
    P (after step s h) := by
  induction h with
  | nil => exact base
  | cons x h ih =>
    exact keep _ x (oks x (.head h)) (ih fun y hy => oks y (.tail x hy))

variable {step : σ → ι → σ} {s : σ} (ok : ι → Prop) (I goal : σ → Prop) (kind : ι → Bool)
  (work : σ → Nat)

theorem spent (keep : ∀ t x, ok x → I t → I (step t x))
    (spend : ∀ t x, ok x → I t → ¬goal t → ¬goal (step t x) →
      work (step t x) + (kind x).toNat ≤ work t)
    (hI : I s) {h : List ι} (oks : ∀ x ∈ h, ok x)
    (never : ∀ k, k <:+ h → ¬goal (after step s k)) :
    work (after step s h) + h.countP kind ≤ work s := by
  induction h with
  | nil => exact Nat.le_refl _
  | cons x h ih =>
    have oks' : ∀ y ∈ h, ok y := fun y hy => oks y (.tail x hy)
    have before := ih oks' fun k hk => never k (hk.trans (List.suffix_cons x h))
    have paid := spend (after step s h) x (oks x (.head h)) (invariant_of_ok hI keep oks')
      (never h (List.suffix_cons x h)) (never (x :: h) (List.suffix_refl _))
    rw [List.countP_cons, after_cons]
    cases hx : kind x with
    | false =>
      simp [hx] at paid ⊢
      omega
    | true =>
      simp [hx] at paid ⊢
      omega

/-- As long as the goal is not met no step adds to the work, and each of the kind takes from it: a
run with more of these steps than there was work has met the goal, which no step undoes. -/
theorem response (keep : ∀ t x, ok x → I t → I (step t x))
    (spend : ∀ t x, ok x → I t → ¬goal t → ¬goal (step t x) →
      work (step t x) + (kind x).toNat ≤ work t)
    (stay : ∀ t x, ok x → I t → goal t → goal (step t x)) (hI : I s) {h : List ι}
    (oks : ∀ x ∈ h, ok x) (enough : work s < h.countP kind) : goal (after step s h) := by
  have met : ∃ k, k <:+ h ∧ goal (after step s k) := by
    by_contra never
    simp only [not_exists, not_and] at never
    have spent := spent ok I goal kind work keep spend hI oks never
    omega
  obtain ⟨k, ⟨later, rfl⟩, met⟩ := met
  have oks' : ∀ x ∈ k, ok x := fun x hx => oks x (List.mem_append_right later hx)
  have kept : I (after step s k) ∧ goal (after step s k) := ⟨invariant_of_ok hI keep oks', met⟩
  rw [after_append]
  have stays : ∀ t x, ok x → I t ∧ goal t → I (step t x) ∧ goal (step t x) :=
    fun t x hx both => ⟨keep t x hx both.1, stay t x hx both.1 both.2⟩
  have later_oks : ∀ x ∈ later, ok x := fun x hx => oks x (List.mem_append_left k hx)
  exact (invariant_of_ok (P := fun t => I t ∧ goal t) kept stays later_oks).2

end Response

section FirstMet

variable {P : List ι → Prop}

theorem exists_first (unmet : ¬P []) {h : List ι} (met : P h) :
    ∃ later x earlier, h = later ++ x :: earlier ∧ ¬P earlier ∧ P (x :: earlier) := by
  induction h with
  | nil => exact absurd met unmet
  | cons x h ih =>
    by_cases before : P h
    · obtain ⟨later, y, earlier, rfl, unmet, met⟩ := ih before
      exact ⟨x :: later, y, earlier, rfl, unmet, met⟩
    · exact ⟨[], x, h, rfl, before, met⟩

end FirstMet

section Deadline

/-- As long as the goal is not met no step comes after the limit or moves it. -/
theorem before_deadline {good : List ι → ι → Prop} (goal : List ι → Prop)
    (now limit : List ι → Nat)
    (push : ∀ h x, good h x → ¬goal h → ¬goal (x :: h) →
      now (x :: h) ≤ limit h ∧ limit (x :: h) ≤ limit h)
    (stay : ∀ h x, good h x → goal h → goal (x :: h)) (start : now [] ≤ limit []) {h : List ι}
    (each : Each good h) (unmet : ¬goal h) : now h ≤ limit [] ∧ limit h ≤ limit [] := by
  induction h with
  | nil => exact ⟨start, Nat.le_refl _⟩
  | cons x h ih =>
    obtain ⟨ok, each⟩ := each_cons.mp each
    have unmet' : ¬goal h := fun met => unmet (stay h x ok met)
    obtain ⟨-, before⟩ := ih each unmet'
    obtain ⟨inTime, limited⟩ := push h x ok unmet' unmet
    exact ⟨inTime.trans before, limited.trans before⟩

variable {step : σ → ι → σ} {s : σ} (good : σ → ι → Prop) (I goal : σ → Prop) (now limit : σ → Nat)

theorem deadline (keep : ∀ t x, good t x → I t → I (step t x))
    (push : ∀ t x, good t x → I t → ¬goal t → ¬goal (step t x) →
      now (step t x) ≤ limit t ∧ limit (step t x) ≤ limit t)
    (stay : ∀ t x, good t x → I t → goal t → goal (step t x)) (hI : I s) (hnow : now s ≤ limit s)
    {h : List ι} (each : Each (fun k x => good (after step s k) x) h)
    (late : limit s < now (after step s h)) : goal (after step s h) := by
  have each' : Each (fun k x => good (after step s k) x ∧ I (after step s k)) h := by
    intro x k sub
    refine ⟨each x k sub, invariant_of_each hI keep fun y l sub' => each y l ?_⟩
    exact sub'.trans ((List.suffix_cons x k).trans sub)
  by_contra unmet
  have before := before_deadline (fun k => goal (after step s k)) (fun k => now (after step s k))
    (fun k => limit (after step s k)) (fun k x ok => push _ x ok.1 ok.2)
    (fun k x ok => stay _ x ok.1 ok.2) hnow each' unmet
  exact absurd late (Nat.not_lt.mpr before.1)

end Deadline

section ExistsLatest

variable {p : ι → Prop}

theorem exists_latest (p : ι → Prop) (h : List ι) :
    (∀ x ∈ h, ¬p x) ∨ ∃ later x earlier, h = later ++ x :: earlier ∧ p x ∧ ∀ y ∈ later, ¬p y := by
  induction h with
  | nil => simp
  | cons x h ih =>
    by_cases hx : p x
    · exact .inr ⟨[], x, h, rfl, hx, by simp⟩
    · rcases ih with none | ⟨later, y, earlier, rfl, hy, quiet⟩
      · exact .inl (by simpa [hx] using none)
      · exact .inr ⟨x :: later, y, earlier, rfl, hy, by simpa [hx] using quiet⟩

theorem latest_or_earlier {later earlier later' earlier' : List ι} {x y : ι}
    (quiet : ∀ z ∈ later, ¬p z) (hy : p y)
    (h : later ++ x :: earlier = later' ++ y :: earlier') :
    (later' = later ∧ y = x ∧ earlier' = earlier) ∨
      ∃ between, later' = later ++ x :: between ∧ earlier = between ++ y :: earlier' := by
  induction later generalizing later' with
  | nil =>
    cases later' with
    | nil =>
      obtain ⟨rfl, rfl⟩ := List.cons_eq_cons.mp h
      exact .inl ⟨rfl, rfl, rfl⟩
    | cons z later' =>
      obtain ⟨rfl, rfl⟩ := List.cons_eq_cons.mp h
      exact .inr ⟨later', rfl, rfl⟩
  | cons z later ih =>
    cases later' with
    | nil =>
      obtain ⟨rfl, -⟩ := List.cons_eq_cons.mp h
      exact absurd hy (quiet z (.head later))
    | cons z' later' =>
      obtain ⟨rfl, tails⟩ := List.cons_eq_cons.mp h
      rcases ih (fun z hz => quiet z (.tail _ hz)) tails with ⟨rfl, rfl, rfl⟩ | ⟨between, rfl, rfl⟩
      · exact .inl ⟨rfl, rfl, rfl⟩
      · exact .inr ⟨between, rfl, rfl⟩

end ExistsLatest

end RayzWeapon.Lib.Runs
