import RayzWeapon.Display.Steps

universe u

namespace RayzWeapon.Display

variable {W : Type u}

def outstandingError : List (Step W) → Option UInt32
  | [] => none
  | .event (.errorSet errorCode) _ :: _ => some errorCode
  | .event .errorClear _ :: _ => none
  | .event .hit _ :: h => outstandingError h
  | .event (.msg _) _ :: h => outstandingError h
  | .event (.other _) _ :: h => outstandingError h
  | .iteration _ :: h => outstandingError h

def DmEvent.Recognised : DmEvent → Prop
  | .other _ => False
  | _ => True

def Step.Recognised : Step W → Prop
  | .event e _ => e.Recognised
  | .iteration _ => False

@[simp] theorem Step.recognised_event (e : DmEvent) (r : Reading W) :
    (Step.event e r).Recognised ↔ e.Recognised := Iff.rfl

@[simp] theorem Step.not_recognised_iteration (r : Reading W) :
    ¬(Step.iteration r).Recognised := id

def Step.reading : Step W → Reading W
  | .event _ r => r
  | .iteration r => r

def Step.TouchesError : Step W → Prop
  | .event (.errorSet _) _ => True
  | .event .errorClear _ => True
  | _ => False

theorem Step.TouchesError.recognised {x : Step W} (touches : x.TouchesError) : x.Recognised := by
  cases x with
  | event e r =>
    cases e with
    | other type => exact touches
    | _ => trivial
  | iteration r => exact touches

theorem outstandingError_eq_some {h : List (Step W)} {errorCode : UInt32} :
    outstandingError h = some errorCode ↔
      ∃ later r earlier, h = later ++ .event (.errorSet errorCode) r :: earlier ∧
        ∀ x ∈ later, ¬x.TouchesError := by
  constructor
  · intro outstanding
    induction h with
    | nil => cases outstanding
    | cons x h ih =>
      have older (skip : ¬x.TouchesError) (rest : outstandingError h = some errorCode) :
          ∃ later r earlier, x :: h = later ++ .event (.errorSet errorCode) r :: earlier ∧
            ∀ y ∈ later, ¬y.TouchesError := by
        obtain ⟨later, r, earlier, rfl, quiet⟩ := ih rest
        exact ⟨x :: later, r, earlier, rfl, by simpa [skip] using quiet⟩
      cases x with
      | iteration r => exact older (by simp [Step.TouchesError]) outstanding
      | event e r =>
        cases e with
        | errorSet code =>
          obtain rfl : code = errorCode := by simpa [outstandingError] using outstanding
          exact ⟨[], r, h, rfl, by simp⟩
        | errorClear => cases outstanding
        | hit => exact older (by simp [Step.TouchesError]) outstanding
        | msg text => exact older (by simp [Step.TouchesError]) outstanding
        | other type => exact older (by simp [Step.TouchesError]) outstanding
  · rintro ⟨later, r, earlier, rfl, quiet⟩
    induction later with
    | nil => rfl
    | cons x later ih =>
      simp only [List.mem_cons, forall_eq_or_imp] at quiet
      have rest := ih quiet.2
      cases x with
      | iteration r => exact rest
      | event e r =>
        cases e with
        | errorSet code => exact absurd trivial quiet.1
        | errorClear => exact absurd trivial quiet.1
        | hit => exact rest
        | msg text => exact rest
        | other type => exact rest

def LastHandled (e : DmEvent) (h : List (Step W)) : Prop :=
  ∃ u later earlier, h = later ++ .event e u :: earlier ∧ ∀ x ∈ later, ¬x.Recognised

theorem LastHandled.now (e : DmEvent) (u : Reading W) (h : List (Step W)) :
    LastHandled e (.event e u :: h) :=
  ⟨u, [], h, rfl, by simp⟩

theorem LastHandled.skip {e : DmEvent} {h : List (Step W)} (last : LastHandled e h) {x : Step W}
    (unrecognised : ¬x.Recognised) : LastHandled e (x :: h) := by
  obtain ⟨u, later, earlier, rfl, quiet⟩ := last
  exact ⟨u, x :: later, earlier, rfl, by simpa [unrecognised] using quiet⟩

end RayzWeapon.Display
