import RayzWeapon.Display.System

universe u

namespace RayzWeapon.Display

open RayzWeapon.Lib

variable {W : Type u}

/-- The display behind its queue with the tick before which its task sleeps. -/
structure TimedDisplay (W : Type u) where
  system : DisplaySystem W
  now : Nat
  wake : Nat

def TimedDisplay.initial (s : DisplaySystem W) (t : Nat) : TimedDisplay W := ⟨s, t, t⟩

/-- What the display task passes to `vTaskDelay` after the step: it sleeps once its queue is
empty. -/
def displayDelay (s : DisplaySystem W) : Nat :=
  match s.sQ.bind Fifo.receive with
  | some _ => 0
  | none => 20

def TimedDisplay.step (s : TimedDisplay W) (x : Nat × Action W) : TimedDisplay W where
  system := s.system.step x.2
  now := x.1
  wake := match x.2 with
    | .task _ => x.1 + displayDelay s.system
    | .post _ => s.wake

def TimedDisplay.after (s : TimedDisplay W) (h : List (Nat × Action W)) : TimedDisplay W :=
  Runs.after TimedDisplay.step s h

/-- Time does not go back, and the display task runs when its delay is over, `latency` ticks later
at most. -/
structure DisplayPrompt (latency : Nat) (s : TimedDisplay W) (x : Nat × Action W) : Prop where
  forward : s.now ≤ x.1
  awake : x.2.isTask = true → s.wake ≤ x.1
  inTime : x.1 ≤ s.wake + latency

instance (latency : Nat) (s : TimedDisplay W) (x : Nat × Action W) :
    Decidable (DisplayPrompt latency s x) :=
  decidable_of_iff (s.now ≤ x.1 ∧ (x.2.isTask = true → s.wake ≤ x.1) ∧ x.1 ≤ s.wake + latency)
    ⟨fun ⟨forward, awake, inTime⟩ => ⟨forward, awake, inTime⟩,
    fun ⟨forward, awake, inTime⟩ => ⟨forward, awake, inTime⟩⟩

def TimedDisplay.PolledRun (latency : Nat) (s : TimedDisplay W) (h : List (Nat × Action W)) :
    Prop :=
  Runs.Each (fun k x => DisplayPrompt latency (s.after k) x) h

instance (latency : Nat) (s : TimedDisplay W) (h : List (Nat × Action W)) :
    Decidable (s.PolledRun latency h) :=
  inferInstanceAs (Decidable (Runs.Each _ h))

def TimedDisplay.handled (s : TimedDisplay W) (h : List (Nat × Action W)) : List DmEvent :=
  Display.handled (s.system.taskSteps (h.map Prod.snd))

def TimedDisplay.accepted (s : TimedDisplay W) (h : List (Nat × Action W)) : List DmEvent :=
  s.system.accepted (h.map Prod.snd)

variable {latency : Nat} {s : TimedDisplay W} {h later earlier : List (Nat × Action W)}
  {q : Fifo DmEvent 8}

theorem TimedDisplay.after_append (s : TimedDisplay W) (later earlier : List (Nat × Action W)) :
    s.after (later ++ earlier) = (s.after earlier).after later := Runs.after_append ..

theorem TimedDisplay.polledRun_append : s.PolledRun latency (later ++ earlier) ↔
    (s.after earlier).PolledRun latency later ∧ s.PolledRun latency earlier := Runs.each_append

theorem TimedDisplay.system_after (s : TimedDisplay W) (h : List (Nat × Action W)) :
    (s.after h).system = s.system.after (h.map Prod.snd) := by
  induction h with
  | nil => rfl
  | cons x h ih => exact congrArg (DisplaySystem.step · x.2) ih

theorem TimedDisplay.running_after (s : TimedDisplay W) (h : List (Nat × Action W)) :
    (s.after h).system.running = s.system.running := by
  rw [system_after]
  exact s.system.running_after _

theorem TimedDisplay.handled_task (s : TimedDisplay W) (t : Nat) (r : Reading W)
    (h : List (Nat × Action W)) :
    s.handled ((t, .task r) :: h) = s.handled h ++ Display.handled ((s.after h).system.next r) := by
  rw [system_after]
  exact handled_append _ _

theorem TimedDisplay.conserved (queue : s.system.sQ = some q) (h : List (Nat × Action W)) :
    ∃ q', (s.after h).system.sQ = some q' ∧ q.items ++ s.accepted h = s.handled h ++ q'.items := by
  rw [system_after]
  exact s.system.conserved _ queue

section Served

variable (running : s.system.running = true) (queue : s.system.sQ = some q)
include running queue

theorem TimedDisplay.next_event (r : Reading W)
    (waiting : (s.handled h).length < q.items.length) :
    ∃ e, (s.after h).system.next r = [.event e r] ∧ displayDelay (s.after h).system = 0 := by
  obtain ⟨q', queue', rest⟩ := s.system.rest_of_lt queue waiting
  rw [← system_after] at queue'
  obtain ⟨e, items, split⟩ := List.exists_cons_of_ne_nil rest
  obtain ⟨taken, received, -⟩ := Fifo.exists_receive split
  have running' := (s.running_after h).trans running
  obtain ⟨e', event⟩ := DisplaySystem.next_of_waiting running' queue' rest r
  refine ⟨e', event, ?_⟩
  rw [displayDelay, queue', Option.bind_some, received]

theorem TimedDisplay.handled_by (inTime : s.now ≤ s.wake + latency)
    (run : s.PolledRun latency h) (waiting : (s.handled h).length < q.items.length) :
    (s.after h).now ≤ s.wake + q.items.length * latency ∧
      (s.after h).wake + (q.items.length - (s.handled h).length) * latency ≤
        s.wake + q.items.length * latency := by
  have spend {n k : Nat} (lt : k < n) :
      (n - k) * latency = latency + (n - (k + 1)) * latency := by
    rw [show n - k = n - (k + 1) + 1 by omega, Nat.add_mul, Nat.one_mul, Nat.add_comm]
  refine Runs.before_deadline (fun h => q.items.length ≤ (s.handled h).length)
    (fun h => (s.after h).now)
    (fun h => (s.after h).wake + (q.items.length - (s.handled h).length) * latency)
    ?_ ?_ ?_ run (Nat.not_le.mpr waiting)
  · rintro h ⟨t, x⟩ prompt waiting -
    have waiting := Nat.not_le.mp waiting
    have inTime : t ≤ (s.after h).wake + latency := prompt.inTime
    rw [spend waiting]
    refine ⟨inTime.trans (by omega), ?_⟩
    cases x with
    | post evt =>
      change (s.after h).wake + (_ - (s.handled h).length) * latency ≤ _
      rw [spend waiting]
    | task r =>
      obtain ⟨e, event, awake⟩ := s.next_event running queue r waiting
      change t + displayDelay (s.after h).system + _ ≤ _
      rw [awake, handled_task, event, List.length_append]
      change t + 0 + (q.items.length - ((s.handled h).length + 1)) * latency ≤ _
      omega
  · rintro h ⟨t, x⟩ - done
    cases x with
    | post evt => exact done
    | task r =>
      rw [handled_task, List.length_append]
      exact done.trans (Nat.le_add_right _ _)
  · have one := spend (waiting.trans_le' (Nat.zero_le _))
    change s.now ≤ s.wake + (q.items.length - 0) * latency
    rw [one]
    omega

theorem TimedDisplay.served (inTime : s.now ≤ s.wake + latency) (run : s.PolledRun latency h)
    (late : s.wake + q.items.length * latency < (s.after h).now) :
    q.items.length ≤ (s.handled h).length := by
  by_contra waiting
  have soon := s.handled_by running queue inTime run (Nat.lt_of_not_le waiting)
  exact absurd late (Nat.not_lt.mpr soon.1)

end Served

structure DisplayAwake (latency : Nat) (s : TimedDisplay W) : Prop where
  soon : s.wake ≤ s.now + 20
  inTime : s.now ≤ s.wake + latency

theorem displayDelay_le (s : DisplaySystem W) : displayDelay s ≤ 20 := by
  unfold displayDelay
  split
  · exact Nat.zero_le 20
  · exact Nat.le_refl 20

theorem DisplayAwake.step (awake : DisplayAwake latency s) {x : Nat × Action W}
    (prompt : DisplayPrompt latency s x) : DisplayAwake latency (s.step x) := by
  obtain ⟨t, x⟩ := x
  have forward : s.now ≤ t := prompt.forward
  cases x with
  | post evt => exact ⟨awake.soon.trans (Nat.add_le_add_right forward 20), prompt.inTime⟩
  | task r =>
    have short := displayDelay_le s.system
    constructor <;> simp only [TimedDisplay.step] <;> omega

section Initial

variable {system : DisplaySystem W} {t₀ : Nat}

theorem TimedDisplay.displayAwake (run : (initial system t₀).PolledRun latency h) :
    DisplayAwake latency ((initial system t₀).after h) := by
  have start : DisplayAwake latency (initial system t₀) :=
    ⟨Nat.le_add_right t₀ 20, Nat.le_add_right t₀ latency⟩
  exact Runs.invariant_of_each start (fun _ _ prompt awake => awake.step prompt) run

theorem served_in_time (running : system.running = true)
    (run : (TimedDisplay.initial system t₀).PolledRun latency (later ++ earlier))
    (queue : ((TimedDisplay.initial system t₀).after earlier).system.sQ = some q)
    (late : ((TimedDisplay.initial system t₀).after earlier).now + (20 + q.items.length * latency) <
      ((TimedDisplay.initial system t₀).after (later ++ earlier)).now) :
    q.items <+: ((TimedDisplay.initial system t₀).after earlier).handled later := by
  obtain ⟨run', before⟩ := TimedDisplay.polledRun_append.mp run
  have awake := TimedDisplay.displayAwake before
  have running' := (TimedDisplay.running_after (.initial system t₀) earlier).trans running
  rw [TimedDisplay.after_append] at late
  apply DisplaySystem.served_of_le _ queue
  apply TimedDisplay.served running' queue awake.inTime run'
  have soon := awake.soon
  omega

theorem served_in_time_two_events :
    let system := startDisplay .bare zeroDm true true true ⟨0, 0⟩
    let earlier := [(5, .post (some (.msg "WS ON".toList))), (5, .post (some .hit)),
      (0, .task ⟨0, 0⟩)]
    let later := [(41, .task ⟨41, 41⟩), (21, .task ⟨21, 21⟩), (21, .task ⟨21, 21⟩),
      (20, .post (some .errorClear)), (20, .task ⟨20, 20⟩), (20, .task ⟨20, 20⟩)]
    [.hit, .msg "WS ON".toList] <+:
      ((TimedDisplay.initial system 0).after earlier).handled later := by
  intro system earlier later
  have queue : ((TimedDisplay.initial system 0).after earlier).system.sQ =
      some ⟨[.hit, .msg "WS ON".toList], by decide⟩ := rfl
  have run : (TimedDisplay.initial system 0).PolledRun 1 (later ++ earlier) := by decide +kernel
  exact served_in_time rfl run queue (by decide)

theorem refused_burst (running : system.running = true) {t : Nat} {evt : DmEvent}
    (run : (TimedDisplay.initial system t₀).PolledRun latency
      ((t, .post (some evt)) :: later ++ earlier))
    (refused : (displayManagerPost
      ((TimedDisplay.initial system t₀).after (later ++ earlier)).system.sQ (some evt)).2 = false)
    (late : ((TimedDisplay.initial system t₀).after earlier).now + (20 + 8 * latency) < t) :
    8 ≤ (((TimedDisplay.initial system t₀).after earlier).accepted later).length := by
  obtain ⟨run', before⟩ := TimedDisplay.polledRun_append.mp run
  have awake := TimedDisplay.displayAwake before
  have running' := (TimedDisplay.running_after (.initial system t₀) earlier).trans running
  rw [TimedDisplay.after_append] at refused
  generalize (TimedDisplay.initial system t₀).after earlier = s at *
  obtain ⟨q, queue⟩ := Option.isSome_iff_exists.mp (s.system.served running')
  obtain ⟨q', queue', kept⟩ := TimedDisplay.conserved queue later
  have full : q'.items.length = 8 := by
    rw [queue'] at refused
    exact (Fifo.send_fails_iff q' evt).mp refused
  have served : q.items.length ≤ (s.handled ((t, .post (some evt)) :: later)).length := by
    refine TimedDisplay.served running' queue awake.inTime run' ?_
    have soon := awake.soon
    have cost := Nat.mul_le_mul_right latency q.bounded
    change s.wake + q.items.length * latency < t
    omega
  have lengths := congrArg List.length kept
  rw [List.length_append, List.length_append, full] at lengths
  change q.items.length ≤ (s.handled later).length at served
  omega

theorem refused_burst_ninth_event :
    let system := startDisplay .bare zeroDm true true true ⟨0, 0⟩
    let earlier := [(20, .task ⟨20, 20⟩), (0, .task ⟨0, 0⟩)]
    let later := List.replicate 8 (50, .post (some .hit)) ++ [(40, .task ⟨40, 40⟩)]
    8 ≤ (((TimedDisplay.initial system 0).after earlier).accepted later).length := by
  intro system earlier later
  have run : (TimedDisplay.initial system 0).PolledRun 1
      ((60, .post (some .errorClear)) :: later ++ earlier) := by decide +kernel
  exact refused_burst rfl run rfl (by decide)

end Initial

end RayzWeapon.Display
