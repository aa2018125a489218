import RayzWeapon.Display.ClosedForm
import RayzWeapon.Display.Errors
import RayzWeapon.Display.Overlays
import RayzWeapon.Lib.Fifo

/-! The display task behind its event queue.  Any task may post at any moment; the display task takes
one event a step, or finds the queue empty and goes on to the rest of its loop. -/

universe u

namespace RayzWeapon.Display

open RayzWeapon.Lib

variable {W : Type u}

/-- `sQ` is `none` for a null queue handle.  The task is created last, so it never finds one. -/
structure DisplaySystem (W : Type u) where
  sQ : Option (Fifo DmEvent 8)
  dm : Dm W
  running : Bool
  served : running = true → sQ.isSome = true

/-- A null event pointer is `none`. -/
def displayManagerPost (sQ : Option (Fifo DmEvent 8)) (evt : Option DmEvent) :
    Option (Fifo DmEvent 8) × Bool :=
  match sQ, evt with
  | some q, some evt => (some (q.send evt).1, (q.send evt).2)
  | sQ, _ => (sQ, false)

/-- The callback of the WebSocket server; `size` is `sizeof(evt.msg.text)`. -/
def wsOnConnect (size : Nat) (connected : Bool) : DmEvent :=
  .msg (snprintf size (if connected then "WS ON".toList else "WS OFF".toList))

/-- What `app_main` hands over; the functions belong to the shared component. -/
structure Platform (W : Type u) where
  wifiManagerIsConnected : W → Bool
  wifiManagerGetIp : W → Text
  wifiManagerGetSsid : W → Text
  wifiManagerGetStatusString : W → Text
  wifiManagerGetRssi : W → Int
  systemUptimeMs : W → UInt32
  wsServerClientCount : W → Int
  wifiManagerGetDeviceName : W → Text
  metricPlayerId : W → Int
  metricDeviceId : W → Int

def isWsConnected (p : Platform W) (w : W) : Bool := p.wsServerClientCount w > 0

def dmSources (p : Platform W) : DmSources W where
  wifiConnected := some p.wifiManagerIsConnected
  wifiIp := some p.wifiManagerGetIp
  wifiSsid := some p.wifiManagerGetSsid
  wifiStatus := some p.wifiManagerGetStatusString
  wifiRssi := some p.wifiManagerGetRssi
  uptimeMs := some p.systemUptimeMs
  wsConnected := some (isWsConnected p)
  deviceName := some p.wifiManagerGetDeviceName
  playerId := some p.metricPlayerId
  deviceId := some p.metricDeviceId

def Platform.bare : Platform UInt32 where
  wifiManagerIsConnected _ := false
  wifiManagerGetIp _ := []
  wifiManagerGetSsid _ := []
  wifiManagerGetStatusString _ := []
  wifiManagerGetRssi _ := 0
  systemUptimeMs t := t
  wsServerClientCount _ := 0
  wifiManagerGetDeviceName _ := []
  metricPlayerId _ := 0
  metricDeviceId _ := 0

/-- The display's part of `app_main`: without a display it goes on headless, and what `xTaskCreate`
returned is not looked at. -/
def startDisplay (p : Platform W) (before : Dm W) (disp queue taskCreated : Bool) (r : Reading W) :
    DisplaySystem W :=
  if disp then
    match displayManagerInit before disp (some (dmSources p)) queue r with
    | (true, dm) =>
      { sQ := some (Fifo.empty DmEvent 8)
        dm
        running := taskCreated
        served := fun _ => rfl }
    | (false, dm) => ⟨none, dm, false, nofun⟩
  else ⟨none, before, false, nofun⟩

inductive Action (W : Type u)
  | post (evt : Option DmEvent)
  | task (r : Reading W)

/-- One `xQueueReceive` of the task and what follows it. -/
def displayManagerTask (s : DisplaySystem W) (r : Reading W) : DisplaySystem W :=
  if running : s.running = true then
    match (s.sQ.get (s.served running)).receive with
    | some (e, q) => { s with sQ := some q, dm := handleEvent s.dm e r, served := fun _ => rfl }
    | none => { s with dm := iteration s.dm r }
  else s

theorem isSome_displayManagerPost (sQ : Option (Fifo DmEvent 8)) (evt : Option DmEvent) :
    (displayManagerPost sQ evt).1.isSome = sQ.isSome := by
  cases sQ <;> cases evt <;> rfl

def DisplaySystem.step (s : DisplaySystem W) : Action W → DisplaySystem W
  | .post evt =>
    { s with
      sQ := (displayManagerPost s.sQ evt).1
      served := fun running => (isSome_displayManagerPost s.sQ evt).trans (s.served running) }
  | .task r => displayManagerTask s r

def DisplaySystem.after (s : DisplaySystem W) (h : List (Action W)) : DisplaySystem W :=
  Runs.after DisplaySystem.step s h

inductive Taken (s : DisplaySystem W) (r : Reading W) (s' : DisplaySystem W) : List (Step W) → Prop
  | event {q q' : Fifo DmEvent 8} {e : DmEvent} (before : s.sQ = some q) (after : s'.sQ = some q')
    (received : q.items = e :: q'.items) (dm : s'.dm = handleEvent s.dm e r) :
    Taken s r s' [.event e r]
  | iteration {q : Fifo DmEvent 8} (before : s.sQ = some q) (after : s'.sQ = some q)
    (drained : q.items = []) (dm : s'.dm = iteration s.dm r) : Taken s r s' [.iteration r]
  | absent (absent : s.running = false) (same : s' = s) : Taken s r s' []

def DisplaySystem.next (s : DisplaySystem W) (r : Reading W) : List (Step W) :=
  if s.running then
    match s.sQ.bind Fifo.receive with
    | some (e, _) => [.event e r]
    | none => [.iteration r]
  else []

theorem running_displayManagerTask (s : DisplaySystem W) (r : Reading W) :
    (displayManagerTask s r).running = s.running := by
  unfold displayManagerTask
  split
  · split <;> rfl
  · rfl

theorem displayManagerTask_taken (s : DisplaySystem W) (r : Reading W) :
    Taken s r (displayManagerTask s r) (s.next r) := by
  unfold displayManagerTask DisplaySystem.next
  by_cases running : s.running = true
  · obtain ⟨q, before⟩ := Option.isSome_iff_exists.mp (s.served running)
    rw [dif_pos running, if_pos running]
    simp only [before, Option.get_some, Option.bind_some]
    cases received : q.receive with
    | none => exact .iteration before rfl (Fifo.receive_eq_none received) rfl
    | some taken => exact .event before rfl (Fifo.receive_eq_some received) rfl
  · rw [dif_neg running, if_neg running]
    exact .absent (Bool.eq_false_iff.mpr running) rfl

section Run

variable (s : DisplaySystem W)

def DisplaySystem.taskSteps : List (Action W) → List (Step W)
  | [] => []
  | .post _ :: h => DisplaySystem.taskSteps h
  | .task r :: h => (s.after h).next r ++ DisplaySystem.taskSteps h

def DisplaySystem.accepted : List (Action W) → List DmEvent
  | [] => []
  | .post evt :: h => DisplaySystem.accepted h ++
      if (displayManagerPost (s.after h).sQ evt).2 then evt.toList else []
  | .task _ :: h => DisplaySystem.accepted h

end Run

def handled : List (Step W) → List DmEvent
  | [] => []
  | .event e _ :: k => handled k ++ [e]
  | .iteration _ :: k => handled k

theorem Dm.after_append (dm : Dm W) (later earlier : List (Step W)) :
    dm.after (later ++ earlier) = (dm.after earlier).after later := Runs.after_append ..

theorem Dm.nowMs_after (dm : Dm W) (k : List (Step W)) (r : Reading W) :
    nowMs (dm.after k) r = nowMs dm r := by simp only [nowMs, after_src]

theorem handled_append (later earlier : List (Step W)) :
    handled (later ++ earlier) = handled earlier ++ handled later := by
  induction later with
  | nil => simp [handled]
  | cons x later ih => cases x <;> simp [handled, ih]

theorem iteration_of_handled {k : List (Step W)} (none : handled k = []) :
    ∀ x ∈ k, ∃ r, x = .iteration r := by
  induction k with
  | nil => simp
  | cons x k ih =>
    cases x with
    | event e r => simp [handled] at none
    | iteration r =>
      rintro y (_ | ⟨_, hy⟩)
      · exact ⟨r, rfl⟩
      · exact ih none y hy

section Run

variable (s : DisplaySystem W) (h : List (Action W))

theorem DisplaySystem.running_after : (s.after h).running = s.running := by
  apply Runs.invariant (P := fun t : DisplaySystem W => t.running = s.running) rfl
  rintro t (evt | r) same
  · exact same
  · exact (running_displayManagerTask t r).trans same

theorem DisplaySystem.dm_after : (s.after h).dm = s.dm.after (s.taskSteps h) := by
  induction h with
  | nil => rfl
  | cons x h ih =>
    cases x with
    | post evt => exact ih
    | task r =>
      have taken := displayManagerTask_taken (s.after h) r
      change (displayManagerTask (s.after h) r).dm = _
      rw [taskSteps, Dm.after_append, ← ih]
      generalize (s.after h).next r = steps at taken ⊢
      cases taken with
      | event before after received dm => exact dm
      | iteration before after drained dm => exact dm
      | absent absent same => rw [same]; rfl

theorem DisplaySystem.conserved {q : Fifo DmEvent 8} (queue : s.sQ = some q) :
    ∃ q', (s.after h).sQ = some q' ∧
      q.items ++ s.accepted h = handled (s.taskSteps h) ++ q'.items := by
  induction h with
  | nil => exact ⟨q, queue, by simp [accepted, taskSteps, handled]⟩
  | cons x h ih =>
    obtain ⟨q', queue', kept⟩ := ih
    cases x with
    | post evt =>
      cases evt with
      | none =>
        refine ⟨q', ?_, ?_⟩
        · simp [DisplaySystem.after, step, displayManagerPost, ← queue']
        · simpa [accepted, taskSteps] using kept
      | some evt =>
        refine ⟨(q'.send evt).1, ?_, ?_⟩
        · simp only [DisplaySystem.after] at queue'
          simp [DisplaySystem.after, step, displayManagerPost, queue']
        · simp only [accepted, taskSteps, queue', displayManagerPost, Option.toList_some]
          rw [← List.append_assoc, kept, Fifo.items_send, List.append_assoc]
    | task r =>
      have taken := displayManagerTask_taken (s.after h) r
      rw [taskSteps, accepted, handled_append]
      change ∃ q', (displayManagerTask (s.after h) r).sQ = some q' ∧ _
      generalize (s.after h).next r = steps at taken ⊢
      cases taken with
      | @event q₀ q₁ e before after received dm =>
        obtain rfl : q₀ = q' := Option.some.inj (before.symm.trans queue')
        exact ⟨q₁, after, by simp [kept, received, handled]⟩
      | @iteration q₀ before after drained dm =>
        obtain rfl : q₀ = q' := Option.some.inj (before.symm.trans queue')
        exact ⟨q₀, after, by simp [kept, handled]⟩
      | absent absent same => exact ⟨q', by rw [same, queue'], by simp [kept, handled]⟩

theorem DisplaySystem.idle (noQueue : s.sQ = none) :
    (s.after h).sQ = none ∧ s.accepted h = [] ∧ s.taskSteps h = [] := by
  have absent : s.running = false := by
    cases running : s.running with
    | false => rfl
    | true =>
      have served := s.served running
      simp [noQueue] at served
  induction h with
  | nil => exact ⟨noQueue, rfl, rfl⟩
  | cons x h ih =>
    obtain ⟨queue, accepted, taskSteps⟩ := ih
    have stopped := (s.running_after h).trans absent
    simp only [DisplaySystem.after] at queue stopped
    cases x with
    | post evt =>
      simp [DisplaySystem.after, step, displayManagerPost, DisplaySystem.accepted,
        DisplaySystem.taskSteps, queue, accepted, taskSteps]
    | task r =>
      simp [DisplaySystem.after, step, displayManagerTask, next, DisplaySystem.accepted,
        DisplaySystem.taskSteps, queue, stopped, accepted, taskSteps]

end Run

theorem DisplaySystem.after_append (s : DisplaySystem W) (later earlier : List (Action W)) :
    s.after (later ++ earlier) = (s.after earlier).after later := Runs.after_append ..

theorem DisplaySystem.accepted_append (s : DisplaySystem W) (later earlier : List (Action W)) :
    s.accepted (later ++ earlier) = s.accepted earlier ++ (s.after earlier).accepted later := by
  induction later with
  | nil => simp [accepted]
  | cons x later ih =>
    cases x with
    | post evt =>
      rw [List.cons_append, accepted, accepted, ih, s.after_append, List.append_assoc]
    | task r => exact ih

theorem DisplaySystem.mem_taskSteps {s : DisplaySystem W} {h : List (Action W)} {x : Step W}
    (hx : x ∈ s.taskSteps h) : .task x.reading ∈ h := by
  induction h with
  | nil => cases hx
  | cons y h ih =>
    cases y with
    | post evt => exact .tail _ (ih hx)
    | task r =>
      rcases List.mem_append.mp hx with now | before
      · have same : x.reading = r := by
          unfold next at now
          split at now
          · split at now <;> (rw [List.mem_singleton.mp now]; rfl)
          · cases now
        rw [same]
        exact .head h
      · exact .tail _ (ih before)

theorem displayManagerPost_refused {sQ : Option (Fifo DmEvent 8)} {evt : Option DmEvent} :
    (displayManagerPost sQ evt).2 = false ↔
      evt = none ∨ sQ = none ∨ ∃ q, sQ = some q ∧ q.items.length = 8 := by
  cases sQ with
  | none => simp [displayManagerPost]
  | some q => cases evt <;> simp [displayManagerPost, Fifo.send_fails_iff]

/-- The display's run is one of its task over the accepted events: each is handled once, in order, or
still waits, and only a null event, a missing queue or eight waiting events make a post fail. -/
structure EventsServed (s : DisplaySystem W) (h : List (Action W)) : Prop where
  run : (s.after h).dm = s.dm.after (s.taskSteps h)
  waiting : ∀ q, (s.after h).sQ = some q → s.accepted h = handled (s.taskSteps h) ++ q.items
  headless : s.sQ = none → s.accepted h = [] ∧ s.taskSteps h = []
  refused : ∀ later evt earlier, h = later ++ .post evt :: earlier →
    ((displayManagerPost (s.after earlier).sQ evt).2 = false ↔ evt = none ∨ s.sQ = none ∨
      (s.accepted earlier).length = (handled (s.taskSteps earlier)).length + 8)

theorem DisplaySystem.waiting {s : DisplaySystem W} (fresh : ∀ q, s.sQ = some q → q.items = [])
    (h : List (Action W)) {q : Fifo DmEvent 8} (queue : (s.after h).sQ = some q) :
    s.accepted h = handled (s.taskSteps h) ++ q.items := by
  cases start : s.sQ with
  | none => simp [(s.idle h start).1] at queue
  | some q₀ =>
    obtain ⟨q', queue', kept⟩ := s.conserved h start
    obtain rfl : q' = q := Option.some.inj (queue'.symm.trans queue)
    rwa [fresh q₀ start] at kept

theorem DisplaySystem.refused {s : DisplaySystem W} (fresh : ∀ q, s.sQ = some q → q.items = [])
    (h : List (Action W)) (evt : Option DmEvent) :
    (displayManagerPost (s.after h).sQ evt).2 = false ↔ evt = none ∨ s.sQ = none ∨
      (s.accepted h).length = (handled (s.taskSteps h)).length + 8 := by
  rw [displayManagerPost_refused]
  cases start : s.sQ with
  | none => simp [(s.idle h start).1]
  | some q₀ =>
    obtain ⟨q, queue, -⟩ := s.conserved h start
    have kept := congrArg List.length (DisplaySystem.waiting fresh h queue)
    rw [List.length_append] at kept
    simp only [queue, Option.some.injEq, exists_eq_left', reduceCtorEq, false_or, kept]
    exact or_congr Iff.rfl (by omega)

theorem DisplaySystem.eventsServed {s : DisplaySystem W}
    (fresh : ∀ q, s.sQ = some q → q.items = []) (h : List (Action W)) : EventsServed s h where
  run := DisplaySystem.dm_after _ h
  waiting _ queue := DisplaySystem.waiting fresh h queue
  headless noQueue := (DisplaySystem.idle _ h noQueue).2
  refused := by
    rintro later evt earlier rfl
    exact DisplaySystem.refused fresh earlier evt

theorem startDisplay_fresh (p : Platform W) (before : Dm W) (disp queue taskCreated : Bool)
    (r : Reading W) (q : Fifo DmEvent 8)
    (created : (startDisplay p before disp queue taskCreated r).sQ = some q) : q.items = [] := by
  unfold startDisplay at created
  split at created
  · split at created
    · obtain rfl := Option.some.inj created
      rfl
    · cases created
  · cases created

theorem startDisplay_serves (p : Platform W) (before : Dm W) (disp queue taskCreated : Bool)
    (r : Reading W) (h : List (Action W)) :
    EventsServed (startDisplay p before disp queue taskCreated r) h :=
  DisplaySystem.eventsServed (startDisplay_fresh p before disp queue taskCreated r) h

theorem startDisplay_boot {p : Platform W} {before : Dm W} {disp queue taskCreated : Bool}
    {r : Reading W} {q : Fifo DmEvent 8}
    (created : (startDisplay p before disp queue taskCreated r).sQ = some q) :
    ∃ b : Boot W, b.sources = some (dmSources p) ∧
      b.dm = (startDisplay p before disp queue taskCreated r).dm := by
  unfold startDisplay at created ⊢
  split at created
  next present =>
    split at created
    next dm success =>
      refine ⟨⟨before, disp, some (dmSources p), queue, r, dm, success⟩, rfl, ?_⟩
      rw [if_pos present]
    next => cases created
  next => cases created

section Answers

def DmState.givesWayTo (st : DmState) : DmState := if st = .error then .error else .debug

/-- The states that can follow once the event is handled, from those before it.  Whether the task has
found the time of an overlay over is all that events do not decide. -/
def DmEvent.leaves (before : List DmState) : DmEvent → List DmState
  | .errorSet _ => [.error]
  | .errorClear => [.debug]
  | .hit => .overlayHit :: before.map DmState.givesWayTo
  | .msg _ => .overlayMsg :: before.map DmState.givesWayTo
  | .other _ => before

def openStates (evts : List DmEvent) : List DmState := evts.foldl DmEvent.leaves [.boot, .debug]

theorem openStates_concat (evts : List DmEvent) (e : DmEvent) :
    openStates (evts ++ [e]) = e.leaves (openStates evts) := by
  rw [openStates, List.foldl_append]
  rfl

theorem Dm.expiresInto_of_state {dm dm' : Dm W} (expired : dm'.state = dm.expiresInto) :
    dm'.expiresInto = dm.expiresInto := by
  have out : ¬dm'.state.IsOverlay := by
    rw [expired]
    exact dm.not_isOverlay_expiresInto
  have left : dm'.state ≠ .boot := by
    rw [expired]
    cases state : dm.state <;> simp [Dm.expiresInto, state] <;> split <;> simp
  rw [← expired]
  cases state : dm'.state with
  | boot => exact absurd state left
  | overlayHit => exact absurd (.inl state) out
  | overlayMsg => exact absurd (.inr state) out
  | debug | error => simp [Dm.expiresInto, state]

theorem iteration_expiresInto (dm : Dm W) (r : Reading W) :
    (iteration dm r).expiresInto = dm.expiresInto := by
  have state := iteration_state dm r
  by_cases due : Due dm (nowMs dm r)
  · rw [if_pos due] at state
    exact Dm.expiresInto_of_state state
  · rw [if_neg due] at state
    simp only [Dm.expiresInto, state, iteration_returnState]

theorem Boot.state_mem_openStates (b : Boot W) (k : List (Step W)) :
    (b.after k).state ∈ openStates (handled k) ∧
      (b.after k).expiresInto ∈ openStates (handled k) := by
  induction k with
  | nil =>
    rw [b.after_nil, Dm.expiresInto, b.state]
    exact ⟨.head _, .tail _ (.head _)⟩
  | cons x k ih =>
    obtain ⟨state, expired⟩ := ih
    cases x with
    | event e r =>
      rw [b.after_cons, step, handled, openStates_concat]
      -- An overlay can be found over in any of the states it can have been put up on.
      have givesWay := List.mem_map_of_mem (f := DmState.givesWayTo) state
      cases e with
      | errorSet errorCode => simp [DmEvent.leaves, Dm.expiresInto]
      | errorClear => simp [DmEvent.leaves, Dm.expiresInto]
      | hit => exact ⟨.head _, .tail _ givesWay⟩
      | msg text => exact ⟨.head _, .tail _ givesWay⟩
      | other type => exact ⟨state, expired⟩
    | iteration r =>
      rw [b.after_cons, step, handled, iteration_expiresInto, iteration_state]
      refine ⟨?_, expired⟩
      split
      · exact expired
      · exact state

def DmEvent.errorCodeAfter (errorCode : UInt32) : DmEvent → UInt32
  | .errorSet errorCode' => errorCode'
  | .errorClear => 0
  | _ => errorCode

theorem Dm.errorCode_after (dm : Dm W) (k : List (Step W)) :
    (dm.after k).errorCode = (handled k).foldl DmEvent.errorCodeAfter dm.errorCode := by
  induction k with
  | nil => rfl
  | cons x k ih =>
    change (step (dm.after k) x).errorCode = _
    cases x with
    | event e r =>
      rw [handled, List.foldl_append, ← ih]
      cases e <;> rfl
    | iteration r => rw [step, iteration_errorCode, ih, handled]

def LastPosted (e : DmEvent) (evts : List DmEvent) : Prop :=
  ∃ earlier later, evts = earlier ++ e :: later ∧ ∀ y ∈ later, ¬y.Recognised

theorem LastHandled.lastPosted {e : DmEvent} {k : List (Step W)} (last : LastHandled e k) :
    LastPosted e (handled k) := by
  obtain ⟨u, later, earlier, rfl, quiet⟩ := last
  refine ⟨handled earlier, handled later, by simp [handled_append, handled], ?_⟩
  induction later with
  | nil => simp [handled]
  | cons x later ih =>
    have rest := ih fun y mem => quiet y (.tail x mem)
    cases x with
    | event e' u' =>
      have now := quiet (.event e' u') (.head later)
      simp only [handled, List.mem_append, List.mem_singleton]
      rintro y (older | rfl)
      · exact rest y older
      · exact now
    | iteration r => exact rest

section Overlay

variable {e : DmEvent} {st : DmState} {d : Nat} (overlay : e.overlay = some (st, d)) (dm : Dm W)
  (u : Reading W) {later : List (Step W)} (quiet : ∀ x ∈ later, ¬x.Recognised)
include overlay quiet

theorem Dm.after_overlay_up
    (early : ∀ r, .iteration r ∈ later → ¬Due (handleEvent dm e u) (nowMs dm r)) :
    ((handleEvent dm e u).after later).state = st := by
  obtain ⟨-, -, -, state, -, src, -⟩ := handleEvent_overlay overlay dm u
  rw [← state]
  apply ((handleEvent dm e u).after_waiting quiet ?_).state
  intro r hr
  simp only [nowMs, src]
  exact early r hr

theorem Dm.after_overlay_over
    (late : ∃ r, .iteration r ∈ later ∧ Due (handleEvent dm e u) (nowMs dm r)) :
    ((handleEvent dm e u).after later).state = if dm.state = .error then .error else .debug := by
  obtain ⟨isOverlay, -, -, state, returnState, src, -⟩ := handleEvent_overlay overlay dm u
  rw [← returnState, ← Dm.expiresInto_overlay (state ▸ isOverlay)]
  apply ((handleEvent dm e u).after_expired quiet ?_).1
  obtain ⟨r, hr, due⟩ := late
  refine ⟨r, hr, ?_⟩
  simp only [nowMs, src]
  exact due

end Overlay

theorem due_handleEvent {e : DmEvent} {st : DmState} {d : Nat} (overlay : e.overlay = some (st, d))
    {dm dm' : Dm W} (src : dm'.src = dm.src) (u : Reading W) (t : UInt32) :
    Due (handleEvent dm' e u) t ↔ Due (handleEvent dm e u) t := by
  cases e with
  | hit | msg text => simp [Due, nowMs, src]
  | _ => cases overlay

structure ScreenAnswers (s : DisplaySystem W) (h : List (Action W)) : Prop where
  state : (s.after h).dm.state ∈ openStates (s.accepted h)
  code : (s.after h).dm.errorCode = (s.accepted h).foldl DmEvent.errorCodeAfter s.dm.errorCode
  errorSet : ∀ errorCode, LastPosted (.errorSet errorCode) (s.accepted h) →
    (s.after h).dm.state = .error ∧ (s.after h).dm.errorCode = errorCode
  errorClear : LastPosted .errorClear (s.accepted h) →
    (s.after h).dm.state = .debug ∧ (s.after h).dm.errorCode = 0
  page : (s.after h).dm.state = .error →
    (s.after h).dm.rows = errorPage (s.after h).dm.errorCode
  msg : (s.after h).dm.state = .overlayMsg →
    ∃ text, LastPosted (.msg text) (s.accepted h) ∧ (s.after h).dm.overlay = ⟨text, false⟩
  hit : (s.after h).dm.state = .overlayHit → LastPosted .hit (s.accepted h) ∧
    ((s.after h).dm.overlay = ⟨"HIT!".toList, false⟩ ∨
      (s.after h).dm.overlay = ⟨"    ".toList, false⟩)
  up : ∀ e st d u later earlier, s.taskSteps h = later ++ .event e u :: earlier →
    (∀ x ∈ later, ¬x.Recognised) → e.overlay = some (st, d) →
    (∀ r, .iteration r ∈ later → ¬Due (handleEvent s.dm e u) (nowMs s.dm r)) →
    (s.after h).dm.state = st
  givesWay : ∀ e st d u later earlier, s.taskSteps h = later ++ .event e u :: earlier →
    (∀ x ∈ later, ¬x.Recognised) → e.overlay = some (st, d) →
    (∃ r, .iteration r ∈ later ∧ Due (handleEvent s.dm e u) (nowMs s.dm r)) →
    (s.after h).dm.state = (s.dm.after earlier).state.givesWayTo

theorem foldl_of_lastPosted {α : Type*} {f : α → DmEvent → α} {e : DmEvent} {evts : List DmEvent}
    (same : ∀ a y, ¬y.Recognised → f a y = a) (last : LastPosted e evts) (a : α) :
    ∃ b, evts.foldl f a = f b e := by
  obtain ⟨earlier, later, rfl, quiet⟩ := last
  refine ⟨earlier.foldl f a, ?_⟩
  rw [List.foldl_append, List.foldl_cons]
  generalize f (earlier.foldl f a) e = b
  induction later with
  | nil => rfl
  | cons y later ih =>
    rw [List.foldl_cons, same b y (quiet y (.head later))]
    exact ih fun z hz => quiet z (.tail y hz)

theorem DmEvent.eq_other {e : DmEvent} (unrecognised : ¬e.Recognised) : ∃ type, e = .other type := by
  cases e with
  | other type => exact ⟨type, rfl⟩
  | _ => exact absurd trivial unrecognised

theorem openStates_of_lastPosted {e : DmEvent} {evts : List DmEvent} (last : LastPosted e evts) :
    ∃ before, openStates evts = e.leaves before := by
  apply foldl_of_lastPosted ?_ last
  intro before y unrecognised
  obtain ⟨type, rfl⟩ := DmEvent.eq_other unrecognised
  rfl

theorem errorCode_of_lastPosted {e : DmEvent} {evts : List DmEvent} (last : LastPosted e evts)
    (errorCode : UInt32) :
    ∃ before, evts.foldl DmEvent.errorCodeAfter errorCode = e.errorCodeAfter before := by
  apply foldl_of_lastPosted ?_ last
  intro before y unrecognised
  obtain ⟨type, rfl⟩ := DmEvent.eq_other unrecognised
  rfl

theorem Boot.screenAnswers (b : Boot W) {s : DisplaySystem W} (booted : b.dm = s.dm)
    {h : List (Action W)} (drained : s.accepted h = handled (s.taskSteps h)) :
    ScreenAnswers s h := by
  have dm : (s.after h).dm = b.after (s.taskSteps h) := by
    rw [s.dm_after, ← booted]
    rfl
  have state : (s.after h).dm.state ∈ openStates (s.accepted h) := by
    rw [dm, drained]
    exact (b.state_mem_openStates _).1
  have code : (s.after h).dm.errorCode =
      (s.accepted h).foldl DmEvent.errorCodeAfter s.dm.errorCode := by
    rw [s.dm_after, Dm.errorCode_after, drained]
  have settled {e : DmEvent} (last : LastPosted e (s.accepted h)) :
      ∃ states errorCode, (s.after h).dm.state ∈ e.leaves states ∧
        (s.after h).dm.errorCode = e.errorCodeAfter errorCode := by
    obtain ⟨states, left⟩ := openStates_of_lastPosted last
    obtain ⟨errorCode, set⟩ := errorCode_of_lastPosted last s.dm.errorCode
    exact ⟨states, errorCode, left ▸ state, code.trans set⟩
  constructor
  · exact state
  · exact code
  · intro errorCode last
    obtain ⟨_, _, error, set⟩ := settled last
    exact ⟨List.mem_singleton.mp error, set⟩
  · intro last
    obtain ⟨_, _, debug, cleared⟩ := settled last
    exact ⟨List.mem_singleton.mp debug, cleared⟩
  · rw [dm]
    exact fun error => (b.showsError _ (.inl error)).page
  · rw [dm, drained]
    intro msg
    obtain ⟨text, last, shown⟩ := (b.overlayLabel _).msg msg
    exact ⟨text, last.lastPosted, shown⟩
  · rw [dm, drained]
    intro hit
    obtain ⟨last, shown⟩ := (b.overlayLabel _).hit hit
    exact ⟨last.lastPosted, shown⟩
  · intro e st d u later earlier steps quiet overlay early
    rw [s.dm_after, steps, Dm.after_append]
    apply Dm.after_overlay_up overlay (s.dm.after earlier) u quiet
    intro r hr
    rw [due_handleEvent overlay (s.dm.after_src earlier), s.dm.nowMs_after]
    exact early r hr
  · intro e st d u later earlier steps quiet overlay late
    rw [s.dm_after, steps, Dm.after_append]
    apply Dm.after_overlay_over overlay (s.dm.after earlier) u quiet
    obtain ⟨r, hr, due⟩ := late
    refine ⟨r, hr, ?_⟩
    rwa [due_handleEvent overlay (s.dm.after_src earlier), s.dm.nowMs_after]

theorem startDisplay_answers (p : Platform W) (before : Dm W) (disp queue taskCreated : Bool)
    (r : Reading W) (h : List (Action W)) {q : Fifo DmEvent 8}
    (created : ((startDisplay p before disp queue taskCreated r).after h).sQ = some q)
    (drained : q.items = []) :
    ScreenAnswers (startDisplay p before disp queue taskCreated r) h := by
  have fresh := startDisplay_fresh p before disp queue taskCreated r
  have waiting := DisplaySystem.waiting fresh h created
  rw [drained, List.append_nil] at waiting
  cases start : (startDisplay p before disp queue taskCreated r).sQ with
  | none => simp [((startDisplay p before disp queue taskCreated r).idle h start).1] at created
  | some q₀ =>
    obtain ⟨b, -, booted⟩ := startDisplay_boot start
    exact b.screenAnswers booted waiting

theorem startDisplay_answers_hit_over_error :
    let s := startDisplay .bare zeroDm true true true ⟨0, 0⟩
    let h := [.task ⟨9, 9⟩, .task ⟨8, 8⟩, .post none, .post (some .hit),
      .post (some (.errorSet 7))]
    (s.after h).dm.state = .overlayHit ∧ openStates (s.accepted h) = [.overlayHit, .error] ∧
      ScreenAnswers s h :=
  have created : DisplaySystem.sQ _ = some (Fifo.empty DmEvent 8) := rfl
  ⟨rfl, rfl, startDisplay_answers .bare zeroDm true true true ⟨0, 0⟩ _ created rfl⟩

section Reached

def DisplaySystem.Reaches (s : DisplaySystem W) (evts : List DmEvent) (st : DmState) : Prop :=
  ∃ h, s.accepted h = evts ∧ (s.after h).running = true ∧
    (s.after h).sQ = some (Fifo.empty DmEvent 8) ∧ (s.after h).dm.state = st

theorem DisplaySystem.post_task {s : DisplaySystem W} (running : s.running = true)
    (drained : s.sQ = some (Fifo.empty DmEvent 8)) (e : DmEvent) (r : Reading W) :
    (s.after [.task r, .post (some e)]).sQ = some (Fifo.empty DmEvent 8) ∧
      (s.after [.task r, .post (some e)]).dm = handleEvent s.dm e r ∧
      s.accepted [.task r, .post (some e)] = [e] := by
  obtain ⟨sQ, dm, run, served⟩ := s
  cases running
  cases drained
  exact ⟨rfl, rfl, rfl⟩

theorem DisplaySystem.task_drained {s : DisplaySystem W} (running : s.running = true)
    (drained : s.sQ = some (Fifo.empty DmEvent 8)) (r : Reading W) :
    (s.after [.task r]).sQ = some (Fifo.empty DmEvent 8) ∧
      (s.after [.task r]).dm = iteration s.dm r := by
  obtain ⟨sQ, dm, run, served⟩ := s
  cases running
  cases drained
  exact ⟨rfl, rfl⟩

section

variable {s : DisplaySystem W} {evts : List DmEvent} {st : DmState}

theorem DisplaySystem.Reaches.event (reaches : s.Reaches evts st) (e : DmEvent) (r : Reading W) :
    ∃ dm : Dm W, dm.state = st ∧ s.Reaches (evts ++ [e]) (handleEvent dm e r).state := by
  obtain ⟨h, accepted, running, drained, state⟩ := reaches
  obtain ⟨drained', dm, more⟩ := DisplaySystem.post_task running drained e r
  refine ⟨(s.after h).dm, state, [.task r, .post (some e)] ++ h, ?_, ?_, ?_, ?_⟩
  · rw [s.accepted_append, accepted, more]
  · rw [s.running_after, ← s.running_after h, running]
  · rw [s.after_append, drained']
  · rw [s.after_append, dm]

theorem DisplaySystem.Reaches.givesWay (reaches : s.Reaches evts st) {e : DmEvent} {st' : DmState}
    {d : Nat} (overlay : e.overlay = some (st', d)) (clock : ∀ t, ∃ r, nowMs s.dm r = t) :
    s.Reaches (evts ++ [e]) st.givesWayTo := by
  obtain ⟨h, accepted, running, drained, state⟩ := reaches
  obtain ⟨u, start⟩ := clock 0
  obtain ⟨r, late⟩ := clock 800
  obtain ⟨drained', dm, more⟩ := DisplaySystem.post_task running drained e u
  have running' : ((s.after h).after [.task u, .post (some e)]).running = true := by
    rw [DisplaySystem.running_after, running]
  obtain ⟨drained'', dm'⟩ := DisplaySystem.task_drained running' drained' r
  refine ⟨[.task r] ++ ([.task u, .post (some e)] ++ h), ?_, ?_, ?_, ?_⟩
  · rw [s.accepted_append, s.accepted_append, accepted, more]
    simp [DisplaySystem.accepted]
  · rw [s.running_after, ← s.running_after h, running]
  · rw [s.after_append, s.after_append, drained'']
  · have src : (s.after h).dm.src = s.dm.src := by rw [s.dm_after, Dm.after_src]
    have due : Due (handleEvent (s.after h).dm e u) (nowMs (s.after h).dm r) := by
      rw [due_handleEvent overlay src, s.dm_after, Dm.nowMs_after, late]
      cases e with
      | hit | msg text => simp [Due, start]
      | _ => cases overlay
    have quiet : ∀ x ∈ [Step.iteration r], ¬x.Recognised := by simp
    have gone := Dm.after_overlay_over overlay (s.after h).dm u quiet ⟨r, .head [], due⟩
    rw [s.after_append, s.after_append, dm', dm]
    rw [state] at gone
    exact gone

end

theorem openStates_ne_nil (evts : List DmEvent) : openStates evts ≠ [] := by
  induction evts using List.reverseRecOn with
  | nil => simp [openStates]
  | append_singleton evts e ih =>
    rw [openStates_concat]
    cases e <;> simp [DmEvent.leaves, ih]

def DisplaySystem.bare : DisplaySystem UInt32 := startDisplay .bare zeroDm true true true ⟨0, 0⟩

theorem DisplaySystem.bare_clock (t : UInt32) :
    ∃ r, nowMs DisplaySystem.bare.dm r = t := ⟨⟨0, t⟩, rfl⟩

/-- No state can be struck from those the events leave open: each is that of some run. -/
theorem openStates_iff_reaches (evts : List DmEvent) (st : DmState) :
    st ∈ openStates evts ↔ DisplaySystem.bare.Reaches evts st := by
  constructor
  · intro mem
    induction evts using List.reverseRecOn generalizing st with
    | nil =>
      rcases List.mem_cons.mp mem with rfl | mem
      · exact ⟨[], rfl, rfl, rfl, rfl⟩
      · obtain rfl := List.mem_singleton.mp mem
        exact ⟨[.task ⟨800, 800⟩], rfl, rfl, rfl, rfl⟩
    | append_singleton evts e ih =>
      rw [openStates_concat] at mem
      obtain ⟨below, open'⟩ := List.exists_mem_of_ne_nil _ (openStates_ne_nil evts)
      obtain ⟨dm, -, handled⟩ := (ih below open').event e ⟨0, 0⟩
      cases e with
      | errorSet errorCode =>
        obtain rfl := List.mem_singleton.mp mem
        exact handled
      | errorClear =>
        obtain rfl := List.mem_singleton.mp mem
        exact handled
      | hit | msg text =>
        rcases List.mem_cons.mp mem with rfl | mem
        · exact handled
        · obtain ⟨below', open'', rfl⟩ := List.mem_map.mp mem
          exact (ih below' open'').givesWay rfl DisplaySystem.bare_clock
      | other type =>
        obtain ⟨dm', rfl, handled'⟩ := (ih st mem).event (.other type) ⟨0, 0⟩
        exact handled'
  · rintro ⟨h, rfl, -, drained, rfl⟩
    have start : DisplaySystem.bare.sQ = some (Fifo.empty DmEvent 8) := rfl
    obtain ⟨b, -, booted⟩ := startDisplay_boot start
    have waiting := DisplaySystem.waiting (startDisplay_fresh .bare zeroDm true true true ⟨0, 0⟩) h
      drained
    exact (b.screenAnswers booted (waiting.trans (List.append_nil _))).state

end Reached

end Answers

section Rounds

def Action.isTask : Action W → Bool
  | .post _ => false
  | .task _ => true

def rounds : List (Step W) → Nat
  | [] => 0
  | .event _ _ :: k => rounds k
  | .iteration _ :: k => rounds k + 1

theorem length_eq_rounds (k : List (Step W)) : k.length = (handled k).length + rounds k := by
  induction k with
  | nil => rfl
  | cons x k ih => cases x <;> simp [handled, rounds, ih] <;> omega

theorem DisplaySystem.length_taskSteps (s : DisplaySystem W) (running : s.running = true)
    (h : List (Action W)) : (s.taskSteps h).length = h.countP Action.isTask := by
  induction h with
  | nil => rfl
  | cons x h ih =>
    cases x with
    | post evt => simpa [taskSteps, Action.isTask] using ih
    | task r =>
      have one : ((s.after h).next r).length = 1 := by
        rw [next, if_pos ((s.running_after h).trans running)]
        split <;> rfl
      rw [taskSteps, List.length_append, one, ih, List.countP_cons]
      simp [Action.isTask, Nat.add_comm]

theorem DisplaySystem.tasks_le (s : DisplaySystem W) (running : s.running = true)
    (h : List (Action W)) :
    h.countP Action.isTask ≤ rounds (s.taskSteps h) + (s.accepted h).length + 8 := by
  obtain ⟨q, queue⟩ := Option.isSome_iff_exists.mp (s.served running)
  obtain ⟨q', -, kept⟩ := s.conserved h queue
  have kept := congrArg List.length kept
  have steps := length_eq_rounds (s.taskSteps h)
  have bound := q.bounded
  rw [List.length_append, List.length_append] at kept
  rw [s.length_taskSteps running h] at steps
  omega

theorem DisplaySystem.tasks_le_one_event :
    let s := startDisplay .bare zeroDm true true true ⟨0, 0⟩
    let h := [.task ⟨3, 3⟩, .task ⟨2, 2⟩, .post (some .hit), .task ⟨1, 1⟩]
    rounds (s.taskSteps h) = 2 ∧
      h.countP Action.isTask ≤ rounds (s.taskSteps h) + (s.accepted h).length + 8 :=
  ⟨rfl, DisplaySystem.tasks_le _ rfl _⟩

theorem DisplaySystem.next_of_waiting {s : DisplaySystem W} (running : s.running = true)
    {q : Fifo DmEvent 8} (queue : s.sQ = some q) (waiting : q.items ≠ []) (r : Reading W) :
    ∃ e, s.next r = [.event e r] := by
  obtain ⟨e, rest, items⟩ := List.exists_cons_of_ne_nil waiting
  obtain ⟨q', received, -⟩ := Fifo.exists_receive items
  exact ⟨e, by rw [next, if_pos running, queue, Option.bind_some, received]⟩

theorem DisplaySystem.next_of_drained {s : DisplaySystem W} (running : s.running = true)
    {q : Fifo DmEvent 8} (queue : s.sQ = some q) (drained : q.items = []) (r : Reading W) :
    s.next r = [.iteration r] := by
  rw [next, if_pos running, queue, Option.bind_some, Fifo.receive_eq_none_of_nil drained]

theorem DisplaySystem.rest_of_lt (s : DisplaySystem W) {q : Fifo DmEvent 8}
    (queue : s.sQ = some q) {h : List (Action W)}
    (waiting : (handled (s.taskSteps h)).length < q.items.length) :
    ∃ q', (s.after h).sQ = some q' ∧ q'.items ≠ [] := by
  obtain ⟨q', queue', kept⟩ := s.conserved h queue
  refine ⟨q', queue', fun none => ?_⟩
  have lengths := congrArg List.length kept
  rw [none, List.append_nil, List.length_append] at lengths
  omega

theorem DisplaySystem.handled_or_each (s : DisplaySystem W) (running : s.running = true)
    {q : Fifo DmEvent 8} (queue : s.sQ = some q) (h : List (Action W)) :
    q.items.length ≤ (handled (s.taskSteps h)).length ∨
      (handled (s.taskSteps h)).length = h.countP Action.isTask := by
  induction h with
  | nil => exact .inr rfl
  | cons x h ih =>
    cases x with
    | post evt => simpa [taskSteps, Action.isTask] using ih
    | task r =>
      rw [taskSteps, handled_append, List.length_append]
      rcases ih with done | each
      · exact .inl (done.trans (Nat.le_add_right _ _))
      · by_cases done : q.items.length ≤ (handled (s.taskSteps h)).length
        · exact .inl (done.trans (Nat.le_add_right _ _))
        · obtain ⟨q', queue', waiting⟩ := s.rest_of_lt queue (Nat.lt_of_not_le done)
          obtain ⟨e, event⟩ :=
            DisplaySystem.next_of_waiting ((s.running_after h).trans running) queue' waiting r
          rw [event, each, List.countP_cons_of_pos rfl]
          exact .inr rfl

theorem DisplaySystem.served_of_le (s : DisplaySystem W) {q : Fifo DmEvent 8}
    (queue : s.sQ = some q) {h : List (Action W)}
    (long : q.items.length ≤ (handled (s.taskSteps h)).length) :
    q.items <+: handled (s.taskSteps h) := by
  obtain ⟨q', -, kept⟩ := s.conserved h queue
  have front : q.items <+: handled (s.taskSteps h) ++ q'.items := by
    rw [← kept]
    exact List.prefix_append _ _
  exact List.prefix_of_prefix_length_le front (List.prefix_append _ _) long

theorem DisplaySystem.drains (s : DisplaySystem W) (running : s.running = true)
    {q : Fifo DmEvent 8} (queue : s.sQ = some q) (h : List (Action W))
    (enough : q.items.length ≤ h.countP Action.isTask) :
    q.items <+: handled (s.taskSteps h) := by
  apply s.served_of_le queue
  rcases s.handled_or_each running queue h with done | each
  · exact done
  · rwa [each]

theorem DisplaySystem.drains_two_events :
    let s := (startDisplay .bare zeroDm true true true ⟨0, 0⟩).after
      [.post (some (.msg "WS ON".toList)), .post (some .hit)]
    let h := [.task ⟨2, 2⟩, .post (some .errorClear), .task ⟨1, 1⟩]
    [.hit, .msg "WS ON".toList] <+: handled (s.taskSteps h) := by
  intro s h
  have queue : s.sQ = some ⟨[.hit, .msg "WS ON".toList], by decide⟩ := rfl
  exact s.drains rfl queue h (by decide)

end Rounds

end RayzWeapon.Display
