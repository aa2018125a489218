import RayzWeapon.Display.PostTime
import RayzWeapon.Display.ClosedForm

universe u

namespace RayzWeapon.Display

open RayzWeapon.Lib

variable {W : Type u} {e : DmEvent} {st : DmState} {d : Nat}

def DmEvent.Shown : DmEvent → Label → Prop
  | .hit, label => label = ⟨"HIT!".toList, false⟩ ∨ label = ⟨"    ".toList, false⟩
  | .msg text, label => label = ⟨text, false⟩
  | _, _ => False

structure NoticeLabel (e : DmEvent) (st : DmState) (dm : Dm W) : Prop where
  shown : dm.state = st → e.Shown dm.overlay
  hides : dm.NoLinger

theorem NoticeLabel.event (overlay : e.overlay = some (st, d)) (dm : Dm W) (u : Reading W) :
    NoticeLabel e st (handleEvent dm e u) := by
  have isOverlay := (handleEvent_overlay overlay dm u).1
  have state := (handleEvent_overlay overlay dm u).2.2.2.1
  refine ⟨fun _ => ?_, fun out => absurd (state ▸ isOverlay) out⟩
  cases e with
  | hit => exact .inl rfl
  | msg text => exact rfl
  | _ => cases overlay

theorem NoticeLabel.iteration (overlay : e.overlay = some (st, d)) {dm : Dm W}
    (label : NoticeLabel e st dm) (r : Reading W) :
    NoticeLabel e st (Display.iteration dm r) := by
  refine ⟨fun state => ?_, iteration_noLinger label.hides r⟩
  obtain ⟨dm', checked, eq⟩ := iteration_checked dm r
  rw [eq, redraw_state] at state
  have isOverlay : st.IsOverlay := (handleEvent_overlay overlay dm r).1
  have waiting : dm' = dm := by
    cases checked with
    | waiting notDue => rfl
    | overlay due up =>
      dsimp only at state
      rw [← state] at isOverlay
      split at isOverlay <;> simp at isOverlay
    | boot due boot =>
      dsimp only at state
      simp [← state] at isOverlay
    | stale due rest =>
      dsimp only at state
      rw [state] at rest
      rcases rest with rfl | rfl <;> simp at isOverlay
  rw [eq]
  rw [waiting] at state ⊢
  cases e with
  | hit =>
    cases overlay
    rcases redraw_overlay_hit state (nowMs dm r) r with same | frame
    · rw [same]
      exact label.shown state
    · exact frame
  | msg text =>
    cases overlay
    rw [redraw_overlay _ _ (by simp [state])]
    exact label.shown state
  | _ => cases overlay

theorem NoticeLabel.after (overlay : e.overlay = some (st, d)) {dm : Dm W}
    (label : NoticeLabel e st dm) {k : List (Step W)} (idle : ∀ x ∈ k, ∃ r, x = .iteration r) :
    NoticeLabel e st (dm.after k) := by
  refine Runs.invariant_of_ok label ?_ idle
  rintro dm x ⟨r, rfl⟩ label
  exact label.iteration overlay r

section Up

variable {latency : Nat} {s : TimedDisplay W} {h : List (Nat × Action W)}

theorem TimedDisplay.PolledRun.now_le (run : s.PolledRun latency h) : s.now ≤ (s.after h).now := by
  induction h with
  | nil => exact Nat.le_refl _
  | cons x h ih =>
    obtain ⟨prompt, run⟩ := Runs.each_cons.mp run
    exact (ih run).trans prompt.forward

theorem TimedDisplay.PolledRun.mem (run : s.PolledRun latency h) {x : Nat × Action W}
    (hx : x ∈ h) : s.now ≤ x.1 ∧ x.1 ≤ (s.after h).now := by
  induction h with
  | nil => cases hx
  | cons y h ih =>
    obtain ⟨prompt, before⟩ := Runs.each_cons.mp run
    rcases hx with _ | ⟨_, hx⟩
    · exact ⟨(TimedDisplay.PolledRun.now_le before).trans prompt.forward, Nat.le_refl _⟩
    · exact ⟨(ih before hx).1, (ih before hx).2.trans prompt.forward⟩

/-- The moment at which the event has been handled, the last there was. -/
structure EventUp (e : DmEvent) (u : Reading W) (s : TimedDisplay W) : Prop where
  running : s.system.running = true
  drained : ∃ q, s.system.sQ = some q ∧ q.items = []
  shows : ∃ dm, s.system.dm = handleEvent dm e u
  awake : s.wake = s.now

section Alone

variable {u : Reading W} (up : EventUp e u s) (alone : s.accepted h = [])
include up alone

theorem EventUp.drained_after :
    s.handled h = [] ∧ ∃ q, (s.after h).system.sQ = some q ∧ q.items = [] := by
  obtain ⟨q, queue, drained⟩ := up.drained
  obtain ⟨q', queue', kept⟩ := TimedDisplay.conserved queue h
  rw [drained, alone] at kept
  obtain ⟨none, drained'⟩ := List.append_eq_nil_iff.mp kept.symm
  exact ⟨none, q', queue', drained'⟩

theorem EventUp.idle : ∀ x ∈ s.system.taskSteps (h.map Prod.snd), ∃ r, x = .iteration r :=
  iteration_of_handled (up.drained_after alone).1

theorem EventUp.quiet : ∀ x ∈ s.system.taskSteps (h.map Prod.snd), ¬x.Recognised := by
  intro x hx
  obtain ⟨r, rfl⟩ := up.idle alone x hx
  exact id

theorem EventUp.label (overlay : e.overlay = some (st, d)) :
    NoticeLabel e st (s.after h).system.dm := by
  obtain ⟨dm, shows⟩ := up.shows
  rw [TimedDisplay.system_after, DisplaySystem.dm_after, shows]
  exact NoticeLabel.after overlay (.event overlay dm u) (up.idle alone)

variable (d) in
theorem EventUp.found (run : s.PolledRun latency h) :
    (∃ t r, (t, .task r) ∈ h ∧ .iteration r ∈ s.system.taskSteps (h.map Prod.snd) ∧
      s.now + d ≤ t ∧ t < s.now + d + 20 + latency) ∨ (s.after h).wake < s.now + d + 20 := by
  induction h with
  | nil =>
    right
    change s.wake < _
    rw [up.awake]
    omega
  | cons x h ih =>
    obtain ⟨t, x⟩ := x
    obtain ⟨prompt, earlier⟩ := Runs.each_cons.mp run
    cases x with
    | post evt =>
      have alone' : s.accepted h = [] := (List.append_eq_nil_iff.mp alone).1
      rcases ih alone' earlier with ⟨t', r', mem, step, window⟩ | before
      · exact .inl ⟨t', r', .tail _ mem, step, window⟩
      · exact .inr before
    | task r =>
      obtain ⟨-, q, queue, drained⟩ := up.drained_after (h := h) alone
      have running := (s.running_after h).trans up.running
      have next := DisplaySystem.next_of_drained running queue drained r
      rcases ih alone earlier with ⟨t', r', mem, step, window⟩ | before
      · exact .inl ⟨t', r', .tail _ mem, List.mem_append_right _ step, window⟩
      · have inTime : t ≤ (s.after h).wake + latency := prompt.inTime
        have short := displayDelay_le (s.after h).system
        by_cases reached : s.now + d ≤ t
        · refine .inl ⟨t, r, .head h, ?_, reached, by omega⟩
          rw [TimedDisplay.system_after] at next
          exact List.mem_append_left _ (by rw [next]; exact .head _)
        · right
          change t + displayDelay (s.after h).system < _
          omega

variable (run : s.PolledRun latency h) (overlay : e.overlay = some (st, d))
  (clock : ∀ t r, (t, .task r) ∈ h → (nowMs s.system.dm r).toNat = t % 2 ^ 32)
  (read : (nowMs s.system.dm u).toNat = s.now % 2 ^ 32)
include run overlay clock read

theorem EventUp.stays (noWrap : s.now % 2 ^ 32 + d < 2 ^ 32)
    (early : (s.after h).now < s.now + d) : (s.after h).system.dm.state = st := by
  obtain ⟨dm, shows⟩ := up.shows
  obtain ⟨-, hd, -, state, -, src, deadline⟩ := handleEvent_overlay overlay dm u
  have same : nowMs dm u = nowMs s.system.dm u := by simp only [nowMs, shows, src]
  rw [← shows, same] at deadline
  rw [← shows] at state
  rw [← read] at noWrap
  rw [TimedDisplay.system_after, DisplaySystem.dm_after, ← state]
  refine Dm.after_early hd noWrap deadline (up.quiet alone) fun r hr => ?_
  obtain ⟨⟨t, x⟩, mem, rfl⟩ := List.mem_map.mp (DisplaySystem.mem_taskSteps hr)
  obtain ⟨since, before⟩ := TimedDisplay.PolledRun.mem run mem
  have now := clock t r mem
  dsimp only at since before
  omega

theorem EventUp.ends (noWrap : s.now % 2 ^ 32 + (d + 20 + latency) ≤ 2 ^ 32)
    (late : s.now + d + 20 + latency ≤ (s.after h).now) (awake : DisplayAwake latency (s.after h)) :
    (s.after h).system.dm.state = .debug ∨ (s.after h).system.dm.state = .error := by
  obtain ⟨dm, shows⟩ := up.shows
  obtain ⟨isOverlay, hd, -, state, -, src, deadline⟩ := handleEvent_overlay overlay dm u
  have same : nowMs dm u = nowMs s.system.dm u := by simp only [nowMs, shows, src]
  rw [← shows, same] at deadline
  rw [← shows] at state
  have noWrap' : (nowMs s.system.dm u).toNat + d < 2 ^ 32 := by omega
  have expired : (s.after h).system.dm.state = s.system.dm.expiresInto := by
    rw [TimedDisplay.system_after, DisplaySystem.dm_after]
    refine Dm.after_late hd noWrap' deadline (up.quiet alone) fun early => ?_
    rcases up.found d alone run with ⟨t, r, mem, step, since, before⟩ | asleep
    · have soon := early r step
      have now := clock t r mem
      omega
    · have inTime := awake.inTime
      omega
  rw [expired, Dm.expiresInto_overlay (by rwa [state])]
  split
  · exact .inr rfl
  · exact .inl rfl

end Alone

end Up

theorem TimedDisplay.nowMs_after (s : TimedDisplay W) (h : List (Nat × Action W)) (r : Reading W) :
    nowMs (s.after h).system.dm r = nowMs s.system.dm r := by
  simp only [nowMs, system_after, DisplaySystem.dm_after, Dm.after_src]

section Posted

variable {latency : Nat} {s : TimedDisplay W} {h later earlier : List (Nat × Action W)}
  {q : Fifo DmEvent 8}

theorem TimedDisplay.accepted_append :
    s.accepted (later ++ earlier) = s.accepted earlier ++ (s.after earlier).accepted later := by
  rw [accepted, List.map_append, DisplaySystem.accepted_append, ← system_after]
  rfl

theorem TimedDisplay.goesUp (running : s.system.running = true) (queue : s.system.sQ = some q)
    {front : List DmEvent} (last : q.items = front ++ [e]) (inTime : s.now ≤ s.wake + latency)
    (run : s.PolledRun latency h) (alone : s.accepted h = [])
    (served : q.items.length ≤ (s.handled h).length) :
    ∃ later before u, h = later ++ before ∧ EventUp e u (s.after before) ∧
      ((s.after before).now, .task u) ∈ h ∧
      (s.after before).now ≤ s.wake + q.items.length * latency := by
  have unserved : ¬q.items.length ≤ (s.handled []).length := by
    rw [last, List.length_append]
    exact Nat.not_succ_le_zero _
  obtain ⟨later, ⟨t, x⟩, before, rfl, unmet, met⟩ :=
    Runs.exists_first (P := fun k => q.items.length ≤ (s.handled k).length) unserved served
  have waiting := Nat.lt_of_not_le unmet
  obtain ⟨-, run⟩ := TimedDisplay.polledRun_append.mp run
  obtain ⟨prompt, run'⟩ := Runs.each_cons.mp run
  cases x with
  | post evt => exact absurd met unmet
  | task r =>
    rw [TimedDisplay.accepted_append] at alone
    obtain ⟨alone, -⟩ := List.append_eq_nil_iff.mp alone
    obtain ⟨e', next, awake⟩ := s.next_event running queue r waiting
    obtain ⟨q', queue', kept⟩ := TimedDisplay.conserved queue ((t, .task r) :: before)
    rw [alone, List.append_nil] at kept
    have drained : q'.items = [] := by
      have lengths := congrArg List.length kept
      rw [List.length_append] at lengths
      exact List.eq_nil_of_length_eq_zero (by omega)
    rw [drained, List.append_nil, last, TimedDisplay.handled_task, next] at kept
    obtain ⟨rfl⟩ : [e] = [e'] := List.append_inj_right' kept rfl
    have taken := displayManagerTask_taken (s.after before).system r
    rw [next] at taken
    have inTime' : t ≤ (s.after before).wake + latency := prompt.inTime
    refine ⟨later, (t, .task r) :: before, r, rfl, ?_, ?_, ?_⟩
    · refine ⟨(s.running_after _).trans running, ⟨q', queue', drained⟩, ?_, ?_⟩
      · cases taken with
        | event before after received dm => exact ⟨_, dm⟩
      · exact congrArg (t + ·) awake
    · exact List.mem_append_right later (.head before)
    · obtain ⟨-, soon⟩ := s.handled_by running queue inTime run' waiting
      have cost := Nat.le_mul_of_pos_left latency (Nat.sub_pos_of_lt waiting)
      exact inTime'.trans ((Nat.add_le_add_left cost _).trans soon)

/-- A notice posted at `t` and handled at `up` at the latest, looked at in the state `s`. -/
structure NoticeTimes (e : DmEvent) (st : DmState) (d latency t up : Nat) (s : TimedDisplay W) :
    Prop where
  shown : up < s.now → s.now < t + d → s.system.dm.state = st ∧ e.Shown s.system.dm.overlay
  gone : up + d + 20 + latency ≤ s.now →
    (s.system.dm.state = .debug ∨ s.system.dm.state = .error) ∧ s.system.dm.overlay.hidden = true

theorem EventUp.noticeTimes {t up : Nat} {u : Reading W} (shows : EventUp e u s)
    (overlay : e.overlay = some (st, d)) (run : s.PolledRun latency h) (alone : s.accepted h = [])
    (awake : DisplayAwake latency (s.after h))
    (clock : ∀ t r, (t, .task r) ∈ h → (nowMs s.system.dm r).toNat = t % 2 ^ 32)
    (read : (nowMs s.system.dm u).toNat = s.now % 2 ^ 32) (since : t ≤ s.now) (soon : s.now ≤ up)
    (noWrap : t % 2 ^ 32 + (up - t + d + 20 + latency) ≤ 2 ^ 32) :
    NoticeTimes e st d latency t up (s.after h) := by
  have label := shows.label alone overlay
  have noWrap' : s.now % 2 ^ 32 + (d + 20 + latency) ≤ 2 ^ 32 := by omega
  constructor
  · intro _ early
    have state := shows.stays alone run overlay clock read (by omega) (by omega)
    exact ⟨state, label.shown state⟩
  · intro late
    have state := shows.ends alone run overlay clock read noWrap' (by omega) awake
    refine ⟨state, label.hides ?_⟩
    rcases state with debug | error <;> simp [*]

theorem displayManagerPost_taken {sQ : Option (Fifo DmEvent 8)}
    (taken : (displayManagerPost sQ (some e)).2 = true)
    (queue : (displayManagerPost sQ (some e)).1 = some q) :
    ∃ front, q.items = front ++ [e] := by
  cases sQ with
  | none => cases taken
  | some q₀ =>
    obtain rfl := Option.some.inj queue
    refine ⟨q₀.items, ?_⟩
    have accepted : (q₀.send e).2 = true := taken
    rw [Fifo.items_send, if_pos accepted]

theorem TimedDisplay.noticeTimes (running : s.system.running = true)
    (queue : s.system.sQ = some q) {front : List DmEvent} (last : q.items = front ++ [e])
    (overlay : e.overlay = some (st, d)) (awake : DisplayAwake latency s)
    (run : s.PolledRun latency h) (alone : s.accepted h = [])
    (clock : ∀ t r, (t, .task r) ∈ h → (nowMs s.system.dm r).toNat = t % 2 ^ 32)
    (awake' : DisplayAwake latency (s.after h))
    (noWrap : s.now % 2 ^ 32 + (20 + q.items.length * latency + d + 20 + latency) ≤ 2 ^ 32) :
    NoticeTimes e st d latency s.now (s.now + (20 + q.items.length * latency)) (s.after h) := by
  have soon := awake.soon
  by_cases late : s.now + (20 + q.items.length * latency) < (s.after h).now
  · have served := s.served running queue awake.inTime run (by omega)
    obtain ⟨later, before, u, rfl, up, mem, upBy⟩ :=
      s.goesUp running queue last awake.inTime run alone served
    obtain ⟨run', since⟩ := TimedDisplay.polledRun_append.mp run
    rw [TimedDisplay.accepted_append] at alone
    rw [TimedDisplay.after_append] at awake' ⊢
    have clock' (t : Nat) (r : Reading W) (mem : (t, .task r) ∈ later ++ before) :
        (nowMs (s.after before).system.dm r).toNat = t % 2 ^ 32 := by
      rw [TimedDisplay.nowMs_after]
      exact clock t r mem
    exact up.noticeTimes overlay run' (List.append_eq_nil_iff.mp alone).2 awake'
      (fun t r mem => clock' t r (List.mem_append_left _ mem)) (clock' _ u mem)
      (TimedDisplay.PolledRun.now_le since) (by omega) (by omega)
  · constructor
    · exact fun up => absurd up late
    · intro gone
      omega

theorem notice_in_time {system : DisplaySystem W} {t₀ t : Nat} (running : system.running = true)
    (overlay : e.overlay = some (st, d))
    (run : (TimedDisplay.initial system t₀).PolledRun latency
      (later ++ (t, .post (some e)) :: earlier))
    (clock : ∀ t r, (t, .task r) ∈ later → (nowMs system.dm r).toNat = t % 2 ^ 32)
    (taken : (displayManagerPost
      ((TimedDisplay.initial system t₀).after earlier).system.sQ (some e)).2 = true)
    (queue : ((TimedDisplay.initial system t₀).after ((t, .post (some e)) :: earlier)).system.sQ =
      some q)
    (alone : ((TimedDisplay.initial system t₀).after ((t, .post (some e)) :: earlier)).accepted
      later = [])
    (noWrap : t % 2 ^ 32 + (20 + q.items.length * latency + d + 20 + latency) ≤ 2 ^ 32) :
    NoticeTimes e st d latency t (t + (20 + q.items.length * latency))
      ((TimedDisplay.initial system t₀).after (later ++ (t, .post (some e)) :: earlier)) := by
  obtain ⟨front, last⟩ := displayManagerPost_taken taken queue
  obtain ⟨run', before⟩ := TimedDisplay.polledRun_append.mp run
  have running' := ((TimedDisplay.initial system t₀).running_after
    ((t, .post (some e)) :: earlier)).trans running
  have awake' := TimedDisplay.displayAwake run
  rw [TimedDisplay.after_append] at awake' ⊢
  have awake := TimedDisplay.displayAwake before
  refine TimedDisplay.noticeTimes running' queue last overlay awake run' alone ?_ awake' noWrap
  intro t' r mem
  rw [TimedDisplay.nowMs_after]
  exact clock t' r mem

theorem notice_in_time_hit :
    let system := startDisplay .bare zeroDm true true true ⟨0, 0⟩
    let task (t : Nat) : Nat × Action UInt32 := (t, .task ⟨0, UInt32.ofNat t⟩)
    let later := [1100, 880, 660, 440, 220, 20].map task
    NoticeTimes .hit .overlayHit 600 200 10 230
      ((TimedDisplay.initial system 0).after (later ++ [(10, .post (some .hit)), task 0])) := by
  intro system task later
  have queue : ((TimedDisplay.initial system 0).after
      [(10, .post (some .hit)), task 0]).system.sQ = some ⟨[.hit], by decide⟩ := rfl
  refine notice_in_time rfl rfl ?_ ?_ rfl queue rfl (by decide)
  · decide +kernel
  · intro t r mem
    obtain ⟨t', -, eq⟩ := List.mem_map.mp mem
    cases eq
    exact UInt32.toNat_ofNat'

section Error

variable {errorCode : UInt32} {dm : Dm W}

structure ErrorPageUp (errorCode : UInt32) (dm : Dm W) : Prop where
  state : dm.state = .error
  untimed : dm.stateUntilMs = 0
  code : dm.errorCode = errorCode
  page : dm.rows = errorPage errorCode

theorem ErrorPageUp.iteration (up : ErrorPageUp errorCode dm) (r : Reading W) :
    ErrorPageUp errorCode (Display.iteration dm r) := by
  obtain ⟨state, untimed, rfl, page⟩ := up
  obtain ⟨dm', checked, eq⟩ := iteration_checked dm r
  have waiting : dm' = dm := by
    cases checked with
    | waiting notDue => rfl
    | overlay due _ | boot due _ | stale due _ => exact absurd untimed due.1
  rw [eq, waiting]
  constructor
  · rw [redraw_state, state]
  · rw [redraw_stateUntilMs, untimed]
  · rw [redraw_errorCode]
  · exact redraw_rows_error _ r state page

theorem EventUp.errorPage {u : Reading W} (up : EventUp (.errorSet errorCode) u s)
    (alone : s.accepted h = []) : ErrorPageUp errorCode (s.after h).system.dm := by
  obtain ⟨dm, shows⟩ := up.shows
  rw [handleEvent_errorSet] at shows
  rw [TimedDisplay.system_after, DisplaySystem.dm_after, shows]
  refine Runs.invariant_of_ok ⟨rfl, rfl, rfl, rfl⟩ ?_ (up.idle alone)
  rintro dm x ⟨r, rfl⟩ up
  exact up.iteration r

theorem error_in_time {system : DisplaySystem W} {t₀ t : Nat} (running : system.running = true)
    (run : (TimedDisplay.initial system t₀).PolledRun latency
      (later ++ (t, .post (some (.errorSet errorCode))) :: earlier))
    (taken : (displayManagerPost ((TimedDisplay.initial system t₀).after earlier).system.sQ
      (some (.errorSet errorCode))).2 = true)
    (queue : ((TimedDisplay.initial system t₀).after
      ((t, .post (some (.errorSet errorCode))) :: earlier)).system.sQ = some q)
    (alone : ((TimedDisplay.initial system t₀).after
      ((t, .post (some (.errorSet errorCode))) :: earlier)).accepted later = [])
    (late : t + (20 + q.items.length * latency) < ((TimedDisplay.initial system t₀).after
      (later ++ (t, .post (some (.errorSet errorCode))) :: earlier)).now) :
    ErrorPageUp errorCode ((TimedDisplay.initial system t₀).after
      (later ++ (t, .post (some (.errorSet errorCode))) :: earlier)).system.dm := by
  obtain ⟨front, last⟩ := displayManagerPost_taken taken queue
  obtain ⟨run', before⟩ := TimedDisplay.polledRun_append.mp run
  have running' := ((TimedDisplay.initial system t₀).running_after
    ((t, .post (some (.errorSet errorCode))) :: earlier)).trans running
  have awake := TimedDisplay.displayAwake before
  have soon : _ ≤ t + 20 := awake.soon
  rw [TimedDisplay.after_append] at late ⊢
  have served := TimedDisplay.served running' queue awake.inTime run' (by omega)
  obtain ⟨later', before', u, rfl, up, -, -⟩ :=
    TimedDisplay.goesUp running' queue last awake.inTime run' alone served
  rw [TimedDisplay.accepted_append] at alone
  rw [TimedDisplay.after_append]
  exact up.errorPage (List.append_eq_nil_iff.mp alone).2

theorem error_in_time_after_hit :
    let system := startDisplay .bare zeroDm true true true ⟨0, 0⟩
    let task (t : Nat) : Nat × Action UInt32 := (t, .task ⟨0, UInt32.ofNat t⟩)
    let later := [task 40, task 20, task 20, task 20]
    let earlier := [(10, .post (some .hit)), task 0]
    ErrorPageUp 7 ((TimedDisplay.initial system 0).after
      (later ++ (10, .post (some (.errorSet 7))) :: earlier)).system.dm := by
  intro system task later earlier
  have queue : ((TimedDisplay.initial system 0).after
      ((10, .post (some (.errorSet 7))) :: earlier)).system.sQ =
        some ⟨[.hit, .errorSet 7], by decide⟩ := rfl
  have run : (TimedDisplay.initial system 0).PolledRun 1
      (later ++ (10, .post (some (.errorSet 7))) :: earlier) := by decide +kernel
  exact error_in_time rfl run rfl queue rfl (by decide)

end Error

end Posted

end RayzWeapon.Display
