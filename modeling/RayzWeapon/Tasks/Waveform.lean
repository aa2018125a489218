import RayzWeapon.Tasks.Laser
import RayzWeapon.Tasks.Timing

namespace RayzWeapon.Tasks

open RayzWeapon.Lib

variable (p : Protocol) (c : Durations)

def TimedWeapon.laserDue (s : TimedWeapon) : Option Nat :=
  match s.weapon.laserPc with
  | .receive => s.arrivals.head?.map (max s.laserLast)
  | .bit _ _ => some (max s.laserLast (s.nextWake p c))

structure Prompt (latency : Nat) (s : TimedWeapon) (x : Nat × Label) : Prop where
  paced : Paced p c s x
  inTime : ∀ due ∈ s.laserDue p c, x.1 ≤ due + latency

instance (latency : Nat) (s : TimedWeapon) (x : Nat × Label) : Decidable (Prompt p c latency s x) :=
  decidable_of_iff (Paced p c s x ∧ ∀ due ∈ s.laserDue p c, x.1 ≤ due + latency)
    ⟨fun ⟨paced, inTime⟩ => ⟨paced, inTime⟩, fun prompt => ⟨prompt.paced, prompt.inTime⟩⟩

def TimedWeapon.PromptRun (latency : Nat) (s : TimedWeapon) (h : List (Nat × Label)) : Prop :=
  Runs.Each (fun k x => Prompt p c latency (s.after p c k) x) h

instance (latency : Nat) (s : TimedWeapon) (h : List (Nat × Label)) :
    Decidable (s.PromptRun p c latency h) :=
  inferInstanceAs (Decidable (Runs.Each _ h))

/-- The level that the steps up to tick `t` leave on the pin. -/
def TimedWeapon.pinAt (s : TimedWeapon) (h : List (Nat × Label)) (t : Nat) : Bool :=
  (s.after p c (h.dropWhile (t < ·.1))).weapon.laserPin

variable {p c}

theorem TimedWeapon.PromptRun.paced {latency : Nat} {s : TimedWeapon} {h : List (Nat × Label)}
    (run : s.PromptRun p c latency h) : s.PacedRun p c h :=
  fun x k hk => (run x k hk).paced

theorem TimedWeapon.pinAt_later {s : TimedWeapon} {x : Nat × Label} {h : List (Nat × Label)}
    {t : Nat} (later : t < x.1) : s.pinAt p c (x :: h) t = s.pinAt p c h t := by
  simp only [pinAt, List.dropWhile_cons, later, decide_true, if_true]

theorem TimedWeapon.pinAt_now {s : TimedWeapon} {x : Nat × Label} {h : List (Nat × Label)} {t : Nat}
    (past : x.1 ≤ t) : s.pinAt p c (x :: h) t = (s.after p c (x :: h)).weapon.laserPin := by
  have notLater : ¬t < x.1 := Nat.not_lt.mpr past
  simp only [pinAt, List.dropWhile_cons, notLater, decide_false, Bool.false_eq_true, if_false]

section Sampled

theorem laser_quiet {w : Weapon} {x : Label} (other : x.isLaser = false) :
    (w.step p x).laser = w.laser := by
  cases x with
  | laser => cases other
  | control i =>
    rw [Weapon.step, controlStep_frame]
    rfl
  | espnow i =>
    rw [Weapon.step, espnowStep_frame]
    rfl
  | setConfig _ | setGameConfig _ | setRespawning _ => rfl

variable {latency t₀ i : Nat} {message : UInt32} {s : TimedWeapon}

structure InFlight (p : Protocol) (c : Durations) (message : UInt32) (t₀ i : Nat)
    (s : TimedWeapon) : Prop where
  pc : s.weapon.laserPc = .bit message i
  taken : s.taken = t₀
  left : i ≤ p.messageTotalBits
  ran : s.laserLast ≤ t₀ + (p.messageTotalBits - i) * c.bitDuration
  begun : i < p.messageTotalBits → t₀ + (p.messageTotalBits - (i + 1)) * c.bitDuration ≤ s.now
  pin : i < p.messageTotalBits → s.weapon.laserPin = messageBit message i

theorem InFlight.due (flight : InFlight p c message t₀ i s) :
    t₀ + (p.messageTotalBits - i) * c.bitDuration ∈ s.laserDue p c := by
  simp only [TimedWeapon.laserDue, TimedWeapon.nextWake, flight.pc, flight.taken, Option.mem_def]
  rw [Nat.max_eq_right flight.ran]

theorem InFlight.quiet (flight : InFlight p c message t₀ i s) {x : Nat × Label}
    (prompt : Prompt p c latency s x) (other : x.2.isLaser = false) :
    InFlight p c message t₀ i (s.step p c x) := by
  obtain ⟨pc, taken, left, ran, begun, pin⟩ := flight
  have forward := prompt.paced.forward
  have same : (s.step p c x).weapon.laser = s.weapon.laser := laser_quiet other
  have notTaken : takesMessage s.weapon x.2 = false := by
    unfold takesMessage
    split
    next laser => rw [laser] at other; cases other
    next => rfl
  have last : (s.step p c x).laserLast = s.laserLast := by simp [TimedWeapon.step, other]
  have taken' : (s.step p c x).taken = s.taken := by simp [TimedWeapon.step, notTaken]
  refine ⟨?_, taken'.trans taken, left, last.trans_le ran, ?_, ?_⟩
  · exact (congrArg Laser.pc same).trans pc
  · exact fun inside => (begun inside).trans forward
  · exact fun inside => (congrArg Laser.pin same).trans (pin inside)

theorem InFlight.nextBit (flight : InFlight p c message t₀ (i + 1) s) {t : Nat}
    (prompt : Prompt p c latency s (t, .laser)) (short : latency ≤ c.bitDuration) :
    InFlight p c message t₀ i (s.step p c (t, .laser)) := by
  have inTime : t ≤ _ := prompt.inTime _ flight.due
  have awake : s.nextWake p c ≤ t := prompt.paced.awake
  obtain ⟨pc, taken, left, -, -, -⟩ := flight
  have period : (p.messageTotalBits - i) * c.bitDuration =
      (p.messageTotalBits - (i + 1)) * c.bitDuration + c.bitDuration := by
    rw [← Nat.succ_mul]
    congr 1
    omega
  simp only [TimedWeapon.nextWake, pc, taken] at awake
  refine ⟨?_, ?_, Nat.le_of_succ_le left, ?_, fun _ => awake, fun _ => ?_⟩
  · simp [TimedWeapon.step, Weapon.step, laserStep, pc]
  · simp [TimedWeapon.step, takesMessage, pc, taken]
  · simp only [TimedWeapon.step, Label.isLaser, if_true]
    omega
  · simp [TimedWeapon.step, Weapon.step, laserStep, pc]

def Sent (p : Protocol) (c : Durations) (message : UInt32) (t₀ : Nat) (s : TimedWeapon) : Prop :=
  (∃ i, InFlight p c message t₀ i s) ∨ t₀ + p.messageTotalBits * c.bitDuration ≤ s.now

theorem Sent.step (sent : Sent p c message t₀ s) {x : Nat × Label} (prompt : Prompt p c latency s x)
    (short : latency ≤ c.bitDuration) : Sent p c message t₀ (s.step p c x) := by
  rcases sent with ⟨i, flight⟩ | ended
  · obtain ⟨t, x⟩ := x
    cases laser : x.isLaser with
    | false => exact .inl ⟨i, flight.quiet prompt laser⟩
    | true =>
      obtain rfl : x = .laser := by cases x <;> first | rfl | cases laser
      cases i with
      | succ i => exact .inl ⟨i, flight.nextBit prompt short⟩
      | zero =>
        have awake := prompt.paced.awake
        simp only [TimedWeapon.wake, TimedWeapon.nextWake, flight.pc, flight.taken,
          Nat.sub_zero] at awake
        exact .inr awake
  · exact .inr (ended.trans prompt.paced.forward)

theorem inFlight_take {queue : Fifo UInt32 5} (waits : s.weapon.laserPc = .receive)
    (received : s.weapon.laserMessageQueue.receive = some (message, queue)) :
    InFlight p c message t₀ p.messageTotalBits (s.step p c (t₀, .laser)) := by
  constructor
  · simp [TimedWeapon.step, Weapon.step, laserStep, waits, received]
  · simp [TimedWeapon.step, takesMessage, waits]
  · exact Nat.le_refl _
  · simp [TimedWeapon.step, Label.isLaser]
  · simp
  · simp

theorem Sent.sampled (sent : Sent p c message t₀ s) {x : Nat × Label}
    (prompt : Prompt p c latency s x) {j phase : Nat} (inside : j < p.messageTotalBits)
    (settled : latency ≤ phase) (held : phase < c.bitDuration)
    (before : s.now ≤ t₀ + j * c.bitDuration + phase)
    (after : t₀ + j * c.bitDuration + phase < x.1) :
    s.weapon.laserPin = messageBit message (p.messageTotalBits - 1 - j) := by
  rcases sent with ⟨i, flight⟩ | ended
  · have inTime := prompt.inTime _ flight.due
    have notPast : j < p.messageTotalBits - i := by
      apply Nat.lt_of_mul_lt_mul_right (a := c.bitDuration)
      omega
    have more : i < p.messageTotalBits := by omega
    have begun := flight.begun more
    have notBefore : p.messageTotalBits - (i + 1) < j + 1 := by
      apply Nat.lt_of_mul_lt_mul_right (a := c.bitDuration)
      rw [Nat.succ_mul]
      omega
    rw [flight.pin more]
    congr 1
    omega
  · have next := Nat.mul_le_mul_right c.bitDuration (Nat.succ_le_of_lt inside)
    rw [Nat.succ_mul] at next
    omega

theorem TimedWeapon.PromptRun.sent {later earlier : List (Nat × Label)}
    (run : s.PromptRun p c latency (later ++ (t₀, .laser) :: earlier))
    (short : latency ≤ c.bitDuration) {queue : Fifo UInt32 5}
    (waits : (s.after p c earlier).weapon.laserPc = .receive)
    (received : (s.after p c earlier).weapon.laserMessageQueue.receive = some (message, queue)) :
    Sent p c message t₀ (s.after p c (later ++ (t₀, .laser) :: earlier)) := by
  induction later with
  | nil => exact .inl ⟨_, inFlight_take waits received⟩
  | cons x later ih =>
    obtain ⟨prompt, run⟩ := Runs.each_cons.mp run
    exact (ih run).step prompt short

theorem TimedWeapon.PromptRun.pinAt {later earlier : List (Nat × Label)} {x : Nat × Label}
    (run : s.PromptRun p c latency (x :: (later ++ (t₀, .laser) :: earlier)))
    {queue : Fifo UInt32 5} (waits : (s.after p c earlier).weapon.laserPc = .receive)
    (received : (s.after p c earlier).weapon.laserMessageQueue.receive = some (message, queue))
    {j phase : Nat} (inside : j < p.messageTotalBits) (settled : latency ≤ phase)
    (held : phase < c.bitDuration) (after : t₀ + j * c.bitDuration + phase < x.1) :
    s.pinAt p c (later ++ (t₀, .laser) :: earlier) (t₀ + j * c.bitDuration + phase) =
      messageBit message (p.messageTotalBits - 1 - j) := by
  have short : latency ≤ c.bitDuration := settled.trans (Nat.le_of_lt held)
  induction later generalizing x with
  | nil =>
    obtain ⟨prompt, run⟩ := Runs.each_cons.mp run
    have sent := TimedWeapon.PromptRun.sent run short waits received
    have past : t₀ ≤ t₀ + j * c.bitDuration + phase := by omega
    rw [List.nil_append, pinAt_now past]
    exact sent.sampled prompt inside settled held past after
  | cons y later ih =>
    obtain ⟨prompt, run⟩ := Runs.each_cons.mp run
    by_cases past : y.1 ≤ t₀ + j * c.bitDuration + phase
    · rw [List.cons_append, pinAt_now past]
      have sent := TimedWeapon.PromptRun.sent run short waits received
      exact sent.sampled prompt inside settled held past after
    · rw [List.cons_append, pinAt_later (Nat.lt_of_not_le past)]
      exact ih run (Nat.lt_of_not_le past)

theorem messageBits_eq_map (message : UInt32) (n : Nat) :
    messageBits message n = (List.range n).map fun j => messageBit message (n - 1 - j) := by
  induction n with
  | zero => rfl
  | succ n ih =>
    rw [messageBits, ih, List.range_succ_eq_map, List.map_cons, List.map_map]
    congr 1
    apply List.map_congr_left
    intro j _
    simp only [Function.comp_apply]
    congr 1
    omega

theorem message_sampled (upper : p.messageTotalBits ≤ 32) {later earlier : List (Nat × Label)}
    (run : s.PromptRun p c latency (later ++ (t₀, .laser) :: earlier)) {queue : Fifo UInt32 5}
    (waits : (s.after p c earlier).weapon.laserPc = .receive)
    (received : (s.after p c earlier).weapon.laserMessageQueue.receive = some (message, queue))
    (ended : t₀ + p.messageTotalBits * c.bitDuration ≤
      (s.after p c (later ++ (t₀, .laser) :: earlier)).now)
    {phase : Nat} (settled : latency ≤ phase) (held : phase < c.bitDuration) :
    Bits.value ((List.range p.messageTotalBits).map fun j =>
      s.pinAt p c (later ++ (t₀, .laser) :: earlier) (t₀ + j * c.bitDuration + phase)) =
        message.toNat % 2 ^ p.messageTotalBits := by
  rw [← Bits.value_bits, ← messageBits_eq_bits upper, messageBits_eq_map]
  congr 1
  apply List.map_congr_left
  intro j inside
  rw [List.mem_range] at inside
  have next := Nat.mul_le_mul_right c.bitDuration (Nat.succ_le_of_lt inside)
  rw [Nat.succ_mul] at next
  cases later with
  | nil =>
    change t₀ + p.messageTotalBits * c.bitDuration ≤ t₀ at ended
    omega
  | cons x later =>
    change t₀ + p.messageTotalBits * c.bitDuration ≤ x.1 at ended
    have after : t₀ + j * c.bitDuration + phase < x.1 := by omega
    rw [List.cons_append, TimedWeapon.pinAt_later after]
    exact TimedWeapon.PromptRun.pinAt run waits received inside settled held after

theorem message_sampled_one_shot :
    let s := TimedWeapon.initial (.initial ⟨1, 7, 0, 0⟩ ⟨true, 0⟩ false) 500
    let earlier : List (Nat × Label) := List.replicate 9 (500, .control ⟨0, 1000, false, true⟩)
    let later : List (Nat × Label) :=
      (List.range 17).reverse.map fun k => (502 + 10 * k + k % 4, .laser)
    Bits.value ((List.range 16).map fun j =>
      s.pinAt .packed ⟨300, 10⟩ (later ++ (502, .laser) :: earlier) (502 + j * 10 + 5)) =
        0x0107 := by
  intro s earlier later
  have items : (s.after .packed ⟨300, 10⟩ earlier).weapon.laserMessageQueue.items = [0x0107] := by
    decide +kernel
  obtain ⟨queue, received, -⟩ := Fifo.exists_receive items
  have prompt : s.PromptRun .packed ⟨300, 10⟩ 3 (later ++ (502, .laser) :: earlier) := by
    decide +kernel
  have settled : 3 ≤ 5 := by decide
  exact message_sampled (p := .packed) (c := ⟨300, 10⟩) (by decide) prompt (by decide +kernel)
    received (by decide +kernel) settled (by decide)

end Sampled

section KeepsUp

variable {latency : Nat} {ticks : List Nat} {s : TimedWeapon}

/-- Where the latest shot is, the laser task being done with those before it. -/
inductive Readiness (p : Protocol) (c : Durations) (latency : Nat) (ticks : List Nat)
    (s : TimedWeapon) : Prop
  | idle (pc : s.weapon.laserPc = .receive) (empty : s.arrivals = [])
  | waiting {a : Nat} (pc : s.weapon.laserPc = .receive) (one : s.arrivals = [a])
      (latest : ticks.head? = some a) (ran : s.laserLast ≤ a) (now : s.now ≤ a + latency)
  | sending {a t₀ i : Nat} {message : UInt32} (empty : s.arrivals = [])
      (latest : ticks.head? = some a) (flight : InFlight p c message t₀ i s)
      (began : t₀ ≤ a + latency)
      (now : s.now ≤ a + p.messageTotalBits * c.bitDuration + 2 * latency)

structure KeptUp (p : Protocol) (c : Durations) (latency : Nat) (ticks : List Nat)
    (s : TimedWeapon) : Prop where
  ran : s.laserLast ≤ s.now
  accepted : s.weapon.failedSends = 0
  ready : Readiness p c latency ticks s

theorem out_le (p : Protocol) (c : Durations) (i : Nat) :
    (p.messageTotalBits - i) * c.bitDuration ≤ p.messageTotalBits * c.bitDuration :=
  Nat.mul_le_mul_right _ (Nat.sub_le _ _)

theorem due_waiting {a : Nat} (pc : s.weapon.laserPc = .receive) (one : s.arrivals = [a])
    (ran : s.laserLast ≤ a) : a ∈ s.laserDue p c := by
  simp only [TimedWeapon.laserDue, pc, one, List.head?_cons, Option.map_some, Option.mem_def]
  rw [Nat.max_eq_right ran]

theorem Readiness.quiet (ready : Readiness p c latency ticks s) {x : Nat × Label}
    (prompt : Prompt p c latency s x) (other : x.2.isLaser = false)
    (arrivals : (s.step p c x).arrivals = s.arrivals) :
    Readiness p c latency ticks (s.step p c x) := by
  have pc' : (s.step p c x).weapon.laserPc = s.weapon.laserPc :=
    congrArg Laser.pc (laser_quiet (p := p) (w := s.weapon) other)
  have last : (s.step p c x).laserLast = s.laserLast := by simp [TimedWeapon.step, other]
  cases ready with
  | idle pc empty => exact .idle (pc'.trans pc) (arrivals.trans empty)
  | waiting pc one latest ran now =>
    have due := prompt.inTime _ (due_waiting pc one ran)
    exact .waiting (pc'.trans pc) (arrivals.trans one) latest (last.trans_le ran) due
  | @sending a t₀ i message empty latest flight began now =>
    have inTime := prompt.inTime _ flight.due
    have left := out_le p c i
    refine .sending (arrivals.trans empty) latest (flight.quiet prompt other) began ?_
    change x.1 ≤ _
    omega

theorem Readiness.laser (ready : Readiness p c latency ticks s) {t : Nat}
    (prompt : Prompt p c latency s (t, .laser)) (short : latency ≤ c.bitDuration)
    (length : s.arrivals.length = s.weapon.laserMessageQueue.items.length) :
    Readiness p c latency ticks (s.step p c (t, .laser)) := by
  cases ready with
  | idle pc empty =>
    rw [empty, List.length_nil, eq_comm, List.length_eq_zero_iff] at length
    have none : s.weapon.laserMessageQueue.receive = none := by
      cases received : s.weapon.laserMessageQueue.receive with
      | none => rfl
      | some taken => simp [Fifo.receive_eq_some received] at length
    apply Readiness.idle
    · simp [TimedWeapon.step, Weapon.step, laserStep, pc, none]
    · simp [TimedWeapon.step, takesMessage, arrival, pc, empty]
  | waiting pc one latest ran now =>
    rw [one, List.length_singleton, eq_comm, List.length_eq_one_iff] at length
    obtain ⟨message, items⟩ := length
    obtain ⟨queue, received, -⟩ := Fifo.exists_receive items
    have due : t ≤ _ := prompt.inTime _ (due_waiting pc one ran)
    refine .sending ?_ latest (inFlight_take pc received) due ?_
    · simp [TimedWeapon.step, takesMessage, arrival, pc, one]
    · change t ≤ _
      omega
  | @sending a t₀ i message empty latest flight began now =>
    have inTime : t ≤ _ := prompt.inTime _ flight.due
    have left := out_le p c i
    have arrivals : (s.step p c (t, .laser)).arrivals = [] := by
      simp [TimedWeapon.step, takesMessage, arrival, empty]
    cases i with
    | succ i =>
      refine .sending arrivals latest (flight.nextBit prompt short) began ?_
      change t ≤ _
      omega
    | zero =>
      refine .idle ?_ arrivals
      simp [TimedWeapon.step, Weapon.step, laserStep, flight.pc]

theorem Readiness.idle_of_due (ready : Readiness p c latency ticks s) {x : Nat × Label}
    (prompt : Prompt p c latency s x)
    (fits : p.messageTotalBits * c.bitDuration + 2 * latency < c.pause + 10)
    (apart : ∀ a ∈ ticks.head?, a + (c.pause + 10) ≤ x.1) :
    s.weapon.laserPc = .receive ∧ s.arrivals = [] := by
  cases ready with
  | idle pc empty => exact ⟨pc, empty⟩
  | waiting pc one latest ran now =>
    have due := prompt.inTime _ (due_waiting pc one ran)
    have apart := apart _ latest
    omega
  | @sending a t₀ i message empty latest flight began now =>
    have inTime := prompt.inTime _ flight.due
    have left := out_le p c i
    have apart := apart _ latest
    omega

theorem ControlPc.enqueue_of_phase {pc : ControlPc} (phase : pc.phase = 5) :
    ∃ laserMsg, pc = .enqueue laserMsg := by
  cases pc with
  | enqueue laserMsg => exact ⟨laserMsg, rfl⟩
  | _ => simp [ControlPc.phase] at phase

theorem arrival_quiet {w : Weapon} {x : Label}
    (other : (x.isControl && w.controlPc.phase == 5) = false) (t : Nat) : arrival w t x = [] := by
  cases x with
  | control i =>
    unfold arrival
    dsimp only
    split
    next laserMsg pc => simp [Label.isControl, pc, ControlPc.phase] at other
    next => rfl
  | _ => rfl

theorem sends_quiet {w : Weapon} {x : Label}
    (other : (x.isControl && w.controlPc.phase == 5) = false) :
    (w.step p x).sends = w.sends := by
  cases x with
  | control i =>
    rcases sends_step p w (.control i) with same | ⟨laserMsg, pc, -⟩
    · exact same
    · simp [Label.isControl, pc, ControlPc.phase] at other
  | laser => rw [Weapon.step, laserStep_frame]
  | espnow i => rw [Weapon.step, espnowStep_frame]
  | setConfig _ | setGameConfig _ | setRespawning _ => rfl

theorem KeptUp.enqueue (kept : KeptUp p c latency ticks s) {t : Nat} {i : ControlRead}
    (prompt : Prompt p c latency s (t, .control i))
    (fits : p.messageTotalBits * c.bitDuration + 2 * latency < c.pause + 10)
    (apart : ∀ a ∈ ticks.head?, a + (c.pause + 10) ≤ t) (tracked : ArrivalsTracked ticks s)
    {laserMsg : UInt32} (pc : s.weapon.controlPc = .enqueue laserMsg) :
    KeptUp p c latency (t :: ticks) (s.step p c (t, .control i)) := by
  obtain ⟨waits, empty⟩ := kept.ready.idle_of_due prompt fits apart
  have forward : s.now ≤ t := prompt.paced.forward
  have length := tracked.length
  rw [empty, List.length_nil] at length
  have room : (s.weapon.laserMessageQueue.send laserMsg).2 = true := by
    rw [Fifo.send_ok_iff, ← length]
    decide
  constructor
  · exact kept.ran.trans forward
  · have accepted := kept.accepted
    simpa [TimedWeapon.step, Weapon.step, controlStep, pc, Weapon.failedSends, room] using accepted
  · refine .waiting (a := t) ?_ ?_ rfl (kept.ran.trans forward) (Nat.le_add_right _ _)
    · simp [TimedWeapon.step, Weapon.step, controlStep, pc, waits]
    · simp [TimedWeapon.step, takesMessage, arrival, pc, room, empty]

theorem KeptUp.step (kept : KeptUp p c latency ticks s) {x : Nat × Label}
    (prompt : Prompt p c latency s x) (short : latency ≤ c.bitDuration)
    (fits : p.messageTotalBits * c.bitDuration + 2 * latency < c.pause + 10)
    (spaced : PhaseSpaced c 5 ticks s) (tracked : ArrivalsTracked ticks s) :
    KeptUp p c latency
      ((if x.2.isControl && s.weapon.controlPc.phase == 5 then [x.1] else []) ++ ticks)
      (s.step p c x) := by
  obtain ⟨t, x⟩ := x
  have forward : s.now ≤ t := prompt.paced.forward
  cases enqueue : x.isControl && s.weapon.controlPc.phase == 5 with
  | true =>
    rw [Bool.and_eq_true, beq_iff_eq] at enqueue
    obtain ⟨control, phase⟩ := enqueue
    obtain ⟨laserMsg, pc⟩ := ControlPc.enqueue_of_phase phase
    cases x with
    | control i =>
      have apart := spaced.now c (by decide) phase prompt.paced.awake
      refine kept.enqueue prompt fits (fun a latest => ?_) tracked pc
      exact (List.pairwise_cons.mp apart).1 a (List.mem_of_mem_head? latest)
    | _ => cases control
  | false =>
    rw [if_neg Bool.false_ne_true, List.nil_append]
    have failed : (s.step p c (t, x)).weapon.failedSends = 0 := by
      rw [Weapon.failedSends, TimedWeapon.step, sends_quiet enqueue]
      exact kept.accepted
    cases laser : x.isLaser with
    | true =>
      obtain rfl : x = .laser := by cases x <;> first | rfl | cases laser
      refine ⟨?_, failed, kept.ready.laser prompt short tracked.length⟩
      simp [TimedWeapon.step, Label.isLaser]
    | false =>
      have notTaken : takesMessage s.weapon x = false := by
        cases x <;> first | rfl | cases laser
      refine ⟨?_, failed, kept.ready.quiet prompt laser ?_⟩
      · simpa [TimedWeapon.step, laser] using kept.ran.trans forward
      · simp [TimedWeapon.step, notTaken, arrival_quiet enqueue]

theorem TimedWeapon.keptUp (short : latency ≤ c.bitDuration)
    (fits : p.messageTotalBits * c.bitDuration + 2 * latency < c.pause + 10)
    (config : DeviceConfig) (gcfg : GameConfig) (respawning : Bool) (t : Nat)
    {h : List (Nat × Label)}
    (run : (TimedWeapon.initial (.initial config gcfg respawning) t).PromptRun p c latency h) :
    KeptUp p c latency
      ((TimedWeapon.initial (.initial config gcfg respawning) t).phaseTicks p c 5 h)
      ((TimedWeapon.initial (.initial config gcfg respawning) t).after p c h) := by
  induction h with
  | nil => exact ⟨Nat.le_refl t, rfl, .idle rfl rfl⟩
  | cons x h ih =>
    obtain ⟨prompt, run⟩ := Runs.each_cons.mp run
    have run' : PromptRun p c latency _ h := run
    exact (ih run).step prompt short fits
      (TimedWeapon.phaseSpaced p c (by decide) (by decide) rfl t run'.paced)
      (TimedWeapon.arrivalsTracked p c rfl t h)

structure KeepsUp (p : Protocol) (c : Durations) (latency : Nat) (ticks : List Nat)
    (s : TimedWeapon) : Prop where
  accepted : s.weapon.failedSends = 0
  waiting : s.weapon.laserMessageQueue.items.length ≤ 1
  out : (∀ a ∈ ticks.head?, a + p.messageTotalBits * c.bitDuration + 2 * latency < s.now) →
    s.weapon.emitted = s.weapon.sends.map Prod.fst

theorem Weapon.accepted_of_failedSends {w : Weapon} (none : w.failedSends = 0) :
    w.accepted = w.sends.map Prod.fst := by
  have all : ∀ send ∈ w.sends, send.2 = true := by
    simpa [failedSends, List.countP_eq_zero] using none
  rw [accepted, List.filter_eq_self.mpr all]

theorem Readiness.idle_of_late (ready : Readiness p c latency ticks s)
    (late : ∀ a ∈ ticks.head?, a + p.messageTotalBits * c.bitDuration + 2 * latency < s.now) :
    s.weapon.laserPc = .receive ∧ s.arrivals = [] := by
  cases ready with
  | idle pc empty => exact ⟨pc, empty⟩
  | waiting _ _ latest _ now | sending _ latest _ _ now =>
    have late := late _ latest
    omega

theorem KeptUp.drained (kept : KeptUp p c latency ticks s) (tracked : ArrivalsTracked ticks s)
    (late : ∀ a ∈ ticks.head?, a + p.messageTotalBits * c.bitDuration + 2 * latency < s.now) :
    s.weapon.laserPc = .receive ∧ s.weapon.laserMessageQueue.items = [] := by
  obtain ⟨waits, empty⟩ := kept.ready.idle_of_late late
  have length := tracked.length
  rw [empty, List.length_nil, eq_comm, List.length_eq_zero_iff] at length
  exact ⟨waits, length⟩

theorem KeptUp.emitted (kept : KeptUp p c latency ticks s) (ledger : ShotLedger s.weapon)
    (waits : s.weapon.laserPc = .receive) (empty : s.weapon.laserMessageQueue.items = []) :
    s.weapon.emitted = s.weapon.sends.map Prod.fst := by
  have delivered := ledger.delivered
  rw [Fifo.Conserved, waits, empty, LaserPc.inFlight, List.append_nil, List.append_nil]
    at delivered
  rw [delivered, Weapon.accepted_of_failedSends kept.accepted]

theorem KeptUp.keepsUp (kept : KeptUp p c latency ticks s) (tracked : ArrivalsTracked ticks s)
    (ledger : ShotLedger s.weapon) : KeepsUp p c latency ticks s := by
  constructor
  · exact kept.accepted
  · rw [← tracked.length]
    cases kept.ready with
    | idle _ empty | sending empty => simp [empty]
    | waiting _ one => simp [one]
  · intro late
    obtain ⟨waits, empty⟩ := kept.drained tracked late
    exact kept.emitted ledger waits empty

theorem TimedWeapon.shotLedger_after (p : Protocol) (c : Durations) {w : Weapon}
    (ledger : ShotLedger w) (t : Nat) (h : List (Nat × Label)) :
    ShotLedger ((initial w t).after p c h).weapon := by
  rw [TimedWeapon.weapon_after]
  exact RayzWeapon.Tasks.shotLedger_after p ledger _

/-- A message that fits into the pause between two shots, with twice what the laser task may be
late, is out before the next one comes. -/
theorem keeps_up (short : latency ≤ c.bitDuration)
    (fits : p.messageTotalBits * c.bitDuration + 2 * latency < c.pause + 10)
    (config : DeviceConfig) (gcfg : GameConfig) (respawning : Bool) (t : Nat)
    {h : List (Nat × Label)}
    (run : (TimedWeapon.initial (.initial config gcfg respawning) t).PromptRun p c latency h) :
    KeepsUp p c latency
      ((TimedWeapon.initial (.initial config gcfg respawning) t).phaseTicks p c 5 h)
      ((TimedWeapon.initial (.initial config gcfg respawning) t).after p c h) := by
  have ledger := shotLedger_initial config gcfg respawning
  exact (TimedWeapon.keptUp short fits config gcfg respawning t run).keepsUp
    (TimedWeapon.arrivalsTracked p c rfl t h) (TimedWeapon.shotLedger_after p c ledger t h)

theorem keeps_up_second_shot :
    let s := TimedWeapon.initial (.initial ⟨1, 7, 0, 0⟩ ⟨true, 0⟩ false) 500
    let sent (t : Nat) : List (Nat × Label) :=
      (List.range 18).reverse.map fun k => (t + 2 + 10 * (k - 1), .laser)
    let h := (1000, .laser) :: sent 810 ++
      List.replicate 8 (810, .control ⟨0, 810000, true, true⟩) ++
      List.replicate 3 (800, .control ⟨1, 800000, true, true⟩) ++ sent 500 ++
      List.replicate 10 (500, .control ⟨0, 500000, true, true⟩)
    KeepsUp .packed ⟨300, 10⟩ 3 (s.phaseTicks .packed ⟨300, 10⟩ 5 h)
        (s.after .packed ⟨300, 10⟩ h) ∧
      (s.after .packed ⟨300, 10⟩ h).weapon.emitted = [0x0107, 0x0107] := by
  intro s sent h
  have short : 3 ≤ 10 := by decide
  have keeps := keeps_up (p := .packed) (c := ⟨300, 10⟩) short (by decide) ⟨1, 7, 0, 0⟩
    ⟨true, 0⟩ false 500 (h := h) (by decide +kernel)
  exact ⟨keeps, by decide +kernel⟩

end KeepsUp

end RayzWeapon.Tasks
