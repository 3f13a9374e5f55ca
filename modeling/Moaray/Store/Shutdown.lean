import Moaray.Store.Losses

/-!
# Shutting the writer down

`UsageWriterHandle::flush_and_join` asks the writer to flush, waits for the acknowledgement, asks
it to stop and polls until its thread has ended, all within one deadline; a writer that has not
ended by then is detached.  Sinks that are still held keep recording meanwhile.

* `Stage` — where the call is; `step`, `machine` — the call, the clock and the sink.  The clock
  waits for the call: see `machine` for what this assumes of the scheduler.
* `Moves` — the steps; `moves_of_step`.
* `Timely` — where the clock can be at each stage.
* `Closing` — what holds of the sink at each stage; `closing_of_run`.
* `flushAndJoin_keeps` — a writer that was joined has written whatever was enqueued before the
  call, and only one that had until the deadline is detached.
* `flushAndJoin_returns` — the call is never stuck and returns in time.

Three parties move.  The senders and the thread move as they do without the call, which is the
machine of the writer; the clock ticks in milliseconds; and the call moves from stage to stage,
where it waits for room in the channel, for the acknowledgement, or for the thread.  Each wait ends
with what it waits for, or at the deadline, or because the writer is gone.

`Closing` follows the messages of the call through the channel.  Before the stop was sent none is
in it, so what was sent earlier stands before the first stop; the thread reads up to a stop before
it ends, and so a thread that has ended has read all of that.  Joining is seeing that it has ended.

**Design.**  That the call returns is stated for a run in which the writer may do anything, also
nothing.  It takes a bound on the call's own steps and those of the clock (`left_step`), and that
one of these is enabled as long as the call has not returned (`exists_own_step`).
-/

namespace Moaray.Store

open Framework

namespace UsageWriterHandle

/-- Where `flush_and_join` is: at one of its waits, or through.  The waits share one deadline. -/
inductive Stage
  /-- Not called yet. -/
  | idle
  /-- At the send of the flush, at its acknowledgement, at the send of the stop. -/
  | flushing
  | acking (ack : ℕ)
  | stopping
  /-- At the test of `is_finished`, and in the sleep after it. -/
  | polling
  | sleeping (wake : ℕ)
  /-- Returned at that time. -/
  | joined (time : ℕ)
  | detached (time : ℕ)
  deriving DecidableEq, Repr

def Stage.returned : Stage → Bool
  | .joined _ | .detached _ => true
  | _ => false

/-- The sink, the clock in milliseconds and the call, with the deadline it computed when it was
made. -/
structure State where
  sink : Store.State
  now : ℕ
  deadline : ℕ
  stage : Stage
  deriving DecidableEq, Repr

inductive Action
  /-- A request records a row, or the thread moves. -/
  | sink (a : Store.Action)
  | tick
  /-- `main` calls `flush_and_join`. -/
  | flushAndJoin (timeout : ℕ)
  /-- The call moves. -/
  | advance
  deriving DecidableEq, Repr

namespace State

/-- Only the handle flushes and stops, and while it is there some sender is. -/
def permits (s : State) : Store.Action → Bool
  | .sendFlush | .sendStop => false
  | .disconnect => s.stage.returned
  | _ => true

/-- The acknowledgement can still come: its sender is in the channel or with the thread. -/
def awaits (s : State) (ack : ℕ) : Prop :=
  s.sink.phase ≠ .exited ∧ (WriterMsg.flush ack ∈ s.sink.channel ∨ s.sink.pendingAck = some ack)

instance (s : State) (ack : ℕ) : Decidable (s.awaits ack) := by
  unfold awaits
  infer_instance

/-- The time at which the call moves on by itself. -/
def due (s : State) : Option ℕ :=
  match s.stage with
  | .flushing | .acking _ | .stopping => some s.deadline
  | .polling => some s.now
  | .sleeping wake => some wake
  | .idle | .joined _ | .detached _ => none

/-- A `send_deadline`: it fails once the writer is gone, or at the deadline if the channel is
still full, and waits otherwise. -/
def sendDeadline (capacity batch : ℕ) (s : State) (message : Store.Action) (sent next : Stage) :
    Option State :=
  match (Store.machine capacity batch).step s.sink message with
  | some sink => some { s with sink, stage := sent }
  | none =>
      if s.sink.phase = .exited ∨ s.deadline ≤ s.now then some { s with stage := next } else none

/-- The call moves. -/
def advance (capacity batch : ℕ) (s : State) : Option State :=
  match s.stage with
  | .idle | .joined _ | .detached _ => none
  | .flushing => s.sendDeadline capacity batch .sendFlush (.acking s.sink.sent.length) .stopping
  | .acking ack =>
      if ack ∈ s.sink.acks ∨ ¬ s.awaits ack ∨ s.deadline ≤ s.now then
        some { s with stage := .stopping }
      else none
  | .stopping => s.sendDeadline capacity batch .sendStop .polling .polling
  | .polling =>
      if s.sink.phase = .exited then some { s with stage := .joined s.now }
      else if s.deadline ≤ s.now then some { s with stage := .detached s.now }
      else some { s with stage := .sleeping (s.now + 2) }
  | .sleeping wake => if wake ≤ s.now then some { s with stage := .polling } else none

end State

def step (capacity batch : ℕ) (s : State) : Action → Option State
  | .sink a =>
      if s.permits a then
        ((Store.machine capacity batch).step s.sink a).map fun sink => { s with sink }
      else none
  | .tick =>
      -- No wait of the call outlasts its end.
      if s.due.all (s.now < ·) then some { s with now := s.now + 1 } else none
  | .flushAndJoin timeout =>
      if s.stage = .idle then some { s with deadline := s.now + timeout, stage := .flushing }
      else none
  | .advance => s.advance capacity batch

/-- The call, the clock and the sink, interleaved.

Scheduling is prompt, by assumption: the clock does not pass a time at which the call is due to
move, so a sleep is over when its time has come and a wait ends at the deadline.  A real scheduler
wakes the caller some time later, and the bounds on the time of the return are to be read with
that delay added. -/
def machine (capacity batch : ℕ) : Machine State Action where
  step := step capacity batch

/-- `SqliteSink::new` returned the sink and its handle. -/
def Opened (s : State) : Prop :=
  s.sink = Store.init ∧ s.stage = .idle

/-! ## The moves of the call -/

variable {capacity batch : ℕ} {s t : State} {a : Action}

/-- The ways the three move from `s`, one for each way a step can go. -/
inductive Moves (capacity batch : ℕ) (s : State) : Action → State → Prop
  | sink (a : Store.Action) (sink : Store.State) (hpermits : s.permits a = true)
      (ha : (Store.machine capacity batch).step s.sink a = some sink) :
      Moves capacity batch s (.sink a) { s with sink }
  | tick (hdue : ∀ time, s.due = some time → s.now < time) :
      Moves capacity batch s .tick { s with now := s.now + 1 }
  | call (timeout : ℕ) (hidle : s.stage = .idle) :
      Moves capacity batch s (.flushAndJoin timeout)
        { s with deadline := s.now + timeout, stage := .flushing }
  | flushSent (sink : Store.State) (hstage : s.stage = .flushing)
      (ha : (Store.machine capacity batch).step s.sink .sendFlush = some sink) :
      Moves capacity batch s .advance { s with sink, stage := .acking s.sink.sent.length }
  | flushUnsent (hstage : s.stage = .flushing)
      (hgone : s.sink.phase = .exited ∨ s.deadline ≤ s.now) :
      Moves capacity batch s .advance { s with stage := .stopping }
  | waited (ack : ℕ) (hstage : s.stage = .acking ack)
      (hover : ack ∈ s.sink.acks ∨ ¬ s.awaits ack ∨ s.deadline ≤ s.now) :
      Moves capacity batch s .advance { s with stage := .stopping }
  | stopSent (sink : Store.State) (hstage : s.stage = .stopping)
      (ha : (Store.machine capacity batch).step s.sink .sendStop = some sink) :
      Moves capacity batch s .advance { s with sink, stage := .polling }
  | stopUnsent (hstage : s.stage = .stopping)
      (hgone : s.sink.phase = .exited ∨ s.deadline ≤ s.now) :
      Moves capacity batch s .advance { s with stage := .polling }
  | join (hstage : s.stage = .polling) (hend : s.sink.phase = .exited) :
      Moves capacity batch s .advance { s with stage := .joined s.now }
  | detach (hstage : s.stage = .polling) (hlive : s.sink.phase ≠ .exited)
      (hlate : s.deadline ≤ s.now) :
      Moves capacity batch s .advance { s with stage := .detached s.now }
  | sleep (hstage : s.stage = .polling) (hearly : s.now < s.deadline) :
      Moves capacity batch s .advance { s with stage := .sleeping (s.now + 2) }
  | wake (time : ℕ) (hstage : s.stage = .sleeping time) (hawake : time ≤ s.now) :
      Moves capacity batch s .advance { s with stage := .polling }

lemma sendDeadline_eq_some {message : Store.Action} {sent next : Stage}
    (h : s.sendDeadline capacity batch message sent next = some t) :
    (∃ sink, (Store.machine capacity batch).step s.sink message = some sink ∧
      t = { s with sink, stage := sent }) ∨
    (s.sink.phase = .exited ∨ s.deadline ≤ s.now) ∧ t = { s with stage := next } := by
  unfold State.sendDeadline at h
  split at h
  · rename_i sink hsink
    exact .inl ⟨sink, hsink, (Option.some.inj h).symm⟩
  · rw [Option.ite_none_right_eq_some] at h
    exact .inr ⟨h.1, (Option.some.inj h.2).symm⟩

lemma moves_advance (h : s.advance capacity batch = some t) :
    Moves capacity batch s .advance t := by
  unfold State.advance at h
  cases hstage : s.stage with
  | idle | joined | detached => simp [hstage] at h
  | flushing =>
      rw [hstage] at h
      rcases sendDeadline_eq_some h with ⟨sink, hsink, rfl⟩ | ⟨hgone, rfl⟩
      · exact .flushSent sink hstage hsink
      · exact .flushUnsent hstage hgone
  | acking ack =>
      simp only [hstage, Option.ite_none_right_eq_some, Option.some.injEq] at h
      obtain ⟨hover, rfl⟩ := h
      exact .waited ack hstage hover
  | stopping =>
      rw [hstage] at h
      rcases sendDeadline_eq_some h with ⟨sink, hsink, rfl⟩ | ⟨hgone, rfl⟩
      · exact .stopSent sink hstage hsink
      · exact .stopUnsent hstage hgone
  | polling =>
      simp only [hstage] at h
      split at h
      · rename_i hend
        obtain rfl := Option.some.inj h
        exact .join hstage hend
      · split at h
        · rename_i hlive hlate
          obtain rfl := Option.some.inj h
          exact .detach hstage hlive hlate
        · rename_i hearly
          obtain rfl := Option.some.inj h
          exact .sleep hstage (Nat.lt_of_not_le hearly)
  | sleeping time =>
      simp only [hstage, Option.ite_none_right_eq_some, Option.some.injEq] at h
      obtain ⟨hawake, rfl⟩ := h
      exact .wake time hstage hawake

/-- Every step is one of these moves.  The writer's own steps are one case, and the others are those
of the call that closes it. -/
theorem moves_of_step (ha : (machine capacity batch).step s a = some t) :
    Moves capacity batch s a t := by
  have ha' : step capacity batch s a = some t := ha
  cases a with
  | sink a =>
      simp only [step, Option.ite_none_right_eq_some, Option.map_eq_some_iff] at ha'
      obtain ⟨hpermits, sink, hsink, rfl⟩ := ha'
      exact .sink a sink hpermits hsink
  | tick =>
      simp only [step, Option.ite_none_right_eq_some, Option.some.injEq] at ha'
      obtain ⟨hdue, rfl⟩ := ha'
      refine .tick fun time htime => ?_
      simpa [htime] using hdue
  | flushAndJoin timeout =>
      simp only [step, Option.ite_none_right_eq_some, Option.some.injEq] at ha'
      obtain ⟨hidle, rfl⟩ := ha'
      exact .call timeout hidle
  | advance => exact moves_advance ha'

/-! ## The clock -/

/-- Where the clock can be at each stage. -/
def Timely (s : State) : Prop :=
  match s.stage with
  | .idle => True
  | .flushing | .acking _ | .stopping => s.now ≤ s.deadline
  | .polling => s.now ≤ s.deadline + 1
  | .sleeping wake => s.now ≤ wake ∧ wake ≤ s.deadline + 1
  | .joined time => time ≤ s.deadline + 1
  | .detached time => s.deadline ≤ time ∧ time ≤ s.deadline + 1

lemma timely_step (hs : Timely s) (ha : (machine capacity batch).step s a = some t) :
    Timely t := by
  cases moves_of_step ha with
  | sink => exact hs
  | tick hdue =>
      unfold Timely at hs ⊢
      cases hstage : s.stage with
      | idle => trivial
      | flushing | acking | stopping =>
          simp only [hstage] at hs ⊢
          exact hdue s.deadline (by simp [State.due, hstage])
      | polling => exact absurd (hdue s.now (by simp [State.due, hstage])) (lt_irrefl _)
      | sleeping wake =>
          simp only [hstage] at hs ⊢
          exact ⟨hdue wake (by simp [State.due, hstage]), hs.2⟩
      | joined | detached =>
          simp only [hstage] at hs ⊢
          exact hs
  | call timeout => exact Nat.le_add_right _ _
  | flushSent sink hstage | flushUnsent hstage | waited ack hstage =>
      simp only [Timely, hstage] at hs ⊢
      exact hs
  | stopSent sink hstage | stopUnsent hstage =>
      simp only [Timely, hstage] at hs ⊢
      exact Nat.le_succ_of_le hs
  | join hstage =>
      simp only [Timely, hstage] at hs ⊢
      exact hs
  | detach hstage _ hlate =>
      simp only [Timely, hstage] at hs ⊢
      exact ⟨hlate, hs⟩
  | sleep hstage hearly =>
      simp only [Timely]
      omega
  | wake time hstage =>
      simp only [Timely, hstage] at hs ⊢
      omega

/-! ## The sink -/

section Sink

variable {s t : Store.State} {a : Store.Action}

/-- Messages are only ever added, and a stop only by its sender, which is the call. -/
lemma sent_of_step (ha : (Store.machine capacity batch).step s a = some t) :
    s.sent <+: t.sent ∧ (.stop ∈ t.sent → .stop ∈ s.sent ∨ a = .sendStop) := by
  cases Store.moves_of_step ha with
  | dropped | disconnected | closed | settled => exact ⟨List.prefix_refl _, .inl⟩
  | received m | drained _ m => cases m <;> exact ⟨List.prefix_refl _, .inl⟩
  | recorded | flushSent =>
      refine ⟨List.prefix_append _ _, fun hstop => .inl ?_⟩
      simpa [Store.State.send] using hstop
  | stopSent => exact ⟨List.prefix_append _ _, fun _ => .inr rfl⟩
  | transacted commits =>
      unfold Store.State.endRound
      rw [flushBatch_frame]
      exact ⟨List.prefix_refl _, .inl⟩
  | finished commits =>
      rw [flushBatch_frame]
      exact ⟨List.prefix_refl _, .inl⟩

lemma ended_of_step (ha : (Store.machine capacity batch).step s a = some t)
    (hend : s.phase = .exited) : t.phase = .exited := by
  by_cases hlast : ∃ commits, a = .finish commits
  · obtain ⟨commits, rfl⟩ := hlast
    cases Store.moves_of_step ha with
    | finished => rfl
  · exact (exited_of_step ha fun commits heq => hlast ⟨commits, heq⟩).1.2 hend

end Sink

def Stage.unstopped : Stage → Bool
  | .idle | .flushing | .acking _ | .stopping => true
  | _ => false

/-- What holds of the sink at each stage of the call: an account of what the thread has read, and no
stop in the channel before the call sends it. -/
structure Closing (batch : ℕ) (s : State) : Prop where
  read : ∃ done, Read (max batch 1) s.sink done
  unstopped : s.stage.unstopped = true → WriterMsg.stop ∉ s.sink.sent
  ended : ∀ time, s.stage = .joined time → s.sink.phase = .exited

lemma Closing.goto (h : Closing batch s) {stage : Stage} {now deadline : ℕ}
    (hunstopped : stage.unstopped = true → s.stage.unstopped = true)
    (hended : ∀ time, stage = .joined time → s.sink.phase = .exited) :
    Closing batch { s with now, deadline, stage } :=
  ⟨h.read, fun hstage => h.unstopped (hunstopped hstage), hended⟩

lemma closing_step (h : Closing batch s) (ha : (machine capacity batch).step s a = some t) :
    Closing batch t := by
  obtain ⟨done, hread⟩ := h.read
  cases moves_of_step ha with
  | sink a sink hpermits hsink =>
      refine ⟨hread.step hsink, fun hstage hstop => ?_, fun time htime => ?_⟩
      · rcases (sent_of_step hsink).2 hstop with hstop | rfl
        · exact h.unstopped hstage hstop
        · cases hpermits
      · exact ended_of_step hsink (h.ended time htime)
  | tick => exact h.goto id h.ended
  | call timeout hidle => exact h.goto (fun _ => by rw [hidle]; rfl) (by simp)
  | flushSent sink hstage hsink =>
      refine ⟨hread.step hsink, fun _ hstop => ?_, by simp⟩
      rcases (sent_of_step hsink).2 hstop with hstop | heq
      · exact h.unstopped (by rw [hstage]; rfl) hstop
      · cases heq
  | flushUnsent hstage | waited ack hstage =>
      exact h.goto (fun _ => by rw [hstage]; rfl) (by simp)
  | stopSent sink hstage hsink => exact ⟨hread.step hsink, by simp [Stage.unstopped], by simp⟩
  | stopUnsent | detach | sleep | wake => exact h.goto (by simp [Stage.unstopped]) (by simp)
  | join hstage hend => exact h.goto (by simp [Stage.unstopped]) fun _ _ => hend

lemma closing_opened (hs : Opened s) : Closing batch s := by
  obtain ⟨hsink, hstage⟩ := hs
  refine ⟨⟨[], ?_⟩, fun _ => ?_, ?_⟩
  · rw [hsink]
    exact read_init _
  · rw [hsink]
    simp [init]
  · simp [hstage]

lemma closing_run {as : List Action} (hs : Closing batch s ∧ Timely s)
    (h : (machine capacity batch).run s as = some t) : Closing batch t ∧ Timely t :=
  (machine capacity batch).invariant_of_run (I := fun s => Closing batch s ∧ Timely s)
    (fun _ _ _ hu ha => ⟨closing_step hu.1 ha, timely_step hu.2 ha⟩) hs h

/-- The sink and the clock after every run that starts with an open sink. -/
theorem closing_of_run {as : List Action} (hs : Opened s)
    (h : (machine capacity batch).run s as = some t) : Closing batch t ∧ Timely t :=
  closing_run ⟨closing_opened hs, by simp [Timely, hs.2]⟩ h

lemma sent_of_run {as : List Action} (h : (machine capacity batch).run s as = some t) :
    s.sink.sent <+: t.sink.sent := by
  refine (machine capacity batch).invariant_of_run (I := fun u => s.sink.sent <+: u.sink.sent) ?_
    (List.prefix_refl _) h
  intro u a v hu ha
  cases moves_of_step ha with
  | sink a sink _ hsink | flushSent sink _ hsink | stopSent sink _ hsink =>
      exact hu.trans (sent_of_step hsink).1
  | tick | call | flushUnsent | waited | stopUnsent | join | detach | sleep | wake => exact hu

/-! ## The call -/

lemma deadline_of_run {as : List Action} (hcalled : s.stage ≠ .idle)
    (h : (machine capacity batch).run s as = some t) :
    t.deadline = s.deadline ∧ t.stage ≠ .idle := by
  refine (machine capacity batch).invariant_of_run
    (I := fun u => u.deadline = s.deadline ∧ u.stage ≠ .idle) ?_ ⟨rfl, hcalled⟩ h
  rintro u a v ⟨hdeadline, hstage⟩ ha
  cases moves_of_step ha with
  | sink | tick => exact ⟨hdeadline, hstage⟩
  | call timeout hidle => exact absurd hidle hstage
  | flushSent | flushUnsent | waited | stopSent | stopUnsent | join | detach | sleep | wake =>
      exact ⟨hdeadline, by simp⟩

/-- What was sent before a stop was, is before the first of them. -/
lemma prefix_takeWhile {sent later : List WriterMsg} (h : sent <+: later)
    (hstop : WriterMsg.stop ∉ sent) : sent <+: later.takeWhile (· ≠ .stop) := by
  obtain ⟨rest, rfl⟩ := h
  rw [List.takeWhile_append_of_pos]
  · exact List.prefix_append _ _
  · intro m hm
    simp only [ne_eq, decide_eq_true_eq]
    rintro rfl
    exact hstop hm

/-- The call, from whatever state the sink was in when it was made: other senders may have filled
the channel, and go on doing so. -/
lemma call_keeps {bs : List Action} {timeout : ℕ} (hs : Closing batch s ∧ Timely s)
    (ht : (machine capacity batch).run s (.flushAndJoin timeout :: bs) = some t) :
    (∀ time, t.stage = .joined time →
      time ≤ s.now + timeout + 1 ∧ rowsOf s.sink.sent <+: written t.sink.log) ∧
    (∀ time, t.stage = .detached time → s.now + timeout ≤ time ∧ time ≤ s.now + timeout + 1) ∧
    written t.sink.log <+: rowsOf t.sink.sent := by
  obtain ⟨hclosing, htimely⟩ := closing_run hs ht
  obtain ⟨done, hread⟩ := hclosing.read
  obtain ⟨u, hcall, hrest⟩ := (machine capacity batch).run_cons_eq_some.1 ht
  obtain ⟨hidle, rfl⟩ : s.stage = .idle ∧
      u = { s with deadline := s.now + timeout, stage := .flushing } := by
    cases moves_of_step hcall with
    | call _ hidle => exact ⟨hidle, rfl⟩
  obtain ⟨hdeadline, -⟩ := deadline_of_run (by simp) hrest
  refine ⟨fun time hjoined => ?_, fun time hdetached => ?_, ?_⟩
  · simp only [Timely, hjoined, hdeadline] at htimely
    have hend : t.sink.phase = .exited := hclosing.ended time hjoined
    have hunstopped : WriterMsg.stop ∉ s.sink.sent := hs.1.unstopped (by rw [hidle]; rfl)
    have hwritten : written t.sink.log = rowsOf done := by
      simpa [hread.cleared (.inr (.inr hend))] using hread.rows
    refine ⟨htimely, ?_⟩
    rw [hwritten]
    have hbefore := prefix_takeWhile (sent_of_run hrest) hunstopped
    exact rowsOf_prefix (hbefore.trans (hread.before_stop (.inr hend)))
  · simp only [Timely, hdetached, hdeadline] at htimely
    exact htimely
  · have hrows : written t.sink.log <+: rowsOf done := by
      rw [← hread.rows]
      exact List.prefix_append _ _
    rw [hread.sent, rowsOf_append]
    exact hrows.trans (List.prefix_append _ _)

/-- **What a clean exit keeps.**  `flush_and_join` returns no later than a millisecond after its
deadline.  Where it joined the thread, the thread has written every row that was in the channel's
history when it was called, in order and before all others, and with no failed transaction they
are all in the database.  Where it let the thread go, the deadline had come; and even then what
was written is a beginning of what was recorded. -/
theorem flushAndJoin_keeps {as bs : List Action} {timeout : ℕ} {r : State} (hr : Opened r)
    (hs : (machine capacity batch).run r as = some s)
    (ht : (machine capacity batch).run s (.flushAndJoin timeout :: bs) = some t) :
    (∀ time, t.stage = .joined time →
      time ≤ s.now + timeout + 1 ∧
      rowsOf s.sink.sent <+: written t.sink.log ∧
      ((∀ tr ∈ t.sink.log, tr.committed = true) →
        rowsOf s.sink.sent <+: committedRows t.sink.log)) ∧
    (∀ time, t.stage = .detached time → s.now + timeout ≤ time ∧ time ≤ s.now + timeout + 1) ∧
    written t.sink.log <+: rowsOf t.sink.sent := by
  obtain ⟨hjoined, hdetached, hwritten⟩ := call_keeps (closing_of_run hr hs) ht
  refine ⟨fun time htime => ?_, hdetached, hwritten⟩
  obtain ⟨hintime, hkept⟩ := hjoined time htime
  refine ⟨hintime, hkept, fun hcommitted => ?_⟩
  rw [committedRows_of_committed hcommitted]
  exact hkept

/-- The steps in which the call finds one recorded row in the channel and the writer keeps up with
it. -/
def cleanRun : List Action :=
  [.advance, .sink .recv, .sink (.drain false), .sink (.transact true), .advance, .advance,
    .sink .recv, .sink (.drain true), .sink (.transact true), .sink (.finish true), .advance]

def cleanStart : State where
  sink := init
  now := 7
  deadline := 0
  stage := .idle

/-- The sink and the call after `cleanRun`. -/
def cleanEnd : State where
  sink :=
    { channel := [], connected := true, phase := .exited, buf := [], pendingAck := none,
      stop := true, log := [⟨[sampleRow "a"], true⟩], acks := [1], dropped := 0, records := 1,
      sent := [.row (sampleRow "a"), .flush 1, .stop] }
  now := 7
  deadline := 5007
  stage := .joined 7

theorem flushAndJoin_keeps_clean :
    [sampleRow "a"] <+: committedRows cleanEnd.sink.log := by
  have hs : (machine 8 2).run cleanStart [.sink (.record (sampleRow "a"))] =
      some { cleanStart with sink := init.record 8 (sampleRow "a") } := by decide
  have ht : (machine 8 2).run { cleanStart with sink := init.record 8 (sampleRow "a") }
      (.flushAndJoin 5000 :: cleanRun) = some cleanEnd := by decide
  exact ((flushAndJoin_keeps (r := cleanStart) ⟨rfl, rfl⟩ hs ht).1 7 rfl).2.2 (by decide)

/-! ## Its end -/

def Action.own : Action → Bool
  | .tick | .advance => true
  | _ => false

/-- How many such moves are left: three for a millisecond, and one for a stage. -/
def left (s : State) : ℕ :=
  match s.stage with
  | .flushing => 3 * (s.deadline + 2 - s.now) + 3
  | .acking _ => 3 * (s.deadline + 2 - s.now) + 2
  | .stopping => 3 * (s.deadline + 2 - s.now) + 1
  | .polling => 3 * (s.deadline + 2 - s.now)
  | .sleeping wake => 3 * (s.deadline + 2 - wake) + 1 + 2 * (wake - s.now)
  | .idle | .joined _ | .detached _ => 0

lemma returned_of_step (ha : (machine capacity batch).step s a = some t)
    (hs : s.stage.returned = true) : t.stage.returned = true := by
  cases moves_of_step ha with
  | sink | tick => exact hs
  | call _ hstage | flushSent _ hstage | flushUnsent hstage | waited _ hstage | stopSent _ hstage
  | stopUnsent hstage | join hstage | detach hstage | sleep hstage | wake _ hstage =>
      rw [hstage] at hs
      cases hs

lemma left_step (htimely : Timely s) (hcalled : s.stage ≠ .idle)
    (ha : (machine capacity batch).step s a = some t) (hrunning : t.stage.returned = false) :
    left t + a.own.toNat ≤ left s := by
  cases moves_of_step ha with
  | sink => exact le_rfl
  | tick hdue =>
      have htime := fun time (h : s.due = some time) => hdue time h
      simp only [left, Action.own, Bool.toNat_true]
      cases hstage : s.stage with
      | idle => exact absurd hstage hcalled
      | flushing | acking | stopping =>
          have hlt := htime s.deadline (by simp [State.due, hstage])
          simp only
          omega
      | polling => exact absurd (htime s.now (by simp [State.due, hstage])) (lt_irrefl _)
      | sleeping wake =>
          have hlt := htime wake (by simp [State.due, hstage])
          simp only
          omega
      | joined | detached => simp [hstage, Stage.returned] at hrunning
  | call _ hidle => exact absurd hidle hcalled
  | flushSent _ hstage | flushUnsent hstage | waited _ hstage | stopSent _ hstage
  | stopUnsent hstage =>
      simp only [left, hstage, Action.own, Bool.toNat_true]
      omega
  | join | detach => cases hrunning
  | sleep hstage hearly =>
      simp only [left, hstage, Action.own, Bool.toNat_true]
      omega
  | wake time hstage hawake =>
      simp only [Timely, hstage] at htimely
      simp only [left, hstage, Action.own, Bool.toNat_true]
      omega

/-- Whatever the writer does, the clock or the call can move. -/
lemma exists_own_step (hcalled : s.stage ≠ .idle) (hrunning : s.stage.returned = false) :
    ∃ a t, a.own = true ∧ (machine capacity batch).step s a = some t := by
  by_cases htick : s.due.all (s.now < ·)
  · exact ⟨.tick, _, rfl, if_pos htick⟩
  · -- What the call waits for is over.
    refine ⟨.advance, ?_⟩
    show ∃ t, _ ∧ s.advance capacity batch = some t
    unfold State.advance
    cases hstage : s.stage with
    | idle => exact absurd hstage hcalled
    | joined | detached => simp [hstage, Stage.returned] at hrunning
    | flushing | stopping =>
        have hlate : s.deadline ≤ s.now := by simpa [State.due, hstage] using htick
        simp only [State.sendDeadline]
        split
        · exact ⟨_, rfl, rfl⟩
        · exact ⟨_, rfl, if_pos (.inr hlate)⟩
    | acking ack =>
        have hlate : s.deadline ≤ s.now := by simpa [State.due, hstage] using htick
        exact ⟨_, rfl, if_pos (.inr (.inr hlate))⟩
    | polling =>
        dsimp only
        split
        · exact ⟨_, rfl, rfl⟩
        · split
          · exact ⟨_, rfl, rfl⟩
          · exact ⟨_, rfl, rfl⟩
    | sleeping wake =>
        have hawake : wake ≤ s.now := by simpa [State.due, hstage] using htick
        exact ⟨_, rfl, if_pos hawake⟩

lemma not_detached_of_run {as : List Action} (hend : s.sink.phase = .exited)
    (hrunning : s.stage.returned = false) (h : (machine capacity batch).run s as = some t)
    (time : ℕ) : t.stage ≠ .detached time := by
  have hboth : t.sink.phase = .exited ∧ ∀ time, t.stage ≠ .detached time := by
    refine (machine capacity batch).invariant_of_run
      (I := fun u => u.sink.phase = .exited ∧ ∀ time, u.stage ≠ .detached time) ?_ ?_ h
    · rintro u a v ⟨hu, hstage⟩ ha
      cases moves_of_step ha with
      | sink a sink _ hsink => exact ⟨ended_of_step hsink hu, hstage⟩
      | flushSent sink _ hsink | stopSent sink _ hsink => exact ⟨ended_of_step hsink hu, by simp⟩
      | tick => exact ⟨hu, hstage⟩
      | detach _ hlive => exact absurd hu hlive
      | call | flushUnsent | waited | stopUnsent | join | sleep | wake => exact ⟨hu, by simp⟩
    · refine ⟨hend, fun time heq => ?_⟩
      rw [heq] at hrunning
      cases hrunning
  exact hboth.2 time

/-- **A stuck writer never holds the exit up.**  While `flush_and_join` has not returned, whatever
the writer and the other senders did, the clock and the call have made no more moves than its
timeout allows, and one of them can make the next; and once the thread has ended the call does not
let it go. -/
theorem flushAndJoin_returns {bs : List Action} {timeout : ℕ}
    (ht : (machine capacity batch).run s (.flushAndJoin timeout :: bs) = some t)
    (hrunning : t.stage.returned = false) :
    bs.countP Action.own ≤ 3 * timeout + 9 ∧
    (∃ a u, a.own = true ∧ (machine capacity batch).step t a = some u) ∧
    (t.sink.phase = .exited → ∀ cs v time, (machine capacity batch).run t cs = some v →
      v.stage ≠ .detached time) := by
  obtain ⟨u, hcall, hrest⟩ := (machine capacity batch).run_cons_eq_some.1 ht
  obtain rfl : u = { s with deadline := s.now + timeout, stage := .flushing } := by
    cases moves_of_step hcall with
    | call => rfl
  have hcalled := (deadline_of_run (by simp) hrest).2
  refine ⟨?_, exists_own_step hcalled hrunning,
    fun hend cs v time hcs => not_detached_of_run hend hrunning hcs time⟩
  have hcounted : t.stage.returned = true ∨
      (Timely t ∧ t.stage ≠ .idle ∧ left t + bs.countP Action.own ≤ 3 * timeout + 9) := by
    refine Machine.invariant_of_takes
      (I := fun pre u => u.stage.returned = true ∨
        (Timely u ∧ u.stage ≠ .idle ∧ left u + pre.countP Action.own ≤ 3 * timeout + 9)) hrest ?_ ?_
    · refine .inr ⟨Nat.le_add_right _ _, by simp, ?_⟩
      simp only [left, List.countP_nil]
      omega
    · rintro pre u a v htakes (hreturned | ⟨htimely, hidle, hleft⟩)
      · exact .inl (returned_of_step htakes.step hreturned)
      · cases hv : v.stage.returned with
        | true => exact .inl rfl
        | false =>
            have hlast := left_step htimely hidle htakes.step hv
            have hone : (machine capacity batch).run u [a] = some v := by
              rw [Machine.run_singleton]
              exact htakes.step
            refine .inr ⟨timely_step htimely htakes.step, (deadline_of_run hidle hone).2, ?_⟩
            rw [List.countP_append, List.countP_singleton]
            cases hown : a.own <;> simp [hown] at hlast ⊢ <;> omega
  rcases hcounted with hreturned | ⟨-, -, hleft⟩
  · rw [hrunning] at hreturned
    cases hreturned
  · omega

/-- The writer never moves: the flush goes out, nothing acknowledges it, and two milliseconds
later the call is still at it. -/
theorem flushAndJoin_returns_stuck :
    ∃ t a u, (machine 8 2).run cleanStart (.flushAndJoin 5 :: [.advance, .tick, .tick]) = some t ∧
      Action.own a = true ∧ (machine 8 2).step t a = some u := by
  obtain ⟨t, ht⟩ : ∃ t, (machine 8 2).run cleanStart
      (.flushAndJoin 5 :: [.advance, .tick, .tick]) = some t := ⟨_, rfl⟩
  have hrunning : t.stage.returned = false := by
    obtain rfl := Option.some.inj ht
    rfl
  obtain ⟨-, ⟨a, u, hown, hu⟩, -⟩ := flushAndJoin_returns ht hrunning
  exact ⟨t, a, u, ht, hown, hu⟩

end UsageWriterHandle

end Moaray.Store
