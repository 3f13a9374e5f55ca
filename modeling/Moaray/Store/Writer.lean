import Mathlib.Data.List.TakeWhile
import Moaray.Core.Usage
import Moaray.Framework.Machine

/-!
# The usage writer

`SqliteSink::record` puts rows on a bounded channel and never waits; one thread owns the database
and drains the channel in batched transactions.  The senders and the thread are interleaved step by
step: the thread's `recv`, every turn of its greedy drain, every transaction and its way out are
steps of their own, and `try_recv` may find the channel empty at any of them.

* `step`, `machine` — the senders and `writer_loop`.
* `Moves` — the steps, one case for each way a sink can move; `moves_of_step`.
* `Read` — what the thread has read is what it has written and buffered; `read_of_reachable`.
* `writer_in_order` — no row is lost, doubled or moved while every transaction commits.

A round of the thread takes one message that it waits for, then as many rows as there are without
waiting, up to the batch size; a flush or a stop ends the round early.  The buffer then goes into
one transaction, an acknowledgement that is due is sent, and the thread is back at the top or on
its way out.

The state keeps two lists that only grow and that nothing of the writer reads: what was sent, and
the transactions made.  `Read` relates them.  What was sent is what the thread has read, followed
by the channel; and the rows of what it has read are those of the log, followed by the buffer.
From this a statement about order is one about prefixes.

**Design.**  Whether a transaction commits is up to its action, as is whether `try_recv` finds the
channel empty; so a theorem about every list of actions is about every failure of the database and
every schedule.  Acknowledgements are numbered by the place of their flush in what was sent, since
each flush has a channel of its own.
-/

namespace Moaray.Store

open Framework

/-- A message to the writer thread; all of them go through one channel, in order. -/
inductive WriterMsg
  | row (r : UsageRecord)
  /-- Flush everything buffered, then acknowledge on a channel of its own. -/
  | flush (ack : ℕ)
  | stop
  deriving DecidableEq, Repr

/-- Where the writer thread is in its loop, between two operations on the channel or the database.
-/
inductive Phase
  /-- At the blocking receive. -/
  | receiving
  /-- In the greedy drain. -/
  | draining
  /-- Past the drain, before its transaction. -/
  | flushing
  /-- Past the loop, before the final drain. -/
  | leaving
  | exited
  deriving DecidableEq, Repr

/-- One transaction: its rows, and whether it was committed.  Its rows are written together or not
at all. -/
structure Transaction where
  rows : List UsageRecord
  committed : Bool
  deriving DecidableEq, Repr

/-- The channel, the writer thread and what can be seen of them: what was sent, written,
acknowledged and dropped. -/
structure State where
  channel : List WriterMsg
  /-- Some sender is still alive. -/
  connected : Bool
  phase : Phase
  buf : List UsageRecord
  pendingAck : Option ℕ
  stop : Bool
  /-- The transactions made, in order. -/
  log : List Transaction
  /-- The acknowledgements sent, in order. -/
  acks : List ℕ
  /-- `moaray_usage_dropped_total`. -/
  dropped : ℕ
  /-- The `record` calls made. -/
  records : ℕ
  /-- Every message that ever entered the channel, in order. -/
  sent : List WriterMsg
  deriving DecidableEq, Repr

def init : State where
  channel := []
  connected := true
  phase := .receiving
  buf := []
  pendingAck := none
  stop := false
  log := []
  acks := []
  dropped := 0
  records := 0
  sent := []

/-- What happens to a sink: a sender moves, or the thread does.  Whether a transaction commits is
the database's choice. -/
inductive Action
  /-- A request records a row. -/
  | record (r : UsageRecord)
  /-- `flush_and_join` gets its flush, or its stop, into the channel. -/
  | sendFlush
  | sendStop
  /-- The last sender is dropped. -/
  | disconnect
  /-- The thread's blocking receive returns. -/
  | recv
  /-- One turn of the greedy drain; with `empty` its `try_recv` finds nothing. -/
  | drain (empty : Bool)
  /-- The transaction after the drain, and the acknowledgement. -/
  | transact (commits : Bool)
  /-- The final drain. -/
  | finish (commits : Bool)
  deriving DecidableEq, Repr

namespace State

def send (s : State) (m : WriterMsg) : State :=
  { s with channel := s.channel ++ [m], sent := s.sent ++ [m] }

/-- `record`: a row that finds the channel full or the writer gone is dropped and counted.  The
caller is not told. -/
def record (capacity : ℕ) (s : State) (r : UsageRecord) : State :=
  if s.phase = .exited ∨ capacity ≤ s.channel.length then
    { s with records := s.records + 1, dropped := s.dropped + 1 }
  else { s.send (.row r) with records := s.records + 1 }

/-- The first message of a round. -/
def first (s : State) : WriterMsg → State
  | .row r => { s with buf := s.buf ++ [r] }
  | .flush ack => { s with pendingAck := some ack }
  | .stop => { s with stop := true }

/-- `flush_batch` of the buffer, which is then cleared; an empty buffer makes no transaction. -/
def flushBatch (s : State) (commits : Bool) : State :=
  if s.buf = [] then s
  else { s with log := s.log ++ [{ rows := s.buf, committed := commits }], buf := [] }

/-- One turn of the greedy drain: it takes the next message while the batch has room, and ends at a
flush, at a stop or when the channel is empty. -/
def drain (batch : ℕ) (s : State) (empty : Bool) : State :=
  if s.buf.length < batch ∧ empty = false then
    match s.channel with
    | .row r :: rest => { s with channel := rest, buf := s.buf ++ [r] }
    | .flush ack :: rest =>
        { s with channel := rest, pendingAck := some ack, phase := .flushing }
    | .stop :: rest => { s with channel := rest, stop := true, phase := .flushing }
    | [] => { s with phase := .flushing }
  else { s with phase := .flushing }

/-- The end of a round: transaction, acknowledgement, and back to the top of the loop. -/
def endRound (s : State) (commits : Bool) : State :=
  let s := s.flushBatch commits
  { s with
    acks := s.acks ++ s.pendingAck.toList
    pendingAck := none
    phase := if s.stop then .leaving else .receiving }

end State

/-- One step of a sink whose channel holds `capacity` messages and whose transactions hold at most
`batch` rows. -/
def step (capacity batch : ℕ) (s : State) : Action → Option State
  | .record r => if s.connected then some (s.record capacity r) else none
  | .sendFlush =>
      -- A send that waits past its deadline is no step, nor is one to a writer that is gone.
      if s.connected ∧ s.phase ≠ .exited ∧ s.channel.length < capacity then
        some (s.send (.flush s.sent.length))
      else none
  | .sendStop =>
      if s.connected ∧ s.phase ≠ .exited ∧ s.channel.length < capacity then
        some (s.send .stop)
      else none
  | .disconnect => if s.connected then some { s with connected := false } else none
  | .recv =>
      if s.phase = .receiving then
        match s.channel with
        | m :: rest => some { ({ s with channel := rest }).first m with phase := .draining }
        | [] => if s.connected then none else some { s with phase := .leaving }
      else none
  | .drain empty => if s.phase = .draining then some (s.drain batch empty) else none
  | .transact commits => if s.phase = .flushing then some (s.endRound commits) else none
  | .finish commits =>
      -- The receiver goes with the thread, and what is left in the channel with it.
      if s.phase = .leaving then some { s.flushBatch commits with phase := .exited } else none

/-- `SqliteSink::new`: capacity and batch size are at least one. -/
def machine (capacity batch : ℕ) : Machine State Action where
  step := step (max capacity 1) (max batch 1)

/-! ## The moves of a sink -/

/-- What the thread is after taking a message off the channel. -/
def State.received (s : State) (m : WriterMsg) (rest : List WriterMsg) (phase : Phase) : State :=
  { ({ s with channel := rest }).first m with phase := phase }

/-- The ways a sink moves from `s`, one for each operation and each way it can go, with the guard of
the operation. -/
inductive Moves (capacity batch : ℕ) (s : State) : Action → State → Prop
  | dropped (r : UsageRecord) (hfull : s.phase = .exited ∨ capacity ≤ s.channel.length) :
      Moves capacity batch s (.record r)
        { s with records := s.records + 1, dropped := s.dropped + 1 }
  | recorded (r : UsageRecord) (hopen : s.connected = true) (hlive : s.phase ≠ .exited) :
      Moves capacity batch s (.record r) { s.send (.row r) with records := s.records + 1 }
  | flushSent (hopen : s.connected = true) (hlive : s.phase ≠ .exited) :
      Moves capacity batch s .sendFlush (s.send (.flush s.sent.length))
  | stopSent (hopen : s.connected = true) (hlive : s.phase ≠ .exited) :
      Moves capacity batch s .sendStop (s.send .stop)
  | disconnected : Moves capacity batch s .disconnect { s with connected := false }
  | received (m : WriterMsg) (rest : List WriterMsg) (hp : s.phase = .receiving)
      (hc : s.channel = m :: rest) :
      Moves capacity batch s .recv (s.received m rest .draining)
  | closed (hp : s.phase = .receiving) (hc : s.channel = []) (hclosed : s.connected = false) :
      Moves capacity batch s .recv { s with phase := .leaving }
  /-- A drain turn takes a message for which there is room; -/
  | drained (empty : Bool) (m : WriterMsg) (rest : List WriterMsg) (phase : Phase)
      (hp : s.phase = .draining) (hc : s.channel = m :: rest) (hroom : s.buf.length < batch)
      (hphase : phase = .draining ∨ phase = .flushing) :
      Moves capacity batch s (.drain empty) (s.received m rest phase)
  /-- or it ends the drain. -/
  | settled (empty : Bool) (hp : s.phase = .draining) :
      Moves capacity batch s (.drain empty) { s with phase := .flushing }
  | transacted (commits : Bool) (hp : s.phase = .flushing) :
      Moves capacity batch s (.transact commits) (s.endRound commits)
  | finished (commits : Bool) (hp : s.phase = .leaving) :
      Moves capacity batch s (.finish commits) { s.flushBatch commits with phase := .exited }

lemma moves_drain {capacity batch : ℕ} {s : State} (hp : s.phase = .draining) (empty : Bool) :
    Moves capacity batch s (.drain empty) (s.drain batch empty) := by
  unfold State.drain
  split
  · rename_i hroom
    split
    · rename_i r rest hc
      have htook : Moves capacity batch s (.drain empty) (s.received (.row r) rest .draining) :=
        .drained empty (.row r) rest .draining hp hc hroom.1 (.inl rfl)
      simpa [State.received, State.first, hp] using htook
    · rename_i ack rest hc
      exact .drained empty (.flush ack) rest .flushing hp hc hroom.1 (.inr rfl)
    · rename_i rest hc
      exact .drained empty .stop rest .flushing hp hc hroom.1 (.inr rfl)
    · exact .settled empty hp
  · exact .settled empty hp

/-- Every step is one of these moves.  A move says all a step can do, its guard included. -/
theorem moves_of_step {capacity batch : ℕ} {s t : State} {a : Action}
    (ha : (machine capacity batch).step s a = some t) :
    Moves (max capacity 1) (max batch 1) s a t := by
  have ha' : step (max capacity 1) (max batch 1) s a = some t := ha
  cases a with
  | record r =>
      simp only [step, Option.ite_none_right_eq_some, Option.some.injEq] at ha'
      obtain ⟨hopen, rfl⟩ := ha'
      unfold State.record
      split
      · exact .dropped r ‹_›
      · rename_i hroom
        exact .recorded r hopen fun hend => hroom (.inl hend)
  | sendFlush =>
      simp only [step, Option.ite_none_right_eq_some, Option.some.injEq] at ha'
      obtain ⟨⟨hopen, hlive, -⟩, rfl⟩ := ha'
      exact .flushSent hopen hlive
  | sendStop =>
      simp only [step, Option.ite_none_right_eq_some, Option.some.injEq] at ha'
      obtain ⟨⟨hopen, hlive, -⟩, rfl⟩ := ha'
      exact .stopSent hopen hlive
  | disconnect =>
      simp only [step, Option.ite_none_right_eq_some, Option.some.injEq] at ha'
      obtain ⟨-, rfl⟩ := ha'
      exact .disconnected
  | recv =>
      simp only [step, Option.ite_none_right_eq_some] at ha'
      obtain ⟨hp, ha'⟩ := ha'
      split at ha'
      · rename_i m rest hc
        obtain rfl := Option.some.inj ha'
        exact .received m rest hp hc
      · rename_i hc
        simp only [Option.ite_none_left_eq_some, Option.some.injEq] at ha'
        obtain ⟨hclosed, rfl⟩ := ha'
        exact .closed hp hc (by simpa using hclosed)
  | drain empty =>
      simp only [step, Option.ite_none_right_eq_some, Option.some.injEq] at ha'
      obtain ⟨hp, rfl⟩ := ha'
      exact moves_drain hp empty
  | transact commits =>
      simp only [step, Option.ite_none_right_eq_some, Option.some.injEq] at ha'
      obtain ⟨hp, rfl⟩ := ha'
      exact .transacted commits hp
  | finish commits =>
      simp only [step, Option.ite_none_right_eq_some, Option.some.injEq] at ha'
      obtain ⟨hp, rfl⟩ := ha'
      exact .finished commits hp

/-! ## Rows -/

/-- The row of a message. -/
def WriterMsg.row? : WriterMsg → Option UsageRecord
  | .row r => some r
  | _ => none

def rowsOf (msgs : List WriterMsg) : List UsageRecord := msgs.filterMap WriterMsg.row?

/-- The rows of all transactions. -/
def written (log : List Transaction) : List UsageRecord := log.flatMap Transaction.rows

/-- The rows in the database. -/
def committedRows (log : List Transaction) : List UsageRecord :=
  written (log.filter Transaction.committed)

lemma rowsOf_append (ms ns : List WriterMsg) : rowsOf (ms ++ ns) = rowsOf ms ++ rowsOf ns :=
  List.filterMap_append

@[simp] lemma rowsOf_nil : rowsOf [] = [] := rfl

@[simp] lemma rowsOf_row (r : UsageRecord) : rowsOf [.row r] = [r] := rfl

@[simp] lemma rowsOf_flush (ack : ℕ) : rowsOf [.flush ack] = [] := rfl

@[simp] lemma rowsOf_stop : rowsOf [.stop] = [] := rfl

lemma rowsOf_prefix {ms ns : List WriterMsg} (h : ms <+: ns) : rowsOf ms <+: rowsOf ns :=
  h.filterMap _

@[simp] lemma written_append (log : List Transaction) (t : Transaction) :
    written (log ++ [t]) = written log ++ t.rows := by
  simp [written]

/-! ## What the thread has read -/

/-- The thread has read `done` of what was sent.  Its rows are in the transactions made and in
the buffer, in order; whatever flush was acknowledged has the rows sent before it written; and
every transaction has a row and keeps the batch size. -/
structure Read (batch : ℕ) (s : State) (done : List WriterMsg) : Prop where
  sent : s.sent = done ++ s.channel
  rows : written s.log ++ s.buf = rowsOf done
  /-- A flush bears its place in the channel's history. -/
  stamped : ∀ i ack, s.sent[i]? = some (WriterMsg.flush ack) → i = ack
  pending : ∀ ack, s.pendingAck = some ack → done[ack]? = some (WriterMsg.flush ack)
  acked : ∀ ack ∈ s.acks,
    s.sent[ack]? = some (WriterMsg.flush ack) ∧ rowsOf (s.sent.take ack) <+: written s.log
  stopped : s.stop = true → WriterMsg.stop ∈ done
  sizes : ∀ t ∈ s.log, 1 ≤ t.rows.length ∧ t.rows.length ≤ batch
  buffered : s.buf.length ≤ batch
  /-- Between rounds the buffer is empty. -/
  cleared : s.phase = .receiving ∨ s.phase = .leaving ∨ s.phase = .exited → s.buf = []
  /-- The loop ends with a stop, or with nothing left to read. -/
  ended : s.phase = .leaving ∨ s.phase = .exited →
    s.stop = true ∨ (s.channel = [] ∧ s.connected = false)

variable {batch : ℕ} {s t : State} {done rest : List WriterMsg} {m : WriterMsg}

lemma read_init (batch : ℕ) : Read batch init [] where
  sent := rfl
  rows := rfl
  stamped := by simp [init]
  pending := by simp [init]
  acked := by simp [init]
  stopped := by simp [init]
  sizes := by simp [init]
  buffered := by simp [init]
  cleared := by simp [init]
  ended := by simp [init]

/-- A message that is sent changes nothing that was read. -/
lemma Read.send (h : Read batch s done) (hopen : s.connected = true)
    (hm : ∀ ack, m = .flush ack → ack = s.sent.length) : Read batch (s.send m) done := by
  refine ⟨?_, h.rows, ?_, h.pending, ?_, h.stopped, h.sizes, h.buffered, h.cleared, ?_⟩
  · simp [State.send, h.sent]
  · intro i ack hi
    rw [State.send, List.getElem?_append] at hi
    split at hi
    · exact h.stamped i ack hi
    · rename_i hge
      obtain ⟨hlast, hflush⟩ : i - s.sent.length = 0 ∧ m = .flush ack := by
        simpa [List.getElem?_singleton] using hi
      have hlen := hm ack hflush
      omega
  · intro ack hack
    obtain ⟨hsent, hrows⟩ := h.acked ack hack
    have hlt : ack < s.sent.length := (List.getElem?_eq_some_iff.1 hsent).1
    refine ⟨?_, ?_⟩
    · simpa [State.send, List.getElem?_append_left hlt] using hsent
    · simpa [State.send, List.take_append_of_le_length hlt.le] using hrows
  · intro hend
    rcases h.ended hend with hstop | ⟨-, hclosed⟩
    · exact .inl hstop
    · rw [hopen] at hclosed
      cases hclosed

/-- The thread takes a message off the channel; a row finds room in the buffer. -/
lemma Read.receive (h : Read batch s done) (hc : s.channel = m :: rest)
    (hroom : s.buf.length < batch) {phase : Phase} (hphase : phase = .draining ∨ phase = .flushing) :
    Read batch (s.received m rest phase) (done ++ [m]) := by
  have hsent : s.sent = (done ++ [m]) ++ rest := by rw [h.sent, hc]; simp
  have hbusy : ∀ p, p = .receiving ∨ p = .leaving ∨ p = .exited → phase ≠ p := by
    rintro p (rfl | rfl | rfl) rfl <;> simp at hphase
  have hpending : ∀ ack, s.pendingAck = some ack →
      (done ++ [m])[ack]? = some (WriterMsg.flush ack) := by
    intro ack hack
    have hat := h.pending ack hack
    rw [List.getElem?_append_left (List.getElem?_eq_some_iff.1 hat).1, hat]
  have hstopped : s.stop = true → WriterMsg.stop ∈ done ++ [m] :=
    fun hstop => List.mem_append_left _ (h.stopped hstop)
  cases m with
  | row r =>
      refine ⟨hsent, ?_, h.stamped, hpending, h.acked, hstopped, h.sizes, ?_, ?_, ?_⟩
      · rw [rowsOf_append, ← h.rows]
        simp [State.received, State.first]
      · simpa [State.received, State.first] using hroom
      · exact fun hp => absurd rfl (hbusy _ hp)
      · exact fun hp => absurd rfl (hbusy _ (.inr hp))
  | flush ack =>
      refine ⟨hsent, ?_, h.stamped, ?_, h.acked, hstopped, h.sizes, h.buffered, ?_, ?_⟩
      · rw [rowsOf_append, ← h.rows]
        simp [State.received, State.first]
      · intro ack' hack
        obtain rfl : ack = ack' := by simpa [State.received, State.first] using hack
        -- A flush bears its place in the history.
        have hat : s.sent[done.length]? = some (WriterMsg.flush ack) := by
          rw [hsent]
          simp
        obtain rfl : done.length = ack := h.stamped _ _ hat
        simp
      · exact fun hp => absurd rfl (hbusy _ hp)
      · exact fun hp => absurd rfl (hbusy _ (.inr hp))
  | stop =>
      refine ⟨hsent, ?_, h.stamped, hpending, h.acked, ?_, h.sizes, h.buffered, ?_, ?_⟩
      · rw [rowsOf_append, ← h.rows]
        simp [State.received, State.first]
      · exact fun _ => List.mem_append_right _ (List.mem_singleton.2 rfl)
      · exact fun hp => absurd rfl (hbusy _ hp)
      · exact fun hp => absurd rfl (hbusy _ (.inr hp))

lemma written_flushBatch (s : State) (commits : Bool) :
    written (s.flushBatch commits).log = written s.log ++ s.buf := by
  unfold State.flushBatch
  split
  · rename_i hnil
    simp [hnil]
  · simp

@[simp] lemma buf_flushBatch (s : State) (commits : Bool) : (s.flushBatch commits).buf = [] := by
  unfold State.flushBatch
  split
  · assumption
  · rfl

lemma flushBatch_frame (s : State) (commits : Bool) :
    s.flushBatch commits =
      { s with log := (s.flushBatch commits).log, buf := (s.flushBatch commits).buf } := by
  unfold State.flushBatch
  split <;> rfl

lemma Read.sizes_flushBatch (h : Read batch s done) (commits : Bool) :
    ∀ t ∈ (s.flushBatch commits).log, 1 ≤ t.rows.length ∧ t.rows.length ≤ batch := by
  unfold State.flushBatch
  split
  · exact h.sizes
  · rename_i hne
    intro t ht
    rcases List.mem_append.1 ht with ht | ht
    · exact h.sizes t ht
    · obtain rfl := List.mem_singleton.1 ht
      exact ⟨List.length_pos_iff.2 hne, h.buffered⟩

/-- What was acknowledged stays written, and what the round acknowledges is written by then. -/
lemma Read.acked_flushBatch (h : Read batch s done) (commits : Bool) :
    ∀ ack ∈ s.acks ++ s.pendingAck.toList, s.sent[ack]? = some (WriterMsg.flush ack) ∧
      rowsOf (s.sent.take ack) <+: written (s.flushBatch commits).log := by
  intro ack hack
  rw [written_flushBatch, h.rows]
  rcases List.mem_append.1 hack with hack | hack
  · obtain ⟨hsent, hrows⟩ := h.acked ack hack
    refine ⟨hsent, hrows.trans ?_⟩
    rw [← h.rows]
    exact List.prefix_append _ _
  · have hat := h.pending ack (by simpa using hack)
    have hlt : ack < done.length := (List.getElem?_eq_some_iff.1 hat).1
    refine ⟨?_, rowsOf_prefix ?_⟩
    · rw [h.sent, List.getElem?_append_left hlt, hat]
    · rw [h.sent, List.take_append_of_le_length hlt.le]
      exact List.take_prefix _ _

lemma Read.endRound (h : Read batch s done) (commits : Bool) :
    Read batch (s.endRound commits) done := by
  have hframe := flushBatch_frame s commits
  have hacked := h.acked_flushBatch commits
  have hrows := written_flushBatch s commits
  rw [h.rows] at hrows
  unfold State.endRound
  rw [hframe]
  refine ⟨h.sent, ?_, h.stamped, ?_, hacked, h.stopped, h.sizes_flushBatch commits, ?_, ?_, ?_⟩
  · simp [hrows]
  · simp
  · simp
  · simp
  · rintro (hend | hend)
    · left
      by_contra hstop
      simp [hstop] at hend
    · left
      by_contra hstop
      simp [hstop] at hend

lemma Read.finish (h : Read batch s done) (hp : s.phase = .leaving) (commits : Bool) :
    Read batch { s.flushBatch commits with phase := .exited } done := by
  have hnil : s.buf = [] := h.cleared (.inr (.inl hp))
  have hsame : s.flushBatch commits = s := by simp [State.flushBatch, hnil]
  rw [hsame]
  exact ⟨h.sent, h.rows, h.stamped, h.pending, h.acked, h.stopped, h.sizes, h.buffered,
    fun _ => hnil, fun _ => h.ended (.inl hp)⟩

/-- Every step keeps the account, for a `done` that has grown by what the step read.  Commits, acks
and the buffer are functions of it. -/
theorem Read.step {capacity : ℕ} {a : Action} (h : Read (max batch 1) s done)
    (ha : (machine capacity batch).step s a = some t) : ∃ done', Read (max batch 1) t done' := by
  cases moves_of_step ha with
  | dropped r _ =>
      exact ⟨done, h.sent, h.rows, h.stamped, h.pending, h.acked, h.stopped, h.sizes, h.buffered,
        h.cleared, h.ended⟩
  | recorded r hopen _ =>
      have hsend := h.send (m := .row r) hopen (by simp)
      exact ⟨done, hsend.sent, hsend.rows, hsend.stamped, hsend.pending, hsend.acked,
        hsend.stopped, hsend.sizes, hsend.buffered, hsend.cleared, hsend.ended⟩
  | flushSent hopen _ => exact ⟨done, h.send hopen (by simp)⟩
  | stopSent hopen _ => exact ⟨done, h.send hopen (by simp)⟩
  | disconnected =>
      refine ⟨done, h.sent, h.rows, h.stamped, h.pending, h.acked, h.stopped, h.sizes, h.buffered,
        h.cleared, fun hend => ?_⟩
      rcases h.ended hend with hstop | ⟨hnil, -⟩
      · exact .inl hstop
      · exact .inr ⟨hnil, rfl⟩
  | received m rest hp hc =>
      have hnil : s.buf = [] := h.cleared (.inl hp)
      exact ⟨_, h.receive hc (by simp [hnil]) (.inl rfl)⟩
  | closed hp hc hclosed =>
      have hnil : s.buf = [] := h.cleared (.inl hp)
      exact ⟨done, h.sent, h.rows, h.stamped, h.pending, h.acked, h.stopped, h.sizes,
        h.buffered, fun _ => hnil, fun _ => .inr ⟨hc, hclosed⟩⟩
  | drained empty m rest phase _ hc hroom hphase => exact ⟨_, h.receive hc hroom hphase⟩
  | settled empty _ =>
      exact ⟨done, h.sent, h.rows, h.stamped, h.pending, h.acked, h.stopped, h.sizes, h.buffered,
        by simp, by simp⟩
  | transacted commits _ => exact ⟨done, h.endRound commits⟩
  | finished commits hp => exact ⟨done, h.finish hp commits⟩

/-- In every state of every run there is an account of what the thread has read: the rows committed,
lost and buffered are those of the messages read, in order. -/
theorem read_of_reachable {capacity : ℕ}
    (h : (machine capacity batch).Reachable (· = init) s) : ∃ done, Read (max batch 1) s done := by
  refine h.invariant (I := fun s => ∃ done, Read (max batch 1) s done) ?_ ?_
  · rintro s rfl
    exact ⟨[], read_init _⟩
  · rintro s a t ⟨done, hread⟩ hstep
    exact hread.step hstep

/-- What was sent before the first stop was read, once the loop has ended. -/
lemma Read.before_stop (h : Read batch s done) (hend : s.phase = .leaving ∨ s.phase = .exited) :
    s.sent.takeWhile (· ≠ .stop) <+: done := by
  rcases h.ended hend with hstop | ⟨hnil, -⟩
  · have hmem := h.stopped hstop
    have hcut : ¬(done.takeWhile (· ≠ .stop)).length = done.length := by
      intro hlen
      have hall : done.takeWhile (· ≠ .stop) = done :=
        (List.takeWhile_prefix _).eq_of_length hlen
      rw [← hall] at hmem
      have hclean := List.mem_takeWhile_imp hmem
      simp at hclean
    rw [h.sent, List.takeWhile_append, if_neg hcut]
    exact List.takeWhile_prefix _
  · rw [h.sent, hnil, List.append_nil]
    exact List.takeWhile_prefix _

/-! ## Runs in which every transaction commits -/

/-- A transaction the action makes is committed. -/
def Action.commits : Action → Bool
  | .transact commits => commits
  | .finish commits => commits
  | _ => true

/-- A transaction that fails is one with rows in it. -/
lemma forall_committed_flushBatch_iff (s : State) (commits : Bool) :
    (∀ tr ∈ (s.flushBatch commits).log, tr.committed = true) ↔
      (∀ tr ∈ s.log, tr.committed = true) ∧ ¬(s.buf ≠ [] ∧ commits = false) := by
  unfold State.flushBatch
  split
  · rename_i hnil
    simp [hnil]
  · rename_i hne
    simp [or_imp, forall_and, hne]

/-- Only the ends of rounds and the final drain make transactions. -/
lemma log_of_step {capacity : ℕ} {a : Action}
    (ha : (machine capacity batch).step s a = some t) :
    (t.log = s.log ∧ ∀ commits, a ≠ .transact commits ∧ a ≠ .finish commits) ∨
    ∃ commits, (a = .transact commits ∨ a = .finish commits) ∧
      t.log = (s.flushBatch commits).log := by
  cases moves_of_step ha with
  | dropped | recorded | flushSent | stopSent | disconnected | closed | settled =>
      exact .inl ⟨rfl, by simp⟩
  | received m | drained _ m => cases m <;> exact .inl ⟨rfl, by simp⟩
  | transacted commits _ => exact .inr ⟨commits, .inl rfl, rfl⟩
  | finished commits _ => exact .inr ⟨commits, .inr rfl, rfl⟩

/-- A run whose transactions commit leaves only committed ones behind. -/
lemma committedRows_of_run {capacity : ℕ} {as : List Action}
    (hrun : (machine capacity batch).run init as = some t)
    (hcommits : ∀ a ∈ as, a.commits = true) : committedRows t.log = written t.log := by
  have hall : ∀ tr ∈ t.log, tr.committed = true := by
    refine (machine capacity batch).invariant_of_run_on (P := fun a => a.commits = true)
      (I := fun s => ∀ tr ∈ s.log, tr.committed = true) ?_ hcommits (by simp [init]) hrun
    intro s a t hcommit hs hstep
    rcases log_of_step hstep with ⟨hlog, -⟩ | ⟨commits, ha, hlog⟩
    · rw [hlog]
      exact hs
    · rw [hlog]
      have hcommit' : commits = true := by
        rcases ha with rfl | rfl
        · exact hcommit
        · exact hcommit
      exact (forall_committed_flushBatch_iff s commits).2 ⟨hs, by simp [hcommit']⟩
  rw [committedRows, List.filter_eq_self.2 hall]

/-- The writer keeps the rows and their order.  When it has ended, the rows inserted are the first
of those enqueued, each once, and none enqueued before the first stop is missing, nor any at all
if it ended because no sender was left; a transaction has from one to `batch` rows; and an
acknowledged flush has every row enqueued before it inserted. -/
theorem writer_in_order {capacity batch : ℕ} {as : List Action} {t : State}
    (hrun : (machine capacity batch).run init as = some t)
    (hcommits : ∀ a ∈ as, a.commits = true) :
    (t.phase = .exited →
      committedRows t.log <+: rowsOf t.sent ∧
      rowsOf (t.sent.takeWhile (· ≠ .stop)) <+: committedRows t.log ∧
      (t.stop = false → committedRows t.log = rowsOf t.sent)) ∧
    (∀ tr ∈ t.log, 1 ≤ tr.rows.length ∧ tr.rows.length ≤ max batch 1) ∧
    ∀ ack ∈ t.acks, t.sent[ack]? = some (.flush ack) ∧
      rowsOf (t.sent.take ack) <+: committedRows t.log := by
  -- With no transaction rolled back the database holds what was written.
  obtain ⟨done, hread⟩ := read_of_reachable ⟨init, as, rfl, hrun⟩
  rw [committedRows_of_run hrun hcommits]
  refine ⟨fun hend => ?_, hread.sizes, hread.acked⟩
  have hrows : written t.log = rowsOf done := by
    simpa [hread.cleared (.inr (.inr hend))] using hread.rows
  rw [hrows]
  refine ⟨?_, rowsOf_prefix (hread.before_stop (.inr hend)), fun hstop => ?_⟩
  · rw [hread.sent]
    exact rowsOf_prefix (List.prefix_append _ _)
  · rcases hread.ended (.inr hend) with hstopped | ⟨hnil, -⟩
    · rw [hstop] at hstopped
      cases hstopped
    · rw [hread.sent, hnil, List.append_nil]

def sampleRow (requestId : String) : UsageRecord where
  requestId := requestId
  tsUnixMs := 0
  path := .passthrough
  arm := .passthrough
  model := "gpt"
  upstreamId := "up"
  callerKeyId := "key"
  promptTokens := none
  completionTokens := none
  pricePromptNanoPerMtok := none
  priceCompletionNanoPerMtok := none
  costNanoUsd := none
  status := .okNoUsage

/-- Two rows around a flush, the second arriving while the thread drains, and then a stop. -/
def orderlyRun : List Action :=
  [.record (sampleRow "a"), .sendFlush, .recv, .record (sampleRow "b"), .drain false,
    .transact true, .recv, .drain true, .transact true, .sendStop, .recv, .drain true,
    .transact true, .finish true]

def orderlyEnd : State where
  channel := []
  connected := true
  phase := .exited
  buf := []
  pendingAck := none
  stop := true
  log := [⟨[sampleRow "a"], true⟩, ⟨[sampleRow "b"], true⟩]
  acks := [1]
  dropped := 0
  records := 2
  sent := [.row (sampleRow "a"), .flush 1, .row (sampleRow "b"), .stop]

theorem writer_in_order_orderly :
    committedRows orderlyEnd.log <+: rowsOf orderlyEnd.sent ∧
    rowsOf (orderlyEnd.sent.takeWhile (· ≠ .stop)) <+: committedRows orderlyEnd.log :=
  have hrun : (machine 8 2).run init orderlyRun = some orderlyEnd := by decide
  have horder := writer_in_order hrun (by decide)
  ⟨(horder.1 rfl).1, (horder.1 rfl).2.1⟩

end Moaray.Store
