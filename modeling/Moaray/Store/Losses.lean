import Moaray.Store.Writer

/-!
# The rows the writer loses

`record` counts the rows it drops.  Two losses are counted nowhere: a transaction that fails takes
its rows with it, and the flush read with them is acknowledged all the same; and the thread leaves
behind whatever is in the channel when it goes.

* `Accounted` — every recorded row is in the database or counted, and an acknowledgement vouches
  for what was sent before its flush.
* `Loses` — the steps that lose rows; `kept_step_iff`: a step keeps what was kept just when it is
  none of them.
* `Balanced` — every call of `record` is a row in the channel or a counted drop.
* `accounted_iff` — runs without such a step are accounted for, and of the runs that have ended no
  others are.

The count at the end of a run is compared with the number of rows sent, of which some were written
and of these some committed.  `Balanced` ties the first to the calls, the writer's account (`Read`)
the second to the first, and whether the third is the same is what `Kept` says.

**Design.**  A transaction that fails without rows, or a thread that leaves an empty channel
behind, loses nothing, so `Loses` looks at the state before the step.  The condition on a run is
that no step of it loses, and `holds_iff_forall_takes` makes it exact: one step lemma with an
equivalence is all that is proved of the machine.
-/

namespace Moaray.Store

open Framework

variable {capacity batch : ℕ} {s t : State} {a : Action} {as : List Action}

/-- Whether the rows of a transaction are in the database, row by row: all of them are, or none. -/
def Transaction.fates (tr : Transaction) : List Bool :=
  List.replicate tr.rows.length tr.committed

/-- Whether the rows written are in the database, row by row. -/
def fates (log : List Transaction) : List Bool := log.flatMap Transaction.fates

/-- Once the thread has ended every recorded row is in the database or counted as dropped, and
every row sent before an acknowledged flush is in the database. -/
structure Accounted (s : State) : Prop where
  counted : s.phase = .exited → s.records = (committedRows s.log).length + s.dropped
  durable : ∀ ack ∈ s.acks, ∀ i < (rowsOf (s.sent.take ack)).length,
    (fates s.log)[i]? = some true

/-- The step loses rows: a transaction with rows fails, or the thread ends before it has read what
is in the channel. -/
def Loses (s : State) : Action → Prop
  | .transact commits => s.buf ≠ [] ∧ commits = false
  | .finish commits => (s.buf ≠ [] ∧ commits = false) ∨ rowsOf s.channel ≠ []
  | _ => False

/-! ## Nothing is lost -/

/-- Every transaction was committed and no row was left behind. -/
def Kept (s : State) : Prop :=
  (∀ tr ∈ s.log, tr.committed = true) ∧ (s.phase = .exited → rowsOf s.channel = [])

lemma kept_init : Kept init := by simp [Kept, init]

/-- A step that is not the last one neither ends the thread nor, if it has ended, moves the
channel. -/
lemma exited_of_step (ha : (machine capacity batch).step s a = some t)
    (hlast : ∀ commits, a ≠ .finish commits) :
    (t.phase = .exited ↔ s.phase = .exited) ∧ (s.phase = .exited → t.channel = s.channel) := by
  cases moves_of_step ha with
  | dropped | disconnected => exact ⟨Iff.rfl, fun _ => rfl⟩
  | recorded _ _ hlive | flushSent _ hlive | stopSent _ hlive =>
      exact ⟨Iff.rfl, fun hend => absurd hend hlive⟩
  | received _ _ hp | closed hp | settled _ hp => simp [State.received, hp]
  | drained _ _ _ _ hp _ _ hphase => rcases hphase with rfl | rfl <;> simp [State.received, hp]
  | transacted commits hp =>
      have hphase : (s.endRound commits).phase ≠ .exited := by
        unfold State.endRound
        dsimp only
        split <;> simp
      simp [hp, hphase]
  | finished commits _ => exact absurd rfl (hlast commits)

/-- A step keeps the rows just when it is not one that loses some.  A step loses rows if its
transaction fails, or if it ends the thread with rows left in the channel. -/
theorem kept_step_iff (ha : (machine capacity batch).step s a = some t) :
    Kept t ↔ Kept s ∧ ¬ Loses s a := by
  by_cases hlast : ∃ commits, a = .finish commits
  · obtain ⟨commits, rfl⟩ := hlast
    obtain ⟨hp, rfl⟩ : s.phase = .leaving ∧ t = { s.flushBatch commits with phase := .exited } := by
      cases moves_of_step ha with
      | finished _ hp => exact ⟨hp, rfl⟩
    have hchannel : (s.flushBatch commits).channel = s.channel := by rw [flushBatch_frame]
    simp only [Kept, Loses, forall_committed_flushBatch_iff, hchannel, hp]
    tauto
  · have hother : ∀ commits, a ≠ .finish commits := fun commits heq => hlast ⟨commits, heq⟩
    obtain ⟨hend, hchannel⟩ := exited_of_step ha hother
    have hleft : (t.phase = .exited → rowsOf t.channel = []) ↔
        (s.phase = .exited → rowsOf s.channel = []) := by
      rw [hend]
      exact forall_congr' fun hs => by rw [hchannel hs]
    rcases log_of_step ha with ⟨hlog, hnone⟩ | ⟨commits, rfl | rfl, hlog⟩
    · have hnot : ¬ Loses s a := by
        cases a with
        | transact commits => exact absurd rfl (hnone commits).1
        | finish commits => exact absurd rfl (hnone commits).2
        | record | sendFlush | sendStop | disconnect | recv | drain => simp [Loses]
      simp only [Kept, hlog, hleft, hnot, not_false_eq_true, and_true]
    · simp only [Kept, hlog, forall_committed_flushBatch_iff, hleft, Loses]
      tauto
    · exact absurd rfl (hother commits)

/-! ## The balance -/

/-- Every `record` call put its row into the channel or was counted as a drop. -/
def Balanced (s : State) : Prop := s.records = s.dropped + (rowsOf s.sent).length

lemma balanced_step (ha : (machine capacity batch).step s a = some t) (hs : Balanced s) :
    Balanced t := by
  unfold Balanced at hs ⊢
  cases moves_of_step ha with
  | dropped r _ =>
      dsimp only
      omega
  | recorded r _ _ =>
      simp only [State.send, rowsOf_append, rowsOf_row, List.length_append, List.length_singleton]
      omega
  | flushSent | stopSent => simpa [State.send, rowsOf_append] using hs
  | disconnected | closed | settled => exact hs
  | received m | drained _ m => cases m <;> exact hs
  | transacted commits _ =>
      unfold State.endRound
      rw [flushBatch_frame]
      exact hs
  | finished commits _ =>
      rw [flushBatch_frame]
      exact hs

lemma balanced_of_run (hrun : (machine capacity batch).run init as = some t) : Balanced t :=
  (machine capacity batch).invariant_of_run (fun _ _ _ hs ha => balanced_step ha hs)
    (by simp [Balanced, init]) hrun

/-! ## What is in the database -/

/-- The rows of a log are the committed ones and the others. -/
lemma length_written (log : List Transaction) :
    (written log).length =
      (committedRows log).length + (written (log.filter (! ·.committed))).length := by
  induction log with
  | nil => rfl
  | cons tr log ih =>
      simp only [committedRows, written, List.filter_cons, List.flatMap_cons,
        List.length_append] at ih ⊢
      cases tr.committed <;> simp [ih] <;> omega

lemma committedRows_of_committed {log : List Transaction}
    (h : ∀ tr ∈ log, tr.committed = true) : committedRows log = written log := by
  rw [committedRows, List.filter_eq_self.2 h]

/-- A log whose transactions have rows is in the database whole only if it was committed whole. -/
lemma length_committedRows_iff {log : List Transaction} (hsizes : ∀ tr ∈ log, 1 ≤ tr.rows.length) :
    (committedRows log).length = (written log).length ↔ ∀ tr ∈ log, tr.committed = true := by
  refine ⟨fun hlen tr htr => ?_, fun h => by rw [committedRows_of_committed h]⟩
  by_contra hfailed
  have hmem : tr ∈ log.filter (! ·.committed) := List.mem_filter.2 ⟨htr, by simp [hfailed]⟩
  have hsub : tr.rows.length ≤ (written (log.filter (! ·.committed))).length :=
    (List.sublist_flatten_of_mem (List.mem_map_of_mem hmem)).length_le
  have hsplit := length_written log
  have hrows := hsizes tr htr
  omega

lemma fates_of_committed {log : List Transaction} (h : ∀ tr ∈ log, tr.committed = true) :
    fates log = List.replicate (written log).length true := by
  induction log with
  | nil => rfl
  | cons tr log ih =>
      have hhead : tr.committed = true := h tr (List.mem_cons_self ..)
      have htail := ih fun tr' htr' => h tr' (List.mem_cons_of_mem _ htr')
      simp only [fates, written] at htail ⊢
      rw [List.flatMap_cons, List.flatMap_cons, htail, Transaction.fates, hhead,
        List.length_append, List.replicate_append_replicate]

/-! ## When nothing vanishes -/

/-- Once the thread has ended, the count is right just when nothing was lost. -/
lemma counted_iff_kept (hrun : (machine capacity batch).run init as = some t)
    (hend : t.phase = .exited) :
    t.records = (committedRows t.log).length + t.dropped ↔ Kept t := by
  obtain ⟨done, hread⟩ := read_of_reachable ⟨init, as, rfl, hrun⟩
  have hbalance : t.records = t.dropped + (rowsOf t.sent).length := balanced_of_run hrun
  have hrows : written t.log = rowsOf done := by
    simpa [hread.cleared (.inr (.inr hend))] using hread.rows
  have hsent : (rowsOf t.sent).length = (written t.log).length + (rowsOf t.channel).length := by
    rw [hread.sent, rowsOf_append, List.length_append, hrows]
  have hsplit := length_written t.log
  have hall := length_committedRows_iff fun tr htr => (hread.sizes tr htr).1
  have hleft : rowsOf t.channel = [] ↔ (rowsOf t.channel).length = 0 := List.length_eq_zero_iff.symm
  simp only [Kept, hend, true_imp_iff]
  rw [← hall, hleft]
  omega

lemma accounted_of_kept (hrun : (machine capacity batch).run init as = some t) (h : Kept t) :
    Accounted t where
  counted hend := (counted_iff_kept hrun hend).2 h
  durable ack hack i hi := by
    obtain ⟨done, hread⟩ := read_of_reachable ⟨init, as, rfl, hrun⟩
    have hlen := (hread.acked ack hack).2.length_le
    rw [fates_of_committed h.1, List.getElem?_replicate, if_pos (by omega)]

/-- A run without a losing step is accounted for at every point; and a run that has ended is
accounted for only if it has had none. -/
theorem accounted_iff {capacity batch : ℕ} {as : List Action} {t : State}
    (hrun : (machine capacity batch).run init as = some t) :
    ((∀ pre s a u, (machine capacity batch).Takes init as pre s a u → ¬ Loses s a) →
      (machine capacity batch).StaysIn Accounted init as) ∧
    (t.phase = .exited → Accounted t →
      ∀ pre s a u, (machine capacity batch).Takes init as pre s a u → ¬ Loses s a) := by
  have hkept : ∀ {bs u}, (machine capacity batch).run init bs = some u →
      (Kept u ↔ ∀ pre s a v, (machine capacity batch).Takes init bs pre s a v → ¬ Loses s a) :=
    fun hbs => Machine.holds_iff_forall_takes (fun _ _ _ ha => kept_step_iff ha) kept_init hbs
  constructor
  · rintro hsteps bs u ⟨rest, rfl⟩ hbs
    refine accounted_of_kept hbs ((hkept hbs).2 fun pre s a v htakes => ?_)
    exact hsteps pre s a v (htakes.of_append rest)
  · intro hend hacc
    exact (hkept hrun).1 ((counted_iff_kept hrun hend).1 (hacc.counted hend))

theorem accounted_iff_orderly : Accounted orderlyEnd := by
  have hrun : (machine 8 2).run init orderlyRun = some orderlyEnd := by decide
  have hkept : Kept orderlyEnd := ⟨by decide, fun _ => by decide⟩
  refine (accounted_iff hrun).1 ?_ orderlyRun orderlyEnd (List.prefix_refl _) hrun
  exact (Machine.holds_iff_forall_takes (fun _ _ _ ha => kept_step_iff ha) kept_init hrun).1 hkept

/-- A row, its flush, and a transaction that fails. -/
def rolledBackRun : List Action :=
  [.record (sampleRow "a"), .sendFlush, .recv, .drain false, .transact false, .sendStop, .recv,
    .drain true, .transact true, .finish true]

/-- A row that arrives behind the stop. -/
def latecomerRun : List Action :=
  [.sendStop, .recv, .drain false, .record (sampleRow "a"), .transact true, .finish true]

/-- The row of `rolledBackRun` is neither in the database nor counted, and its flush was
acknowledged; the row of `latecomerRun` is neither, with no failure at all. -/
theorem rows_vanish_unseen :
    (∃ t, (machine 8 2).run init rolledBackRun = some t ∧ t.phase = .exited ∧
      t.records = 1 ∧ committedRows t.log = [] ∧ t.dropped = 0 ∧
      t.acks = [1] ∧ rowsOf (t.sent.take 1) = [sampleRow "a"]) ∧
    ∃ t, (machine 8 2).run init latecomerRun = some t ∧ t.phase = .exited ∧
      t.records = 1 ∧ committedRows t.log = [] ∧ t.dropped = 0 := by
  refine ⟨⟨_, rfl, rfl, rfl, rfl, rfl, rfl, rfl⟩, ⟨_, rfl, rfl, rfl, rfl, rfl⟩⟩

end Moaray.Store
