import Moaray.Gateway.Isolation
import Moaray.Gateway.RowsOwed
import Moaray.Store.Losses

/-!
# The usage table and the requests behind it

Rows of many requests reach the sink interleaved, the sink drops what finds no room, and the writer
batches what is left into transactions.  The table is nevertheless made of rows that requests owe,
each once and in the order they were booked.

* `Handed` — the sink has gone through a run, and what it was sent is among the rows booked.
* `Backed` — a row with the identity of its request and the prices of its pinned snapshot.
* `Entered` — what the table holds of one request.
* `ledger` — every row in the table is backed by a request that owes it, and a writer that ended
  without a loss has left all of them there.

Three facts are joined.  The writer keeps what it was sent, in order, or loses whole transactions;
the sink was sent the rows that were booked, in order, or dropped some; and a request books the
rows it owes, the first ones first.  So the table is a sublist of what was booked, and what it
holds of one request a sublist of what that request owes.

**Design.**  Rows do not carry the number of their request, so the theorem supplies one for each
row of the table.  Everything is said in terms of sublists: losing rows leaves a sublist, and order
and multiplicity come for free.
-/

namespace Moaray

open Framework Json

/-! ## The sink -/

namespace Store

variable {capacity batch : ℕ} {s t : State} {a : Action}

/-- A row that is recorded is sent, or it is dropped and counted. -/
lemma rowsOf_sent_record {row : UsageRecord}
    (h : (machine capacity batch).step s (.record row) = some t) :
    t.records = s.records + 1 ∧
      (rowsOf t.sent = rowsOf s.sent ∨ rowsOf t.sent = rowsOf s.sent ++ [row]) := by
  cases moves_of_step h with
  | dropped => exact ⟨rfl, .inl rfl⟩
  | recorded => exact ⟨rfl, .inr (by rw [State.send, rowsOf_append, rowsOf_row])⟩

lemma rowsOf_sent_other (hrecord : ∀ row, a ≠ .record row)
    (h : (machine capacity batch).step s a = some t) :
    t.records = s.records ∧ rowsOf t.sent = rowsOf s.sent := by
  cases moves_of_step h with
  | dropped row | recorded row => exact absurd rfl (hrecord row)
  | flushSent | stopSent => exact ⟨rfl, by rw [State.send, rowsOf_append]; exact List.append_nil _⟩
  | disconnected | closed | settled => exact ⟨rfl, rfl⟩
  | received m | drained _ m => cases m <;> exact ⟨rfl, rfl⟩
  | transacted commits =>
      rw [State.endRound, flushBatch_frame]
      exact ⟨rfl, rfl⟩
  | finished commits =>
      rw [flushBatch_frame]
      exact ⟨rfl, rfl⟩

/-- The table holds rows that were sent, in the order they were sent. -/
lemma Read.committed_sublist {done : List WriterMsg} (h : Read batch s done) :
    (committedRows s.log).Sublist (rowsOf s.sent) := by
  have hcommitted : (committedRows s.log).Sublist (written s.log) :=
    List.filter_sublist.flatMap Transaction.rows
  have hwritten : (written s.log).Sublist (rowsOf done) := by
    rw [← h.rows]
    exact List.sublist_append_left _ _
  have hdone : (rowsOf done).Sublist (rowsOf s.sent) := by
    rw [h.sent]
    refine List.IsPrefix.sublist ?_
    exact rowsOf_prefix (List.prefix_append _ _)
  exact hcommitted.trans (hwritten.trans hdone)

/-- The writer ended, and every row it was given is in the table: no transaction failed, nothing was
left in the channel, and no send was refused. -/
def Settled (s : State) : Prop := s.phase = .exited ∧ Kept s ∧ s.dropped = 0

end Store

namespace Server

variable {ρ : Type} {serde : SerdeJson} {reader : RequestReader}
  {calls : ℕ → ℕ → Governed.Call} {capacity batch : ℕ} {s t : State ρ} {as : List (Action ρ)}

/-- The rows booked so far went through the sink, which dropped some of them: the sink is in a state
of its own runs, and it was sent a sublist. -/
structure Handed (capacity batch : ℕ) (s : State ρ) : Prop where
  sink : (Store.machine capacity batch).Reachable (· = Store.init) s.sink
  sent : (Store.rowsOf s.sink.sent).Sublist (s.booked.map Prod.snd)
  records : s.sink.records = s.booked.length

/-- A step of the server that leaves sink and rows alone, or moves the sink by itself. -/
lemma Handed.quiet (h : Handed capacity batch s) (hsink : t.sink = s.sink)
    (hbooked : t.booked = s.booked) : Handed capacity batch t := by
  obtain ⟨hreach, hsent, hrecords⟩ := h
  exact ⟨hsink ▸ hreach, by rw [hsink, hbooked]; exact hsent, by rw [hsink, hbooked]; exact hrecords⟩

lemma Handed.step {a : Action ρ} (h : Handed capacity batch s)
    (hmoves : Moves serde reader calls capacity batch s a t) : Handed capacity batch t := by
  have hnext {b : Store.Action} {sink : Store.State}
      (hstep : (Store.machine capacity batch).step s.sink b = some sink) :
      (Store.machine capacity batch).Reachable (· = Store.init) sink := by
    have hone : (Store.machine capacity batch).run s.sink [b] = some sink := by
      rw [Machine.run_singleton, hstep]
    exact h.sink.tail hone
  cases hmoves with
  | @book id req metrics row rows outcome sink hf hsink =>
      obtain ⟨hrecords, hsent⟩ := Store.rowsOf_sent_record hsink
      have hbooked : ((s.book id row sink).goto id req (.booking metrics rows outcome)).booked.map
          Prod.snd = s.booked.map Prod.snd ++ [row] := List.map_append
      refine ⟨hnext hsink, ?_, ?_⟩
      · rw [hbooked]
        rcases hsent with hsent | hsent
        · exact hsent ▸ h.sent.trans (List.sublist_append_left _ _)
        · exact hsent ▸ h.sent.append_right _
      · show sink.records = (s.booked ++ [(id, row)]).length
        rw [hrecords, h.records, List.length_append, List.length_singleton]
  | store hrecord hstep =>
      obtain ⟨hrecords, hsent⟩ := Store.rowsOf_sent_other hrecord hstep
      exact ⟨hnext hstep, by rw [hsent]; exact h.sent, hrecords.trans h.records⟩
  | _ => exact h.quiet rfl rfl

lemma handed_of_run (hs : Started s)
    (h : (machine serde reader calls capacity batch).run s as = some t) :
    Handed capacity batch t := by
  refine (machine serde reader calls capacity batch).invariant_of_run
    (fun _ _ _ hprev hstep => hprev.step (moves_of_step hstep)) ?_ h
  obtain ⟨-, -, hsink, -, hbooked⟩ := hs
  refine ⟨⟨_, [], rfl, ?_⟩, ?_, ?_⟩
  · rw [hsink]
    rfl
  · rw [hsink, hbooked]
    exact List.Sublist.refl _
  · rw [hsink, hbooked]
    rfl

/-- What is in the table was booked; and all of it, once the writer has ended without a loss. -/
lemma Handed.table (h : Handed capacity batch s) :
    (Store.committedRows s.sink.log).Sublist (s.booked.map Prod.snd) ∧
      (Store.Settled s.sink → Store.committedRows s.sink.log = s.booked.map Prod.snd) := by
  obtain ⟨done, hread⟩ := Store.read_of_reachable h.sink
  have hsub := hread.committed_sublist.trans h.sent
  refine ⟨hsub, fun hsettled => hsub.eq_of_length ?_⟩
  obtain ⟨hexited, hkept, hdropped⟩ := hsettled
  obtain ⟨_, bs, rfl, hrun⟩ := h.sink
  have hcount := (Store.counted_iff_kept hrun hexited).2 hkept
  rw [hdropped, h.records] at hcount
  rw [List.length_map, hcount, Nat.add_zero]

/-! ## The rows of a request -/

/-- A row carries the identity of its request, its caller's key, and the prices of its model on
the pinned snapshot. -/
structure Backed (w : Surroundings ρ) (req : Request) (row : UsageRecord) : Prop where
  requestId : row.requestId = req.requestId
  priced : App.Priced w req row

lemma backed_of_owed {w : Surroundings ρ} {req : Request} {row : UsageRecord}
    (h : row ∈ (App.chatCompletions w req).rows) : Backed w req row := by
  unfold App.chatCompletions at h
  cases hroute : App.preRoute w req with
  | error e => simp [hroute] at h
  | ok routed =>
      simp only [hroute] at h
      obtain ⟨hsnapshot, auth, hauth, hkey⟩ := App.preRoute_pins hroute
      cases routed with
      | passthrough auth' raw model stream provider runtime =>
          obtain rfl : runtime = w.runtime := hsnapshot
          have hpriced := (App.owed_passthrough hroute).priced row h
          refine ⟨?_, hpriced⟩
          simp only [App.execute, App.passthrough] at h
          split at h
          · split at h
            · cases h
            · obtain rfl := List.mem_singleton.1 h
              rfl
          · cases h
      | moa callerKeyId recipe raw model runtime =>
          obtain rfl : runtime = w.runtime := hsnapshot
          have hpriced := (App.owed_runMoa hroute).priced row h
          refine ⟨?_, hpriced⟩
          simp only [App.execute, App.runMoa] at h
          split at h
          · cases h
          · split at h
            · cases h
            · split at h
              · obtain ⟨_, hpair, rfl⟩ := List.mem_map.1 h
                obtain ⟨arm, -, rfl⟩ := List.mem_map.1 hpair
                rfl
              · obtain ⟨_, hpair, rfl⟩ := List.mem_map.1 h
                obtain ⟨arm, -, rfl⟩ := List.mem_map.1 hpair
                rfl

/-- The stages at which rows of a request have been booked. -/
def Stage.books : Stage → Prop
  | .booking .. | .answered _ => True
  | _ => False

/-- Rows are booked for requests that have their outcome. -/
lemma Account.books {id : ℕ} {log : List (Reading ρ)} (h : Account serde reader id log s)
    (hrows : s.bookedFor id ≠ []) : ∃ f, s.flights id = some f ∧ f.stage.books := by
  unfold Account at h
  cases hf : s.flights id with
  | none =>
      rw [hf] at h
      exact absurd h.2.2 hrows
  | some f =>
      rw [hf] at h
      obtain ⟨w, -, -, hstands⟩ := h
      refine ⟨f, rfl, ?_⟩
      cases hstage : f.stage with
      | booking | answered => trivial
      | arrived => exact absurd (hstage ▸ hstands).2.2 hrows
      | authenticated => exact absurd (hstage ▸ hstands).2.2.2.2 hrows
      | limited => exact absurd (hstage ▸ hstands).2.2.2.2.2 hrows
      | routed => exact absurd (hstage ▸ hstands).2.2.2 hrows
      | calling => exact absurd (hstage ▸ hstands).2.2.2.2.2 hrows
      | dropped => exact absurd (hstage ▸ hstands).2 hrows

/-- The rows booked for a request are the first of those it owes, and all of them when it has been
answered. -/
lemma Account.owes {id : ℕ} {log : List (Reading ρ)} {f : Flight}
    (h : Account serde reader id log s) (hf : s.flights id = some f) (hbooks : f.stage.books) :
    ∃ w : Surroundings ρ, w.serde = serde ∧ w.reader = reader ∧ (∀ r ∈ log, Has w r) ∧
      s.bookedFor id <+: (App.chatCompletions w f.req).rows ∧
      ∀ response, f.stage = .answered response →
        s.bookedFor id = (App.chatCompletions w f.req).rows := by
  obtain ⟨w, hserde, hreader, hstands⟩ := h.of_flight hf
  refine ⟨w, hserde, hreader, ?_⟩
  cases hstage : f.stage with
  | booking metrics rows outcome =>
      rw [hstage] at hstands
      obtain ⟨hlog, hserved⟩ := hstands w.atReply
      rw [hserved]
      exact ⟨hlog, List.prefix_append _ _, fun _ heq => Stage.noConfusion heq⟩
  | answered response =>
      rw [hstage] at hstands
      obtain ⟨hlog, hserved⟩ := hstands
      rw [hserved]
      exact ⟨hlog, List.prefix_refl _, fun _ _ => rfl⟩
  | arrived | authenticated | limited | routed | calling | dropped =>
      rw [hstage] at hbooks
      exact hbooks.elim

/-! ## The table -/

/-- The rows of a request among rows that are tagged with theirs.  The order is kept. -/
def rowsFor (id : ℕ) (tagged : List (ℕ × UsageRecord)) : List UsageRecord :=
  (tagged.filter fun b => b.1 = id).map Prod.snd

/-- What the table holds of a request: the rows it owes, in order, of which some may be missing
unless the writer is settled. -/
structure Entered (w : Surroundings ρ) (f : Flight) (settled : Prop) (rows : List UsageRecord) :
    Prop where
  /-- Rows it owes, in their order, ... -/
  owed : rows.Sublist (App.chatCompletions w f.req).rows
  backed : ∀ row ∈ rows, Backed w f.req row
  /-- ... and all of them when it was answered and the writer lost none. -/
  complete : settled → ∀ response, f.stage = .answered response →
    rows = (App.chatCompletions w f.req).rows

/-- **The ledger.**  In every state of every run the table is made of rows that were booked, each
once and in their order; whoever booked one has its outcome and owes it, for the values it read
on its way; and when the writer has ended without a loss, nothing an answered request owes is
missing. -/
theorem ledger (hs : Started s)
    (h : (machine serde reader calls capacity batch).run s as = some t) :
    ∃ tagged : List (ℕ × UsageRecord),
      tagged.map Prod.snd = Store.committedRows t.sink.log ∧ tagged.Sublist t.booked ∧
      (∀ entry ∈ tagged, ∃ f, t.flights entry.1 = some f ∧ f.stage.books) ∧
      ∀ id f, t.flights id = some f → f.stage.books →
        ∃ w : Surroundings ρ, w.serde = serde ∧ w.reader = reader ∧
          (∀ r ∈ readings serde reader calls capacity batch id s as, Has w r) ∧
          Entered w f (Store.Settled t.sink) (rowsFor id tagged) := by
  obtain ⟨hsub, hall⟩ := (handed_of_run hs h).table
  obtain ⟨tagged, htagged, hmap⟩ := List.sublist_map_iff.1 hsub
  refine ⟨tagged, hmap.symm, htagged, ?_, ?_⟩
  · intro entry hentry
    have haccount : Account serde reader entry.1
        (readings serde reader calls capacity batch entry.1 s as) t := account_of_run hs h entry.1
    refine haccount.books ?_
    have hmem : entry.2 ∈ t.bookedFor entry.1 :=
      List.mem_map.2 ⟨entry, List.mem_filter.2 ⟨htagged.subset hentry, by simp⟩, rfl⟩
    exact List.ne_nil_of_mem hmem
  · intro id f hf hbooks
    obtain ⟨w, hserde, hreader, hlog, hprefix, hanswered⟩ := (account_of_run hs h id).owes hf hbooks
    have hrows : (rowsFor id tagged).Sublist (t.bookedFor id) := (htagged.filter _).map _
    have howed := hrows.trans hprefix.sublist
    refine ⟨w, hserde, hreader, hlog, howed, ?_, ?_⟩
    · exact fun row hrow => backed_of_owed (howed.subset hrow)
    · intro hsettled response hresponse
      have hlength : tagged.length = t.booked.length := by
        have hsame := congrArg List.length (hmap.symm.trans (hall hsettled))
        rwa [List.length_map, List.length_map] at hsame
      obtain rfl : tagged = t.booked := htagged.eq_of_length hlength
      exact hanswered response hresponse

/-- While the rows of the recipe are on their way, the table has the row of the first request. -/
theorem ledger_busy :
    ∃ s t : State Unit, Started s ∧
      (machine busySerde busyReader Reload.soloCalls 8 2).run s busySteps = some t ∧
      ∃ tagged : List (ℕ × UsageRecord),
        tagged.map Prod.snd = Store.committedRows t.sink.log ∧ tagged.length = 1 ∧
          t.booked.length = 3 ∧ tagged.Sublist t.booked ∧
          ∃ (f : Flight) (w : Surroundings Unit), t.flights 0 = some f ∧ f.req = relayRequest ∧
            (∀ r ∈ readings busySerde busyReader Reload.soloCalls 8 2 0 s busySteps, Has w r) ∧
            Entered w f (Store.Settled t.sink) (rowsFor 0 tagged) := by
  obtain ⟨s, t, hs, hrun, htest⟩ := exists_busyRun
    (fun t => t.succeeded 0 relayRequest &&
      decide ((Store.committedRows t.sink.log).length = 1 ∧ t.booked.length = 3))
    (by decide +kernel)
  simp only [Bool.and_eq_true, decide_eq_true_eq] at htest
  obtain ⟨hrelay, hcommitted, hbooked⟩ := htest
  obtain ⟨response, hflight, -⟩ := State.exists_of_succeeded hrelay
  obtain ⟨tagged, hmap, hsub, -, hall⟩ := ledger hs hrun
  obtain ⟨w, -, -, hread, hentered⟩ := hall 0 _ hflight trivial
  have hlength : tagged.length = 1 := by rw [← hcommitted, ← hmap, List.length_map]
  exact ⟨s, t, hs, hrun, tagged, hmap, hlength, hbooked, hsub, _, w, hflight, rfl, hread, hentered⟩

end Server

end Moaray
