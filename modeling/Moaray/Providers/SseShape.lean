import Moaray.Providers.SseChunks

/-!
# The shape of the translated stream

A well-formed stream is deltas and then one ending: the finish frame with `[DONE]`, or an error.
The translation yields one as long as the upstream is quiet once its `message_stop` was handled. An
`error` event of the upstream is passed over like any other unknown event, so it ends the stream in
an error only if something else does.

* `itemsOf_shape` — what the stream is, read off the events up to the first `message_stop`.
* `wellFormed_iff`, `error_relayed_iff` — when it is well-formed, and when a reported error makes
  it end in a failure.
* `two_stops`, `error_event_ignored` — a stream with two endings, and one that finishes after an
  `error` event.

The events fall in two at the first `message_stop` that is handled: those before it give deltas
only, it gives the two closing frames, and what comes after is translated as if nothing had been
closed.  The translator remembers that it sent `[DONE]`, but looks at this only when the upstream
ends, to decide whether it has to close the stream by itself.

**Design.**  `afterStop` computes that split from the readings alone, so both conditions are about
the upstream and mention no frame.  That a stream is well-formed is a property of the items, and
`deltaItems_append_inj` is what lets the ending be read off them: the deltas end where the first
item that is none stands.
-/

namespace Moaray

open Json Framework

namespace AnthropicSse

variable {serde : SerdeJson}

/-! ## Shapes -/

/-- Delta frames, by id and content. -/
def deltaItems (deltas : List (String × String)) : List (Except Error Frame) :=
  deltas.map fun d => .ok (.delta d.1 d.2)

/-- Deltas, and then one ending: the two closing frames, or an error. -/
def WellFormed (items : List (Except Error Frame)) : Prop :=
  ∃ deltas,
    (∃ id reason, items = deltaItems deltas ++ [.ok (.finish id reason), .ok .done]) ∨
      ∃ e, items = deltaItems deltas ++ [.error e]

/-- The last item is an error, and there is no finish frame and no `[DONE]` before it.  A client
sees a broken stream as broken. -/
structure FailsCleanly (items : List (Except Error Frame)) : Prop where
  last : ∃ e, items.getLast? = some (.error e)
  noFinish : ∀ id reason, .ok (.finish id reason) ∉ items
  noDone : .ok .done ∉ items

/-! ## The upstream's events -/

/-- A reading that ends the stream as unsupported. -/
def Reading.Unsupported : Reading → Prop
  | .blockStart blockType => blockType ≠ "text"
  | .blockDelta deltaType _ => deltaType ≠ "text_delta"
  | _ => False

instance (r : Reading) : Decidable r.Unsupported := by
  unfold Reading.Unsupported
  split <;> infer_instance

/-- What follows the first `message_stop`, if nothing unsupported comes before it. -/
def afterStop : List Reading → Option (List Reading)
  | [] => none
  | r :: rs =>
      if r.Unsupported then none
      else if r = .messageStop then some rs
      else afterStop rs

/-- An event of the upstream that reports an error, by its type or the type of its payload. -/
def IsError (serde : SerdeJson) (ev : SseEvent) : Prop :=
  ev.event = some "error" ∨
    ∃ parsed, fromStr serde (trim ev.data) = some parsed ∧
      (parsed.get "type").bind Value.asStr = some "error"

/-- The upstream reports an error before its `message_stop`. -/
def ErrorBeforeStop (serde : SerdeJson) (upstream : List (Except Error Bytes)) : Prop :=
  ∃ pre ev post, (deliveredFrom .fresh upstream).1 = pre ++ ev :: post ∧ IsError serde ev ∧
    ∀ ev' ∈ pre, readEvent serde ev' ≠ .messageStop

/-! ## The shape -/

/-- A reading other than an unsupported one and a stop yields deltas, and leaves `[DONE]` unsent if
it was. -/
lemma translateEvent_deltas {r : Reading} (hr : ¬ r.Unsupported) (hstop : r ≠ .messageStop)
    (st : Translator) :
    ∃ deltas st', (translateEvent st r).1.map .ok = deltaItems deltas ∧
      (translateEvent st r).2 = .ok st' ∧ st'.doneSent = st.doneSent := by
  cases r with
  | messageStart id => exact ⟨[], _, rfl, rfl, rfl⟩
  | blockStart blockType =>
      obtain rfl : blockType = "text" := not_not.1 hr
      exact ⟨[], st, rfl, rfl, rfl⟩
  | blockDelta deltaType text =>
      obtain rfl : deltaType = "text_delta" := not_not.1 hr
      cases text with
      | none => exact ⟨[], st, rfl, rfl, rfl⟩
      | some text => exact ⟨[(st.id, text)], st, rfl, rfl, rfl⟩
  | messageDelta stopReason => cases stopReason <;> exact ⟨[], _, rfl, rfl, rfl⟩
  | messageStop => exact (hstop rfl).elim
  | other => exact ⟨[], st, rfl, rfl, rfl⟩

lemma translateEvent_unsupported {r : Reading} (h : r.Unsupported) (st : Translator) :
    ∃ msg, translateEvent st r = ([], .error (.unsupported msg)) := by
  cases r with
  | blockStart blockType => exact ⟨_, if_pos h⟩
  | blockDelta deltaType text => exact ⟨_, if_pos h⟩
  | messageStart _ | messageDelta _ | messageStop | other => exact h.elim

/-- Something ends the upstream as a failure: an unsupported event, or its own ending. -/
def Broken (rs : List Reading) (ending : Option Error) : Prop :=
  (∃ r ∈ rs, r.Unsupported) ∨ ending ≠ none

/-- Up to a first `message_stop` the stream is deltas.  With one, its two frames and the rest
follow; without one, the stream ends, as an error if the upstream broke. -/
lemma itemsOf_shape (rs : List Reading) (ending : Option Error) {st : Translator}
    (hst : st.doneSent = false) :
    ∃ deltas,
      match afterStop rs with
      | some post =>
          ∃ st', st'.doneSent = true ∧
            itemsOf st rs ending =
              deltaItems deltas ++ (st'.terminal.map .ok ++ itemsOf st' post ending)
      | none =>
          (Broken rs ending ∧ ∃ e, itemsOf st rs ending = deltaItems deltas ++ [.error e]) ∨
            (¬ Broken rs ending ∧
              ∃ id reason, itemsOf st rs ending =
                deltaItems deltas ++ [.ok (.finish id reason), .ok .done]) := by
  induction rs generalizing st with
  | nil =>
      refine ⟨[], ?_⟩
      cases ending with
      | none =>
          have hclean : ¬ Broken [] none := by simp [Broken]
          have hitems : itemsOf st [] none =
              [.ok (.finish st.id (st.finish.getD "stop")), .ok .done] := by
            simp [itemsOf, translateEvents, Translator.conclude, hst, Translator.terminal]
          exact .inr ⟨hclean, _, _, hitems⟩
      | some e => exact .inl ⟨.inr (Option.some_ne_none e), e, rfl⟩
  | cons r rs ih =>
      by_cases hr : r.Unsupported
      · obtain ⟨msg, heq⟩ := translateEvent_unsupported hr st
        have hafter : afterStop (r :: rs) = none := if_pos hr
        rw [hafter]
        refine ⟨[], .inl ⟨.inl ⟨r, List.mem_cons_self .., hr⟩, .unsupported msg, ?_⟩⟩
        rw [itemsOf_cons, heq]
        rfl
      · by_cases hstop : r = .messageStop
        · subst hstop
          exact ⟨[], { st with doneSent := true }, rfl, by rw [itemsOf_cons]; rfl⟩
        · obtain ⟨deltas, st', hframes, hresult, hdone⟩ := translateEvent_deltas hr hstop st
          obtain ⟨more, hmore⟩ := ih (hdone.trans hst)
          have hafter : afterStop (r :: rs) = afterStop rs := by
            rw [afterStop, if_neg hr, if_neg hstop]
          have hitems : itemsOf st (r :: rs) ending =
              deltaItems deltas ++ itemsOf st' rs ending := by
            rw [itemsOf_cons, hframes, hresult]
          refine ⟨deltas ++ more, ?_⟩
          have hbroken : Broken (r :: rs) ending ↔ Broken rs ending := by
            unfold Broken
            rw [List.exists_mem_cons_iff, or_iff_right hr]
          have hsplit : deltaItems (deltas ++ more) = deltaItems deltas ++ deltaItems more :=
            List.map_append
          rw [hafter, hitems, hbroken, hsplit]
          cases hpost : afterStop rs with
          | some post =>
              rw [hpost] at hmore
              obtain ⟨st'', hst'', heq⟩ := hmore
              exact ⟨st'', hst'', by rw [heq, List.append_assoc]⟩
          | none =>
              rw [hpost] at hmore
              rcases hmore with ⟨hbad, e, heq⟩ | ⟨hclean, id, reason, heq⟩
              · exact .inl ⟨hbad, e, by rw [heq, List.append_assoc]⟩
              · exact .inr ⟨hclean, id, reason, by rw [heq, List.append_assoc]⟩

/-! ## When the stream is well-formed -/

/-- After `[DONE]`, nothing comes exactly when the upstream is quiet. -/
lemma itemsOf_eq_nil_iff {rs : List Reading} {ending : Option Error} {st : Translator}
    (hst : st.doneSent = true) :
    itemsOf st rs ending = [] ↔ (∀ r ∈ rs, r.Silent) ∧ ending = none := by
  induction rs generalizing st with
  | nil =>
      cases ending with
      | none => simp [itemsOf, translateEvents, Translator.conclude, hst]
      | some e => simp [itemsOf, translateEvents, Translator.conclude]
  | cons r rs ih =>
      rw [itemsOf_cons, List.forall_mem_cons, and_assoc]
      by_cases hr : r.Silent
      · obtain ⟨st', hst', hdone⟩ := translateEvent_silent hr st
        rw [hst', and_iff_right hr]
        exact ih (hdone.trans hst)
      · rcases translateEvent_heard hr st with ⟨frame, frames, result, heq⟩ | ⟨msg, heq⟩
        · rw [heq]
          simp [hr]
        · rw [heq]
          simp [hr]

lemma deltaItems_append_inj {as bs : List (String × String)} {x y : Except Error Frame}
    {xs ys : List (Except Error Frame)} (hx : ∀ id content, x ≠ .ok (.delta id content))
    (hy : ∀ id content, y ≠ .ok (.delta id content))
    (h : deltaItems as ++ x :: xs = deltaItems bs ++ y :: ys) : x :: xs = y :: ys := by
  induction as generalizing bs with
  | nil =>
      cases bs with
      | nil => exact h
      | cons b bs => exact (hx _ _ (List.cons.inj h).1).elim
  | cons a as ih =>
      cases bs with
      | nil => exact (hy _ _ (List.cons.inj h).1.symm).elim
      | cons b bs => exact ih (List.cons.inj h).2

/-- What follows deltas and an ending has to be nothing. -/
lemma wellFormed_append_iff {deltas : List (String × String)} {id reason : String}
    {more : List (Except Error Frame)} :
    WellFormed (deltaItems deltas ++ (.ok (.finish id reason) :: .ok .done :: more)) ↔
      more = [] := by
  constructor
  · rintro ⟨deltas', ⟨id', reason', h⟩ | ⟨e, h⟩⟩
    · have hends := deltaItems_append_inj (by simp) (by simp) h
      exact (List.cons.inj (List.cons.inj hends).2).2
    · have hends := deltaItems_append_inj (by simp) (by simp) h
      cases (List.cons.inj hends).1
  · rintro rfl
    exact ⟨deltas, .inl ⟨id, reason, rfl⟩⟩

/-- The stream is well-formed exactly when the upstream is quiet after its `message_stop`, if one
is handled: nothing that is heard follows, and it does not end in an error. -/
theorem wellFormed_iff (serde : SerdeJson) (upstream : List (Except Error Bytes)) :
    WellFormed (translateFrames serde upstream) ↔
      ∀ post, afterStop (readings serde upstream) = some post →
        (∀ r ∈ post, r.Silent) ∧ ending upstream = none := by
  rw [translate_eq]
  have hfresh : Translator.fresh.doneSent = false := rfl
  obtain ⟨deltas, hshape⟩ := itemsOf_shape (readings serde upstream) (ending upstream) hfresh
  cases hpost : afterStop (readings serde upstream) with
  | some post =>
      rw [hpost] at hshape
      obtain ⟨st', hst', heq⟩ := hshape
      rw [heq]
      exact (wellFormed_append_iff.trans (itemsOf_eq_nil_iff hst')).trans (by simp)
  | none =>
      rw [hpost] at hshape
      refine iff_of_true ⟨deltas, ?_⟩ nofun
      rcases hshape with ⟨-, e, heq⟩ | ⟨-, id, reason, heq⟩
      · exact .inr ⟨e, heq⟩
      · exact .inl ⟨id, reason, heq⟩

/-- A stream whose upstream says it stops twice. -/
def twoStops : List (Except Error Bytes) :=
  [.ok (utf8 "event: message_stop\ndata: \x7b\x7d\n\nevent: message_stop\ndata: \x7b\x7d\n\n")]

/-- The stream of that upstream is ended twice. -/
theorem two_stops : ¬ WellFormed (translateFrames stopSerde twoStops) := by
  have hitems : translateFrames stopSerde twoStops =
      deltaItems [] ++ (.ok (.finish "chatcmpl-anthropic" "stop") :: .ok .done ::
        [.ok (.finish "chatcmpl-anthropic" "stop"), .ok .done]) := rfl
  rw [hitems, wellFormed_append_iff]
  simp

/-! ## When a failure is relayed -/

lemma mem_deltaItems {deltas : List (String × String)} {item : Except Error Frame}
    (h : item ∈ deltaItems deltas) : ∃ id content, item = .ok (.delta id content) := by
  obtain ⟨d, -, rfl⟩ := List.mem_map.1 h
  exact ⟨d.1, d.2, rfl⟩

lemma failsCleanly_deltas (deltas : List (String × String)) (e : Error) :
    FailsCleanly (deltaItems deltas ++ [.error e]) := by
  have hmem : ∀ frame, .ok frame ∈ deltaItems deltas ++ [.error e] →
      ∃ id content, frame = .delta id content := by
    intro frame h
    rw [List.mem_append, List.mem_singleton] at h
    rcases h with h | h
    · obtain ⟨id, content, heq⟩ := mem_deltaItems h
      exact ⟨id, content, Except.ok.inj heq⟩
    · cases h
  refine ⟨⟨e, List.getLast?_concat ..⟩, fun id reason h => ?_, fun h => ?_⟩
  · obtain ⟨_, _, heq⟩ := hmem _ h
    cases heq
  · obtain ⟨_, _, heq⟩ := hmem _ h
    cases heq

/-- The stream ends in a failure exactly when no `message_stop` is handled and the upstream
breaks. -/
lemma failsCleanly_translateFrames_iff (upstream : List (Except Error Bytes)) :
    FailsCleanly (translateFrames serde upstream) ↔
      afterStop (readings serde upstream) = none ∧
        Broken (readings serde upstream) (ending upstream) := by
  have hfresh : Translator.fresh.doneSent = false := rfl
  rw [translate_eq]
  obtain ⟨deltas, hshape⟩ := itemsOf_shape (readings serde upstream) (ending upstream) hfresh
  cases hpost : afterStop (readings serde upstream) with
  | some post =>
      rw [hpost] at hshape
      obtain ⟨st', -, heq⟩ := hshape
      refine iff_of_false (fun h => ?_) (by simp)
      refine h.noFinish st'.id (st'.finish.getD "stop") ?_
      simp [heq, Translator.terminal]
  | none =>
      rw [hpost] at hshape
      rcases hshape with ⟨hbroken, e, heq⟩ | ⟨hclean, id, reason, heq⟩
      · exact iff_of_true (heq ▸ failsCleanly_deltas deltas e) ⟨rfl, hbroken⟩
      · refine iff_of_false (fun h => h.noFinish id reason ?_) (fun h => hclean h.2)
        simp [heq]

/-- An upstream that reports an error before its `message_stop` gets a stream that ends in a
failure exactly when no `message_stop` is handled at all and something else breaks the stream: an
unsupported block or delta, a transport error, or a malformed line. -/
theorem error_relayed_iff (serde : SerdeJson) (upstream : List (Except Error Bytes)) :
    (ErrorBeforeStop serde upstream → FailsCleanly (translateFrames serde upstream)) ↔
      (ErrorBeforeStop serde upstream →
        afterStop (readings serde upstream) = none ∧
          Broken (readings serde upstream) (ending upstream)) :=
  imp_congr_right fun _ => failsCleanly_translateFrames_iff upstream

/-- An upstream that reports an error and closes. -/
def overloaded : List (Except Error Bytes) := [.ok (utf8 "event: error\ndata: \x7b\x7d\n\n")]

/-- The client of that upstream gets a stream that finishes, as if the answer were whole. -/
theorem error_event_ignored :
    ErrorBeforeStop stopSerde overloaded ∧
      ¬ FailsCleanly (translateFrames stopSerde overloaded) := by
  constructor
  · exact ⟨[], { event := some "error", data := "\x7b\x7d" }, [], rfl, .inl rfl, nofun⟩
  · have hitems : translateFrames stopSerde overloaded =
        [.ok (.finish "chatcmpl-anthropic" "stop"), .ok .done] := rfl
    intro h
    rw [hitems] at h
    exact h.noDone (by simp)

end AnthropicSse

end Moaray
