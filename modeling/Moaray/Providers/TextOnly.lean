import Moaray.Providers.Anthropic

/-!
# What the request translation carries over

The Messages path carries text and nothing else, so a request is either translated whole or
refused.  `TextOnly` says which requests are text and nothing else, without the translation;
`Passes` says which ones the translation's guards let through, and `Whole` that a request holds
none of what no guard looks at.

* `openaiToAnthropic_ok`, `openaiToAnthropic_of_passes` — the translation succeeds exactly on the
  requests that pass, with a body that carries their conversation.
* `textOnly_iff` — a request that passes is text and nothing else exactly when it is whole.
* `faithful_iff` — the translation is faithful exactly on the requests a guard stops and on the
  whole ones.
* `tool_calls_dropped` — a request whose tool calls no guard looks at.

The three predicates go down the request in the same way: its controls, its messages, the role and
the content of each, the parts of a content.  At every level `TextOnly` is the conjunction of what
a guard checks there and of what none does, and the lemmas `textPart_iff`, `textContent_iff` and
`textMessage_iff` say so level by level.

**Design.**  `TextOnly` is a relation with the conversation it holds, roles and texts in order. So
faithfulness can say what has to arrive, and not only that nothing was refused: every message in
its place, and the system texts joined.
-/

namespace Moaray

open Json Framework

namespace AnthropicMap

/-! ## Text-only requests -/

/-- A field is left out or `null`. -/
def Unset : Option Value → Prop
  | none | some .null => True
  | _ => False

def IsObject (v : Value) : Prop := ∃ fields, v = .object fields

/-- A content part that is `text` and nothing else: it says so, or has no type but a text. -/
def TextPart (part : Value) (text : String) : Prop :=
  IsObject part ∧
    ((part.get "type" = some (.string "text") ∧
        ((Unset (part.get "text") ∧ text = "") ∨ part.get "text" = some (.string text))) ∨
      (Unset (part.get "type") ∧ part.get "text" = some (.string text)))

/-- A message content that is `text` and nothing else. -/
def TextContent (content : Option Value) (text : String) : Prop :=
  (Unset content ∧ text = "") ∨ content = some (.string text) ∨
    ∃ parts texts, content = some (.array parts) ∧ List.Forall₂ TextPart parts texts ∧
      text = String.join texts

/-- The roles the Messages API has a place for. -/
def supportedRoles : List String := ["system", "user", "assistant"]

/-- A message of a role and a text, and nothing else: no tool call, and a content that is the text.
-/
structure TextMessage (m : Value) (role text : String) : Prop where
  object : IsObject m
  toolCalls : Unset (m.get "tool_calls")
  functionCall : Unset (m.get "function_call")
  hasRole : (Unset (m.get "role") ∧ role = "user") ∨ m.get "role" = some (.string role)
  supported : role ∈ supportedRoles
  content : TextContent (m.get "content") text

/-- A request of messages `conversation` (roles and texts), and no tool control.  It says nothing of
how the request is translated. -/
structure TextOnly (req : Value) (conversation : List (String × String)) : Prop where
  controls : ∀ field ∈ toolFields, Unset (req.get field)
  messages :
    (Unset (req.get "messages") ∧ conversation = []) ∨
      ∃ items, req.get "messages" = some (.array items) ∧
        List.Forall₂ (fun m c => TextMessage m c.1 c.2) items conversation

def messageValue (role text : String) : Value :=
  .object (Map.ofFields [("role", .string role), ("content", .string text)])

/-- The texts of the system messages. -/
def systemTexts (conversation : List (String × String)) : List String :=
  (conversation.filter fun c => c.1 = "system").map Prod.snd

def chatMessages (conversation : List (String × String)) : List Value :=
  (conversation.filter fun c => ¬ c.1 = "system").map fun c => messageValue c.1 c.2

/-- `out` holds the user and assistant messages in order, and the system texts joined by a blank
line when there are any.  Nothing is said of its other fields. -/
structure Carries (out : Value) (conversation : List (String × String)) : Prop where
  messages : out.get "messages" = some (.array (chatMessages conversation))
  system : out.get "system" =
    if systemTexts conversation = [] then none
    else some (.string ("\n\n".intercalate (systemTexts conversation)))

/-- The translation of a request drops nothing: it carries all of a text-only request over, or
refuses the request. -/
def Faithful (print : Value → String) (req : Value) (defaultMaxTokens : UInt32) : Prop :=
  match openaiToAnthropic print req defaultMaxTokens with
  | .ok out => ∃ conversation, TextOnly req conversation ∧ Carries out conversation
  | .error e => IsRejection e

/-! ## What the guards let through -/

/-- The role a message is read with. -/
def roleOf (m : Value) : String := ((m.get "role").bind Value.asStr).getD "user"

/-- The text a part is read with. -/
def partText (part : Value) : String := ((part.get "text").bind Value.asStr).getD ""

/-- The text a content is read with. -/
def contentText : Option Value → String
  | some (.string s) => s
  | some (.array parts) => String.join (parts.map partText)
  | _ => ""

/-- No part names another type than `text`. -/
def PartsPass (parts : List Value) : Prop :=
  ∀ part ∈ parts, ∀ ty, (part.get "type").bind Value.asStr = some ty → ty = "text"

/-- A content is absent, a string, or parts that pass. -/
def ContentPasses : Option Value → Prop
  | none | some .null | some (.string _) => True
  | some (.array parts) => PartsPass parts
  | _ => False

/-- The items of `messages`, if it is an array. -/
def messageItems (req : Value) : List Value := ((req.get "messages").bind Value.asArray).getD []

/-- No guard of the translation stops the request: the conjunction of what each of them checks. -/
structure Passes (req : Value) : Prop where
  model : ∃ model, (req.get "model").bind Value.asStr = some model
  controls : ∀ field ∈ toolFields, Unset (req.get field)
  roles : ∀ m ∈ messageItems req, roleOf m ∈ supportedRoles
  contents : ∀ m ∈ messageItems req, ContentPasses (m.get "content")

/-! ## What no guard looks at -/

/-- A field is unset or a string. -/
def StringOrUnset (field : Option Value) : Prop := Unset field ∨ ∃ s, field = some (.string s)

/-- A part whose type and text are not of another kind, and which has one of them. -/
structure PartWhole (part : Value) : Prop where
  object : IsObject part
  type : StringOrUnset (part.get "type")
  text : StringOrUnset (part.get "text")
  present : Unset (part.get "type") → ∃ s, part.get "text" = some (.string s)

/-- A message without tool calls whose role is not of another kind, and whose parts are whole. -/
structure MessageWhole (m : Value) : Prop where
  object : IsObject m
  toolCalls : Unset (m.get "tool_calls")
  functionCall : Unset (m.get "function_call")
  role : StringOrUnset (m.get "role")
  parts : ∀ parts, m.get "content" = some (.array parts) → ∀ part ∈ parts, PartWhole part

/-- The messages are an array of whole messages, or there are none. -/
structure Whole (req : Value) : Prop where
  messages : Unset (req.get "messages") ∨ ∃ items, req.get "messages" = some (.array items)
  items : ∀ m ∈ messageItems req, MessageWhole m

/-! ## The guards, one by one -/

lemma rejectTools_cons {req : Value} {field : String} {rest : List String} :
    rejectTools req (field :: rest) = .ok () ↔
      Unset (req.get field) ∧ rejectTools req rest = .ok () := by
  rw [rejectTools]
  cases req.get field with
  | none => simp [Unset]
  | some v => cases v <;> simp [Unset, Value.isNull]

lemma rejectTools_ok_iff {req : Value} {fields : List String} :
    rejectTools req fields = .ok () ↔ ∀ field ∈ fields, Unset (req.get field) := by
  induction fields with
  | nil => simp [rejectTools]
  | cons field rest ih => rw [rejectTools_cons, ih, List.forall_mem_cons]

lemma partsToText_ok_iff {unsupported : String → String} {parts : List Value} {text : String} :
    partsToText unsupported parts = .ok text ↔
      PartsPass parts ∧ text = String.join (parts.map partText) := by
  induction parts generalizing text with
  | nil => simp [partsToText, PartsPass, eq_comm]
  | cons part rest ih =>
      have hpass : PartsPass (part :: rest) ↔
          ((part.get "type").bind Value.asStr).getD "text" = "text" ∧ PartsPass rest := by
        unfold PartsPass
        rw [List.forall_mem_cons]
        cases (part.get "type").bind Value.asStr <;> simp
      rw [hpass]
      unfold partsToText
      dsimp only
      split
      · rename_i hty
        simp [hty]
      · rename_i hty
        rw [bind_eq_ok]
        constructor
        · rintro ⟨tail, htail, h⟩
          obtain ⟨hrest, rfl⟩ := ih.1 htail
          cases h
          exact ⟨⟨not_not.1 hty, hrest⟩, by simp [String.join_cons, partText]⟩
        · rintro ⟨⟨-, hrest⟩, rfl⟩
          exact ⟨_, ih.2 ⟨hrest, rfl⟩, by simp [String.join_cons, partText]⟩

lemma contentToText_ok_iff {print : Value → String} {content : Option Value} {text : String} :
    contentToText print content = .ok text ↔
      ContentPasses content ∧ text = contentText content := by
  rcases content with _ | _ | _ | _ | _ | parts | _
  · simp [contentToText, ContentPasses, contentText, eq_comm]
  · simp [contentToText, ContentPasses, contentText, eq_comm]
  · simp [contentToText, ContentPasses]
  · simp [contentToText, ContentPasses]
  · simp [contentToText, ContentPasses, contentText, eq_comm]
  · exact partsToText_ok_iff
  · simp [contentToText, ContentPasses]

/-- One more message of a conversation.  System messages are collected apart from the others. -/
def Conversation.add (acc : Conversation) (role text : String) : Conversation :=
  if role = "system" then { acc with systemParts := acc.systemParts ++ [text] }
  else { acc with messages := acc.messages ++ [messageValue role text] }

lemma addMessage_ok_iff {print : Value → String} {acc acc' : Conversation} {m : Value} :
    addMessage print acc m = .ok acc' ↔
      (roleOf m ∈ supportedRoles ∧ ContentPasses (m.get "content")) ∧
        acc' = acc.add (roleOf m) (contentText (m.get "content")) := by
  have hrole : ∀ role : String, role ∈ supportedRoles ↔
      role = "system" ∨ role = "user" ∨ role = "assistant" := by
    simp [supportedRoles]
  have hround : ∀ text, (if roleOf m = "system" then
        Except.ok { acc with systemParts := acc.systemParts ++ [text] }
      else if roleOf m = "user" ∨ roleOf m = "assistant" then
        .ok { acc with messages := acc.messages ++ [messageValue (roleOf m) text] }
      else .error (.unsupported s!"unsupported message role `{roleOf m}`") :
        Except Error Conversation) = .ok acc' ↔
      roleOf m ∈ supportedRoles ∧ acc' = acc.add (roleOf m) text := by
    intro text
    rw [hrole, Conversation.add]
    by_cases hsys : roleOf m = "system"
    · simp [hsys, eq_comm]
    · by_cases hchat : roleOf m = "user" ∨ roleOf m = "assistant"
      · rw [if_neg hsys, if_pos hchat, if_neg hsys, Except.ok.injEq, eq_comm,
          and_iff_right (Or.inr hchat)]
      · simp [hsys, hchat]
  show (contentToText print (m.get "content") >>= _) = .ok acc' ↔ _
  rw [bind_eq_ok]
  constructor
  · rintro ⟨text, htext, hend⟩
    obtain ⟨hpass, rfl⟩ := contentToText_ok_iff.1 htext
    obtain ⟨hmem, hacc⟩ := (hround _).1 hend
    exact ⟨⟨hmem, hpass⟩, hacc⟩
  · rintro ⟨⟨hmem, hpass⟩, hacc⟩
    exact ⟨_, contentToText_ok_iff.2 ⟨hpass, rfl⟩, (hround _).2 ⟨hmem, hacc⟩⟩

/-- The roles and texts the messages are read with. -/
def conversationOf (req : Value) : List (String × String) :=
  (messageItems req).map fun m => (roleOf m, contentText (m.get "content"))

/-- Adding messages one after the other sorts them, in order. -/
lemma foldl_add (conversation : List (String × String)) (acc : Conversation) :
    conversation.foldl (fun acc c => acc.add c.1 c.2) acc =
      { systemParts := acc.systemParts ++ systemTexts conversation,
        messages := acc.messages ++ chatMessages conversation } := by
  induction conversation generalizing acc with
  | nil => simp [systemTexts, chatMessages]
  | cons c rest ih =>
      rw [List.foldl_cons, ih, Conversation.add]
      by_cases hsys : c.1 = "system"
      · simp [systemTexts, chatMessages, hsys]
      · simp [systemTexts, chatMessages, hsys]

/-- The messages of a request are read exactly when each of them passes. -/
lemma foldlM_addMessage {print : Value → String} {req : Value} {conversation : Conversation} :
    (messageItems req).foldlM (addMessage print) { systemParts := [], messages := [] } =
        .ok conversation ↔
      (∀ m ∈ messageItems req, roleOf m ∈ supportedRoles ∧ ContentPasses (m.get "content")) ∧
        conversation =
          { systemParts := systemTexts (conversationOf req),
            messages := chatMessages (conversationOf req) } := by
  rw [foldlM_eq_ok (f := addMessage print) fun acc m acc' => addMessage_ok_iff]
  have hfold := foldl_add (conversationOf req) { systemParts := [], messages := [] }
  rw [conversationOf, List.foldl_map] at hfold
  rw [hfold]
  rfl

/-- A translated request passed, and carries its conversation. -/
lemma openaiToAnthropic_ok {print : Value → String} {req out : Value} {n : UInt32}
    (h : openaiToAnthropic print req n = .ok out) :
    Passes req ∧ Carries out (conversationOf req) := by
  unfold openaiToAnthropic at h
  split at h
  · rename_i model hmodel
    obtain ⟨⟨⟩, htools, h⟩ := bind_eq_ok.1 h
    obtain ⟨conversation, hloop, h⟩ := bind_eq_ok.1 h
    obtain ⟨hitems, rfl⟩ := foldlM_addMessage.1 hloop
    obtain rfl := Except.ok.inj h
    refine ⟨⟨⟨model, hmodel⟩, rejectTools_ok_iff.1 htools, fun m hm => (hitems m hm).1,
      fun m hm => (hitems m hm).2⟩, ?_, ?_⟩
    · show Map.get _ "messages" = _
      rw [Map.get_insertSome_ne _ _ (by decide), Map.get_insertSome_ne _ _ (by decide),
        Map.get_insertSome_ne _ _ (by decide), Map.get_insertSome_ne _ _ (by decide),
        Map.get_ofFields]
      rfl
    · show Map.get _ "system" = _
      rw [Map.get_insertSome_ne _ _ (by decide), Map.get_insertSome_ne _ _ (by decide),
        Map.get_insertSome_ne _ _ (by decide),
        Map.get_insertSome_same _ _ _ (by rw [Map.get_ofFields]; rfl)]
      simp [List.isEmpty_iff]
  · cases h

/-- A request that passes is translated. -/
lemma openaiToAnthropic_of_passes (print : Value → String) {req : Value} (n : UInt32)
    (h : Passes req) : ∃ out, openaiToAnthropic print req n = .ok out := by
  obtain ⟨model, hmodel⟩ := h.model
  have htools : rejectTools req toolFields = .ok () := rejectTools_ok_iff.2 h.controls
  have hloop : (messageItems req).foldlM (addMessage print) { systemParts := [], messages := [] } =
      .ok { systemParts := systemTexts (conversationOf req),
            messages := chatMessages (conversationOf req) } :=
    foldlM_addMessage.2 ⟨fun m hm => ⟨h.roles m hm, h.contents m hm⟩, rfl⟩
  unfold openaiToAnthropic
  rw [hmodel]
  refine ⟨_, bind_eq_ok.2 ⟨(), htools, bind_eq_ok.2 ⟨_, hloop, rfl⟩⟩⟩

/-! ## What is text and nothing else -/

/-- Two lists related by a function on the items that satisfy `good`. -/
lemma forall₂_graph {α β : Type} {good : α → Prop} {f : α → β} {R : α → β → Prop}
    (h : ∀ a b, R a b ↔ good a ∧ b = f a) {as : List α} {bs : List β} :
    List.Forall₂ R as bs ↔ (∀ a ∈ as, good a) ∧ bs = as.map f := by
  induction as generalizing bs with
  | nil => simp
  | cons a as ih =>
      rw [List.forall₂_cons_left_iff, List.forall_mem_cons]
      constructor
      · rintro ⟨b, bs', hb, hbs', rfl⟩
        obtain ⟨ha, rfl⟩ := (h a b).1 hb
        obtain ⟨has, rfl⟩ := ih.1 hbs'
        exact ⟨⟨ha, has⟩, rfl⟩
      · rintro ⟨⟨ha, has⟩, rfl⟩
        exact ⟨f a, as.map f, (h a _).2 ⟨ha, rfl⟩, ih.2 ⟨has, rfl⟩, rfl⟩

/-- A field that is unset or a string is read with its default. -/
lemma stringOrUnset_iff {field : Option Value} {default s : String} :
    ((Unset field ∧ s = default) ∨ field = some (.string s)) ↔
      StringOrUnset field ∧ s = (field.bind Value.asStr).getD default := by
  rcases field with _ | _ | _ | _ | _ | _ | _ <;>
    simp [Unset, StringOrUnset, Value.asStr, eq_comm]

lemma unset_iff {field : Option Value} : Unset field ↔ field = none ∨ field = some .null := by
  rcases field with _ | _ | _ | _ | _ | _ | _ <;> simp [Unset]

lemma Unset.bind_eq_none {α : Type} {field : Option Value} {read : Value → Option α}
    (h : Unset field) (hread : read .null = none) : field.bind read = none := by
  obtain rfl | rfl := unset_iff.1 h
  · rfl
  · exact hread

/-- A text part is a whole one whose type, if any, is `text`. -/
lemma textPart_iff (part : Value) (text : String) :
    TextPart part text ↔
      ((∀ ty, (part.get "type").bind Value.asStr = some ty → ty = "text") ∧ PartWhole part) ∧
        text = partText part := by
  constructor
  · rintro ⟨hobject, ⟨htype, htext⟩ | ⟨htype, htext⟩⟩
    · obtain ⟨hwhole, rfl⟩ := stringOrUnset_iff.1 htext
      have hnot : ¬ Unset (part.get "type") := by
        rw [htype]
        exact id
      refine ⟨⟨fun ty hty => ?_, hobject, .inr ⟨_, htype⟩, hwhole, fun h => (hnot h).elim⟩, rfl⟩
      rw [htype] at hty
      exact (Option.some.inj hty).symm
    · have heq : text = partText part := by
        rw [partText, htext]
        rfl
      refine ⟨⟨fun ty hty => ?_, hobject, .inl htype, .inr ⟨_, htext⟩, fun _ => ⟨_, htext⟩⟩, heq⟩
      rw [htype.bind_eq_none rfl] at hty
      cases hty
  · rintro ⟨⟨hpass, hobject, htype, htext, hpresent⟩, rfl⟩
    refine ⟨hobject, ?_⟩
    rcases htype with hunset | ⟨ty, hty⟩
    · obtain ⟨s, hs⟩ := hpresent hunset
      refine .inr ⟨hunset, ?_⟩
      rw [partText, hs]
      rfl
    · obtain rfl : ty = "text" := hpass ty (by rw [hty]; rfl)
      exact .inl ⟨hty, stringOrUnset_iff.2 ⟨htext, rfl⟩⟩

lemma forall₂_textPart {parts : List Value} {texts : List String} :
    List.Forall₂ TextPart parts texts ↔
      (PartsPass parts ∧ ∀ part ∈ parts, PartWhole part) ∧ texts = parts.map partText := by
  rw [forall₂_graph textPart_iff, and_congr_left_iff]
  intro _
  exact ⟨fun h => ⟨fun part hp => (h part hp).1, fun part hp => (h part hp).2⟩,
    fun h part hp => ⟨h.1 part hp, h.2 part hp⟩⟩

/-- A text content is one that passes and has whole parts only. -/
lemma textContent_iff {content : Option Value} {text : String} :
    TextContent content text ↔
      (ContentPasses content ∧
          ∀ parts, content = some (.array parts) → ∀ part ∈ parts, PartWhole part) ∧
        text = contentText content := by
  rcases content with _ | _ | _ | _ | s | parts | _
  · simp [TextContent, ContentPasses, contentText, Unset]
  · simp [TextContent, ContentPasses, contentText, Unset]
  · simp [TextContent, ContentPasses, Unset]
  · simp [TextContent, ContentPasses, Unset]
  · simp [TextContent, ContentPasses, contentText, Unset, eq_comm]
  · simp [TextContent, ContentPasses, contentText, Unset, forall₂_textPart]
  · simp [TextContent, ContentPasses, Unset]

/-- A text message is a whole one that passes. -/
lemma textMessage_iff (m : Value) (role text : String) :
    TextMessage m role text ↔
      ((roleOf m ∈ supportedRoles ∧ ContentPasses (m.get "content")) ∧ MessageWhole m) ∧
        (role, text) = (roleOf m, contentText (m.get "content")) := by
  rw [Prod.mk.injEq]
  constructor
  · rintro ⟨hobject, hcalls, hcall, hrole, hsupported, hcontent⟩
    obtain ⟨hkind, rfl⟩ := stringOrUnset_iff.1 hrole
    obtain ⟨⟨hpass, hparts⟩, rfl⟩ := textContent_iff.1 hcontent
    exact ⟨⟨⟨hsupported, hpass⟩, hobject, hcalls, hcall, hkind, hparts⟩, rfl, rfl⟩
  · rintro ⟨⟨⟨hsupported, hpass⟩, hobject, hcalls, hcall, hrole, hparts⟩, rfl, rfl⟩
    exact ⟨hobject, hcalls, hcall, stringOrUnset_iff.2 ⟨hrole, rfl⟩, hsupported,
      textContent_iff.2 ⟨⟨hpass, hparts⟩, rfl⟩⟩

/-- A request that passes is text and nothing else exactly when it is whole, and then holds the
conversation it is read with. -/
lemma textOnly_iff {req : Value} {conversation : List (String × String)} (hpass : Passes req) :
    TextOnly req conversation ↔ Whole req ∧ conversation = conversationOf req := by
  have hgraph : ∀ items : List Value,
      List.Forall₂ (fun m c => TextMessage m c.1 c.2) items conversation ↔
        (∀ m ∈ items, (roleOf m ∈ supportedRoles ∧ ContentPasses (m.get "content")) ∧
            MessageWhole m) ∧
          conversation = items.map fun m => (roleOf m, contentText (m.get "content")) :=
    fun items => forall₂_graph fun m c => textMessage_iff m c.1 c.2
  have hnone : Unset (req.get "messages") → messageItems req = [] := by
    intro h
    rw [messageItems, h.bind_eq_none rfl]
    rfl
  have hsome : ∀ {items}, req.get "messages" = some (.array items) →
      messageItems req = items := by
    intro items h
    rw [messageItems, h]
    rfl
  constructor
  · rintro ⟨-, ⟨hunset, rfl⟩ | ⟨items, harray, hall⟩⟩
    · refine ⟨⟨.inl hunset, fun m hm => ?_⟩, ?_⟩
      · rw [hnone hunset] at hm
        cases hm
      · rw [conversationOf, hnone hunset]
        rfl
    · obtain ⟨hgood, rfl⟩ := (hgraph items).1 hall
      refine ⟨⟨.inr ⟨items, harray⟩, fun m hm => ?_⟩, ?_⟩
      · rw [hsome harray] at hm
        exact (hgood m hm).2
      · rw [conversationOf, hsome harray]
  · rintro ⟨⟨hunset | ⟨items, harray⟩, hwhole⟩, rfl⟩
    · refine ⟨hpass.controls, .inl ⟨hunset, ?_⟩⟩
      rw [conversationOf, hnone hunset]
      rfl
    · refine ⟨hpass.controls, .inr ⟨items, harray, (hgraph items).2 ⟨fun m hm => ?_, ?_⟩⟩⟩
      · rw [← hsome harray] at hm
        exact ⟨⟨hpass.roles m hm, hpass.contents m hm⟩, hwhole m hm⟩
      · rw [conversationOf, hsome harray]

/-- A faithfully translated request that no guard stops is whole. -/
lemma Faithful.whole {print : Value → String} {req : Value} {n : UInt32}
    (h : Faithful print req n) (hpass : Passes req) : Whole req := by
  obtain ⟨out, hout⟩ := openaiToAnthropic_of_passes print n hpass
  unfold Faithful at h
  rw [hout] at h
  obtain ⟨conversation, htext, -⟩ := h
  exact ((textOnly_iff hpass).1 htext).1

/-- The translation is faithful exactly on the requests a guard stops and on the whole ones. -/
theorem faithful_iff {print : Value → String} {req : Value} {defaultMaxTokens : UInt32} :
    Faithful print req defaultMaxTokens ↔ ¬ Passes req ∨ Whole req := by
  constructor
  · intro h
    by_cases hpass : Passes req
    · exact .inr (h.whole hpass)
    · exact .inl hpass
  · intro h
    unfold Faithful
    cases hout : openaiToAnthropic print req defaultMaxTokens with
    | error e => exact openaiToAnthropic_error hout
    | ok out =>
        obtain ⟨hpass, hcarries⟩ := openaiToAnthropic_ok hout
        have hwhole : Whole req := h.resolve_left fun hstop => hstop hpass
        exact ⟨conversationOf req, (textOnly_iff hpass).2 ⟨hwhole, rfl⟩, hcarries⟩

/-- An assistant message with tool calls. -/
def toolCallRequest : Value :=
  .object [("messages", .array [.object [("content", .null), ("role", .string "assistant"),
      ("tool_calls", .array [.object [("id", .string "1")]])]]), ("model", .string "c")]

/-- No guard looks at the tool calls of a message: the request is translated without them. -/
theorem tool_calls_dropped : ¬ Faithful (fun _ => "") toolCallRequest 4096 := by
  have hpass : Passes toolCallRequest := by
    refine ⟨⟨"c", rfl⟩, ?_, ?_, ?_⟩
    · exact rejectTools_ok_iff.1 rfl
    · decide
    · simp [messageItems, toolCallRequest, Value.get, Map.get, Value.asArray, ContentPasses]
  intro h
  have hcalls := ((h.whole hpass).items _ (List.mem_singleton_self _)).toolCalls
  exact hcalls

end AnthropicMap

end Moaray
