import Logit.Chats.Charging
import Logit.Chats.Events
import Logit.Concurrency.Ensures

/-!
# Answers that are shown and saved

The pipeline hands an answer on in parts: what the model streams, or a draft cut into pieces of
five characters. The stream sends each part to the client and adds it up, and saves the sum
when the pipeline says that it is done. So the saved answer is the one the client has been
shown, and the whole answer of the model, wherever a request is interrupted.

## Main definitions

* `ModelRun` — what the model does for a request, with the pipeline and the answer it makes
* `generatedTexts` — the JSON texts the stream is given
* `SavesShown` — what is expected of saved answers

## Main results

* `flatten_draftChunks` — the pieces of a draft make the draft
* `answersShown_run` — saved answers are the ones shown, and whole
-/

namespace Logit.Chats

open Calendar Concurrency Concurrency.Action Python Tokens

/-! ## The pipeline -/

/-- What is read in the classification of a request. -/
structure RequestClassification where
  isCoverLetterRequest : Bool
  isNewDraft : Bool
  deriving DecidableEq, Repr

/-- What the model does for a request. -/
structure ModelRun where
  /-- The classification, made while the experiences are loaded, or an exception of either. -/
  gathered : Except String RequestClassification
  /-- The parts of a conversation's answer, and the exception they may end with. -/
  streamed : List String
  streamFails : Option String
  /-- The text of a new draft. -/
  draft : Except String String

/-- `draft[i:i + size]` for each `i` of `range(0, len(draft), size)`. -/
def draftChunks (size : ℕ) (draft : List Char) : List (List Char) :=
  (List.range ((draft.length + size - 1) / size)).map fun k => (draft.drop (size * k)).take size

/-- `_run`: what it puts in the queue. -/
def ModelRun.pipeline (run : ModelRun) : Pipeline :=
  match run.gathered with
  | .error e => ⟨[], .error e⟩
  | .ok classification =>
    if !classification.isNewDraft then
      let contents := run.streamed.filter (· ≠ "")
      match run.streamFails with
      | none => ⟨contents, .done (String.join contents) classification.isCoverLetterRequest⟩
      | some e => ⟨contents, .error e⟩
    else
      match run.draft with
      | .error e => ⟨[], .error e⟩
      | .ok draft => ⟨(draftChunks 5 draft.toList).map String.ofList, .done draft true⟩

/-- The whole answer of the model and whether it is a draft, if it has not failed. -/
def ModelRun.answer (run : ModelRun) : Option (String × Bool) :=
  match run.gathered with
  | .error _ => none
  | .ok classification =>
    if classification.isNewDraft then run.draft.toOption.map fun draft => (draft, true)
    else match run.streamFails with
      | none => some (String.join run.streamed, classification.isCoverLetterRequest)
      | some _ => none

/-- The texts `generate_ai_response_stream` yields, with pings in between. -/
def generatedTexts (run : ModelRun) (pings : ℕ → ℕ) : List String :=
  (generateAiResponseStream run.pipeline pings).map Chunk.json

/-! ## The parts of an answer -/

theorem flatten_pieces (size : ℕ) (cs : List Char) (n : ℕ) :
    ((List.range n).map fun k => (cs.drop (size * k)).take size).flatten = cs.take (size * n) := by
  induction n with
  | zero => simp
  | succ n ih =>
    rw [List.range_succ, List.map_append, List.flatten_append, ih, List.map_singleton,
      List.flatten_singleton, Nat.mul_succ, List.take_add]

/-- The pieces of a draft make the draft. -/
theorem flatten_draftChunks {size : ℕ} (hsize : 0 < size) (draft : List Char) :
    (draftChunks size draft).flatten = draft := by
  rw [draftChunks, flatten_pieces, List.take_of_length_le]
  have hdiv := Nat.div_add_mod (draft.length + size - 1) size
  have hmod := Nat.mod_lt (draft.length + size - 1) hsize
  omega

theorem join_map_ofList (pieces : List (List Char)) :
    String.join (pieces.map String.ofList) = String.ofList pieces.flatten := by
  induction pieces with
  | nil => rfl
  | cons piece pieces ih =>
    rw [List.map_cons, String.join_cons, ih, List.flatten_cons, String.ofList_append]

theorem join_filter_ne_empty (parts : List String) :
    String.join (parts.filter (· ≠ "")) = String.join parts := by
  induction parts with
  | nil => rfl
  | cons part parts ih =>
    by_cases hpart : part = ""
    · subst hpart
      rw [List.filter_cons_of_neg (by simp), ih, String.join_cons, String.empty_append]
    · rw [List.filter_cons_of_pos (by simpa using hpart), String.join_cons, String.join_cons, ih]

/-- The answer that chunks make of a text before them: what is added up until they say that they
are done. -/
def answerOf : String → List Chunk → Option (String × Bool)
  | _, [] => none
  | text, .ping :: chunks => answerOf text chunks
  | text, .content content :: chunks => answerOf (text ++ content) chunks
  | text, .done _ isDraft :: _ => some (text, isDraft)
  | _, .error _ :: _ => none

theorem answerOf_pings (text : String) (n : ℕ) (chunks : List Chunk) :
    answerOf text (List.replicate n .ping ++ chunks) = answerOf text chunks := by
  induction n with
  | zero => rfl
  | succ n ih => exact ih

/-- The answer of an ending. -/
def Ending.answer (text : String) : Ending → Option (String × Bool)
  | .done _ isDraft => some (text, isDraft)
  | _ => none

theorem answerOf_withPings (pings : ℕ → ℕ) (contents : List String) (ending : Ending)
    (text : String) (n : ℕ) :
    answerOf text (withPings pings n (contents.map .content ++ ending.chunks)) =
      ending.answer (text ++ String.join contents) := by
  induction contents generalizing text n with
  | nil =>
    have hjoin : text ++ String.join [] = text := by simp
    rw [hjoin, List.map_nil, List.nil_append]
    cases ending with
    | done content isDraft => exact answerOf_pings text _ _
    | error message => exact answerOf_pings text _ _
    | cancelled =>
      have hpings := answerOf_pings text (pings n) []
      rwa [List.append_nil] at hpings
  | cons content contents ih =>
    rw [List.map_cons, List.cons_append, withPings, answerOf_pings, answerOf, ih, String.join_cons,
      String.append_assoc]

/-- The chunks of a run make the model's answer, and no other. -/
theorem answerOf_pipeline (run : ModelRun) (pings : ℕ → ℕ) :
    answerOf "" (generateAiResponseStream run.pipeline pings) = run.answer := by
  rw [generateAiResponseStream, Pipeline.queue, answerOf_withPings, String.empty_append]
  unfold ModelRun.pipeline ModelRun.answer
  cases run.gathered with
  | error e => rfl
  | ok classification =>
    cases hnew : classification.isNewDraft with
    | false =>
      cases run.streamFails with
      | none => simpa [hnew, Ending.answer] using join_filter_ne_empty run.streamed
      | some e => simp [hnew, Ending.answer]
    | true =>
      cases run.draft with
      | error e => simp [hnew, Ending.answer, Except.toOption]
      | ok draft =>
        simp [hnew, Ending.answer, Except.toOption, join_map_ofList, flatten_draftChunks]

/-! ## What a request saves -/

/-- Every answer that has been added or saved is the one the events show, and whole. -/
def SavesShown (answer : Option (String × Bool)) (w : World) : Prop :=
  ∀ chat ∈ w.chats ++ w.added, chat.role = .assistant →
    chat.content = shown w.events ∧ answer = some (chat.content, chat.isDraft)

/-- The events show a text, and no answer has been added yet. -/
def Telling (text : String) (w : World) : Prop :=
  shown w.events = text ∧ ∀ chat ∈ w.chats ++ w.added, chat.role ≠ .assistant

theorem Telling.savesShown {text : String} {w : World} (h : Telling text w)
    (answer : Option (String × Bool)) : SavesShown answer w :=
  fun chat hchat hrole => absurd hrole (h.2 chat hchat)

/-- Each answer the client has been told of has been saved. -/
def SavesTold (w : World) : Prop :=
  ∀ chatId isDraft draftLimitExceeded tokenBalance tokensUsed,
    .done (some chatId) isDraft draftLimitExceeded tokenBalance tokensUsed ∈ w.events →
      ∃ chat ∈ w.chats, chat.id = chatId ∧ chat.role = .assistant

/-- No event is shown, no message added, and no saved one lost. -/
structure Silent (w w' : World) : Prop where
  events : w'.events = w.events
  saved : ∀ chat ∈ w.chats, chat ∈ w'.chats
  added : ∀ chat ∈ w'.chats ++ w'.added, chat ∈ w.chats ++ w.added

/-- A property that is about events and messages. -/
def OfMessages (P : World → Prop) : Prop := ∀ w w', Silent w w' → P w → P w'

theorem ofMessages_savesShown (answer : Option (String × Bool)) :
    OfMessages (SavesShown answer) := by
  intro w w' hsilent h chat hchat hrole
  rw [hsilent.events]
  exact h chat (hsilent.added chat hchat) hrole

theorem ofMessages_telling (text : String) : OfMessages (Telling text) := by
  intro w w' hsilent h
  rw [Telling, hsilent.events]
  exact ⟨h.1, fun chat hchat => h.2 chat (hsilent.added chat hchat)⟩

theorem ofMessages_savesTold : OfMessages SavesTold := by
  intro w w' hsilent h chatId isDraft exceeded balance used hevent
  rw [hsilent.events] at hevent
  obtain ⟨chat, hchat, hsaved⟩ := h chatId isDraft exceeded balance used hevent
  exact ⟨chat, hsilent.saved chat hchat, hsaved⟩

/-- A statement that has failed takes the messages that are not saved. -/
theorem silent_broken (w : World) :
    Silent w { w with broken := true, recorded := [], added := [] } where
  events := rfl
  saved _ hchat := hchat
  added _ hchat := List.mem_append_left _ (by simpa using hchat)

theorem silent_commit (w : World) :
    Silent w { w with
      transactions := w.transactions ++ w.recorded, recorded := []
      chats := w.chats ++ w.added, added := [] } where
  events := rfl
  saved _ hchat := List.mem_append_left _ hchat
  added _ hchat := by simpa using hchat

namespace OfMessages

variable {request : Request} {P : World → Prop}

theorem statement (h : OfMessages P) {effect : World → World} (heffect : ∀ w, Silent w (effect w)) :
    Keeps P (statement request effect) := by
  refine Keeps.get.bind fun w => ?_
  split_ifs
  · exact Keeps.raise
  · exact Keeps.suspend (fun w hw => h w _ (silent_broken w) hw) fun w hw => h w _ (heffect w) hw

theorem commit (h : OfMessages P) : Keeps P (commit request) := h.statement silent_commit

theorem wait (h : OfMessages P) : Keeps P (Chats.statement request id) :=
  h.statement fun _ => ⟨rfl, fun _ hchat => hchat, fun _ hchat => hchat⟩

theorem recorded (h : OfMessages P) {α : Type} (outcome : Outcome α) :
    Keeps P (do
      modify fun w => { w with recorded := w.recorded ++ outcome.recorded }
      return outcome.result : Action World (Except TokenError α)) :=
  Keeps.bind (Keeps.modify fun w hw => h w _ ⟨rfl, fun _ hchat => hchat, fun _ hchat => hchat⟩ hw)
    fun _ => Keeps.pure _

theorem tokenCall (h : OfMessages P) {α : Type}
    (function : Clock → Option UserToken → Outcome α) : Keeps P (tokenCall request function) := by
  refine Keeps.get.bind fun w => ?_
  refine (@statement request P h (fun w => { w with reads := w.reads + 1 }) fun _ =>
    ⟨rfl, fun _ hchat => hchat, fun _ hchat => hchat⟩).bind fun _ => ?_
  dsimp only
  split_ifs
  · exact h.wait.bind fun _ => h.recorded _
  · exact h.recorded _

theorem tokenValue (h : OfMessages P) {α : Type}
    (function : Clock → Option UserToken → Outcome α) : Keeps P (tokenValue request function) := by
  refine (h.tokenCall function).bind fun result => ?_
  cases result
  · exact Keeps.raise
  · exact Keeps.pure _

theorem refundPrededuction (h : OfMessages P) : Keeps P (refundPrededuction request) := by
  unfold Chats.refundPrededuction
  split_ifs
  · exact Keeps.pure _
  · exact ((h.tokenValue _).bind fun _ => h.commit).swallow

theorem refundDifference (h : OfMessages P) (balance : Option ℤ) (isDraft : Bool) :
    Keeps P (refundDifference request balance isDraft) := by
  unfold Chats.refundDifference
  split_ifs
  · exact Keeps.pure _
  · exact (h.tokenValue _).bind fun _ => Keeps.pure _
  · exact Keeps.pure _

theorem prededuct (h : OfMessages P) : Keeps P (prededuct request) := by
  refine (h.tokenCall _).bind fun result => ?_
  cases result
  · exact Keeps.pure _
  · exact h.commit.bind fun _ => Keeps.pure _

end OfMessages

/-! ## Chunk by chunk -/

section Consume

variable {request : Request} {answer : Option (String × Bool)} {text : String}

theorem shown_append (events : List SseEvent) (event : SseEvent) :
    shown (events ++ [event]) = shown events ++ event.content := by
  simp [shown, String.join_append]

/-- What a request keeps while it tells an answer is kept where it is interrupted. -/
theorem ensures_telling {α : Type} {m : Action World α} (h : Keeps (Telling text) m) :
    Ensures (Telling text) m (fun _ => Telling text) (SavesShown answer) :=
  (Ensures.of_keeps h).mono (fun _ _ hw => hw) fun _ hw => hw.savesShown answer

/-- An event without a part of the answer. -/
theorem keeps_savesShown_emit {event : SseEvent} (hevent : event.content = "") :
    Keeps (SavesShown answer) (emit request event) := by
  refine Keeps.bind (Keeps.modify fun w hw chat hchat hrole => ?_) fun _ =>
    Keeps.suspend (fun _ hw => hw) fun _ hw => hw
  rw [shown_append, hevent, String.append_empty]
  exact hw chat hchat hrole

/-- An event with the next part of the answer, which may be empty. -/
theorem ensures_telling_emit (event : SseEvent) :
    Ensures (Telling text) (emit request event) (fun _ => Telling (text ++ event.content))
      (SavesShown answer) := by
  have hmodify : Ensures (Telling text)
      (modify fun w : World => { w with events := w.events ++ [event] })
      (fun _ => Telling (text ++ event.content)) (SavesShown answer) := by
    refine Ensures.modify fun w hw => ⟨?_, hw.2⟩
    rw [shown_append, hw.1]
  exact hmodify.bind fun _ => ensures_telling (Keeps.suspend (fun _ hw => hw) fun _ hw => hw)

/-- The answer that is saved is the one that has been told. -/
theorem ensures_createAssistantChat (question : Question) (isDraft : Bool) :
    Ensures (Telling text) (createAssistantChat request question text isDraft)
      (fun _ => SavesShown (some (text, isDraft))) (SavesShown (some (text, isDraft))) := by
  have hmessages := ofMessages_savesShown (some (text, isDraft))
  refine Ensures.bind (Q := fun _ => SavesShown (some (text, isDraft))) ?_ fun _ =>
    Ensures.of_keeps (hmessages.commit.bind fun _ => hmessages.wait)
  refine Ensures.modify fun w hw chat hchat hrole => ?_
  rw [← List.append_assoc] at hchat
  rcases List.mem_append.mp hchat with hold | hnew
  · exact absurd hrole (hw.2 chat hold)
  · rw [List.mem_singleton] at hnew
    subst hnew
    exact ⟨hw.1.symm, rfl⟩

theorem ensures_done (question : Question) (balance : Option ℤ) (content : String)
    (isDraft : Bool) :
    Ensures (Telling text) (handleChunk request question balance text (.done content isDraft))
      (fun _ => SavesShown (some (text, isDraft))) (SavesShown (some (text, isDraft))) := by
  have hrefund : Keeps (Telling text) (refundDifference request balance isDraft) :=
    (ofMessages_telling text).refundDifference balance isDraft
  refine (ensures_telling hrefund).bind fun _ => ?_
  exact (ensures_createAssistantChat question isDraft).bind fun _ =>
    Ensures.of_keeps ((keeps_savesShown_emit rfl).bind fun _ => Keeps.pure _)

/-- Once an answer is over, pings change nothing. -/
theorem keeps_savesShown_pings (question : Question) (balance : Option ℤ) {chunks : List Chunk}
    (h : ∀ chunk ∈ chunks, chunk = .ping) :
    Keeps (SavesShown answer) (consume request question balance chunks text) := by
  induction chunks generalizing text with
  | nil => exact Keeps.suspend (fun _ hw => hw) fun _ hw => hw
  | cons chunk chunks ih =>
    obtain ⟨rfl, hchunks⟩ := List.forall_mem_cons.mp h
    refine (Keeps.suspend (fun _ hw => hw) fun _ hw => hw).bind fun _ => ?_
    exact ((keeps_savesShown_emit rfl).bind fun _ => Keeps.pure _).bind fun _ => ih hchunks

/-- A part of the answer, or a ping, and the chunks after it. -/
theorem ensures_part {question : Question} {balance : Option ℤ} {chunk : Chunk}
    {chunks : List Chunk} (event : SseEvent)
    (hhandle : handleChunk request question balance text chunk =
      do emit request event; return text ++ event.content)
    (hrest : Ensures (Telling (text ++ event.content))
      (consume request question balance chunks (text ++ event.content))
      (fun _ => SavesShown answer) (SavesShown answer)) :
    Ensures (Telling text) (consume request question balance (chunk :: chunks) text)
      (fun _ => SavesShown answer) (SavesShown answer) := by
  refine (ensures_telling (Keeps.suspend (fun _ hw => hw) fun _ hw => hw)).bind fun _ => ?_
  rw [hhandle]
  have hpart : Ensures (Telling text) (do emit request event; return text ++ event.content)
      (fun told w => told = text ++ event.content ∧ Telling (text ++ event.content) w)
      (SavesShown answer) :=
    (ensures_telling_emit event).bind fun _ => Ensures.pure fun w hw => ⟨rfl, hw⟩
  refine hpart.bind fun told => ?_
  intro f hf
  obtain ⟨rfl, htelling⟩ := hf
  exact hrest f htelling

/-- From a text that has been told, whatever chunks the stream is given next. -/
theorem ensures_consume (question : Question) (balance : Option ℤ) {chunks : List Chunk}
    (h : WellEnded chunks) :
    Ensures (Telling text) (consume request question balance chunks text)
      (fun _ => SavesShown (answerOf text chunks)) (SavesShown (answerOf text chunks)) := by
  induction chunks generalizing text with
  | nil =>
    exact (ensures_telling (Keeps.suspend (fun _ hw => hw) fun _ hw => hw)).mono
      (fun _ _ hw => hw.savesShown _) fun _ hw => hw
  | cons chunk chunks ih =>
    cases chunk with
    | ping =>
      have hrest := @ih (text ++ "") h
      refine ensures_part (.chunk .ping) ?_ ?_
      · simp [handleChunk, SseEvent.content]
      · simpa [SseEvent.content, answerOf] using hrest
    | content part => exact ensures_part (.chunk (.content part)) rfl (ih h)
    | done content isDraft =>
      refine (ensures_telling (Keeps.suspend (fun _ hw => hw) fun _ hw => hw)).bind fun _ => ?_
      exact (ensures_done question balance content isDraft).bind fun _ =>
        Ensures.of_keeps (keeps_savesShown_pings question balance h)
    | error message =>
      have hmessages := ofMessages_savesShown (answerOf text (.error message :: chunks))
      refine (ensures_telling (Keeps.suspend (fun _ hw => hw) fun _ hw => hw)).bind fun _ => ?_
      have hkeeps : Keeps (SavesShown (answerOf text (.error message :: chunks)))
          (do let told ← handleChunk request question balance text (.error message)
              consume request question balance chunks told) := by
        refine Keeps.bind ?_ fun _ => keeps_savesShown_pings question balance h
        exact hmessages.refundPrededuction.bind fun _ =>
          (keeps_savesShown_emit rfl).bind fun _ => Keeps.pure _
      exact fun f hf => Ensures.of_keeps hkeeps f (hf.savesShown _)

theorem ensures_answer (hended : WellEnded request.chunks) (question : Question)
    (balance : Option ℤ) :
    Ensures (Telling "") (Chats.answer request question balance)
      (fun _ => SavesShown (answerOf "" request.chunks))
      (SavesShown (answerOf "" request.chunks)) := by
  have hmessages := ofMessages_telling ""
  have huser : Keeps (Telling "") (createUserChat request question) := by
    refine Keeps.bind (Keeps.modify fun w hw => ⟨hw.1, fun chat hchat => ?_⟩) fun _ =>
      hmessages.commit.bind fun _ => hmessages.wait
    rw [← List.append_assoc] at hchat
    rcases List.mem_append.mp hchat with hold | hnew
    · exact hw.2 chat hold
    · rw [List.mem_singleton] at hnew
      subst hnew
      exact fun hrole => by cases hrole
  refine (ensures_telling huser).bind fun _ => ?_
  exact (ensures_consume question balance hended).attempt
    (ofMessages_savesShown _).refundPrededuction

/-- The one event of a request that is refused. -/
theorem ensures_refusal (event : SseEvent) :
    Ensures (Telling "") (emit request event) (fun _ => SavesShown answer) (SavesShown answer) :=
  (ensures_telling_emit event).mono (fun _ _ hw => hw.savesShown answer) fun _ hw => hw

theorem ensures_sendChatStream (hended : WellEnded request.chunks) :
    Ensures (Telling "") (sendChatStream request)
      (fun _ => SavesShown (answerOf "" request.chunks))
      (SavesShown (answerOf "" request.chunks)) := by
  have hmessages := ofMessages_telling ""
  unfold sendChatStream
  refine (ensures_telling hmessages.wait).bind fun _ => ?_
  cases request.question with
  | none => exact ensures_refusal _
  | some question =>
    dsimp only
    split_ifs
    · exact ensures_refusal _
    · exact (ensures_telling hmessages.wait).bind fun _ => ensures_refusal _
    · exact (ensures_telling hmessages.wait).bind fun _ => ensures_answer hended question none
    · refine (ensures_telling hmessages.wait).bind fun _ => ?_
      refine (ensures_telling hmessages.prededuct).bind fun result => ?_
      rcases result with (_ | _) | balance
      · exact ensures_refusal _
      · exact Ensures.raise fun _ hw => hw.savesShown _
      · exact ensures_answer hended question _

/-! ## What the client is told -/

/-- An event that tells of no answer. -/
theorem keeps_savesTold_emit {event : SseEvent}
    (hevent : ∀ chatId isDraft exceeded balance used,
      event ≠ .done (some chatId) isDraft exceeded balance used) :
    Keeps SavesTold (emit request event) := by
  refine Keeps.bind (Keeps.modify fun w hw chatId isDraft exceeded balance used hmem => ?_) fun _ =>
    Keeps.suspend (fun _ hw => hw) fun _ hw => hw
  rcases List.mem_append.mp hmem with hold | hnew
  · exact hw chatId isDraft exceeded balance used hold
  · exact absurd (List.mem_singleton.mp hnew).symm (hevent chatId isDraft exceeded balance used)

/-- The answer of a request has been saved. -/
def Request.Saved (request : Request) (w : World) : Prop :=
  ∃ chat ∈ w.chats, chat.id = request.assistantChatId ∧ chat.role = .assistant

/-- A statement goes through, fails, or is cut before or after its effect. -/
theorem ensures_statement {P E : World → Prop} {Q : Unit → World → Prop} {effect : World → World}
    (heffect : ∀ w, P w → Q () (effect w))
    (hstop : ∀ w, P w → E { w with broken := true, recorded := [], added := [] } ∧
      E (effect w) ∧ E w) : Ensures P (statement request effect) Q E := by
  refine Ensures.get_bind fun w₀ hw₀ => ?_
  split_ifs
  · exact Ensures.raise fun w hw => hw ▸ (hstop w₀ hw₀).2.2
  · exact Ensures.suspend (fun w hw => hw ▸ heffect w₀ hw₀) fun w hw => hw ▸ hstop w₀ hw₀

theorem ensures_saved (question : Question) (isDraft : Bool) :
    Ensures SavesTold (createAssistantChat request question text isDraft)
      (fun _ w => SavesTold w ∧ request.Saved w) SavesTold := by
  have hadd : Ensures SavesTold
      (modify fun w : World => { w with added := w.added ++ [⟨request.assistantChatId,
        question.projectId, question.id, question.userId, .assistant, text, request.experienceIds,
        isDraft⟩] })
      (fun _ w => SavesTold w ∧ ∃ chat ∈ w.added, chat.id = request.assistantChatId ∧
        chat.role = .assistant) SavesTold :=
    Ensures.modify fun w hw => ⟨hw, _, List.mem_append_right _ (List.mem_singleton_self _), rfl,
      rfl⟩
  refine hadd.bind fun _ => ?_
  have hcommit : Ensures (fun w => SavesTold w ∧ ∃ chat ∈ w.added,
      chat.id = request.assistantChatId ∧ chat.role = .assistant) (commit request)
      (fun _ w => SavesTold w ∧ request.Saved w) SavesTold := by
    refine ensures_statement ?_ ?_
    · rintro w ⟨htold, chat, hchat, hsaved⟩
      exact ⟨ofMessages_savesTold w _ (silent_commit w) htold, chat,
        List.mem_append_right _ hchat, hsaved⟩
    · rintro w ⟨htold, -⟩
      exact ⟨ofMessages_savesTold w _ (silent_broken w) htold,
        ofMessages_savesTold w _ (silent_commit w) htold, htold⟩
  refine hcommit.bind fun _ => ensures_statement (fun w hw => hw) ?_
  rintro w ⟨htold, -⟩
  exact ⟨ofMessages_savesTold w _ (silent_broken w) htold, htold, htold⟩

/-- The client is told of an answer after it has been saved. -/
theorem keeps_savesTold_done (question : Question) (balance : Option ℤ) (content : String)
    (isDraft : Bool) :
    Keeps SavesTold (handleChunk request question balance text (.done content isDraft)) := by
  refine (ofMessages_savesTold.refundDifference _ _).bind fun remaining => ?_
  refine Ensures.keeps ((ensures_saved question isDraft).bind fun _ => ?_)
  have hemit : ∀ exceeded remaining used, Ensures (fun w => SavesTold w ∧ request.Saved w)
      (emit request (.done (some request.assistantChatId) isDraft exceeded remaining used))
      (fun _ => SavesTold) SavesTold := by
    intro exceeded remaining used
    refine Ensures.bind (Ensures.modify ?_) fun _ =>
      Ensures.of_keeps (Keeps.suspend (fun _ hw => hw) fun _ hw => hw)
    rintro w ⟨htold, hsaved⟩ chatId isDraft' exceeded' balance' used' hmem
    rcases List.mem_append.mp hmem with hold | hnew
    · exact htold chatId isDraft' exceeded' balance' used' hold
    · cases List.mem_singleton.mp hnew
      exact hsaved
  exact (hemit _ _ _).bind fun _ => Ensures.pure fun _ hw => hw

theorem keeps_savesTold_consume (question : Question) (balance : Option ℤ) (chunks : List Chunk) :
    Keeps SavesTold (consume request question balance chunks text) := by
  induction chunks generalizing text with
  | nil => exact Keeps.suspend (fun _ hw => hw) fun _ hw => hw
  | cons chunk chunks ih =>
    refine (Keeps.suspend (fun _ hw => hw) fun _ hw => hw).bind fun _ => ?_
    refine Keeps.bind ?_ fun _ => ih
    cases chunk with
    | ping => exact (keeps_savesTold_emit (by simp)).bind fun _ => Keeps.pure _
    | content part => exact (keeps_savesTold_emit (by simp)).bind fun _ => Keeps.pure _
    | done content isDraft => exact keeps_savesTold_done question balance content isDraft
    | error message =>
      exact ofMessages_savesTold.refundPrededuction.bind fun _ =>
        (keeps_savesTold_emit (by simp)).bind fun _ => Keeps.pure _

theorem keeps_savesTold_answer (question : Question) (balance : Option ℤ) :
    Keeps SavesTold (Chats.answer request question balance) := by
  have huser : Keeps SavesTold (createUserChat request question) :=
    Keeps.bind (Keeps.modify fun _ hw => hw) fun _ =>
      ofMessages_savesTold.commit.bind fun _ => ofMessages_savesTold.wait
  exact huser.bind fun _ => (keeps_savesTold_consume question balance _).attempt
    ofMessages_savesTold.refundPrededuction

theorem keeps_savesTold_sendChatStream : Keeps SavesTold (sendChatStream request) := by
  have hwait : Keeps SavesTold (statement request id) := ofMessages_savesTold.wait
  unfold sendChatStream
  refine hwait.bind fun _ => ?_
  cases request.question with
  | none => exact keeps_savesTold_emit (by simp)
  | some question =>
    dsimp only
    split_ifs
    · exact keeps_savesTold_emit (by simp)
    · exact hwait.bind fun _ => keeps_savesTold_emit (by simp)
    · exact hwait.bind fun _ => keeps_savesTold_answer question none
    · refine hwait.bind fun _ => ofMessages_savesTold.prededuct.bind fun result => ?_
      rcases result with (_ | _) | balance
      · exact keeps_savesTold_emit (by simp)
      · exact Keeps.raise
      · exact keeps_savesTold_answer question _

end Consume

/-! ## Main result -/

/-- Every saved answer is the whole answer of the model, and the one that a client puts together
from the text of the response; a client that has received a part of the response shows a
beginning of it. And every answer the client is told of has been saved. -/
structure AnswersShown (run : ModelRun) (w : World) : Prop where
  whole : ∀ chat ∈ w.chats, chat.role = .assistant → run.answer = some (chat.content, chat.isDraft)
  shown : ∀ chat ∈ w.chats, chat.role = .assistant →
    shownIn (objectsIn (body w.events).toList) = chat.content
  partly : ∀ chat ∈ w.chats, chat.role = .assistant → ∀ received,
    received <+: (body w.events).toList →
      (shownIn (objectsIn received)).toList <+: chat.content.toList
  told : SavesTold w

/-- Wherever a request is interrupted, and whatever its pipeline does. -/
theorem answersShown_run (request : Request) (run : ModelRun) (pings : ℕ → ℕ)
    (hchunks : (generatedTexts run pings).mapM readChunk = some request.chunks) :
    AnswersShown run request.run := by
  have hread : request.chunks = generateAiResponseStream run.pipeline pings := by
    rw [generatedTexts, mapM_readChunk_json, Option.some.injEq] at hchunks
    exact hchunks.symm
  have hended : WellEnded request.chunks := by
    rw [hread]
    exact wellEnded_generateAiResponseStream _ _
  have hsaves : SavesShown run.answer request.run := by
    have hleaves := (ensures_sendChatStream hended).leaves (fun _ _ hw => hw) (fun _ hw => hw)
      ⟨0, .init⟩ ⟨rfl, fun chat hchat => absurd hchat List.not_mem_nil⟩
    rwa [hread, answerOf_pipeline] at hleaves
  have hall : shownIn (objectsIn (body request.run.events).toList) = shown request.run.events := by
    rw [toList_body, objectsIn, EventStream.read_frames isLine_of_mem_payloads, loads_payloads,
      shownIn_objects]
  refine ⟨fun chat hchat hrole => ?_, fun chat hchat hrole => ?_,
    fun chat hchat hrole received hreceived => ?_, keeps_savesTold_sendChatStream ⟨0, .init⟩ ?_⟩
  · exact (hsaves chat (List.mem_append_left _ hchat) hrole).2
  · rw [hall]
    exact (hsaves chat (List.mem_append_left _ hchat) hrole).1.symm
  · rw [(hsaves chat (List.mem_append_left _ hchat) hrole).1]
    obtain ⟨first, hfirst, hobjects, -⟩ := objectsIn_of_prefix hreceived
    rw [hobjects, shownIn_objects]
    exact shown_prefix hfirst
  · intro chatId isDraft exceeded balance used hmem
    exact absurd hmem List.not_mem_nil

/-- A model that answers in two parts. -/
def twoParts : ModelRun := ⟨.ok ⟨true, false⟩, ["지원 ", "", "동기"], none, .error "unused"⟩

/-- The first message of a conversation, and its two parts. -/
def twoPartsMessage : Request :=
  firstMessage (fun _ => .proceed) (generateAiResponseStream twoParts.pipeline fun _ => 1)

theorem answersShown_run_twoParts : AnswersShown twoParts twoPartsMessage.run :=
  answersShown_run twoPartsMessage twoParts (fun _ => 1) (mapM_readChunk_json _)

end Logit.Chats
