import Logit.Chats.Stream
import Logit.Python.Json
import Logit.Python.Uuid
import Logit.Streams.EventStream

/-!
# The events of a chat

The model's pipeline hands each chunk on as a JSON text, the stream reads it, and sends the
client a text of server-sent events with one JSON object each.

## Main definitions

* `Chunk.json`, `readChunk` — the text of a chunk, and what the stream reads in it
* `SseEvent.text`, `body` — the text of an event, and of a response
* `shown`, `shownIn` — the answer a client puts together, from events and from texts

## Main results

* `mapM_readChunk_json` — the stream reads the chunks the pipeline has produced
* `clientReads_of_prefix` — from any part of a response the client reads the first of its
  events, and shows a beginning of the answer
-/

namespace Logit.Chats

open Python Python.Json EventStream

/-! ## Chunks -/

def Chunk.toDict : Chunk → Dict
  | .ping => [("type", .str "ping")]
  | .content text => [("type", .str "content"), ("content", .str text)]
  | .done text isDraft =>
    [("type", .str "done"), ("content", .str text), ("is_draft", .bool isDraft)]
  | .error message => [("type", .str "error"), ("message", .str message)]

/-- `json.dumps(.., ensure_ascii=False)` of a chunk. -/
def Chunk.json (chunk : Chunk) : String := dumps false chunk.toDict

/-- A member that is a text. -/
def textOf (d : Dict) (key : String) : Option String :=
  match d.get key with
  | some (.str text) => some text
  | _ => none

/-- What `send_chat_stream` makes of a chunk it has read; `is_draft` may be missing. The text of
the whole answer is not used. -/
def readDone (d : Dict) : Option Chunk :=
  match d.get "is_draft" with
  | none => some (.done ((textOf d "content").getD "") false)
  | some (.bool isDraft) => some (.done ((textOf d "content").getD "") isDraft)
  | some _ => none

/-- A chunk by its type, as `send_chat_stream` tells them apart. -/
def readChunk (text : String) : Option Chunk := do
  let d ← loads text
  let type ← textOf d "type"
  if type = "ping" then return .ping
  else if type = "content" then return .content (← textOf d "content")
  else if type = "done" then readDone d
  else if type = "error" then return .error (← textOf d "message")
  else none

/-- A chunk is read as it was written. -/
theorem readChunk_json (chunk : Chunk) : readChunk chunk.json = some chunk := by
  have hkeys : (chunk.toDict.map Prod.fst).Nodup := by
    cases chunk <;> simp only [Chunk.toDict, List.map_cons, List.map_nil] <;> decide
  rw [readChunk, Chunk.json, loads_dumps false hkeys]
  cases chunk <;> rfl

/-- The stream reads the chunks of a pipeline as they were produced. -/
theorem mapM_readChunk_json (chunks : List Chunk) :
    (chunks.map Chunk.json).mapM readChunk = some chunks := by
  induction chunks with
  | nil => rfl
  | cons chunk chunks ih =>
    rw [List.map_cons, List.mapM_cons, readChunk_json, ih]
    rfl

/-! ## Events -/

/-- The object of an event. -/
def SseEvent.toDict : SseEvent → Dict
  | .error message => [("type", .str "error"), ("message", .str message)]
  | .chunk item => item.toDict
  | .done chatId isDraft draftLimitExceeded tokenBalance tokensUsed =>
    [("type", .str "done"), ("chat_id", (chatId.map fun id => Scalar.str id.str).getD .null),
      ("is_draft", .bool isDraft), ("draft_limit_exceeded", .bool draftLimitExceeded),
      ("token_balance", (tokenBalance.map Scalar.int).getD .null)] ++
      (tokensUsed.map fun tokens => ("tokens_used", Scalar.int tokens)).toList

/-- `f"data: {json}\n\n"`. -/
def SseEvent.text (event : SseEvent) : String := "data: " ++ dumps false event.toDict ++ "\n\n"

/-- The text of a response. -/
def body (events : List SseEvent) : String := String.join (events.map SseEvent.text)

theorem SseEvent.nodup_toDict (event : SseEvent) : (event.toDict.map Prod.fst).Nodup := by
  cases event with
  | error message => simp only [SseEvent.toDict, List.map_cons, List.map_nil]; decide
  | chunk chunk =>
    cases chunk <;> simp only [SseEvent.toDict, Chunk.toDict, List.map_cons, List.map_nil] <;>
      decide
  | done chatId isDraft draftLimitExceeded tokenBalance tokensUsed =>
    cases tokensUsed <;> simp only [SseEvent.toDict, Option.map_none, Option.map_some,
      Option.toList_none, Option.toList_some, List.map_append, List.map_cons, List.map_nil] <;>
      decide

theorem SseEvent.isLine (event : SseEvent) : IsLine (dumps false event.toDict).toList := by
  intro c hc
  have hcontrol := isControl_of_mem_dumps false event.toDict c hc
  constructor
  · rintro rfl
    exact absurd hcontrol (by decide)
  · rintro rfl
    exact absurd hcontrol (by decide)

/-- The payloads of events. -/
def payloads (events : List SseEvent) : List (List Char) :=
  events.map fun event => (dumps false event.toDict).toList

theorem SseEvent.toList_text (event : SseEvent) :
    event.text.toList = frame (dumps false event.toDict).toList := by
  rw [text, String.toList_append, String.toList_append]
  rfl

theorem toList_body (events : List SseEvent) :
    (body events).toList = (payloads events).flatMap frame := by
  rw [body, String.toList_join, List.flatMap_map, payloads, List.flatMap_map]
  congr 1
  exact funext SseEvent.toList_text

/-! ## What the client reads -/

/-- The objects a client reads in what it has received. -/
def objectsIn (received : List Char) : List (Option Dict) :=
  (read received).map fun payload => loads (String.ofList payload)

/-- The part of the answer that an object adds. -/
def contentOf (d : Dict) : String :=
  if textOf d "type" = some "content" then (textOf d "content").getD "" else ""

/-- The answer that objects show, in order. -/
def shownIn (objects : List (Option Dict)) : String :=
  String.join (objects.map fun d => (d.map contentOf).getD "")

/-- The part of the answer that an event adds. -/
def SseEvent.content : SseEvent → String
  | .chunk (.content text) => text
  | _ => ""

/-- The answer that events show. -/
def shown (events : List SseEvent) : String := String.join (events.map SseEvent.content)

theorem contentOf_toDict (event : SseEvent) : contentOf event.toDict = event.content := by
  cases event with
  | error message => rfl
  | chunk chunk => cases chunk <;> rfl
  | done chatId isDraft draftLimitExceeded tokenBalance tokensUsed => rfl

/-- The objects of events. -/
def objects (events : List SseEvent) : List (Option Dict) :=
  events.map fun event => some event.toDict

theorem shownIn_objects (events : List SseEvent) : shownIn (objects events) = shown events := by
  simp only [shownIn, shown, objects, List.map_map]
  congr 1
  exact List.map_congr_left fun event _ => contentOf_toDict event

theorem isLine_of_mem_payloads {events : List SseEvent} :
    ∀ payload ∈ payloads events, IsLine payload := by
  intro payload hpayload
  obtain ⟨event, -, rfl⟩ := List.mem_map.mp hpayload
  exact event.isLine

theorem loads_payloads (events : List SseEvent) :
    ((payloads events).map fun payload => loads (String.ofList payload)) = objects events := by
  rw [payloads, List.map_map, objects]
  refine List.map_congr_left fun event _ => ?_
  rw [Function.comp_apply, String.ofList_toList, loads_dumps false event.nodup_toDict]

/-- The answer that the first events show is a beginning of what all of them show. -/
theorem shown_prefix {first events : List SseEvent} (h : first <+: events) :
    (shown first).toList <+: (shown events).toList := by
  obtain ⟨rest, rfl⟩ := h
  rw [shown, shown, List.map_append, String.join_append, String.toList_append]
  exact List.prefix_append _ _

/-- What is read in a part of a response are the objects of its first events. -/
theorem objectsIn_of_prefix {events : List SseEvent} {received : List Char}
    (h : received <+: (body events).toList) :
    ∃ first, first <+: events ∧ objectsIn received = objects first ∧
      ∀ arrived, arrived <+: events → (body arrived).toList <+: received → arrived <+: first := by
  rw [toList_body] at h
  have hread := read_prefix_of_prefix isLine_of_mem_payloads h
  obtain ⟨k, hk⟩ : ∃ k, read received = payloads (events.take k) := by
    refine ⟨(read received).length, ?_⟩
    rw [payloads, List.map_take]
    exact List.prefix_iff_eq_take.mp hread
  have hobjects : objectsIn received = objects (events.take k) := by
    rw [objectsIn, hk, loads_payloads]
  refine ⟨events.take k, List.take_prefix _ _, hobjects, fun arrived harrived hbody => ?_⟩
  rw [toList_body] at hbody
  have hshown := prefix_read_of_prefix isLine_of_mem_payloads hbody
  rw [hk] at hshown
  have hlength := hshown.length_le
  simp only [payloads, List.length_map] at hlength
  exact List.prefix_of_prefix_length_le harrived (List.take_prefix _ _) hlength

/-- From a part of a response, wherever it is cut, the client reads the first events as they were
sent, all of those that have arrived in full, and shows a beginning of the answer. -/
theorem clientReads_of_prefix {events : List SseEvent} {received : List Char}
    (h : received <+: (body events).toList) :
    ∃ first, first <+: events ∧ objectsIn received = objects first ∧
      (∀ arrived, arrived <+: events → (body arrived).toList <+: received → arrived <+: first) ∧
      (shownIn (objectsIn received)).toList <+: (shown events).toList := by
  obtain ⟨first, hfirst, hobjects, harrived⟩ := objectsIn_of_prefix h
  refine ⟨first, hfirst, hobjects, harrived, ?_⟩
  rw [hobjects, shownIn_objects]
  exact shown_prefix hfirst

/-- An answer in two parts. -/
def twoPartEvents : List SseEvent :=
  [.chunk (.content "지원 "), .chunk .ping, .chunk (.content "동기")]

/-- A response that is cut inside its third event. -/
def cutResponse : List Char := (body twoPartEvents).toList.take 80

theorem clientReads_of_prefix_cut :
    ∃ first, first <+: twoPartEvents ∧ objectsIn cutResponse = objects first ∧
      (∀ arrived, arrived <+: twoPartEvents → (body arrived).toList <+: cutResponse →
        arrived <+: first) ∧
      (shownIn (objectsIn cutResponse)).toList <+: (shown twoPartEvents).toList :=
  clientReads_of_prefix (List.take_prefix 80 _)

end Logit.Chats
