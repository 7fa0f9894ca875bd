import Logit.Chats.Answers
import Logit.Streams.Queue

/-!
# The task in the background

The pipeline of a request runs as a task of its own, which puts texts in a queue; the stream takes
them out, and yields a ping whenever it has waited for five seconds. Their statements come in any
order, the task may be cancelled where it waits, and the reader of the stream may leave. The texts
that are yielded are those of `generateAiResponseStream` all the same.

## Main definitions

* `RunTask`, `RunAct`, `TaskAct` — the task, its statements, and its cancellation
* `CutOff` — the pipeline of a task that may have been cancelled
* `Delivers` — what is expected of a stream

## Main results

* `draftChunks_cons` — the loop over a draft cuts its pieces
* `delivers_of_reachable` — in every run the stream yields what the pipeline has produced
-/

namespace Logit.Chats

open Queue

/-! ## The task -/

/-- Where `_run` stands between its statements. -/
inductive RunTask
  /-- It waits for the classification and the experiences. -/
  | gathering
  /-- It waits for the next of the parts that the model still sends. -/
  | streaming (parts : List String) (fullContent : String) (isDraft : Bool)
  /-- It waits for the text of a draft. -/
  | drafting
  /-- It goes on with a draft at an index. -/
  | cutting (draft : String) (i : ℕ)
  /-- It has caught an exception. -/
  | failing (e : String)
  /-- It is about to say that it is over. -/
  | finishing
  | finished
  deriving DecidableEq, Repr

/-- A task that waits can be cancelled there. -/
def RunTask.Waits : RunTask → Prop
  | gathering => True
  | streaming _ _ _ => True
  | drafting => True
  | cutting _ _ => True
  | _ => False

variable (run : ModelRun)

/-- A statement of `_run`, with the texts it puts in the queue. -/
inductive RunAct : RunTask → List (Option String) → RunTask → Prop
  | gatherFails {e : String} (h : run.gathered = .error e) : RunAct .gathering [] (.failing e)
  | converse {classification : RequestClassification} (h : run.gathered = .ok classification)
      (hnew : classification.isNewDraft = false) :
      RunAct .gathering [] (.streaming run.streamed "" classification.isCoverLetterRequest)
  | write {classification : RequestClassification} (h : run.gathered = .ok classification)
      (hnew : classification.isNewDraft = true) : RunAct .gathering [] .drafting
  /-- A part of an answer; empty ones are left out. -/
  | part {part : String} {parts : List String} {fullContent : String} {isDraft : Bool} :
      RunAct (.streaming (part :: parts) fullContent isDraft)
        (if part = "" then [] else [some (Chunk.content part).json])
        (.streaming parts (fullContent ++ part) isDraft)
  | streamed {fullContent : String} {isDraft : Bool} (h : run.streamFails = none) :
      RunAct (.streaming [] fullContent isDraft)
        [some (Chunk.done fullContent isDraft).json] .finishing
  | streamFails {fullContent e : String} {isDraft : Bool} (h : run.streamFails = some e) :
      RunAct (.streaming [] fullContent isDraft) [] (.failing e)
  | draftFails {e : String} (h : run.draft = .error e) : RunAct .drafting [] (.failing e)
  | drafted {draft : String} (h : run.draft = .ok draft) : RunAct .drafting [] (.cutting draft 0)
  /-- `draft[i:i + 5]`. -/
  | piece {draft : String} {i : ℕ} (h : i < draft.toList.length) :
      RunAct (.cutting draft i)
        [some (Chunk.content (String.ofList ((draft.toList.drop i).take 5))).json]
        (.cutting draft (i + 5))
  | cut {draft : String} {i : ℕ} (h : draft.toList.length ≤ i) :
      RunAct (.cutting draft i) [some (Chunk.done draft true).json] .finishing
  | report {e : String} : RunAct (.failing e) [some (Chunk.error e).json] .finishing
  | finish : RunAct .finishing [none] .finished

/-- A statement of the task, or its cancellation where it waits. -/
inductive TaskAct : RunTask → List (Option String) → RunTask → Prop
  | act {task task' : RunTask} {items : List (Option String)} (h : RunAct run task items task') :
      TaskAct task items task'
  | cancel {task : RunTask} (h : task.Waits) : TaskAct task [] .finishing

/-- What the task and the reader of its queue come to. -/
abbrev StreamReachable (s : Relay RunTask String) : Prop :=
  Reachable (TaskAct run) Chunk.ping.json .gathering s

/-! ## What is expected -/

/-- The pipeline of a task, or the part of it before the task was cancelled. -/
def CutOff (pipeline whole : Pipeline) : Prop :=
  pipeline = whole ∨ pipeline.ending = .cancelled ∧ pipeline.contents <+: whole.contents

/-- The steps that are left for a draft that has been asked for. -/
def ModelRun.draftLeft : ℕ :=
  match run.draft with
  | .error _ => 5
  | .ok draft => 2 * draft.toList.length + 5

/-- The steps that are left for a task, each with the text it puts in the queue. -/
def RunTask.left : RunTask → ℕ
  | gathering => match run.gathered with
    | .error _ => 5
    | .ok classification =>
      if classification.isNewDraft then run.draftLeft + 1 else 2 * run.streamed.length + 7
  | streaming parts _ _ => 2 * parts.length + 6
  | drafting => run.draftLeft
  | cutting draft i => 2 * (draft.toList.length - i) + 4
  | failing _ => 4
  | finishing => 2
  | finished => 0

/-- What is expected of a stream. -/
structure Delivers (s : Relay RunTask String) : Prop where
  /-- What has been yielded is the beginning of a stream of the pipeline. -/
  partly : ∃ pings, s.yielded <+: generatedTexts run pings
  /-- A stream that has ended is the stream of the pipeline, as far as it has got. -/
  whole : s.reader = .ended → ∃ pipeline pings, CutOff pipeline run.pipeline ∧
    s.yielded = (generateAiResponseStream pipeline pings).map Chunk.json
  /-- The stream waits for a task that goes on, or the signal that it is over is in the queue. -/
  goesOn : s.reader = .reading → none ∈ s.queue ∨ ∃ items task, RunAct run s.task items task
  /-- Every step but a ping brings the stream nearer to its end. -/
  ends : ∀ s', Step (TaskAct run) Chunk.ping.json s s' →
    s'.left (RunTask.left run) < s.left (RunTask.left run) ∨
      s' = { s with yielded := s.yielded ++ [Chunk.ping.json] }

/-! ## The texts of a task -/

/-- How the answer of a conversation ends. -/
def ModelRun.streamEnding (content : String) (isDraft : Bool) : Ending :=
  match run.streamFails with
  | none => .done content isDraft
  | some e => .error e

/-- The pieces of a draft that are left at an index. -/
def piecesFrom (draft : String) (i : ℕ) : List Chunk :=
  (draftChunks 5 (draft.toList.drop i)).map fun piece => .content (String.ofList piece)

/-- What a task still puts in the queue, if it is not cancelled. -/
def RunTask.remaining : RunTask → List Chunk
  | gathering => run.pipeline.queue
  | streaming parts fullContent isDraft => (parts.filter (· ≠ "")).map .content ++
    (run.streamEnding (fullContent ++ String.join parts) isDraft).chunks
  | drafting => match run.draft with
    | .error e => [.error e]
    | .ok draft => piecesFrom draft 0 ++ [.done draft true]
  | cutting draft i => piecesFrom draft i ++ [.done draft true]
  | failing e => [.error e]
  | _ => []

/-- What a task has put in the queue before the signal. -/
def RunTask.Put (chunks : List Chunk) : RunTask → Prop
  | finishing => ∃ pipeline, CutOff pipeline run.pipeline ∧ chunks = pipeline.queue
  | finished => ∃ pipeline, CutOff pipeline run.pipeline ∧ chunks = pipeline.queue
  | task => chunks ++ task.remaining run = run.pipeline.queue

/-- The signal that a task is over. -/
def RunTask.signal : RunTask → List (Option String)
  | finished => [none]
  | _ => []

variable {run} {task task' : RunTask} {items more : List (Option String)}

/-- The first of the pieces of a draft, and those of the rest. -/
theorem draftChunks_cons {size : ℕ} (hsize : 0 < size) {draft : List Char} (hdraft : draft ≠ []) :
    draftChunks size draft = draft.take size :: draftChunks size (draft.drop size) := by
  have hpos := List.length_pos_iff.mpr hdraft
  have hcount : (draft.length + size - 1) / size = (draft.length - size + size - 1) / size + 1 := by
    rcases Nat.lt_or_ge draft.length size with hlt | hge
    · have hnone : draft.length - size = 0 := by omega
      rw [hnone, Nat.zero_add, Nat.div_eq_of_lt (by omega : size - 1 < size)]
      exact Nat.div_eq_of_lt_le (by omega) (by omega)
    · rw [← Nat.add_div_right _ hsize]
      congr 1
      omega
  unfold draftChunks
  rw [hcount, List.range_succ_eq_map, List.map_cons, List.map_map, List.length_drop]
  congr 1
  refine List.map_congr_left fun k _ => ?_
  rw [Function.comp_apply, List.drop_drop, Nat.mul_succ, Nat.add_comm]

theorem piecesFrom_of_lt {draft : String} {i : ℕ} (h : i < draft.toList.length) :
    piecesFrom draft i =
      .content (String.ofList ((draft.toList.drop i).take 5)) :: piecesFrom draft (i + 5) := by
  have hrest : draft.toList.drop i ≠ [] := by
    rw [Ne, List.drop_eq_nil_iff]
    omega
  rw [piecesFrom, draftChunks_cons (by decide) hrest, List.map_cons, List.drop_drop]
  rfl

theorem piecesFrom_of_le {draft : String} {i : ℕ} (h : draft.toList.length ≤ i) :
    piecesFrom draft i = [] := by
  rw [piecesFrom, List.drop_eq_nil_of_le h]
  rfl

/-- What is left for a conversation that has started is what its pipeline produces. -/
theorem remaining_streaming {classification : RequestClassification}
    (h : run.gathered = .ok classification) (hnew : classification.isNewDraft = false) :
    (RunTask.streaming run.streamed "" classification.isCoverLetterRequest).remaining run =
      run.pipeline.queue := by
  simp only [RunTask.remaining, ModelRun.streamEnding, Pipeline.queue, ModelRun.pipeline, h, hnew,
    String.empty_append, Bool.not_false, if_true]
  cases run.streamFails with
  | none => simp only [join_filter_ne_empty]
  | some e => rfl

/-- What is left for a draft that has been asked for is what its pipeline produces. -/
theorem remaining_drafting {classification : RequestClassification}
    (h : run.gathered = .ok classification) (hnew : classification.isNewDraft = true) :
    RunTask.drafting.remaining run = run.pipeline.queue := by
  simp only [RunTask.remaining, Pipeline.queue, ModelRun.pipeline, h, hnew]
  cases run.draft with
  | error e => rfl
  | ok draft => simp [piecesFrom, Ending.chunks]

/-- A pipeline that is not cancelled ends with one chunk. -/
theorem exists_queue (run : ModelRun) :
    ∃ chunk, run.pipeline.queue = run.pipeline.contents.map .content ++ [chunk] := by
  unfold Pipeline.queue ModelRun.pipeline
  cases run.gathered with
  | error e => exact ⟨_, rfl⟩
  | ok classification =>
    cases hnew : classification.isNewDraft with
    | false => cases run.streamFails <;> simp [hnew, Ending.chunks]
    | true => cases run.draft <;> simp [hnew, Ending.chunks]

/-- What is left for a task that waits ends with one chunk, after parts of the answer. -/
theorem RunTask.Waits.exists_remaining (run : ModelRun) (h : task.Waits) :
    ∃ (contents : List String) (chunk : Chunk),
      task.remaining run = contents.map .content ++ [chunk] := by
  cases task with
  | gathering =>
    obtain ⟨chunk, hqueue⟩ := exists_queue run
    exact ⟨_, chunk, hqueue⟩
  | streaming parts fullContent isDraft =>
    unfold RunTask.remaining ModelRun.streamEnding
    cases run.streamFails <;> exact ⟨_, _, rfl⟩
  | drafting =>
    unfold RunTask.remaining
    cases run.draft with
    | error e => exact ⟨[], _, rfl⟩
    | ok draft =>
      refine ⟨(draftChunks 5 (draft.toList.drop 0)).map String.ofList, .done draft true, ?_⟩
      rw [List.map_map]
      rfl
  | cutting draft i =>
    refine ⟨(draftChunks 5 (draft.toList.drop i)).map String.ofList, .done draft true, ?_⟩
    rw [List.map_map]
    rfl
  | failing e => exact h.elim
  | finishing => exact h.elim
  | finished => exact h.elim

/-- A task that is cancelled has put in the queue the first parts of the answer. -/
theorem exists_cutOff (hwaits : task.Waits) {chunks : List Chunk}
    (h : chunks ++ task.remaining run = run.pipeline.queue) :
    ∃ pipeline, CutOff pipeline run.pipeline ∧ chunks = pipeline.queue := by
  obtain ⟨contents, chunk, hremaining⟩ := hwaits.exists_remaining run
  obtain ⟨last, hqueue⟩ := exists_queue run
  rw [hremaining, hqueue, ← List.append_assoc] at h
  obtain ⟨before, after, hcontents, rfl, -⟩ :=
    List.map_eq_append_iff.mp (List.append_inj' h rfl).1.symm
  refine ⟨⟨before, .cancelled⟩, .inr ⟨rfl, after, hcontents.symm⟩, ?_⟩
  simp [Pipeline.queue, Ending.chunks]

/-- A statement of a task, by what it puts in the queue. -/
theorem RunTask.Put.runAct {chunks : List Chunk} (h : task.Put run chunks)
    (hact : RunAct run task items task') :
    ∃ more : List Chunk, items = more.map (fun chunk => some chunk.json) ++ task'.signal ∧
      task'.Put run (chunks ++ more) := by
  cases hact with
  | @gatherFails e hgathered =>
    refine ⟨[], rfl, ?_⟩
    have hqueue : run.pipeline.queue = [.error e] := by
      simp only [Pipeline.queue, ModelRun.pipeline, hgathered]
      rfl
    rw [List.append_nil]
    exact (congrArg (chunks ++ ·) hqueue.symm).trans h
  | converse hgathered hnew =>
    refine ⟨[], rfl, ?_⟩
    rw [List.append_nil]
    exact (congrArg (chunks ++ ·) (remaining_streaming hgathered hnew)).trans h
  | write hgathered hnew =>
    refine ⟨[], rfl, ?_⟩
    rw [List.append_nil]
    exact (congrArg (chunks ++ ·) (remaining_drafting hgathered hnew)).trans h
  | @part part parts fullContent isDraft =>
    by_cases hpart : part = ""
    · subst hpart
      refine ⟨[], by simp [RunTask.signal], ?_⟩
      simpa [RunTask.Put, RunTask.remaining] using h
    · refine ⟨[.content part], by simp [hpart, RunTask.signal], ?_⟩
      simpa [RunTask.Put, RunTask.remaining, hpart, String.append_assoc] using h
  | streamed hfails =>
    refine ⟨[.done _ _], rfl, _, .inl rfl, ?_⟩
    simpa [RunTask.Put, RunTask.remaining, ModelRun.streamEnding, hfails, Ending.chunks] using h
  | streamFails hfails =>
    refine ⟨[], rfl, ?_⟩
    simpa [RunTask.Put, RunTask.remaining, ModelRun.streamEnding, hfails, Ending.chunks] using h
  | draftFails hdraft =>
    refine ⟨[], rfl, ?_⟩
    simpa [RunTask.Put, RunTask.remaining, hdraft] using h
  | drafted hdraft =>
    refine ⟨[], rfl, ?_⟩
    simpa [RunTask.Put, RunTask.remaining, hdraft] using h
  | piece hi =>
    refine ⟨[.content _], rfl, ?_⟩
    simpa [RunTask.Put, RunTask.remaining, piecesFrom_of_lt hi] using h
  | cut hi =>
    refine ⟨[.done _ true], rfl, _, .inl rfl, ?_⟩
    simpa [RunTask.Put, RunTask.remaining, piecesFrom_of_le hi] using h
  | report => exact ⟨[.error _], rfl, _, .inl rfl, h⟩
  | finish =>
    refine ⟨[], rfl, ?_⟩
    rwa [List.append_nil]

/-- A task that waits has not been cancelled. -/
theorem RunTask.Put.of_waits {chunks : List Chunk} (h : task.Put run chunks)
    (hwaits : task.Waits) : chunks ++ task.remaining run = run.pipeline.queue := by
  cases task with
  | finishing => exact hwaits.elim
  | finished => exact hwaits.elim
  | _ => exact h

theorem RunTask.Put.act {chunks : List Chunk} (h : task.Put run chunks)
    (hact : TaskAct run task items task') :
    ∃ more : List Chunk, items = more.map (fun chunk => some chunk.json) ++ task'.signal ∧
      task'.Put run (chunks ++ more) := by
  cases hact with
  | act hact => exact h.runAct hact
  | cancel hwaits =>
    refine ⟨[], rfl, ?_⟩
    rw [List.append_nil]
    exact exists_cutOff hwaits (h.of_waits hwaits)

/-- A task that is over does nothing more. -/
theorem TaskAct.signal_eq_nil (hact : TaskAct run task items task') : task.signal = [] := by
  cases task with
  | finished =>
    obtain ⟨⟨⟩⟩ | hwaits := hact
    exact hwaits.elim
  | _ => rfl

/-- What a task has put in the queue. -/
theorem put_of_produces (h : Produces (TaskAct run) .gathering items task) :
    ∃ chunks : List Chunk, items = chunks.map (fun chunk => some chunk.json) ++ task.signal ∧
      task.Put run chunks := by
  induction h with
  | refl => exact ⟨[], rfl, rfl⟩
  | tail _ hact ih =>
    obtain ⟨chunks, rfl, hput⟩ := ih
    obtain ⟨more, rfl, hput'⟩ := hput.act hact
    refine ⟨chunks ++ more, ?_, hput'⟩
    rw [hact.signal_eq_nil, List.append_nil, List.map_append, List.append_assoc]

theorem RunTask.Put.isPrefix {chunks : List Chunk} (h : task.Put run chunks) :
    chunks <+: run.pipeline.queue := by
  have hcut : ∀ pipeline, CutOff pipeline run.pipeline → pipeline.queue <+: run.pipeline.queue := by
    rintro pipeline (rfl | ⟨hending, hcontents⟩)
    · exact List.prefix_rfl
    · rw [Pipeline.queue, hending, Ending.chunks, List.append_nil]
      exact (hcontents.map _).trans (List.prefix_append _ _)
  cases task with
  | finishing =>
    obtain ⟨pipeline, hpipeline, rfl⟩ := h
    exact hcut pipeline hpipeline
  | finished =>
    obtain ⟨pipeline, hpipeline, rfl⟩ := h
    exact hcut pipeline hpipeline
  | _ => exact ⟨_, h⟩

/-- A task that is not over goes on. -/
theorem exists_runAct (run : ModelRun) (htask : task ≠ .finished) :
    ∃ items task', RunAct run task items task' := by
  cases task with
  | gathering =>
    cases hgathered : run.gathered with
    | error e => exact ⟨_, _, .gatherFails hgathered⟩
    | ok classification =>
      cases hnew : classification.isNewDraft with
      | false => exact ⟨_, _, .converse hgathered hnew⟩
      | true => exact ⟨_, _, .write hgathered hnew⟩
  | streaming parts fullContent isDraft =>
    cases parts with
    | nil =>
      cases hfails : run.streamFails with
      | none => exact ⟨_, _, .streamed hfails⟩
      | some e => exact ⟨_, _, .streamFails hfails⟩
    | cons part parts => exact ⟨_, _, .part⟩
  | drafting =>
    cases hdraft : run.draft with
    | error e => exact ⟨_, _, .draftFails hdraft⟩
    | ok draft => exact ⟨_, _, .drafted hdraft⟩
  | cutting draft i =>
    rcases Nat.lt_or_ge i draft.toList.length with hlt | hge
    · exact ⟨_, _, .piece hlt⟩
    · exact ⟨_, _, .cut hge⟩
  | failing e => exact ⟨_, _, .report⟩
  | finishing => exact ⟨_, _, .finish⟩
  | finished => exact absurd rfl htask

/-- A task that waits has more than two steps left. -/
theorem RunTask.Waits.two_lt_left (hwaits : task.Waits) : 2 < task.left run := by
  have hdraft : 4 < run.draftLeft := by
    unfold ModelRun.draftLeft
    split <;> omega
  cases task with
  | gathering =>
    unfold RunTask.left
    cases run.gathered with
    | error e => simp
    | ok classification =>
      dsimp only
      split_ifs <;> omega
  | streaming parts fullContent isDraft => simp [RunTask.left]
  | drafting => exact lt_trans (by decide) hdraft
  | cutting draft i => simp [RunTask.left]
  | failing e => exact hwaits.elim
  | finishing => exact hwaits.elim
  | finished => exact hwaits.elim

/-- Each statement of a task takes one of the steps that are left, and one more for a text. -/
theorem TaskAct.left_lt (hact : TaskAct run task items task') :
    task'.left run + items.length < task.left run := by
  cases hact with
  | act hact =>
    cases hact with
    | gatherFails hgathered => simp [RunTask.left, hgathered]
    | converse hgathered hnew => simp [RunTask.left, hgathered, hnew]
    | write hgathered hnew => simp [RunTask.left, hgathered, hnew]
    | part =>
      simp only [RunTask.left, List.length_cons]
      split_ifs
      · simp
      · simp only [List.length_singleton]
        omega
    | streamed hfails => simp [RunTask.left]
    | streamFails hfails => simp [RunTask.left]
    | draftFails hdraft => simp [RunTask.left, ModelRun.draftLeft, hdraft]
    | drafted hdraft => simp [RunTask.left, ModelRun.draftLeft, hdraft]
    | piece hi =>
      simp only [RunTask.left, List.length_singleton]
      omega
    | cut hi => simp [RunTask.left]
    | report => simp [RunTask.left]
    | finish => simp [RunTask.left]
  | cancel hwaits => exact hwaits.two_lt_left

/-! ## Pings -/

theorem withPings_congr {pings pings' : ℕ → ℕ} {n : ℕ} (h : ∀ k ≥ n, pings k = pings' k)
    (chunks : List Chunk) : withPings pings n chunks = withPings pings' n chunks := by
  induction chunks generalizing n with
  | nil => rw [withPings, withPings, h n le_rfl]
  | cons chunk chunks ih =>
    rw [withPings, withPings, h n le_rfl, ih fun k hk => h k (Nat.le_of_succ_le hk)]

/-- One more ping before the first chunk. -/
theorem withPings_update (pings : ℕ → ℕ) (n k : ℕ) (chunks : List Chunk) :
    withPings (Function.update pings n (k + 1)) n chunks =
      .ping :: withPings (Function.update pings n k) n chunks := by
  have hlater : ∀ i ≥ n + 1, Function.update pings n (k + 1) i = Function.update pings n k i := by
    intro i hi
    rw [Function.update_of_ne (by omega), Function.update_of_ne (by omega)]
  cases chunks with
  | nil => simp [withPings, List.replicate_succ]
  | cons chunk chunks => simp [withPings, List.replicate_succ, withPings_congr hlater]

/-- Chunks with pings put in. -/
theorem exists_withPings {chunks yielded : List Chunk}
    (h : Interspersed .ping chunks yielded) (n : ℕ) :
    ∃ pings, yielded = withPings pings n chunks := by
  induction h generalizing n with
  | nil => exact ⟨fun _ => 0, rfl⟩
  | @item chunk chunks yielded _ ih =>
    obtain ⟨pings, rfl⟩ := ih (n + 1)
    refine ⟨Function.update pings n 0, ?_⟩
    have hlater : ∀ k ≥ n + 1, pings k = Function.update pings n 0 k := fun k hk =>
      (Function.update_of_ne (by omega) _ _).symm
    simp [withPings, withPings_congr hlater]
  | beat _ ih =>
    obtain ⟨pings, rfl⟩ := ih n
    refine ⟨Function.update pings n (pings n + 1), ?_⟩
    rw [withPings_update, Function.update_eq_self]

/-- The beginning of a list of chunks, with the same pings. -/
theorem withPings_isPrefix (pings : ℕ → ℕ) (n : ℕ) {chunks whole : List Chunk}
    (h : chunks <+: whole) : withPings pings n chunks <+: withPings pings n whole := by
  obtain ⟨rest, rfl⟩ := h
  induction chunks generalizing n with
  | nil =>
    cases rest with
    | nil => exact List.prefix_rfl
    | cons chunk rest => exact List.prefix_append _ _
  | cons chunk chunks ih =>
    rw [withPings, List.cons_append, withPings]
    exact (List.prefix_append_right_inj _).mpr (List.cons_prefix_cons.mpr ⟨rfl, ih (n + 1)⟩)

/-! ## Main result -/

theorem RunTask.filterMap_signal (task : RunTask) : task.signal.filterMap id = [] := by
  cases task <;> rfl

theorem map_some_json (chunks : List Chunk) :
    (chunks.map fun chunk => some chunk.json) = (chunks.map Chunk.json).map some := by
  rw [List.map_map]
  rfl

/-- However the statements of the task and of the stream follow each other: the stream yields,
pings apart, what the pipeline produces, all of it when it ends, and it does end. -/
theorem delivers_of_reachable (run : ModelRun) {s : Relay RunTask String}
    (h : StreamReachable run s) : Delivers run s := by
  obtain ⟨taken, hyielded, hproduces⟩ := relayed_of_reachable h
  obtain ⟨chunks, hitems, hput⟩ := put_of_produces hproduces
  rw [map_some_json, List.append_assoc] at hitems
  have hsignal := s.task.filterMap_signal
  refine ⟨?_, fun hended => ?_, fun hreading => ?_, fun s' hstep =>
    hstep.left_lt fun _ _ _ hact => hact.left_lt⟩
  · have htaken := List.prefix_iff_eq_take.mp (taken_isPrefix hsignal hitems)
    rw [← List.map_take] at htaken
    rw [htaken] at hyielded
    obtain ⟨yielded, hmap, hpings⟩ := hyielded.exists_map
    obtain ⟨pings, rfl⟩ := exists_withPings hpings 0
    have hfirst : chunks.take taken.length <+: chunks := List.take_prefix _ _
    exact ⟨pings, hmap ▸ (withPings_isPrefix pings 0 (hfirst.trans hput.isPrefix)).map _⟩
  · rw [hended, Reader.signal, List.singleton_append] at hitems
    obtain ⟨rfl, hover⟩ := taken_eq hsignal hitems
    obtain ⟨yielded, hmap, hpings⟩ := hyielded.exists_map
    obtain ⟨pings, rfl⟩ := exists_withPings hpings 0
    have htask : s.task = .finished := by
      by_contra htask
      obtain ⟨_, _, hact⟩ := exists_runAct run htask
      exact hover (TaskAct.act hact).signal_eq_nil
    rw [htask] at hput
    obtain ⟨pipeline, hcut, rfl⟩ := hput
    exact ⟨pipeline, pings, hcut, hmap⟩
  · by_cases htask : s.task = .finished
    · refine .inl (signal_mem_of_reachable h (fun items hmore => ?_) hreading)
      rw [htask] at hmore
      obtain ⟨_, rfl, -⟩ := put_of_produces hmore
      exact List.mem_append_right _ List.mem_cons_self
    · exact .inr (exists_runAct run htask)

/-- The texts of an answer in two parts, with a ping before them. -/
def twoPartsTexts : List String :=
  [.ping, .content "지원 ", .content "동기", .done "지원 동기" true].map Chunk.json

/-- The stream of an answer in two parts has ended. -/
theorem reachable_twoParts : StreamReachable twoParts ⟨.finished, [], twoPartsTexts, .ended⟩ := by
  refine .head (.put (.act (.converse rfl rfl))) (.head .beat ?_)
  refine .head (.put (.act .part)) (.head .take (.head (.put (.act .part)) ?_))
  refine .head (.put (.act .part)) (.head (.put (.act (.streamed rfl))) ?_)
  exact .head (.put (.act .finish)) (.head .take (.head .take (.head .close .refl)))

theorem delivers_of_reachable_twoParts :
    Delivers twoParts ⟨.finished, [], twoPartsTexts, .ended⟩ :=
  delivers_of_reachable twoParts reachable_twoParts

end Logit.Chats
