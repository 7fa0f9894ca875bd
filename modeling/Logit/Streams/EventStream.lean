import Mathlib.Data.List.Basic

/-!
# Event streams

A stream of server-sent events is read character by character: a line that starts with
`data:` adds to the event at hand, an empty line ends it, and lines of other fields are
skipped. An event is read when its empty line has arrived, so a stream that is cut shows the
first of its events.

## Main definitions

* `Reader`, `Reader.step` — what has been read of a stream, and how a character changes it
* `read` — the data of the events a text has
* `frame` — the text of an event with one line of data

## Main results

* `read_frames` — events of one line are read back
* `read_prefix_of_prefix` — a part of a stream shows the first of its events
-/

namespace Logit.EventStream

/-- What has been read: the line so far, the data of the event so far, and the events before it. -/
structure Reader where
  line : List Char
  data : List (List Char)
  events : List (List Char)
  /-- The last character was a carriage return, which a line feed may follow. -/
  returned : Bool
  deriving DecidableEq, Repr

/-- A reader between two events. -/
def Reader.between (events : List (List Char)) : Reader := ⟨[], [], events, false⟩

/-- The value of a line of data. -/
def dataOf (line : List Char) : Option (List Char) :=
  (['d', 'a', 't', 'a', ':'].isPrefixOf? line).map fun value =>
    match value with
    | ' ' :: value => value
    | value => value

/-- A line has ended. -/
def Reader.endLine (r : Reader) : Reader :=
  if r.line = [] then
    .between (if r.data = [] then r.events else r.events ++ [['\n'].intercalate r.data])
  else { r with line := [], data := r.data ++ (dataOf r.line).toList, returned := false }

def Reader.step (r : Reader) (c : Char) : Reader :=
  if c = '\n' then if r.returned then { r with returned := false } else r.endLine
  else if c = '\r' then { r.endLine with returned := true }
  else { r with line := r.line ++ [c], returned := false }

def Reader.steps (r : Reader) (text : List Char) : Reader := text.foldl Reader.step r

/-- The data of the events that a text has. -/
def read (text : List Char) : List (List Char) := (Reader.steps (.between []) text).events

/-- The text of an event with one line of data. -/
def frame (payload : List Char) : List Char :=
  ['d', 'a', 't', 'a', ':', ' '] ++ payload ++ ['\n', '\n']

/-- A text of one line. -/
def IsLine (payload : List Char) : Prop := ∀ c ∈ payload, c ≠ '\n' ∧ c ≠ '\r'

/-! ## Events that are read back -/

theorem Reader.steps_append (r : Reader) (text more : List Char) :
    r.steps (text ++ more) = (r.steps text).steps more := List.foldl_append

/-- The characters of a line are collected. -/
theorem Reader.steps_line (r : Reader) (hr : r.returned = false) {text : List Char}
    (h : IsLine text) : r.steps text = { r with line := r.line ++ text } := by
  induction text generalizing r with
  | nil => simp [steps]
  | cons c text ih =>
    obtain ⟨⟨hfeed, hreturn⟩, htext⟩ := List.forall_mem_cons.mp h
    have hstep : r.step c = { r with line := r.line ++ [c] } := by
      simp [Reader.step, hfeed, hreturn, hr]
    have hrest := ih (r.step c) (by rw [hstep]; exact hr) htext
    rw [steps, List.foldl_cons, ← steps, hrest, hstep]
    simp

theorem dataOf_frame (payload : List Char) :
    dataOf (['d', 'a', 't', 'a', ':', ' '] ++ payload) = some payload := rfl

/-- A reader between two events reads the text of one. -/
theorem steps_frame (events : List (List Char)) {payload : List Char} (h : IsLine payload) :
    (Reader.between events).steps (frame payload) = .between (events ++ [payload]) := by
  have hfield : IsLine ['d', 'a', 't', 'a', ':', ' '] := by simp [IsLine]
  have hline : IsLine (['d', 'a', 't', 'a', ':', ' '] ++ payload) := fun c hc =>
    (List.mem_append.mp hc).elim (hfield c) (h c)
  rw [frame, Reader.steps_append, Reader.steps_line _ rfl hline]
  simp only [Reader.between, List.nil_append, Reader.steps, List.foldl_cons, List.foldl_nil,
    Reader.step, Reader.endLine, dataOf_frame]
  simp

/-- Events of one line are read back, whatever has been read before. -/
theorem steps_frames (events : List (List Char)) {payloads : List (List Char)}
    (h : ∀ payload ∈ payloads, IsLine payload) :
    (Reader.between events).steps (payloads.flatMap frame) = .between (events ++ payloads) := by
  induction payloads generalizing events with
  | nil => simp [Reader.steps]
  | cons payload payloads ih =>
    obtain ⟨hpayload, hpayloads⟩ := List.forall_mem_cons.mp h
    rw [List.flatMap_cons, Reader.steps_append, steps_frame events hpayload, ih _ hpayloads,
      List.append_assoc, List.singleton_append]

theorem read_frames {payloads : List (List Char)} (h : ∀ payload ∈ payloads, IsLine payload) :
    read (payloads.flatMap frame) = payloads := by
  rw [read, steps_frames [] h]
  rfl

/-! ## Streams that are cut -/

/-- An event that has been read stays. -/
theorem Reader.events_step (r : Reader) (c : Char) : r.events <+: (r.step c).events := by
  have hend : r.events <+: r.endLine.events := by
    unfold Reader.endLine Reader.between
    split_ifs
    · exact List.prefix_rfl
    · exact List.prefix_append _ _
    · exact List.prefix_rfl
  unfold Reader.step
  split_ifs
  · exact List.prefix_rfl
  · exact hend
  · exact hend
  · exact List.prefix_rfl

theorem Reader.events_steps (r : Reader) (text : List Char) :
    r.events <+: (r.steps text).events := by
  induction text generalizing r with
  | nil => exact List.prefix_rfl
  | cons c text ih => exact (r.events_step c).trans (ih (r.step c))

/-- What has been read of a stream is read of any longer part of it. -/
theorem read_mono {text more : List Char} (h : text <+: more) : read text <+: read more := by
  obtain ⟨rest, rfl⟩ := h
  rw [read, read, Reader.steps_append]
  exact Reader.events_steps _ rest

/-- A part of a stream of one-line events shows the first of them. -/
theorem read_prefix_of_prefix {payloads : List (List Char)} {received : List Char}
    (h : ∀ payload ∈ payloads, IsLine payload) (hreceived : received <+: payloads.flatMap frame) :
    read received <+: payloads := by
  have hread := read_mono hreceived
  rwa [read_frames h] at hread

/-- Events that have arrived are shown, whatever follows. -/
theorem prefix_read_of_prefix {payloads : List (List Char)} {received : List Char}
    (h : ∀ payload ∈ payloads, IsLine payload) (hreceived : payloads.flatMap frame <+: received) :
    payloads <+: read received := by
  have hread := read_mono hreceived
  rwa [read_frames h] at hread

end Logit.EventStream
