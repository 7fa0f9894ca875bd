import Mathlib.Data.List.Basic
import Mathlib.Logic.Relation

/-!
# Queues with heartbeats

A task puts items in a queue, and at last the signal that it is over. A reader takes them out in
their order and hands them on; while it waits it hands on a heartbeat, and it may leave at any
time. So what has been handed on is, heartbeats apart, what the task has put in the queue, up to
what is still there.

## Main definitions

* `Relay`, `Step`, `Reachable` — a task, its queue and its reader, and what they do
* `Produces` — what a task puts in its queue
* `Interspersed` — a list with heartbeats put in

## Main results

* `relayed_of_reachable` — no item is lost, handed on twice or out of turn
* `signal_mem_of_reachable` — no reader waits for a task that is over
-/

namespace Logit.Queue

variable {π α β : Type*}

/-- Whether a reader still reads. -/
inductive Reader
  | reading
  /-- It has read the signal that the task is over. -/
  | ended
  /-- It has left before. -/
  | gone
  deriving DecidableEq, Repr

/-- A task, the items in its queue, with `none` for the signal that it is over, and what the reader
has handed on. -/
structure Relay (π α : Type*) where
  task : π
  queue : List (Option α)
  yielded : List α
  reader : Reader

/-- Nothing has been done yet. -/
def Relay.started (task : π) : Relay π α := ⟨task, [], [], .reading⟩

variable (act : π → List (Option α) → π → Prop) (heartbeat : α)

/-- A statement of the task, with the items it puts in the queue, or one of the reader. -/
inductive Step : Relay π α → Relay π α → Prop
  | put {task task' : π} {items queue : List (Option α)} {yielded : List α} {reader : Reader}
      (h : act task items task') :
      Step ⟨task, queue, yielded, reader⟩ ⟨task', queue ++ items, yielded, reader⟩
  | take {task : π} {item : α} {queue : List (Option α)} {yielded : List α} :
      Step ⟨task, some item :: queue, yielded, .reading⟩
        ⟨task, queue, yielded ++ [item], .reading⟩
  | close {task : π} {queue : List (Option α)} {yielded : List α} :
      Step ⟨task, none :: queue, yielded, .reading⟩ ⟨task, queue, yielded, .ended⟩
  | beat {task : π} {queue : List (Option α)} {yielded : List α} :
      Step ⟨task, queue, yielded, .reading⟩ ⟨task, queue, yielded ++ [heartbeat], .reading⟩
  | leave {task : π} {queue : List (Option α)} {yielded : List α} :
      Step ⟨task, queue, yielded, .reading⟩ ⟨task, queue, yielded, .gone⟩

/-- What a task and its reader come to. -/
def Reachable (start : π) (s : Relay π α) : Prop :=
  Relation.ReflTransGen (Step act heartbeat) (.started start) s

/-- The items a task has put in its queue. -/
inductive Produces (start : π) : List (Option α) → π → Prop
  | refl : Produces start [] start
  | tail {items more : List (Option α)} {task task' : π} (h : Produces start items task)
      (hact : act task more task') : Produces start (items ++ more) task'

/-- The second list is the first with heartbeats put in. -/
inductive Interspersed : List α → List α → Prop
  | nil : Interspersed [] []
  | item {x : α} {xs ys : List α} (h : Interspersed xs ys) : Interspersed (x :: xs) (x :: ys)
  | beat {xs ys : List α} (h : Interspersed xs ys) : Interspersed xs (heartbeat :: ys)

/-- What a reader has taken out of the queue at the end. -/
def Reader.signal : Reader → List (Option α)
  | .ended => [none]
  | _ => []

/-- The task has put in the queue what has been handed on, heartbeats apart, the signal if the
reader has ended, and what is in the queue. -/
def Relayed (start : π) (s : Relay π α) : Prop :=
  ∃ taken, Interspersed heartbeat taken s.yielded ∧
    Produces act start (taken.map some ++ s.reader.signal ++ s.queue) s.task

variable {act heartbeat} {start : π} {s s' : Relay π α} {xs ys xs' ys' : List α}

/-! ## Lists with heartbeats -/

theorem Interspersed.append (h : Interspersed heartbeat xs ys)
    (h' : Interspersed heartbeat xs' ys') : Interspersed heartbeat (xs ++ xs') (ys ++ ys') := by
  induction h with
  | nil => exact h'
  | item _ ih => exact .item ih
  | beat _ ih => exact .beat ih

/-- The list of the images of items, with images of heartbeats put in. -/
theorem Interspersed.exists_map {f : β → α} {b : β} {zs : List β}
    (h : Interspersed (f b) (zs.map f) ys) : ∃ ws, ys = ws.map f ∧ Interspersed b zs ws := by
  generalize hxs : zs.map f = xs at h
  induction h generalizing zs with
  | nil =>
    obtain rfl := List.map_eq_nil_iff.mp hxs
    exact ⟨[], rfl, .nil⟩
  | item _ ih =>
    obtain ⟨z, zs, rfl, rfl, htail⟩ := List.map_eq_cons_iff.mp hxs
    obtain ⟨ws, rfl, hws⟩ := ih htail
    exact ⟨z :: ws, rfl, .item hws⟩
  | beat _ ih =>
    obtain ⟨ws, rfl, hws⟩ := ih hxs
    exact ⟨b :: ws, rfl, .beat hws⟩

/-! ## Runs -/

theorem Relayed.step (h : Relayed act heartbeat start s) (hstep : Step act heartbeat s s') :
    Relayed act heartbeat start s' := by
  obtain ⟨taken, hyielded, hproduces⟩ := h
  cases hstep with
  | put hact =>
    refine ⟨taken, hyielded, ?_⟩
    have hmore := hproduces.tail hact
    rwa [List.append_assoc] at hmore
  | @take task item queue yielded =>
    refine ⟨taken ++ [item], hyielded.append (.item .nil), ?_⟩
    simpa [Reader.signal] using hproduces
  | close =>
    refine ⟨taken, hyielded, ?_⟩
    simpa [Reader.signal] using hproduces
  | beat =>
    refine ⟨taken, ?_, hproduces⟩
    simpa using hyielded.append (.beat .nil)
  | leave => exact ⟨taken, hyielded, hproduces⟩

/-- No item is lost, handed on twice or out of turn. -/
theorem relayed_of_reachable (h : Reachable act heartbeat start s) :
    Relayed act heartbeat start s := by
  induction h with
  | refl => exact ⟨[], .nil, .refl⟩
  | tail _ hstep ih => exact ih.step hstep

/-- The signal of a task that has put it in the queue is there as long as the reader reads. -/
theorem signal_mem_of_reachable (h : Reachable act heartbeat start s)
    (hover : ∀ items, Produces act start items s.task → none ∈ items)
    (hreading : s.reader = .reading) : none ∈ s.queue := by
  obtain ⟨taken, -, hproduces⟩ := relayed_of_reachable h
  have hsignal := hover _ hproduces
  rw [hreading] at hsignal
  simpa [Reader.signal] using hsignal

/-! ## What has been taken -/

/-- The items that have been taken are the first that have been put in. -/
theorem taken_isPrefix {taken items : List α} {rest signal : List (Option α)}
    (hsignal : signal.filterMap id = []) (h : taken.map some ++ rest = items.map some ++ signal) :
    taken <+: items := by
  have hitems := congrArg (List.filterMap id) h
  rw [List.filterMap_append, List.filterMap_append, hsignal, List.append_nil, List.filterMap_map,
    List.filterMap_map, Function.id_comp, List.filterMap_some, List.filterMap_some] at hitems
  exact ⟨_, hitems⟩

/-- The items that have been taken before the signal are all. -/
theorem taken_eq {taken items : List α} {rest signal : List (Option α)}
    (hsignal : signal.filterMap id = [])
    (h : taken.map some ++ none :: rest = items.map some ++ signal) :
    taken = items ∧ signal ≠ [] := by
  induction taken generalizing items with
  | nil =>
    cases items with
    | nil =>
      refine ⟨rfl, fun hnone => ?_⟩
      rw [hnone] at h
      cases h
    | cons item items => cases h
  | cons item taken ih =>
    cases items with
    | nil =>
      rw [List.map_nil, List.nil_append] at h
      rw [← h] at hsignal
      simp at hsignal
    | cons first items =>
      obtain ⟨hfirst, hrest⟩ := List.cons.inj h
      obtain ⟨rfl, hnone⟩ := ih hrest
      exact ⟨congrArg (· :: taken) (Option.some.inj hfirst), hnone⟩

/-! ## The steps that are left -/

/-- The steps that are left, heartbeats apart, by those that are left for the task, each with the
items it puts in the queue. -/
def Relay.left (left : π → ℕ) (s : Relay π α) : ℕ :=
  left s.task + s.queue.length + if s.reader = .reading then 1 else 0

/-- Every step but a heartbeat leaves fewer. -/
theorem Step.left_lt {left : π → ℕ}
    (hleft : ∀ task items task', act task items task' → left task' + items.length < left task)
    (hstep : Step act heartbeat s s') :
    s'.left left < s.left left ∨ s' = { s with yielded := s.yielded ++ [heartbeat] } := by
  cases hstep with
  | put hact =>
    have hless := hleft _ _ _ hact
    refine .inl ?_
    simp only [Relay.left, List.length_append]
    omega
  | take =>
    refine .inl ?_
    simp only [Relay.left, List.length_cons]
    omega
  | close =>
    refine .inl ?_
    simp only [Relay.left, List.length_cons, reduceCtorEq, if_true, if_false]
    omega
  | beat => exact .inr rfl
  | leave =>
    refine .inl ?_
    simp only [Relay.left, reduceCtorEq, if_true, if_false]
    omega

end Logit.Queue
