import Logit.Calendar.Datetime
import Logit.Chats.Stream
import Logit.Pagination.Keyset

/-!
# Chat history

The messages of a question are read a page at a time, the latest first; each answer names
the oldest message on it as the cursor of the next request. The condition on the next page
compares instants and then ids, but the query orders by instants alone. So following the
cursors visits every message once exactly if no page ends among messages of one instant.

## Main definitions

* `StoredChat`, `ChatDatabase` — the rows that are read
* `getChatHistoryResponse` — the answer to a request, given the order of the query
* `HistoryWalk` — the answers of a client that follows the cursors
* `Lossless` — every walk ends, and visits every message once, in order on each page

## Main results

* `lossless_iff` — walks are lossless if and only if no page ends among messages of one instant
-/

namespace Logit.Chats

open Calendar Pagination Python

/-! ## The request -/

/-- A stored message. -/
structure StoredChat extends Chat where
  createdAt : Datetime
  deriving DecidableEq, Repr

/-- A question, as far as the history reads it. -/
structure StoredQuestion extends Question where
  question : String
  answer : Option String
  deriving DecidableEq, Repr

/-- A project, as far as the history reads it. -/
structure Project where
  company : String
  jobPosition : String
  createdAt : Datetime
  deriving DecidableEq, Repr

/-- The tables the history is read from; questions and projects are keyed by their ids. -/
structure ChatDatabase where
  questions : UUID → Option StoredQuestion
  projects : UUID → Option Project
  chats : List StoredChat

structure ChatHistoryItem where
  id : UUID
  role : ChatRole
  content : String
  isDraft : Bool
  createdAt : Datetime
  deriving DecidableEq, Repr

structure ChatHistoryResponse where
  projectName : String
  projectCreatedAt : Datetime
  questionId : UUID
  question : String
  answer : Option String
  chats : List ChatHistoryItem
  experienceIds : List String
  nextCursor : Option String
  hasMore : Bool
  remainingChats : Option ℤ
  remainingDrafts : Option ℤ
  deriving DecidableEq, Repr

/-- The question is another user's. -/
inductive HistoryError
  | forbiddenError
  deriving DecidableEq, Repr

/-- A message as it is answered. -/
def historyItem (chat : StoredChat) : ChatHistoryItem :=
  ⟨chat.id, chat.role, chat.content, chat.isDraft, chat.createdAt⟩

/-- The message a cursor stands for; a cursor that is empty, malformed or unknown is ignored. -/
def cursorChat (db : ChatDatabase) (cursor : Option String) : Option StoredChat :=
  match cursor with
  | none => none
  | some text =>
    if text = "" then none
    else (UUID.parse text).bind fun cursorUuid => db.chats.find? (·.id = cursorUuid)

/-- The condition of the query on a message, given that of the cursor. -/
def beforeCursor (cursor : Option StoredChat) (chat : StoredChat) : Bool :=
  match cursor with
  | none => true
  | some c => chat.createdAt < c.createdAt ∨ chat.createdAt = c.createdAt ∧ chat.id < c.id

/-- The experiences of the latest message that has any. -/
def latestExperienceIds (messages : List StoredChat) : List String :=
  (messages.reverse.findSome? fun msg => msg.experienceIds.filter (· ≠ [])).getD []

/-- The answer made of what the query returns: a page of messages, and one more if there is. -/
def historyResponse (question : StoredQuestion) (project : Project) (size : ℕ)
    (found : List StoredChat) (remainingChats remainingDrafts : Option ℤ) : ChatHistoryResponse :=
  let hasMore := decide (size < found.length)
  let messages := (if hasMore then found.take size else found).reverse
  { projectName := project.company ++ "_" ++ project.jobPosition
    projectCreatedAt := project.createdAt
    questionId := question.id
    question := question.question
    answer := question.answer
    chats := messages.map historyItem
    experienceIds := latestExperienceIds messages
    nextCursor := if hasMore then messages.head?.map (·.id.str) else none
    hasMore, remainingChats, remainingDrafts }

/-- The answer to a request; nothing where the question or its project is missing. The order is
the one the database returns the rows of the query in. -/
def getChatHistoryResponse (order : List StoredChat → List StoredChat) (db : ChatDatabase)
    (questionId userId : UUID) (cursor : Option String) (size : ℕ)
    (remainingChats remainingDrafts : Option ℤ) :
    Except HistoryError (Option ChatHistoryResponse) :=
  match db.questions questionId with
  | none => .ok none
  | some question =>
    if question.userId ≠ userId then .error .forbiddenError
    else
      match db.projects question.projectId with
      | none => .ok none
      | some project =>
        let asked := db.chats.filter fun chat =>
          chat.questionId = questionId ∧ beforeCursor (cursorChat db cursor) chat
        .ok (some (historyResponse question project size ((order asked).take (size + 1))
          remainingChats remainingDrafts))

/-! ## Walks -/

variable (db : ChatDatabase) (questionId userId : UUID) (size : ℕ)

/-- An answer to a request, with any order of messages of one instant. -/
def Answers (cursor : Option String) (response : ChatHistoryResponse) : Prop :=
  ∃ order remainingChats remainingDrafts,
    (∀ rows, NewestFirst StoredChat.createdAt rows (order rows)) ∧
    getChatHistoryResponse order db questionId userId cursor size remainingChats
      remainingDrafts = .ok (some response)

/-- The answers of a client that follows the cursors until there is no more. -/
inductive HistoryWalk : Option String → List ChatHistoryResponse → Prop
  | last {cursor : Option String} {response : ChatHistoryResponse}
      (hanswers : Answers db questionId userId size cursor response)
      (hmore : response.hasMore = false) : HistoryWalk cursor [response]
  | more {cursor : Option String} {response : ChatHistoryResponse}
      {responses : List ChatHistoryResponse}
      (hanswers : Answers db questionId userId size cursor response)
      (hmore : response.hasMore = true) (hwalk : HistoryWalk response.nextCursor responses) :
      HistoryWalk cursor (response :: responses)

/-- A request that follows another. -/
def Follows (next cursor : Option String) : Prop :=
  ∃ response, Answers db questionId userId size cursor response ∧ response.hasMore = true ∧
    response.nextCursor = next

/-- The messages of the question. -/
def messagesOf : List StoredChat := db.chats.filter (·.questionId = questionId)

/-- The walks from the first page end, and each visits every message once, in chronological order
on every page. -/
structure Lossless : Prop where
  terminates : Acc (Follows db questionId userId size) none
  exists_walk : ∃ responses, HistoryWalk db questionId userId size none responses
  once : ∀ responses, HistoryWalk db questionId userId size none responses →
    (responses.flatMap (·.chats)).Perm ((messagesOf db questionId).map historyItem)
  chronological : ∀ responses, HistoryWalk db questionId userId size none responses →
    ∀ response ∈ responses,
      response.chats.Pairwise fun earlier later => earlier.createdAt ≤ later.createdAt

/-! ## Answers -/

variable {db questionId userId size}

/-- The number of a message's id. -/
def chatNumber (chat : StoredChat) : ℕ := chat.id.toNat

/-- The cursor a message is answered as. -/
def cursorText (cursor : Option StoredChat) : Option String := cursor.map (·.id.str)

/-- The messages a request with a cursor asks for. -/
def asked (db : ChatDatabase) (questionId : UUID) (cursor : Option StoredChat) :
    List StoredChat :=
  rest StoredChat.createdAt chatNumber (messagesOf db questionId) cursor

theorem str_ne_empty (uuid : UUID) : uuid.str ≠ "" := by
  intro hempty
  have hparse := UUID.parse_str uuid
  rw [hempty, show UUID.parse "" = none by decide] at hparse
  cases hparse

/-- The cursor of a message stands for the message. -/
theorem cursorChat_cursorText (hids : (db.chats.map (·.id)).Nodup) {cursor : Option StoredChat}
    (hcursor : ∀ c ∈ cursor, c ∈ db.chats) : cursorChat db (cursorText cursor) = cursor := by
  cases cursor with
  | none => rfl
  | some c =>
    have hc := hcursor c rfl
    have hfind : db.chats.find? (fun chat => decide (chat.id = c.id)) = some c := by
      obtain ⟨found, hfound⟩ := Option.isSome_iff_exists.mp
        (List.find?_isSome.mpr ⟨c, hc, decide_eq_true rfl⟩ :
          (db.chats.find? fun chat => decide (chat.id = c.id)).isSome)
      have hid : found.id = c.id := by simpa using List.find?_some hfound
      rw [hfound, List.inj_on_of_nodup_map hids (List.mem_of_find?_eq_some hfound) hc hid]
    simp only [cursorText, cursorChat, Option.map_some, if_neg (str_ne_empty c.id),
      UUID.parse_str, Option.bind_some, hfind]

theorem filter_beforeCursor (cursor : Option StoredChat) :
    (db.chats.filter fun chat => chat.questionId = questionId ∧ beforeCursor cursor chat) =
      asked db questionId cursor := by
  rw [asked, rest, messagesOf, List.filter_filter]
  refine List.filter_congr fun chat _ => ?_
  have hpast : beforeCursor cursor chat =
      decide (Past StoredChat.createdAt chatNumber cursor chat) := by
    cases cursor with
    | none => simp [beforeCursor, Past]
    | some c => simp [beforeCursor, past_some, chatNumber, BitVec.lt_def]
  rw [hpast]
  simp [Bool.and_comm]

/-- A page as it is answered. -/
def pageItems (page : List StoredChat) : List ChatHistoryItem := page.reverse.map historyItem

/-- An answer without more has what the query returns, and one with more a page of it and the
cursor of the last message of the page. -/
def Shows (size : ℕ) (all : List StoredChat) (response : ChatHistoryResponse) : Prop :=
  (all.length ≤ size ∧ response.hasMore = false ∧ response.chats = pageItems all) ∨
    ∃ page c tail, all = page ++ [c] ++ tail ∧ (page ++ [c]).length = size ∧ tail ≠ [] ∧
      response.hasMore = true ∧ response.nextCursor = cursorText (some c) ∧
      response.chats = pageItems (page ++ [c])

variable {question : StoredQuestion} {project : Project} {cursor : Option StoredChat}

theorem shows_historyResponse (question : StoredQuestion) (project : Project) (hsize : 1 ≤ size)
    (all : List StoredChat) (remainingChats remainingDrafts : Option ℤ) :
    Shows size all (historyResponse question project size (all.take (size + 1)) remainingChats
      remainingDrafts) := by
  rcases le_or_gt all.length size with hfew | hmany
  · left
    rw [List.take_of_length_le (by omega)]
    refine ⟨hfew, decide_eq_false (not_lt.mpr hfew), ?_⟩
    simp [historyResponse, pageItems, not_lt.mpr hfew]
  · right
    obtain ⟨page, c, tail, rfl, hpage, htail⟩ := exists_page hsize hmany
    have hmore : size < ((page ++ [c] ++ tail).take (size + 1)).length := by
      rw [List.length_take]
      omega
    have htake : ((page ++ [c] ++ tail).take (size + 1)).take size = page ++ [c] := by
      rw [List.take_take, min_eq_left (by omega), ← hpage, List.take_left]
    refine ⟨page, c, tail, rfl, hpage, htail, decide_eq_true hmore, ?_, ?_⟩
    · simp only [historyResponse, hmore, decide_true, if_true, htake]
      simp [cursorText]
    · simp only [historyResponse, hmore, decide_true, if_true, htake, pageItems]

/-- An answer to a request shows what a query may return. -/
theorem shows_of_answers (hids : (db.chats.map (·.id)).Nodup) (hsize : 1 ≤ size)
    (hcursor : ∀ c ∈ cursor, c ∈ db.chats) {response : ChatHistoryResponse}
    (h : Answers db questionId userId size (cursorText cursor) response) :
    ∃ all, NewestFirst StoredChat.createdAt (asked db questionId cursor) all ∧
      Shows size all response := by
  obtain ⟨order, remainingChats, remainingDrafts, horder, hresponse⟩ := h
  refine ⟨order (asked db questionId cursor), horder _, ?_⟩
  unfold getChatHistoryResponse at hresponse
  rw [cursorChat_cursorText hids hcursor, filter_beforeCursor] at hresponse
  split at hresponse
  · cases hresponse
  · split_ifs at hresponse
    split at hresponse
    · cases hresponse
    · obtain rfl := Option.some.inj (Except.ok.inj hresponse)
      exact shows_historyResponse _ _ hsize _ _ _

/-- Whatever a query may return is shown by an answer. -/
theorem exists_answers (hids : (db.chats.map (·.id)).Nodup) (hsize : 1 ≤ size)
    (hquestion : db.questions questionId = some question) (huser : question.userId = userId)
    (hproject : db.projects question.projectId = some project)
    (hcursor : ∀ c ∈ cursor, c ∈ db.chats) {all : List StoredChat}
    (hall : NewestFirst StoredChat.createdAt (asked db questionId cursor) all) :
    ∃ response, Answers db questionId userId size (cursorText cursor) response ∧
      Shows size all response := by
  choose order hperm hsorted using exists_byKeyAndId StoredChat.createdAt chatNumber
  refine ⟨_, ⟨fun rows => if rows = asked db questionId cursor then all else order rows, none,
    none, fun rows => ?_, ?_⟩, shows_historyResponse question project hsize all none none⟩
  · dsimp only
    split_ifs with hrows
    · exact hrows ▸ hall
    · exact newestFirst_of_byKeyAndId (hperm rows) (hsorted rows)
  · unfold getChatHistoryResponse
    rw [cursorChat_cursorText hids hcursor, filter_beforeCursor]
    simp [hquestion, huser, hproject]

/-! ## Walks and pages -/

/-- The walks over the messages of the question, as pages. -/
abbrev Pages (db : ChatDatabase) (questionId : UUID) (size : ℕ) :
    Option StoredChat → List (List StoredChat) → Prop :=
  Walk StoredChat.createdAt chatNumber (messagesOf db questionId) size

theorem mem_chats_of_asked {chat : StoredChat} (h : chat ∈ asked db questionId cursor) :
    chat ∈ db.chats :=
  List.mem_of_mem_filter (mem_rest.mp h).1

/-- The answers of a walk show its pages. -/
theorem exists_pages (hids : (db.chats.map (·.id)).Nodup) (hsize : 1 ≤ size)
    (cursor : Option StoredChat) (hcursor : ∀ c ∈ cursor, c ∈ db.chats)
    {responses : List ChatHistoryResponse}
    (hwalk : HistoryWalk db questionId userId size (cursorText cursor) responses) :
    ∃ pages, Pages db questionId size cursor pages ∧
      responses.map (·.chats) = pages.map pageItems := by
  generalize htext : cursorText cursor = text at hwalk
  -- By induction on the walk; the cursor of an answer stands for the last message of its page.
  induction hwalk generalizing cursor with
  | last hanswers hmore =>
    subst htext
    obtain ⟨all, hall, hshows⟩ := shows_of_answers hids hsize hcursor hanswers
    rcases hshows with ⟨hfew, -, hchats⟩ | ⟨_, _, _, -, -, -, hmore', -, -⟩
    · exact ⟨[all], .last hall hfew, by simp [hchats]⟩
    · rw [hmore] at hmore'
      cases hmore'
  | more hanswers hmore hwalk ih =>
    subst htext
    obtain ⟨all, hall, hshows⟩ := shows_of_answers hids hsize hcursor hanswers
    rcases hshows with ⟨-, hmore', -⟩ | ⟨page, c, tail, rfl, hpage, htail, -, hnext, hchats⟩
    · rw [hmore] at hmore'
      cases hmore'
    · have hc : ∀ d ∈ some c, d ∈ db.chats := fun d hd =>
        Option.some.inj hd ▸ mem_chats_of_asked (hall.1.subset (by simp))
      obtain ⟨pages, hpages, hmap⟩ := ih (some c) hc hnext.symm
      exact ⟨(page ++ [c]) :: pages, .more hall hpage htail hpages, by simp [hchats, hmap]⟩

section Served

variable (hids : (db.chats.map (·.id)).Nodup) (hsize : 1 ≤ size)
  (hquestion : db.questions questionId = some question) (huser : question.userId = userId)
  (hproject : db.projects question.projectId = some project)

include hids hsize hquestion huser hproject

/-- The pages of a walk are shown by answers. -/
theorem exists_responses (cursor : Option StoredChat) {pages : List (List StoredChat)}
    (hcursor : ∀ c ∈ cursor, c ∈ db.chats) (hpages : Pages db questionId size cursor pages) :
    ∃ responses, HistoryWalk db questionId userId size (cursorText cursor) responses ∧
      responses.map (·.chats) = pages.map pageItems := by
  -- By induction on the pages; every page is what some query may return.
  induction hpages with
  | last hall hfew =>
    obtain ⟨response, hanswers, hshows⟩ :=
      exists_answers hids hsize hquestion huser hproject hcursor hall
    rcases hshows with ⟨-, hmore, hchats⟩ | ⟨page, c, tail, rfl, hpage, htail, -⟩
    · exact ⟨[response], .last hanswers hmore, by simp [hchats]⟩
    · have hlength := List.length_pos_iff.mpr htail
      rw [List.length_append] at hfew
      omega
  | @more cursor page tail c pages hall hpage htail hwalk ih =>
    obtain ⟨response, hanswers, hshows⟩ :=
      exists_answers hids hsize hquestion huser hproject hcursor hall
    have hc : ∀ d ∈ some c, d ∈ db.chats := fun d hd =>
      Option.some.inj hd ▸ mem_chats_of_asked (hall.1.subset (by simp))
    obtain ⟨responses, hresponses, hmap⟩ := ih hc
    rcases hshows with ⟨hfew, -, -⟩ | ⟨page', c', tail', heq, hpage', -, hmore, hnext, hchats⟩
    · have hlength := List.length_pos_iff.mpr htail
      rw [List.length_append] at hfew
      omega
    · obtain ⟨hsame, -⟩ := List.append_inj heq (hpage.trans hpage'.symm)
      obtain ⟨rfl, hlast⟩ := List.append_inj' hsame rfl
      obtain rfl := List.singleton_inj.mp hlast
      exact ⟨response :: responses, .more hanswers hmore (hnext ▸ hresponses),
        by simp [hchats, hmap]⟩

end Served

/-- Each request asks for fewer messages than the one before. -/
theorem acc_follows (hids : (db.chats.map (·.id)).Nodup) (hsize : 1 ≤ size)
    (cursor : Option StoredChat) (hcursor : ∀ c ∈ cursor, c ∈ db.chats) :
    Acc (Follows db questionId userId size) (cursorText cursor) := by
  induction hn : (asked db questionId cursor).length using Nat.strong_induction_on
    generalizing cursor with
  | _ n ih =>
    refine .intro _ fun next hfollows => ?_
    obtain ⟨response, hanswers, hmore, rfl⟩ := hfollows
    obtain ⟨all, hall, hshows⟩ := shows_of_answers hids hsize hcursor hanswers
    rcases hshows with ⟨-, hmore', -⟩ | ⟨page, c, tail, rfl, -, -, -, hnext, -⟩
    · rw [hmore] at hmore'
      cases hmore'
    · have hc : c ∈ asked db questionId cursor := hall.1.subset (by simp)
      rw [hnext]
      exact ih _ (hn ▸ length_rest_lt hc) (some c)
        (fun d hd => Option.some.inj hd ▸ mem_chats_of_asked hc) rfl

theorem chronological_historyResponse (question : StoredQuestion) (project : Project)
    {all : List StoredChat}
    (h : all.Pairwise fun first second => second.createdAt ≤ first.createdAt)
    (remainingChats remainingDrafts : Option ℤ) :
    (historyResponse question project size (all.take (size + 1)) remainingChats
      remainingDrafts).chats.Pairwise fun earlier later => earlier.createdAt ≤ later.createdAt := by
  have hfound := h.sublist (List.take_sublist (size + 1) all)
  refine List.pairwise_map.mpr (List.pairwise_reverse.mpr ?_)
  split_ifs
  · exact hfound.sublist (List.take_sublist size _)
  · exact hfound

/-- The messages of an answer are in chronological order. -/
theorem chronological_of_answers {cursor : Option String} {response : ChatHistoryResponse}
    (h : Answers db questionId userId size cursor response) :
    response.chats.Pairwise fun earlier later => earlier.createdAt ≤ later.createdAt := by
  obtain ⟨order, remainingChats, remainingDrafts, horder, hresponse⟩ := h
  unfold getChatHistoryResponse at hresponse
  split at hresponse
  · cases hresponse
  · split_ifs at hresponse
    split at hresponse
    · cases hresponse
    · obtain rfl := Option.some.inj (Except.ok.inj hresponse)
      exact chronological_historyResponse _ _ (horder _).2 _ _

theorem chronological_of_walk {cursor : Option String} {responses : List ChatHistoryResponse}
    (hwalk : HistoryWalk db questionId userId size cursor responses) :
    ∀ response ∈ responses,
      response.chats.Pairwise fun earlier later => earlier.createdAt ≤ later.createdAt := by
  induction hwalk with
  | last hanswers hmore =>
    intro response hresponse
    rw [List.mem_singleton.mp hresponse]
    exact chronological_of_answers hanswers
  | more hanswers hmore hwalk ih =>
    intro response hresponse
    rcases List.mem_cons.mp hresponse with rfl | hresponse
    · exact chronological_of_answers hanswers
    · exact ih response hresponse

/-! ## Messages that are visited once -/

theorem flatten_pageItems_perm (pages : List (List StoredChat)) :
    (pages.map pageItems).flatten.Perm (pages.flatten.map historyItem) := by
  induction pages with
  | nil => exact .refl _
  | cons page pages ih =>
    rw [List.map_cons, List.flatten_cons, List.flatten_cons, List.map_append]
    exact ((List.reverse_perm page).map historyItem).append ih

theorem flatMap_chats_perm {responses : List ChatHistoryResponse}
    {pages : List (List StoredChat)} (h : responses.map (·.chats) = pages.map pageItems) :
    (responses.flatMap (·.chats)).Perm (pages.flatten.map historyItem) := by
  rw [List.flatMap_def, h]
  exact flatten_pageItems_perm pages

theorem nodup_messagesOf (hids : (db.chats.map (·.id)).Nodup) (questionId : UUID) :
    ((messagesOf db questionId).map chatNumber).Nodup := by
  have hnumbers : (db.chats.map chatNumber).Nodup := by
    have hmap : db.chats.map chatNumber = (db.chats.map (·.id)).map BitVec.toNat := by
      rw [List.map_map]
      rfl
    rw [hmap]
    exact hids.map fun _ _ h => BitVec.eq_of_toNat_eq h
  exact hnumbers.sublist (List.filter_sublist.map chatNumber)

/-- Answers that show every message once do so because the pages have every message once. -/
theorem perm_of_items_perm (hids : (db.chats.map (·.id)).Nodup) {visited : List StoredChat}
    (hvisited : ∀ chat ∈ visited, chat ∈ messagesOf db questionId)
    (h : (visited.map historyItem).Perm ((messagesOf db questionId).map historyItem)) :
    visited.Perm (messagesOf db questionId) := by
  have hnumbers := nodup_messagesOf hids questionId
  -- An item shows the id of its message, and no two messages have one id.
  have hperm : (visited.map chatNumber).Perm ((messagesOf db questionId).map chatNumber) := by
    have hmap : ∀ chats : List StoredChat, chats.map chatNumber =
        (chats.map historyItem).map (·.id.toNat) := fun chats => by
      rw [List.map_map]
      rfl
    rw [hmap, hmap]
    exact h.map _
  have hvisitedOnce : visited.Nodup := .of_map _ (hperm.nodup_iff.mpr hnumbers)
  refine (List.perm_ext_iff_of_nodup hvisitedOnce (.of_map _ hnumbers)).mpr fun chat =>
    ⟨hvisited chat, fun hchat => ?_⟩
  obtain ⟨other, hother, hnumber⟩ :=
    List.mem_map.mp (hperm.symm.subset (List.mem_map_of_mem hchat))
  exact List.inj_on_of_nodup_map hnumbers (hvisited other hother) hchat hnumber ▸ hother

section Served

variable (hids : (db.chats.map (·.id)).Nodup) (hsize : 1 ≤ size)
  (hquestion : db.questions questionId = some question) (huser : question.userId = userId)
  (hproject : db.projects question.projectId = some project)

include hids hsize hquestion huser hproject

theorem separated_of_lossless (h : Lossless db questionId userId size) :
    Separated StoredChat.createdAt (messagesOf db questionId) size := by
  refine (flatten_perm_iff hsize (nodup_messagesOf hids questionId)).mp fun pages hpages => ?_
  obtain ⟨responses, hwalk, hmap⟩ :=
    exists_responses hids hsize hquestion huser hproject none nofun hpages
  have honce := (flatMap_chats_perm hmap).symm.trans (h.once responses hwalk)
  refine perm_of_items_perm hids (fun chat hchat => ?_) honce
  exact (mem_rest.mp (mem_rest_of_walk hpages hchat)).1

theorem lossless_of_separated
    (h : Separated StoredChat.createdAt (messagesOf db questionId) size) :
    Lossless db questionId userId size where
  terminates := acc_follows hids hsize none nofun
  exists_walk := by
    obtain ⟨pages, hpages⟩ :=
      exists_walk StoredChat.createdAt chatNumber (messagesOf db questionId) hsize none
    obtain ⟨responses, hwalk, -⟩ :=
      exists_responses hids hsize hquestion huser hproject none nofun hpages
    exact ⟨responses, hwalk⟩
  once responses hwalk := by
    obtain ⟨pages, hpages, hmap⟩ := exists_pages hids hsize none nofun hwalk
    have hperm := (flatten_perm_iff hsize (nodup_messagesOf hids questionId)).mpr h pages hpages
    exact (flatMap_chats_perm hmap).trans (hperm.map historyItem)
  chronological _ hwalk := chronological_of_walk hwalk

end Served

/-- Walks from the first page are lossless if and only if no page ends among messages of one
instant. -/
theorem lossless_iff (hids : (db.chats.map (·.id)).Nodup) (hsize : 1 ≤ size)
    (hquestion : db.questions questionId = some question) (huser : question.userId = userId)
    (hproject : db.projects question.projectId = some project) :
    Lossless db questionId userId size ↔
      Separated StoredChat.createdAt (messagesOf db questionId) size :=
  ⟨separated_of_lossless hids hsize hquestion huser hproject,
    lossless_of_separated hids hsize hquestion huser hproject⟩

/-! ### Two messages -/

/-- A message of a question. -/
def message (id : UUID) (role : ChatRole) (createdAt : Datetime) : StoredChat :=
  ⟨⟨id, 1, 2, 3, role, "협업 경험을 중심으로", none, false⟩, createdAt⟩

/-- A question with messages. -/
def askedQuestion (chats : List StoredChat) : ChatDatabase where
  questions id := if id = 2 then some ⟨⟨2, 1, 3⟩, "지원동기", none⟩ else none
  projects id := if id = 1 then some ⟨"네이버", "백엔드개발자", .utc 2026 1 20 10⟩ else none
  chats := chats

/-- A message, and the answer an hour later. -/
def answeredQuestion : ChatDatabase :=
  askedQuestion [message 7 .user (.utc 2026 1 20 10), message 8 .assistant (.utc 2026 1 20 11)]

/-- Two messages of one instant. -/
def crowdedQuestion : ChatDatabase :=
  askedQuestion [message 7 .user (.utc 2026 1 20 10), message 8 .assistant (.utc 2026 1 20 10)]

theorem lossless_iff_answered : Lossless answeredQuestion 2 3 1 := by
  have hties : ∀ c ∈ messagesOf answeredQuestion 2,
      ties StoredChat.createdAt (messagesOf answeredQuestion 2) c = 1 := by decide
  exact (@lossless_iff answeredQuestion 2 3 1 _ _ (by decide) (by decide) rfl rfl rfl).mpr
    fun _ _ c hc _ _ => hties c hc

/-- Of two messages of one instant, pages of one message show one only. -/
theorem not_lossless : ¬ ∀ (db : ChatDatabase) (questionId userId : UUID) (size : ℕ)
    (question : StoredQuestion) (project : Project), (db.chats.map (·.id)).Nodup → 1 ≤ size →
    db.questions questionId = some question → question.userId = userId →
    db.projects question.projectId = some project → Lossless db questionId userId size := by
  intro h
  have hids : (crowdedQuestion.chats.map (·.id)).Nodup := by decide
  let question : StoredQuestion := ⟨⟨2, 1, 3⟩, "지원동기", none⟩
  have hquestion : crowdedQuestion.questions 2 = some question := rfl
  have huser : question.userId = 3 := rfl
  have hproject : crowdedQuestion.projects 1 = some _ := rfl
  have hlossless := h crowdedQuestion 2 3 1 _ _ hids (le_refl 1) hquestion huser hproject
  have hseparated :=
    separated_of_lossless hids (le_refl 1) hquestion huser hproject hlossless
  have hties := hseparated 1 (by decide) (message 7 .user (.utc 2026 1 20 10)) (by decide)
    (by decide) (by decide)
  exact absurd hties (by decide)

end Logit.Chats
