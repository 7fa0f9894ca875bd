import Logit.Chats.Charging
import Logit.Chats.History
import Logit.Tokens.MonthlyGrant

/-!
# Remaining chats

The history of a question reports how many chats a user has left: their balance divided by the
cost of a chat. But a chat is accepted only if the balance covers the cost of a draft, and that
cost is taken before the answer. So of the chats reported the last one is refused.

## Main definitions

* `sendChat`, `getChatMessages` — the requests, given the token row they find
* `Undisturbed` — chats in a row, with no other token operation between them
* `RefusedAfter` — the number of chats that are accepted before one is refused
* `Usable` — as many chats as reported are accepted before one is refused

## Main results

* `refusedAfter_iff` — how many chats are accepted
* `usable_iff` — when the report is right
-/

namespace Logit.Chats

open Calendar Concurrency Python Subscriptions Tokens

/-! ## The requests -/

/-- A request to send a message: the stream it starts, and what is read before. -/
structure Post where
  subscription : Option Subscription
  /-- The clock of the monthly grant. -/
  clock : Clock
  request : Request

/-- The answer to a message. -/
inductive SendChatResponse
  /-- HTTP 429. -/
  | tooManyRequests (message : String) (balance required : ℤ)
  | stream (world : World)

/-- Sends a message, given the token row the monthly grant finds. -/
def sendChat (post : Post) (row : Option UserToken) : Except TokenError SendChatResponse :=
  if post.request.isTestUser then .ok (.stream post.request.run)
  else do
    let (_, _, token) ←
      (ensureMonthlyTokens post.request.userId post.clock row post.subscription).result
    if token.balance < DRAFT_TOKEN_COST then
      return .tooManyRequests "토큰이 부족합니다." token.balance DRAFT_TOKEN_COST
    else return .stream post.request.run

/-- A request to read the messages of a question. -/
structure HistoryQuery where
  subscription : Option Subscription
  clock : Clock
  questionId : UUID
  userId : UUID
  cursor : Option String
  size : ℕ
  size_pos : 1 ≤ size
  size_le : size ≤ 100

/-- Why messages are not answered. -/
inductive GetMessagesError
  | token (error : TokenError)
  | history (error : HistoryError)
  | notFound (detail : String)

/-- Reads the messages of a question, given the token row the monthly grant finds. -/
def getChatMessages (order : List StoredChat → List StoredChat) (db : ChatDatabase)
    (query : HistoryQuery) (row : Option UserToken) :
    Except GetMessagesError ChatHistoryResponse := do
  let (_, _, token) ← (ensureMonthlyTokens query.userId query.clock row
    query.subscription).result.mapError .token
  let response ← (getChatHistoryResponse order db query.questionId query.userId query.cursor
    query.size (some (token.balance / CHAT_TOKEN_COST)) none).mapError .history
  match response with
  | none => throw (.notFound "Question not found")
  | some response => return response

/-! ## Chats in a row -/

/-- The row after the cost of a draft has been taken. -/
def prededucted (request : Request) (row : UserToken) : UserToken :=
  (debit request.userId (request.clock 0) (some row) DRAFT_TOKEN_COST .draftUsage
    (some "선차감 (채팅/초안)")).token

/-- The row after what a chat did not cost has been given back. -/
def refunded (request : Request) (row : UserToken) : UserToken :=
  (credit request.userId (request.clock 1) (some row) (DRAFT_TOKEN_COST - actualCost false)
    .chatRefund (some "채팅 비용 조정 (선차감 차액 환불)")).token

/-- The row a message leaves whose answer is no draft, where the month's tokens have been granted
before. -/
def Post.after (post : Post) (row : UserToken) : UserToken :=
  match sendChat post (some row) with
  | .ok (.stream _) => refunded post.request (prededucted post.request row)
  | _ => row

/-- A message that is sent with a row while no other token operation intervenes, and that the
model answers with a chat. -/
structure Undisturbed (post : Post) (row : UserToken) : Prop where
  user : post.request.isTestUser = false
  question : ∃ question, post.request.question = some question ∧
    question.userId = post.request.userId
  project : post.request.projectExists = true
  proceeds : ∀ i, post.request.plan i = .proceed
  answered : ∃ contents content pings, post.request.chunks =
    generateAiResponseStream ⟨contents, .done content false⟩ pings
  granted : alreadyGranted row.lastMonthlyGrantAt
    (currentBillingPeriodStart post.subscription (post.clock .billed)) = true
  found : post.request.found 0 = some row
  foundThen : post.request.found 1 = some (prededucted post.request row)

/-- Messages in a row, and the token rows between them. -/
structure InARow (posts : ℕ → Post) (rows : ℕ → UserToken) : Prop where
  undisturbed : ∀ n, Undisturbed (posts n) (rows n)
  next : ∀ n, rows (n + 1) = (posts n).after (rows n)

/-- The message is streamed an answer, and the answer is saved. -/
def Accepted (post : Post) (row : UserToken) : Prop :=
  ∃ w, sendChat post (some row) = .ok (.stream w) ∧ answersOf w.chats = [false]

/-- The message is refused for lack of tokens. -/
def Refused (post : Post) (row : UserToken) : Prop :=
  ∃ message balance required,
    sendChat post (some row) = .ok (.tooManyRequests message balance required)

/-- So many messages are accepted before one is refused. -/
structure RefusedAfter (posts : ℕ → Post) (rows : ℕ → UserToken) (n : ℕ) : Prop where
  accepted : ∀ i < n, Accepted (posts i) (rows i)
  refused : Refused (posts n) (rows n)

/-- As many messages as the response reports are accepted before one is refused. -/
def Usable (response : ChatHistoryResponse) (posts : ℕ → Post) (rows : ℕ → UserToken) : Prop :=
  ∃ n : ℕ, response.remainingChats = some (n : ℤ) ∧ RefusedAfter posts rows n

/-! ## One message -/

variable {post : Post} {row : UserToken}

/-- What an answer commits in the end. -/
theorem finalCharge_generateAiResponseStream (contents : List String) (content : String)
    (isDraft : Bool) (pings : ℕ → ℕ) :
    finalCharge (generateAiResponseStream ⟨contents, .done content isDraft⟩ pings) =
      join (-10, []) (difference isDraft, [isDraft]) := by
  have hpings : ∀ (n : ℕ) (chunks : List Chunk),
      finalCharge (List.replicate n .ping ++ chunks) = finalCharge chunks := by
    intro n chunks
    induction n with
    | zero => rfl
    | succ n ih => exact ih
  unfold generateAiResponseStream
  generalize 0 = n
  induction contents generalizing n with
  | nil => exact hpings (pings n) _
  | cons text contents ih => exact (hpings (pings n) _).trans (ih (n + 1))

namespace Undisturbed

/-- The monthly grant leaves the row, and the balance alone decides. -/
theorem sendChat_eq (h : Undisturbed post row) : sendChat post (some row) =
    if row.balance < DRAFT_TOKEN_COST then
      .ok (.tooManyRequests "토큰이 부족합니다." row.balance DRAFT_TOKEN_COST)
    else .ok (.stream post.request.run) := by
  obtain ⟨-, -, hresult⟩ := ensureMonthlyTokens_of_touched post.request.userId post.clock
    (some row) (alreadyGranted_iff.mp h.granted)
  unfold sendChat
  rw [if_neg (by simp [h.user]), hresult]
  rfl

theorem payable (h : Undisturbed post row) (hbalance : DRAFT_TOKEN_COST ≤ row.balance) :
    post.request.Payable := ⟨h.question, h.project, row, h.found, hbalance⟩

theorem run_committed (h : Undisturbed post row) (hbalance : DRAFT_TOKEN_COST ≤ row.balance) :
    post.request.run.committed = (-5, [false]) := by
  obtain ⟨contents, content, pings, hchunks⟩ := h.answered
  have hended : WellEnded post.request.chunks :=
    hchunks ▸ wellEnded_generateAiResponseStream _ _
  have htriple := sendChatStream_payable h.user hended (h.payable hbalance)
  obtain ⟨_, w, hrun, hrests⟩ :=
    (htriple ⟨0, .init⟩ Standing.init).1 fun i _ => h.proceeds (0 + i)
  rw [Request.run, hrun, hrests.committed, hchunks, finalCharge_generateAiResponseStream]
  rfl

/-- A message is accepted if the balance covers the cost of a draft. -/
theorem accepted_iff (h : Undisturbed post row) :
    Accepted post row ↔ DRAFT_TOKEN_COST ≤ row.balance := by
  unfold Accepted
  rw [h.sendChat_eq]
  constructor
  · rintro ⟨w, hstream, -⟩
    by_contra hlt
    rw [if_pos (not_le.mp hlt)] at hstream
    cases hstream
  · intro hbalance
    rw [if_neg (not_lt.mpr hbalance)]
    exact ⟨_, rfl, congrArg Prod.snd (h.run_committed hbalance)⟩

theorem refused_iff (h : Undisturbed post row) :
    Refused post row ↔ row.balance < DRAFT_TOKEN_COST := by
  unfold Refused
  rw [h.sendChat_eq]
  constructor
  · rintro ⟨message, balance, required, hrefused⟩
    by_contra hle
    rw [if_neg hle] at hrefused
    cases hrefused
  · intro hlt
    rw [if_pos hlt]
    exact ⟨_, _, _, rfl⟩

/-- A chat costs what it is said to cost, and that is what its request commits. -/
theorem balance_after (h : Undisturbed post row) (hbalance : DRAFT_TOKEN_COST ≤ row.balance) :
    (post.after row).balance = row.balance - CHAT_TOKEN_COST ∧
      (post.after row).balance = row.balance + ledgerSum post.request.run.transactions := by
  have hafter : (post.after row).balance = row.balance - CHAT_TOKEN_COST := by
    unfold Post.after
    rw [h.sendChat_eq, if_neg (not_lt.mpr hbalance)]
    have hdebit : (prededucted post.request row).balance = row.balance - DRAFT_TOKEN_COST := by
      simp [prededucted, debit, getOrCreateBalance, not_lt.mpr hbalance]
    change (prededucted post.request row).balance + (DRAFT_TOKEN_COST - CHAT_TOKEN_COST) = _
    rw [hdebit]
    omega
  have hcommitted : ledgerSum post.request.run.transactions = -5 :=
    congrArg Prod.fst (h.run_committed hbalance)
  exact ⟨hafter, by rw [hafter, hcommitted]; rfl⟩

end Undisturbed

/-! ## All messages -/

variable {posts : ℕ → Post} {rows : ℕ → UserToken}

/-- As long as messages are accepted, each costs a chat. -/
theorem InARow.balance_eq (h : InARow posts rows) {n : ℕ}
    (haccepted : ∀ i < n, Accepted (posts i) (rows i)) :
    (rows n).balance = (rows 0).balance - n * CHAT_TOKEN_COST := by
  induction n with
  | zero => simp
  | succ n ih =>
    have hbefore := ih fun i hi => haccepted i (by omega)
    have hbalance := (h.undisturbed n).accepted_iff.mp (haccepted n (by omega))
    rw [h.next n, ((h.undisturbed n).balance_after hbalance).1, hbefore]
    push_cast
    ring

/-- All but one of the chats a balance pays for are accepted. -/
theorem refusedAfter_iff (h : InARow posts rows) {n : ℕ} :
    RefusedAfter posts rows n ↔ n = ((rows 0).balance / CHAT_TOKEN_COST - 1).toNat := by
  have hprice : CHAT_TOKEN_COST = 5 := rfl
  have hdraft : DRAFT_TOKEN_COST = 10 := rfl
  have hcost := @h.balance_eq
  simp only [hprice] at hcost ⊢
  constructor
  · intro hn
    have hbalance := hcost hn.accepted
    have hrefused := (h.undisturbed n).refused_iff.mp hn.refused
    rcases n with _ | n
    · omega
    · -- The last of them was accepted.
      have hlast := (h.undisturbed n).accepted_iff.mp (hn.accepted n (by omega))
      have hbefore := hcost fun i hi => hn.accepted i (Nat.lt_succ_of_lt hi)
      push_cast at hbalance
      omega
  · rintro rfl
    -- By induction on the message: so far each has cost a chat, and the next is covered.
    have haccepted : ∀ i < ((rows 0).balance / 5 - 1).toNat, Accepted (posts i) (rows i) := by
      intro i
      induction i using Nat.strong_induction_on with
      | _ i ih =>
        intro hi
        have hbalance := hcost fun j hj => ih j hj (hj.trans hi)
        exact (h.undisturbed i).accepted_iff.mpr (by omega)
    have hbalance := hcost haccepted
    exact ⟨haccepted, (h.undisturbed _).refused_iff.mpr (by omega)⟩

/-! ## The report -/

variable {order : List StoredChat → List StoredChat} {db : ChatDatabase} {query : HistoryQuery}
  {found : Option UserToken} {response : ChatHistoryResponse}

theorem historyResponse_remainingChats {questionId userId : UUID} {cursor : Option String}
    {size : ℕ} {remainingChats remainingDrafts : Option ℤ}
    (h : getChatHistoryResponse order db questionId userId cursor size remainingChats
      remainingDrafts = .ok (some response)) : response.remainingChats = remainingChats := by
  unfold getChatHistoryResponse at h
  split at h
  · cases h
  · split_ifs at h
    split at h
    · cases h
    · obtain rfl := Option.some.inj (Except.ok.inj h)
      rfl

theorem ensureMonthlyTokens_ok {userId : UUID} {clock : Clock}
    {subscription : Option Subscription} {granted : Bool} {amount : ℤ} {token : UserToken}
    (h : (ensureMonthlyTokens userId clock found subscription).result =
      .ok (granted, amount, token)) :
    (ensureMonthlyTokens userId clock found subscription).token = token := by
  unfold ensureMonthlyTokens at h ⊢
  grind

/-- The report is the balance the request leaves, divided by the cost of a chat. -/
theorem remainingChats_of_ok (h : getChatMessages order db query found = .ok response) :
    response.remainingChats = some ((ensureMonthlyTokens query.userId query.clock found
      query.subscription).token.balance / CHAT_TOKEN_COST) := by
  unfold getChatMessages at h
  rcases hmonthly : (ensureMonthlyTokens query.userId query.clock found
    query.subscription).result with error | ⟨granted, amount, token⟩
  · rw [hmonthly] at h
    cases h
  · rw [hmonthly] at h
    rw [ensureMonthlyTokens_ok hmonthly]
    simp only [Except.mapError, bind, Except.bind] at h
    rcases hhistory : getChatHistoryResponse order db query.questionId query.userId query.cursor
      query.size (some (token.balance / CHAT_TOKEN_COST)) none with error | (_ | answered)
    · rw [hhistory] at h
      cases h
    · rw [hhistory] at h
      cases h
    · rw [hhistory] at h
      obtain rfl := Except.ok.inj h
      exact historyResponse_remainingChats hhistory

/-- The report says how many chats are accepted, if and only if the balance does not pay for one. -/
theorem usable_iff (hresponse : getChatMessages order db query found = .ok response)
    (hrow : rows 0 = (ensureMonthlyTokens query.userId query.clock found query.subscription).token)
    (hposts : InARow posts rows) (hbalance : 0 ≤ (rows 0).balance) :
    Usable response posts rows ↔ (rows 0).balance < CHAT_TOKEN_COST := by
  have hreport := remainingChats_of_ok hresponse
  rw [← hrow] at hreport
  have hprice : CHAT_TOKEN_COST = 5 := rfl
  constructor
  · rintro ⟨n, hremaining, hn⟩
    have hreported := Option.some.inj (hreport.symm.trans hremaining)
    have haccepted := (refusedAfter_iff hposts).mp hn
    rw [hprice] at hreported haccepted ⊢
    omega
  · intro hlt
    refine ⟨0, ?_, (refusedAfter_iff hposts).mpr ?_⟩
    · rw [hreport, Int.ediv_eq_zero_of_lt hbalance hlt, Nat.cast_zero]
    · rw [Int.ediv_eq_zero_of_lt hbalance hlt]
      rfl

/-! ### Two balances -/

/-- A row with a balance, whose tokens of the month have been granted. -/
def grantedRow (balance : ℤ) : UserToken :=
  ⟨balance, some (.utc 2026 1 1 9), true, 0, 0, 0, .utc 2026 1 10 9⟩

theorem granted_january : alreadyGranted (some (.utc 2026 1 1 9))
    (currentBillingPeriodStart none (.utc 2026 1 10 9)) = true := by decide +kernel

/-- A message that is sent with a row and answered with a chat. -/
def answeredPost (row : UserToken) : Post where
  subscription := none
  clock _ := .utc 2026 1 10 9
  request :=
    let request := firstMessage (fun _ => .proceed)
      (generateAiResponseStream ⟨["저는"], .done "저는" false⟩ fun _ => 0)
    { request with found n := if n = 0 then some row else some (prededucted request row) }

theorem undisturbed_answeredPost {row : UserToken}
    (h : row.lastMonthlyGrantAt = some (.utc 2026 1 1 9)) :
    Undisturbed (answeredPost row) row where
  user := rfl
  question := ⟨_, rfl, rfl⟩
  project := rfl
  proceeds _ := rfl
  answered := ⟨_, _, _, rfl⟩
  granted := by
    rw [h]
    exact granted_january
  found := rfl
  foundThen := rfl

/-- The rows of messages in a row. -/
def chatRows (balance : ℤ) : ℕ → UserToken
  | 0 => grantedRow balance
  | n + 1 => (answeredPost (chatRows balance n)).after (chatRows balance n)

theorem inARow_chatRows (balance : ℤ) :
    InARow (fun n => answeredPost (chatRows balance n)) (chatRows balance) where
  undisturbed n := by
    refine undisturbed_answeredPost ?_
    induction n with
    | zero => rfl
    | succ n ih =>
      rw [chatRows, Post.after, (undisturbed_answeredPost ih).sendChat_eq]
      split_ifs with hlt
      · exact ih
      · simpa [refunded, prededucted, credit, debit, getOrCreateBalance, hlt] using ih
  next _ := rfl

/-- The user asks for the messages of the question. -/
def firstQuery : HistoryQuery where
  subscription := none
  clock _ := .utc 2026 1 10 9
  questionId := 2
  userId := 3
  cursor := none
  size := 20
  size_pos := by decide
  size_le := by decide

/-- The messages are answered, and the row stays as it is. -/
theorem exists_firstResponse (balance : ℤ) : ∃ response,
    getChatMessages id answeredQuestion firstQuery (some (grantedRow balance)) = .ok response ∧
      (ensureMonthlyTokens firstQuery.userId firstQuery.clock (some (grantedRow balance))
        firstQuery.subscription).token = grantedRow balance := by
  obtain ⟨htoken, -, hresult⟩ := @ensureMonthlyTokens_of_touched firstQuery.userId
    firstQuery.clock (some (grantedRow balance)) firstQuery.subscription
    (alreadyGranted_iff.mp granted_january)
  unfold getChatMessages
  rw [hresult]
  exact ⟨_, rfl, htoken⟩

theorem usable_iff_three : ∃ response,
    Usable response (fun n => answeredPost (chatRows 3 n)) (chatRows 3) := by
  obtain ⟨response, hresponse, hrow⟩ := exists_firstResponse 3
  exact ⟨response, (usable_iff hresponse hrow.symm (inARow_chatRows 3) (by decide)).mpr
    (by decide)⟩

/-- With ten tokens two chats are reported, and the second is refused. -/
theorem not_usable : ¬ ∀ (order : List StoredChat → List StoredChat) (db : ChatDatabase)
    (query : HistoryQuery) (found : Option UserToken) (response : ChatHistoryResponse)
    (posts : ℕ → Post) (rows : ℕ → UserToken),
    getChatMessages order db query found = .ok response →
    rows 0 = (ensureMonthlyTokens query.userId query.clock found query.subscription).token →
    InARow posts rows → 0 ≤ (rows 0).balance → Usable response posts rows := by
  intro h
  obtain ⟨response, hresponse, hrow⟩ := exists_firstResponse 10
  obtain ⟨n, hreported, hn⟩ := h _ _ _ _ _ _ _ hresponse hrow.symm (inARow_chatRows 10) (by decide)
  rw [remainingChats_of_ok hresponse, hrow] at hreported
  have hreport : (2 : ℤ) = n := Option.some.inj hreported
  have haccepted : n = 1 := (refusedAfter_iff (inARow_chatRows 10)).mp hn
  omega

end Logit.Chats
