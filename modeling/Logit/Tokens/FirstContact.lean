import Logit.Concurrency.FirstInsert
import Logit.Tokens.Announcements

/-!
# First contact

The first call for a user finds no token row, and there is nothing to lock. Another
request for the user may find none as well, whatever endpoint it belongs to. Then one of
them opens the row, and when it commits the other fails with a duplicate key.

Where no request commits a row that another is about to open, all calls return the
user's one row, and its opening is recorded once.

## Main definitions

* `FirstContact` — calls for a user have returned the user's one row, opened once

## Main results

* `TokenCall.run_opening` — a call records the opening of a row just if it finds none
* `firstContact_of_orderly` — first contact succeeds in orderly runs
* `not_firstContact` — of two requests that find no row, one fails
-/

namespace Logit.Tokens

open Concurrency Python Subscriptions

/-- No amount is granted or taken as the opening of a row; every caller names another type. -/
structure TokenFunction.NotOpening (function : TokenFunction) : Prop where
  credit : ∀ amount description, function ≠ .credit amount .balanceInit description
  debit : ∀ amount description, function ≠ .debit amount .balanceInit description

/-! ## Openings -/

section Openings

variable {call : TokenCall}

/-- What a call records once it has found or opened the row is no opening. -/
theorem TokenCall.Writes.type_ne {found token : UserToken} {recorded : List TokenTransaction}
    (h : call.Writes found token recorded) (hfunction : call.function.NotOpening) :
    ∀ tx ∈ recorded, tx.type ≠ .balanceInit := by
  cases h with
  | @credit amount txType description hcredit =>
    have htype : txType ≠ .balanceInit := by
      rintro rfl
      exact hfunction.credit _ _ hcredit
    simpa [recordTransaction] using htype
  | @debit amount txType description hdebit =>
    have htype : txType ≠ .balanceInit := by
      rintro rfl
      exact hfunction.debit _ _ hdebit
    simpa [recordTransaction] using htype
  | _ => simp [recordTransaction]

/-- A call records the opening of a row just if it finds none. -/
theorem TokenCall.run_opening (hfunction : call.function.NotOpening) (row : Option UserToken) :
    (ofType .balanceInit (call.run row).2).length = row.isNone.toNat := by
  obtain ⟨token, recorded, hrun, hwrites⟩ := call.run_cases row
  rw [hrun, ofType_append, ofType_eq_nil (hwrites.type_ne hfunction), List.append_nil]
  cases row <;> rfl

/-- Calls one after another open the row once. -/
theorem replay_opening {calls : List TokenCall}
    (hcalls : ∀ call ∈ calls, call.function.NotOpening) :
    (ofType .balanceInit (tokenTable.replay calls).2).length =
      (tokenTable.replay calls).1.isSome.toNat := by
  induction calls using List.reverseRecOn with
  | nil => rfl
  | append_singleton calls call ih =>
    have hbefore := ih fun c hc => hcalls c (List.mem_append_left _ hc)
    have hopening := TokenCall.run_opening (hcalls call (by simp)) (tokenTable.replay calls).1
    rw [Table.replay_concat, ofType_append, List.length_append, hbefore]
    refine (congrArg _ hopening).trans ?_
    cases (tokenTable.replay calls).1 <;> rfl

end Openings

/-! ## First contact -/

variable {τ : Type*} [DecidableEq τ] {s : TokenState τ}

/-- The openings of a user's token row that have been committed. -/
def openingsOf (s : TokenState τ) (userId : UUID) : List TokenTransaction :=
  ofType .balanceInit (s.log.filter fun tx => tx.userId = userId)

/-- Calls for a user return the user's one row, and it is opened once. -/
structure FirstContact (s : TokenState τ) (userId : UUID) : Prop where
  /-- No call has raised. -/
  not_raised : ∀ t, (s.session t).mode ≠ .failed
  /-- A call that is about to open the row sees none, so that it can. -/
  opens : ∀ t call, (s.session t).mode = .inserting call → call.userId = userId →
    s.visible t userId = none
  /-- A transaction with a call for the user has the row, and no other has. -/
  has_row : ∀ t, ∀ call ∈ (s.session t).calls, call.userId = userId →
    (∃ token, (s.session t).held userId = some token) ∧ s.Free t userId
  /-- Once a call for the user has been committed, there is a row with one opening. -/
  opened : ∀ call ∈ s.calls, call.userId = userId →
    (∃ token, s.row userId = some token) ∧ (openingsOf s userId).length = 1

/-- First contact succeeds for every user in every run in which no request commits a row
that another is about to open, and no requests wait for each other around a circle. -/
theorem firstContact_of_orderly
    (h : Relation.ReflTransGen (OrderlyStep tokenTable) .init s)
    (hcalls : ∀ call ∈ s.calls, call.function.NotOpening) (userId : UUID) :
    FirstContact s userId := by
  have hunimpeded := unimpeded_of_orderly h
  have hreachable := reachable_of_orderly h
  refine ⟨hunimpeded.not_failed, ?_, ?_, ?_⟩
  · rintro t call hmode rfl
    exact hunimpeded.unseen t call hmode
  · rintro t call hmem rfl
    have hheld : (s.session t).held call.userId ≠ none := by
      intro hnone
      have hnocalls := ((hreachable.serial.session t).untouched _ hnone).1
      have hcall : call ∈ tokenTable.callsOf call.userId (s.session t).calls := by
        simp [Table.callsOf, tokenTable, hmem]
      simp [hnocalls] at hcall
    exact ⟨Option.ne_none_iff_exists'.mp hheld, hreachable.serial.exclusive t _ hheld⟩
  · rintro call hmem rfl
    have hcommitted := hreachable.committed call.userId
    have hreplay : s.row call.userId =
        (tokenTable.replay (tokenTable.callsOf call.userId s.calls)).1 :=
      (congrArg Prod.fst hcommitted).symm
    have hrow : s.row call.userId ≠ none := by
      rw [hreplay, ne_eq, Table.replay_fst_eq_none_iff]
      exact List.ne_nil_of_mem (List.mem_filter.mpr ⟨hmem, by simp [tokenTable]⟩)
    have hmine : ∀ c ∈ tokenTable.callsOf call.userId s.calls, c.function.NotOpening :=
      fun c hc => hcalls c (List.mem_of_mem_filter hc)
    have hopening := replay_opening hmine
    rw [hcommitted] at hopening
    obtain ⟨token, htoken⟩ := Option.ne_none_iff_exists'.mp hrow
    refine ⟨⟨token, htoken⟩, hopening.trans ?_⟩
    rw [htoken]
    rfl

/-- A request for the balance. -/
def monthlyCall : TokenCall := ⟨7, fun _ => .utc 2026 1 10 9, .ensureMonthlyTokens none⟩

/-- The reward of an inviter, in the request of another user. -/
def rewardCall : TokenCall :=
  ⟨7, fun _ => .utc 2026 1 10 9, .creditReferralInviter REFERRAL_TOKENS.toNat none⟩

theorem firstContact_of_orderly_two : ∃ s : TokenState Bool,
    Relation.ReflTransGen (OrderlyStep tokenTable) .init s ∧
      s.calls = [monthlyCall, rewardCall] ∧ FirstContact s 7 := by
  have hfree : ∀ {s : TokenState Bool} {t}, (s.session !t).held 7 = none → s.Free t 7 := by
    intro s t hheld u hut
    rwa [← Bool.eq_not_of_ne hut] at hheld
  have hready : ∀ {s : TokenState Bool} {t}, (s.session !t).mode = .ready →
      ¬ Overtakes tokenTable s t := by
    rintro s t hmode ⟨u, hut, call, hinserting, -⟩
    rw [Bool.eq_not_of_ne hut, hmode] at hinserting
    cases hinserting
  have hmiss : Relation.ReflTransGen (OrderlyStep tokenTable) .init
      (State.init.setSession true _) := .single ⟨_, .miss true monthlyCall rfl rfl, trivial⟩
  have hinsert := hmiss.tail ⟨_, .insert true monthlyCall rfl rfl (hfree rfl), trivial⟩
  have hcommit := hinsert.tail ⟨_, .commit true rfl, hready rfl⟩
  have hlock := hcommit.tail ⟨_, .lock false rewardCall _ rfl rfl rfl (hfree rfl), trivial⟩
  have hcommit' := hlock.tail ⟨_, .commit false rfl, hready rfl⟩
  refine ⟨_, hcommit', rfl, firstContact_of_orderly hcommit' ?_ 7⟩
  intro call hmem
  have hmem' : call ∈ [monthlyCall, rewardCall] := hmem
  simp only [List.mem_cons, List.not_mem_nil, or_false] at hmem'
  rcases hmem' with rfl | rfl
  · exact ⟨nofun, nofun⟩
  · exact ⟨nofun, nofun⟩

/-- Two requests find no row; one opens it and commits, and the other fails. -/
theorem not_firstContact : ∃ s : TokenState Bool,
    Relation.ReflTransGen (fun s s' => ∃ kind, ServedStep tokenTable s kind s') .init s ∧
      s.calls = [monthlyCall] ∧ (s.session false).mode = .failed ∧ ¬ FirstContact s 7 := by
  have hmiss : Relation.ReflTransGen (fun s s' => ∃ kind, ServedStep tokenTable s kind s')
      .init (State.init.setSession true _) := .single ⟨_, .miss true monthlyCall rfl rfl⟩
  have hmiss' := hmiss.tail ⟨_, .miss false rewardCall rfl rfl⟩
  have hinsert := hmiss'.tail ⟨_, .insert true monthlyCall rfl rfl fun u hu => by
    cases u
    · rfl
    · contradiction⟩
  have hcommit := hinsert.tail ⟨_, .commit true rfl⟩
  have hconflict := hcommit.tail ⟨_, .conflict false rewardCall rfl (by decide)⟩
  exact ⟨_, hconflict, rfl, rfl, fun h => h.not_raised false rfl⟩

end Logit.Tokens
