import Logit.Concurrency.Serial
import Logit.Experiences.Vectors
import Mathlib.Data.List.Permutation

/-!
# Concurrent edits of experiences

An update reads an experience, asks OpenAI, and writes the whole experience back; a deletion
reads it to see whose it is, and deletes it. Qdrant does each of these by itself, and other
requests may come between. A deletion does not mind, for what it takes away may have been
taken away first; an update puts back whatever it has read. So the requests are serializable
as long as every update that writes still finds the experience as it has read it.

## Main definitions

* `Edit`, `edits` — updates and deletions, what they read and what they write
* `Current` — an update that finds what it has read
* `Told` — an update that keeps the text of what it has read, or embeds it

## Main results

* `serve_update`, `serve_deletion` — one request alone is the function of the service
* `edits_serializable` — what a run does
-/

namespace Logit.Experiences

open Calendar Concurrency Python

section

variable {V : Type} {db : Collection V} {env : Env V} {id experienceId userId : UUID}

/-! ## What is read -/

/-- What is read depends on the payload alone. -/
theorem getExperience_congr {db' : Collection V}
    (h : (db.retrieve id).map Point.payload = (db'.retrieve id).map Point.payload) :
    getExperience env db id userId = getExperience env db' id userId := by
  unfold getExperience
  cases hdb : db.retrieve id with
  | none =>
    rw [hdb] at h
    rw [Option.map_eq_none_iff.mp h.symm]
  | some point =>
    rw [hdb] at h
    obtain ⟨point', hpoint', hpayload⟩ := Option.map_eq_some_iff.mp h.symm
    rw [hpoint']
    simp only [hpayload]

theorem getExperience_ok_iff {e : Experience} :
    getExperience env db id userId = .ok e ↔
      env.outage .retrieve = none ∧ ∃ point, db.retrieve id = some point ∧
        (point.payload .userId).get = some userId.str ∧
          Experience.ofPayload? env.fresh point.payload = some e := by
  constructor
  · intro h
    obtain ⟨_, hreach, h⟩ := bind_eq_ok.mp h
    have houtage : env.outage .retrieve = none := by
      unfold Env.reach at hreach
      split at hreach <;> first | assumption | cases hreach
    split at h
    · exact (throw_eq_ok.mp h).elim
    · next point hpoint =>
      simp only at h
      split_ifs at h with howner
      · obtain ⟨_, hthrow, -⟩ := bind_eq_ok.mp h
        exact (throw_eq_ok.mp hthrow).elim
      · split at h
        · next read hread =>
          rw [pure_eq_ok] at h
          exact ⟨houtage, point, hpoint, not_not.mp howner, h ▸ hread⟩
        · exact (throw_eq_ok.mp h).elim
  · rintro ⟨houtage, point, hpoint, howner, hread⟩
    simp only [getExperience, Env.reach, houtage, hpoint, howner, hread, ne_eq, not_true_eq_false,
      if_false]
    rfl

/-! ## What is written -/

namespace Collection

variable {other : UUID}

theorem retrieve_delete (db : Collection V) (id : UUID) : (db.delete id).retrieve id = none := by
  simp [retrieve, delete, List.find?_eq_none]

theorem retrieve_delete_of_ne (h : other ≠ id) (db : Collection V) :
    (db.delete other).retrieve id = db.retrieve id := by
  rw [retrieve, delete, List.find?_filter]
  refine congrFun (congrArg List.find? (funext fun p => ?_)) db
  by_cases hid : p.id = id
  · simp [hid, h.symm]
  · simp [hid]

theorem retrieve_upsert_of_ne {point : Point V} (h : point.id ≠ id) (db : Collection V) :
    (db.upsert point).retrieve id = db.retrieve id := by
  have hnew : [point].find? (fun p => decide (p.id = id)) = none := by simp [h]
  have hold := retrieve_delete_of_ne h db
  rw [retrieve, delete] at hold
  rw [retrieve, upsert, List.find?_append, hold, hnew, Option.or_none]

/-- Overwriting a payload leaves the ids. -/
theorem retrieve_setPayload (db : Collection V) (payload : Payload) :
    (db.setPayload other payload).retrieve id = (db.retrieve id).map fun p =>
      if p.id = other then
        { p with payload := fun key => (p.payload key).merge (payload key) }
      else p := by
  rw [retrieve, setPayload, List.find?_map]
  congr 1
  refine congrFun (congrArg List.find? (funext fun p => ?_)) db
  simp only [Function.comp_apply]
  split_ifs <;> rfl

theorem retrieve_setPayload_of_ne (h : other ≠ id) (db : Collection V) (payload : Payload) :
    (db.setPayload other payload).retrieve id = db.retrieve id := by
  rw [retrieve_setPayload]
  cases hfound : db.retrieve id with
  | none => rfl
  | some p =>
    have hid : p.id = id := by simpa using List.find?_some hfound
    rw [Option.map_some, if_neg (hid ▸ h.symm)]

/-! A deletion may come before any other write. -/

theorem delete_delete (db : Collection V) :
    (db.delete id).delete other = (db.delete other).delete id :=
  List.filter_comm _ _ db

theorem upsert_delete {point : Point V} (h : point.id ≠ id) (db : Collection V) :
    (db.delete id).upsert point = (db.upsert point).delete id := by
  have hnew : [point].filter (·.id ≠ id) = [point] := by simp [h]
  rw [upsert, upsert, delete, delete, List.filter_append, hnew, List.filter_comm]

theorem delete_upsert (point : Point V) (db : Collection V) :
    (db.upsert point).delete point.id = db.delete point.id := by
  simp [upsert, delete, List.filter_append]

theorem setPayload_delete (db : Collection V) (payload : Payload) :
    (db.delete id).setPayload other payload = (db.setPayload other payload).delete id := by
  rw [setPayload, setPayload, delete, delete, List.filter_map]
  congr 1
  refine List.filter_congr fun p _ => ?_
  simp only [Function.comp_apply]
  split_ifs <;> rfl

theorem delete_setPayload (db : Collection V) (payload : Payload) :
    (db.setPayload id payload).delete id = db.delete id := by
  rw [← setPayload_delete, setPayload]
  refine (List.map_congr_left fun p hp => ?_).trans (List.map_id _)
  have hne : p.id ≠ id := by simpa using (List.mem_filter.mp hp).2
  rw [if_neg hne]
  rfl

end Collection

namespace Write

/-- The experience that is written or deleted. -/
def target : Write V → UUID
  | upsert point => point.id
  | setPayload id _ => id
  | delete id => id

theorem retrieve_apply_of_ne {write : Write V} (h : write.target ≠ id) (db : Collection V) :
    (write.apply db).retrieve id = db.retrieve id := by
  cases write with
  | upsert point => exact Collection.retrieve_upsert_of_ne h db
  | setPayload other payload => exact Collection.retrieve_setPayload_of_ne h db payload
  | delete other => exact Collection.retrieve_delete_of_ne h db

theorem delete_apply (write : Write V) (db : Collection V) :
    (write.apply db).delete write.target = db.delete write.target := by
  cases write with
  | upsert point => exact Collection.delete_upsert point db
  | setPayload id payload => exact Collection.delete_setPayload db payload
  | delete id =>
    exact List.filter_filter.trans (List.filter_congr fun _ _ => Bool.and_self _)

theorem apply_delete {write : Write V} (h : write.target ≠ id) (db : Collection V) :
    write.apply (db.delete id) = (write.apply db).delete id := by
  cases write with
  | upsert point => exact Collection.upsert_delete h db
  | setPayload other payload => exact Collection.setPayload_delete db payload
  | delete other => exact Collection.delete_delete db

end Write

/-! ## Requests -/

/-- A request to change or to delete an experience; the body of an update is validated. -/
inductive Edit (V : Type)
  | update (env : Env V) (experienceId userId : UUID) (body : ExperienceUpdate)
  | deletion (env : Env V) (experienceId userId : UUID)

namespace Edit

def around : Edit V → Env V
  | update env _ _ _ => env
  | deletion env _ _ => env

/-- The experience a request is about. -/
def target : Edit V → UUID
  | update _ experienceId _ _ => experienceId
  | deletion _ experienceId _ => experienceId

/-- What a request writes, given the collection it reads from. -/
def prepare (db : Collection V) (edit : Edit V) : Except ServiceError (Write V) :=
  match edit with
  | update env experienceId userId body => do
    let existing ← getExperience env db experienceId userId
    let (_, write) ← prepareUpdate env experienceId existing body
    return write
  | deletion env experienceId userId => do
    let _ ← getExperience env db experienceId userId
    env.reach .delete "delete experience from" "deleting experience"
    return .delete experienceId

end Edit

/-- Requests that read from Qdrant, and write to it later. -/
def edits : ReadWrite (Collection V) (Edit V) (Write V) where
  prepare := fun db edit => (edit.prepare db).toOption
  apply := fun write db => write.apply db

theorem toOption_eq_some {ε α : Type} {x : Except ε α} {a : α} :
    x.toOption = some a ↔ x = .ok a := by
  cases x <;> simp [Except.toOption]

/-- An update that is served alone is the function of the service. -/
theorem serve_update (body : ExperienceUpdate) :
    edits.serve db (.update env experienceId userId body) =
      match updateExperience env db experienceId userId body with
      | .ok (_, after) => after
      | .error _ => db := by
  rw [updateExperience_eq]
  simp only [ReadWrite.serve, edits, Edit.prepare]
  cases getExperience env db experienceId userId with
  | error _ => rfl
  | ok existing =>
    cases hprepared : prepareUpdate env experienceId existing body with
    | error _ => simp [hprepared, bind, Except.bind, Except.toOption]
    | ok result => simp [hprepared, bind, Except.bind, Except.toOption, pure, Except.pure]

/-- So is a deletion. -/
theorem serve_deletion :
    edits.serve db (.deletion env experienceId userId) =
      match deleteExperience env db experienceId userId with
      | .ok after => after
      | .error _ => db := by
  simp only [ReadWrite.serve, edits, Edit.prepare, deleteExperience]
  cases getExperience env db experienceId userId with
  | error _ => rfl
  | ok existing =>
    cases env.reach .delete "delete experience from" "deleting experience" with
    | error _ => rfl
    | ok _ => rfl

theorem prepare_update {body : ExperienceUpdate} {write : Write V} :
    edits.prepare db (.update env experienceId userId body) = some write ↔
      ∃ existing a, getExperience env db experienceId userId = .ok existing ∧
        prepareUpdate env experienceId existing body = .ok (a, write) := by
  simp only [edits, Edit.prepare, toOption_eq_some, bind_eq_ok, pure_eq_ok, Prod.exists]
  constructor
  · rintro ⟨existing, hexisting, a, _, hprepared, rfl⟩
    exact ⟨existing, a, hexisting, hprepared⟩
  · rintro ⟨existing, a, hexisting, hprepared⟩
    exact ⟨existing, hexisting, a, write, hprepared, rfl⟩

theorem prepare_deletion {write : Write V} :
    edits.prepare db (.deletion env experienceId userId) = some write ↔
      (∃ existing, getExperience env db experienceId userId = .ok existing) ∧
        env.outage .delete = none ∧ write = .delete experienceId := by
  have hreach : env.reach .delete "delete experience from" "deleting experience" = .ok () ↔
      env.outage .delete = none := by
    unfold Env.reach
    split <;> simp [*]
  simp only [edits, Edit.prepare, toOption_eq_some, bind_eq_ok, pure_eq_ok]
  constructor
  · rintro ⟨existing, hexisting, _, hdelete, rfl⟩
    exact ⟨⟨existing, hexisting⟩, hreach.mp hdelete, rfl⟩
  · rintro ⟨⟨existing, hexisting⟩, houtage, rfl⟩
    exact ⟨existing, hexisting, (), hreach.mpr houtage, rfl⟩

/-! ## A deletion may come first -/

/-- Whether a payload is accepted does not depend on what its missing fields get. -/
theorem ofPayload?_isSome (fresh fresh' : Fresh) {payload : Payload}
    (h : (Experience.ofPayload? fresh payload).isSome = true) :
    (Experience.ofPayload? fresh' payload).isSome = true := by
  obtain ⟨e, he⟩ := Option.isSome_iff_exists.mp h
  obtain ⟨a, ha, hvalid⟩ := Option.bind_eq_some_iff.mp he
  have hsome : a.validate.isSome = true := by rw [hvalid]; rfl
  simp only [Payload.attributes, Option.bind_eq_bind, Option.bind_eq_some_iff, Option.pure_def,
    Option.some.injEq] at ha
  obtain ⟨_, hid, userId, huser, title, htitle, startDate, hstart, endDate, hend, type, htype,
    format, hformat, category, hcategory, tags, htags, _, hcreated, _, hupdated, rfl⟩ := ha
  have hfresh : (some fresh'.id).isSome = true := rfl
  obtain ⟨id, hid⟩ := Given.exists_required_withDefault hid hfresh
  have hnow : (readDatetime (isoDatetime fresh'.now)).isSome = true := by simp
  obtain ⟨createdAt, hcreated⟩ := Given.exists_required_withDefault hcreated hnow
  obtain ⟨updatedAt, hupdated⟩ := Given.exists_required_withDefault hupdated hnow
  rw [Experience.ofPayload?, Payload.attributes, hid, huser, htitle, hstart, hend, htype, hformat,
    hcategory, htags, hcreated, hupdated]
  rw [Attributes.validate_isSome] at hsome
  simp only [Option.bind_eq_bind, Option.bind_some, Option.pure_def]
  exact Attributes.validate_isSome.mpr hsome

theorem userId_of_ofPayload? {fresh : Fresh} {payload : Payload} {e : Experience}
    (h : Experience.ofPayload? fresh payload = some e) :
    (payload .userId).get = some e.userId := by
  obtain ⟨a, ha, hvalid⟩ := Option.bind_eq_some_iff.mp h
  simp only [Payload.attributes, Option.bind_eq_bind, Option.bind_eq_some_iff, Option.pure_def,
    Option.some.injEq] at ha
  obtain ⟨_, -, userId, huser, _, -, _, -, _, -, _, -, _, -, _, -, _, -, _, -, _, -, rfl⟩ := ha
  have hsame := congrArg Attributes.userId (Attributes.validate_eq_some.mp hvalid)
  change e.userId = userId at hsame
  rw [hsame]
  cases hgiven : payload .userId with
  | unset => rw [hgiven] at huser; cases huser
  | null => rw [hgiven] at huser; cases huser
  | value text =>
    rw [hgiven] at huser
    exact huser

/-- What a request writes depends on the payload of its experience alone. -/
theorem prepare_congr {db' : Collection V} {edit : Edit V}
    (h : (db.retrieve edit.target).map Point.payload =
      (db'.retrieve edit.target).map Point.payload) :
    edits.prepare db edit = edits.prepare db' edit := by
  cases edit with
  | update env experienceId userId body =>
    have hread := @getExperience_congr _ _ env experienceId userId db' h
    simp only [edits, Edit.prepare, hread]
  | deletion env experienceId userId =>
    have hread := @getExperience_congr _ _ env experienceId userId db' h
    simp only [edits, Edit.prepare, hread]

/-- Nothing is written about an experience that is not there. -/
theorem prepare_of_retrieve_eq_none {edit : Edit V} (h : db.retrieve edit.target = none) :
    edits.prepare db edit = none := by
  rw [Option.eq_none_iff_forall_ne_some]
  intro write hsome
  cases edit with
  | update env experienceId userId body =>
    obtain ⟨existing, _, hexisting, -⟩ := prepare_update.mp hsome
    obtain ⟨-, point, hpoint, -⟩ := getExperience_ok_iff.mp hexisting
    exact absurd (hpoint.symm.trans h) (Option.some_ne_none point)
  | deletion env experienceId userId =>
    obtain ⟨⟨existing, hexisting⟩, -⟩ := prepare_deletion.mp hsome
    obtain ⟨-, point, hpoint, -⟩ := getExperience_ok_iff.mp hexisting
    exact absurd (hpoint.symm.trans h) (Option.some_ne_none point)

theorem target_of_prepare {edit : Edit V} {write : Write V}
    (h : edits.prepare db edit = some write) : write.target = edit.target := by
  cases edit with
  | update env experienceId userId body =>
    obtain ⟨existing, a, -, hprepared⟩ := prepare_update.mp h
    rcases prepareUpdate_ok hprepared with ⟨-, -, vector, -, rfl⟩ | ⟨-, -, rfl⟩ <;> rfl
  | deletion env experienceId userId =>
    obtain ⟨-, -, rfl⟩ := prepare_deletion.mp h
    rfl

/-- A request that comes after a deletion does as much as one before it. -/
theorem serve_delete (db : Collection V) (id : UUID) (edit : Edit V) :
    edits.serve (db.delete id) edit = (edits.serve db edit).delete id := by
  by_cases htarget : edit.target = id
  · have hnone : edits.prepare (db.delete id) edit = none :=
      prepare_of_retrieve_eq_none (htarget ▸ Collection.retrieve_delete db id)
    rw [ReadWrite.serve_of_none hnone]
    cases hprepared : edits.prepare db edit with
    | none => rw [ReadWrite.serve_of_none hprepared]
    | some write =>
      have hwrite : write.target = id := (target_of_prepare hprepared).trans htarget
      rw [ReadWrite.serve_of_some hprepared]
      exact (hwrite ▸ Write.delete_apply write db).symm
  · have hsame : edits.prepare (db.delete id) edit = edits.prepare db edit :=
      prepare_congr (congrArg (Option.map Point.payload)
        (Collection.retrieve_delete_of_ne (Ne.symm htarget) db))
    cases hprepared : edits.prepare db edit with
    | none =>
      rw [ReadWrite.serve_of_none hprepared, ReadWrite.serve_of_none (hsame.trans hprepared)]
    | some write =>
      rw [ReadWrite.serve_of_some hprepared, ReadWrite.serve_of_some (hsame.trans hprepared)]
      exact Write.apply_delete ((target_of_prepare hprepared).trans_ne htarget) db

theorem serial_delete (db : Collection V) (id : UUID) (order : List (Edit V)) :
    edits.serial (db.delete id) order = (edits.serial db order).delete id := by
  induction order generalizing db with
  | nil => rfl
  | cons edit order ih =>
    rw [ReadWrite.serial_cons, ReadWrite.serial_cons, serve_delete, ih]

/-- What an update leaves is owned by whom it was owned. -/
theorem owner_of_prepareUpdate {existing : Experience} {body : ExperienceUpdate} {a : Attributes}
    {write : Write V} (h : prepareUpdate env id existing body = .ok (a, write)) :
    a.userId = existing.userId := by
  rcases prepareUpdate_ok h with ⟨-, ⟨_, _, rfl⟩, -⟩ | ⟨-, rfl, -⟩ <;> rfl

/-- An update leaves the values it has prepared. -/
theorem payload_of_prepareUpdate {existing : Experience} {body : ExperienceUpdate}
    {a : Attributes} {write : Write V} {point : Point V}
    (h : prepareUpdate env id existing body = .ok (a, write))
    (hpoint : db.retrieve id = some point) :
    ∃ point', (write.apply db).retrieve id = some point' ∧
      ∀ key value, a.modelDump key = .value value → point'.payload key = .value value := by
  rcases prepareUpdate_ok h with ⟨-, -, vector, -, rfl⟩ | ⟨-, -, rfl⟩
  · refine ⟨⟨id, vector, a.modelDump⟩, ?_, fun _ _ hvalue => hvalue⟩
    have hold := Collection.retrieve_delete db id
    rw [Collection.retrieve, Collection.delete] at hold
    rw [Write.apply, Collection.upsert, Collection.retrieve, List.find?_append, hold]
    simp
  · have hid : point.id = id := by simpa using List.find?_some hpoint
    refine ⟨_, (Collection.retrieve_setPayload db _).trans (congrArg _ hpoint), ?_⟩
    intro key value hvalue
    simp only [hid, if_true, hvalue, Given.merge_value]

/-- What can be read after a request could be read before it. -/
theorem getExperience_serve {edit : Edit V} {e : Experience}
    (h : getExperience env (edits.serve db edit) id userId = .ok e) :
    ∃ e', getExperience env db id userId = .ok e' := by
  cases hprepared : edits.prepare db edit with
  | none => exact ⟨e, ReadWrite.serve_of_none hprepared ▸ h⟩
  | some write =>
    rw [ReadWrite.serve_of_some hprepared] at h
    by_cases htarget : write.target = id
    · obtain rfl := htarget
      have hedit := target_of_prepare hprepared
      cases edit with
      | deletion env' experienceId userId' =>
        obtain ⟨-, -, rfl⟩ := prepare_deletion.mp hprepared
        obtain ⟨-, point, hpoint, -⟩ := getExperience_ok_iff.mp h
        exact absurd (hpoint.symm.trans (Collection.retrieve_delete db experienceId))
          (Option.some_ne_none point)
      | update env' experienceId userId' body =>
        obtain ⟨existing, a, hexisting, hwritten⟩ := prepare_update.mp hprepared
        obtain ⟨-, point, hpoint, howner', hread⟩ := getExperience_ok_iff.mp hexisting
        change write.target = experienceId at hedit
        rw [hedit] at h ⊢
        obtain ⟨houtage, point', hpoint', howner, -⟩ := getExperience_ok_iff.mp h
        obtain ⟨point'', hpoint'', hpayload⟩ := payload_of_prepareUpdate hwritten hpoint
        obtain rfl : point' = point'' := Option.some.inj (hpoint'.symm.trans hpoint'')
        rw [hpayload .userId a.userId rfl] at howner
        have hsame : some existing.userId = some userId.str :=
          owner_of_prepareUpdate hwritten ▸ howner
        obtain ⟨e', he'⟩ := Option.isSome_iff_exists.mp (ofPayload?_isSome env'.fresh env.fresh
          (Option.isSome_iff_exists.mpr ⟨existing, hread⟩))
        exact ⟨e', getExperience_ok_iff.mpr
          ⟨houtage, point, hpoint, (userId_of_ofPayload? hread).trans hsame, he'⟩⟩
    · exact ⟨e, (getExperience_congr (congrArg (Option.map Point.payload)
        (Write.retrieve_apply_of_ne htarget db))) ▸ h⟩

theorem getExperience_serial {order : List (Edit V)} {e : Experience}
    (h : getExperience env (edits.serial db order) id userId = .ok e) :
    ∃ e', getExperience env db id userId = .ok e' := by
  induction order generalizing db e with
  | nil => exact ⟨e, h⟩
  | cons edit order ih =>
    obtain ⟨e', he'⟩ := ih h
    exact getExperience_serve he'

/-! ## Runs -/

abbrev EditTask (V : Type) := ReadWrite.Task (Collection V) (Edit V) (Write V)

/-- An update that is about to write finds the payload it has read. -/
def Current (db : Collection V) : EditTask V → Prop
  | .writing (.update _ experienceId _ _) read _ =>
    (db.retrieve experienceId).map Point.payload = (read.retrieve experienceId).map Point.payload
  | _ => True

/-- An update that is about to write embeds the text again, or keeps it. -/
def Told : EditTask V → Prop
  | .writing (.update env experienceId userId body) read _ =>
    ∀ existing, getExperience env read experienceId userId = .ok existing →
      body.1.KeepsText existing
  | _ => True

/-- The vectors come from one function of the text. -/
def Edit.EmbedsBy (embedding : String → V) (edit : Edit V) : Prop :=
  edit.around.EmbedsBy embedding

/-- An update is served when it writes, a deletion before all others. -/
theorem fits_of_current {edit : Edit V} {read : Collection V} {write : Write V}
    {before order : List (Edit V)} (hread : edits.serial db before = read)
    (hprepared : edits.prepare read edit = some write)
    (hcurrent : Current (edits.serial db order) (.writing edit read write)) :
    ∃ order', order'.Perm (edit :: order) ∧
      edits.serial db order' = write.apply (edits.serial db order) := by
  cases edit with
  | update env experienceId userId body =>
    refine ⟨order ++ [.update env experienceId userId body], List.perm_append_singleton _ _, ?_⟩
    have hnow := @prepare_congr _ _ _ (.update env experienceId userId body) hcurrent
    rw [ReadWrite.serial_append_singleton, ReadWrite.serve_of_some (hnow.trans hprepared)]
    rfl
  | deletion env experienceId userId =>
    obtain ⟨⟨e, hexisting⟩, houtage, rfl⟩ := prepare_deletion.mp hprepared
    -- What the deletion could read, it could have read at the very start.
    have hfirst : edits.prepare db (.deletion env experienceId userId) =
        some (.delete experienceId) :=
      prepare_deletion.mpr ⟨getExperience_serial (hread ▸ hexisting), houtage, rfl⟩
    refine ⟨.deletion env experienceId userId :: order, List.Perm.refl _, ?_⟩
    rw [ReadWrite.serial_cons, ReadWrite.serve_of_some hfirst]
    exact serial_delete db experienceId order

/-- Different ids, and vectors that are those of the text. -/
structure InOrder (embedding : String → V) (db : Collection V) : Prop where
  keyed : db.Keyed
  agrees : ∀ point ∈ db, point.Agrees embedding

theorem inOrder_apply {embedding : String → V} {edit : Edit V} {read : Collection V}
    {write : Write V} (hembeds : edit.EmbedsBy embedding)
    (hprepared : edits.prepare read edit = some write)
    (hcurrent : Current db (.writing edit read write)) (htold : Told (.writing edit read write))
    (h : InOrder embedding db) : InOrder embedding (write.apply db) := by
  cases edit with
  | update env experienceId userId body =>
    obtain ⟨existing, a, hexisting, hwritten⟩ := prepare_update.mp hprepared
    have hnow : getExperience env db experienceId userId = .ok existing :=
      (getExperience_congr hcurrent).trans hexisting
    obtain ⟨-, point, hpoint, -, hread⟩ := getExperience_ok_iff.mp hnow
    refine ⟨?_, ?_⟩
    · rcases prepareUpdate_ok hwritten with ⟨-, -, vector, -, rfl⟩ | ⟨-, -, rfl⟩
      · exact h.keyed.upsert _
      · exact h.keyed.setPayload _ _
    · exact (forall_agrees_apply h.keyed hpoint hread hwritten hembeds h.agrees).1
        (htold existing hexisting)
  | deletion env experienceId userId =>
    obtain ⟨-, -, rfl⟩ := prepare_deletion.mp hprepared
    refine ⟨h.keyed.delete experienceId, fun point hpoint => ?_⟩
    exact h.agrees point (List.mem_of_mem_filter hpoint)

/-- An experience that is gone stays away: no update still finds it. -/
theorem retrieve_apply_eq_none {edit : Edit V} {read : Collection V} {write : Write V}
    (hprepared : edits.prepare read edit = some write)
    (hcurrent : Current db (.writing edit read write)) (h : db.retrieve id = none) :
    (write.apply db).retrieve id = none := by
  by_cases htarget : write.target = id
  · have hedit := (target_of_prepare hprepared).symm.trans htarget
    cases edit with
    | update env experienceId userId body =>
      obtain rfl : experienceId = id := hedit
      have hread : (read.retrieve experienceId) = none := by
        have hnone : (db.retrieve experienceId).map Point.payload = none := by rw [h]; rfl
        exact Option.map_eq_none_iff.mp (hcurrent.symm.trans hnone)
      exact absurd (hprepared.symm.trans (prepare_of_retrieve_eq_none hread))
        (Option.some_ne_none write)
    | deletion env experienceId userId =>
      obtain rfl : experienceId = id := hedit
      obtain ⟨-, -, rfl⟩ := prepare_deletion.mp hprepared
      exact Collection.retrieve_delete db experienceId
  · rw [Write.retrieve_apply_of_ne htarget]
    exact h

/-- As long as every update that writes finds the payload it has read, updates and deletions
are serializable, an experience that is gone does not come back, and, if every update embeds
the text again or keeps it, all vectors stay those of what is stored. -/
theorem edits_serializable {embedding : String → V}
    {guard : Collection V → EditTask V → Prop} (hguard : ∀ db task, guard db task → Current db task)
    {p : Pool (Collection V) (EditTask V)}
    (h : Pool.Reachable ((edits.program (Edit.EmbedsBy embedding)).guarded guard) db p) :
    edits.Serializable db p ∧
      (∀ later, Relation.ReflTransGen
          (Pool.Step ((edits.program (Edit.EmbedsBy embedding)).guarded guard)) p later →
        ∀ id, p.shared.retrieve id = none → later.shared.retrieve id = none) ∧
      ((∀ db task, guard db task → Told task) → InOrder embedding db →
        InOrder embedding p.shared) := by
  have hstart : ∀ t ∈ (⟨db, []⟩ : Pool (Collection V) (EditTask V)).tasks,
      t.Prepared edits (Edit.EmbedsBy embedding) := fun t ht => absurd ht List.not_mem_nil
  refine ⟨?_, ?_, ?_⟩
  · refine (ReadWrite.serializable_of_reachable ?_ h).1
    intro edit read write before order hread hprepared hpassed
    exact fits_of_current hread hprepared (hguard _ _ hpassed)
  · intro later hlater id hnone
    have hprepared := (ReadWrite.invariant_of_steps (I := fun _ => True)
      (fun _ _ _ _ _ _ _ _ => trivial) hstart trivial h).2
    refine (ReadWrite.invariant_of_steps (I := fun db => db.retrieve id = none) ?_ hprepared hnone
      hlater).1
    intro edit read db write _ hsome hpassed
    exact retrieve_apply_eq_none hsome (hguard _ _ hpassed)
  · intro htold horder
    refine (ReadWrite.invariant_of_steps (I := InOrder embedding) ?_ hstart horder h).1
    intro edit read db write hembeds hsome hpassed
    exact inOrder_apply hembeds hsome (hguard _ _ hpassed) (htold _ _ hpassed)

end

/-! ## Two requests about a note -/

/-- The collection in which a user has stored a note. -/
def stored : Collection String := (((Call.create echo 7 note).perform []).map Prod.snd).getD []

def retitling : Edit String := .update echo 1 7 ⟨retitled (.value "나눔"), by decide +kernel⟩

def retyping : Edit String :=
  .update echo 1 7 ⟨{ retitled .unset with experienceType := .value .other }, by decide +kernel⟩

def deleting : Edit String := .deletion echo 1 7

theorem embedsBy_of_around {edit : Edit String} (h : edit.around = echo) : edit.EmbedsBy id := by
  intro text vector hembed
  rw [h] at hembed
  exact (Except.ok.inj hembed).symm

theorem inOrder_stored : InOrder id stored := by
  have hsome : ((Call.create echo 7 note).perform []).isSome = true := by decide +kernel
  obtain ⟨⟨a, after⟩, hcreated⟩ := Option.isSome_iff_exists.mp hsome
  have hafter : stored = after := by rw [stored, hcreated]; rfl
  rw [hafter]
  refine ⟨Call.keyed hcreated Collection.keyed_nil, ?_⟩
  refine (Call.agrees hcreated ?_ Collection.keyed_nil ?_).1 trivial
  · exact embedsBy_noted (retitled .unset) _ List.mem_cons_self
  · exact fun point hpoint => absurd hpoint List.not_mem_nil

/-- Two updates come at once, and the second reads what the first has written. -/
theorem edits_serializable_both : ∃ p : Pool (Collection String) (EditTask String),
    Pool.Reachable ((edits.program (Edit.EmbedsBy id)).guarded fun db task =>
        Current db task ∧ Told task) stored p ∧
      p.tasks = [.accepted retyping, .accepted retitling] ∧
      edits.Serializable stored p ∧ InOrder id p.shared := by
  let P := (edits.program (Edit.EmbedsBy id)).guarded fun db task => Current db task ∧ Told task
  have hsome : (edits.prepare stored retitling).isSome = true := by decide +kernel
  obtain ⟨write, hprepared⟩ := Option.isSome_iff_exists.mp hsome
  have hserve : edits.serve stored retitling = write.apply stored := by
    rw [ReadWrite.serve, hprepared]
    rfl
  have hsome' : (edits.prepare (edits.serve stored retitling) retyping).isSome = true := by
    decide +kernel
  rw [hserve] at hsome'
  obtain ⟨write', hprepared'⟩ := Option.isSome_iff_exists.mp hsome'
  have htold : Told (.writing retitling stored write) := by
    intro existing _ hnull
    cases hnull
  have htold' : Told (.writing retyping (write.apply stored) write') := by
    intro existing _ hnull
    cases hnull
  have hstart : Pool.Reachable P stored ⟨stored, [.waiting retitling]⟩ :=
    .single (.start stored [] ⟨retitling, embedsBy_of_around rfl, rfl⟩)
  have hstart' : Pool.Reachable P stored ⟨stored, [.waiting retyping, .waiting retitling]⟩ :=
    hstart.tail (.start stored _ ⟨retyping, embedsBy_of_around rfl, rfl⟩)
  have hfirst : P.Runs (stored, .waiting retitling) (write.apply stored, .accepted retitling) :=
    .step ⟨⟨trivial, trivial⟩, .read hprepared⟩ (.last ⟨⟨rfl, htold⟩, .write⟩)
  have hsecond : P.Runs (write.apply stored, .waiting retyping)
      (write'.apply (write.apply stored), .accepted retyping) :=
    .step ⟨⟨trivial, trivial⟩, .read hprepared'⟩ (.last ⟨⟨rfl, htold'⟩, .write⟩)
  have hreach := hsecond.reachable_middle [] [.accepted retitling]
    (hfirst.reachable_middle [.waiting retyping] [] hstart')
  obtain ⟨hserial, -, horder⟩ := edits_serializable (fun _ _ h => h.1) hreach
  exact ⟨_, hreach, rfl, hserial, horder (fun _ _ h => h.2) inOrder_stored⟩

/-- The title stored for the note, and its vector. -/
def seen (db : Collection String) : Option (Option String × String) :=
  (db.retrieve 1).map fun point => ((point.payload .title).get, point.vector)

/-- What two requests leave that both read before one of them writes. -/
def overlapped (first second : Edit String) : Option (Collection String) := do
  let write ← edits.prepare stored first
  let write' ← edits.prepare stored second
  return edits.apply write' (edits.apply write stored)

theorem reachable_overlapped {first second : Edit String} (hfirst : first.around = echo)
    (hsecond : second.around = echo) {db : Collection String}
    (h : overlapped first second = some db) :
    ∃ p write, edits.prepare stored first = some write ∧ p.shared = edits.apply write stored ∧
      Pool.Reachable (edits.program (Edit.EmbedsBy id)) stored p ∧
      Pool.Step (edits.program (Edit.EmbedsBy id)) p
        ⟨db, [ReadWrite.Task.accepted first, ReadWrite.Task.accepted second]⟩ := by
  simp only [overlapped, Option.bind_eq_bind, Option.bind_eq_some_iff, Option.pure_def,
    Option.some.injEq] at h
  obtain ⟨write, hwrite, write', hwrite', rfl⟩ := h
  refine ⟨_, write, hwrite, ?_, ReadWrite.reachable_overlapping (embedsBy_of_around hfirst)
    (embedsBy_of_around hsecond) hwrite hwrite', ?_⟩
  · rfl
  · exact Pool.Step.act [ReadWrite.Task.accepted first] [] ReadWrite.Act.write

/-- Both updates are accepted, but the title is lost, though its vector stays; and a note that
has been deleted comes back. -/
theorem not_serializable :
    (∃ p, Pool.Reachable (edits.program (Edit.EmbedsBy id)) stored p ∧
      p.tasks = [.accepted retitling, .accepted retyping] ∧
      ¬ edits.Serializable stored p ∧ ¬ InOrder id p.shared) ∧
    ∃ p later, Pool.Reachable (edits.program (Edit.EmbedsBy id)) stored p ∧
      Relation.ReflTransGen (Pool.Step (edits.program (Edit.EmbedsBy id))) p later ∧
      p.shared.retrieve 1 = none ∧ later.shared.retrieve 1 ≠ none := by
  constructor
  · have hsome : (overlapped retitling retyping).any (fun db =>
        decide (seen db ≠ seen (edits.serial stored [retitling, retyping]) ∧
          seen db ≠ seen (edits.serial stored [retyping, retitling]) ∧
          db.any fun point => decide (point.text echo.fresh ≠ some point.vector))) = true := by
      decide +kernel
    obtain ⟨db, hdb, hlost⟩ := (Option.any_eq_true _ _).mp hsome
    obtain ⟨hfirst, hsecond, hstale⟩ := of_decide_eq_true hlost
    obtain ⟨p, _, -, -, hreach, hstep⟩ := reachable_overlapped (by rfl) (by rfl) hdb
    refine ⟨_, hreach.tail hstep, rfl, ?_, fun horder => ?_⟩
    · -- In either order the new title stays.
      rintro ⟨order, hperm, hserial⟩
      rcases List.perm_pair.mp hperm with rfl | rfl
      · exact hfirst (congrArg seen hserial).symm
      · exact hsecond (congrArg seen hserial).symm
    · obtain ⟨point, hpoint, hstale⟩ := List.any_eq_true.mp hstale
      exact of_decide_eq_true hstale (text_of_agrees (horder.agrees point hpoint) echo.fresh)
  · have hsome : (overlapped deleting retitling).any (fun db =>
        decide ((db.retrieve 1).isSome = true)) = true := by decide +kernel
    obtain ⟨db, hdb, hback⟩ := (Option.any_eq_true _ _).mp hsome
    obtain ⟨p, write, hwrite, hshared, hreach, hstep⟩ :=
      reachable_overlapped (by rfl) (by rfl) hdb
    obtain ⟨-, -, rfl⟩ := prepare_deletion.mp hwrite
    refine ⟨p, _, hreach, Relation.ReflTransGen.single hstep, ?_, ?_⟩
    · rw [hshared]
      exact Collection.retrieve_delete stored 1
    · exact Option.isSome_iff_ne_none.mp (of_decide_eq_true hback)

end Logit.Experiences
