import Logit.Concurrency.Projection
import Logit.Experiences.Edits
import Logit.Experiences.Matching

/-!
# Experiences of one user among those of others

All users' experiences are in one collection of Qdrant. A request filters by the user, or checks
whose the experience is that it has read; when it writes, it does not check again. Ids are drawn
at random and given once, so what an update puts back was its user's, even if it has been deleted
in between. So each user might as well have a collection of their own.

## Main definitions

* `searchExperiences`, `Selected.load` — a search, and an experience of a chat
* `Storage` — the collection, and whom each id has been given to
* `StorageTask`, `StorageAct`, `storages` — the requests of all users, and their calls of Qdrant
* `Storage.view` — one user's experiences

## Main results

* `alone_of_reachable` — what a user sees of a run is a run of that user alone
-/

namespace Logit.Experiences

open Calendar Concurrency Python

variable {V : Type}

/-! ## Reading -/

/-- What `listExperiences` does once it has counted the experiences. -/
def scrollExperiences (env : Env V) (db : Collection V) (userId : UUID) (total limit offset : ℕ) :
    Except ServiceError (List Experience × ℕ) := do
  if total ≤ offset then return ([], total)
  env.reach .scroll "list experiences from" "listing experiences"
  let points := (db.ofUser userId).newestFirst.take (min (limit + offset) total)
  match experiencesOf env.fresh points with
  | some experiences => return ((experiences.drop offset).take limit, total)
  | none => throw (.http ⟨500, "Internal server error while listing experiences."⟩)

/-- A search: its text, how many experiences it asks for, and what Qdrant makes of it. -/
structure Query (V : Type) where
  text : String
  limit : ℕ
  /-- The points closest to a vector, the closest first, with their scores. -/
  closest : V → List (Point V) → List (Hit V)
  /-- The exception the query raises, if it does. -/
  outage : Option QdrantError

/-- The user's experiences that are closest to a text. -/
def searchExperiences (env : Env V) (db : Collection V) (userId : UUID) (query : Query V) :
    Except ServiceError (List (Experience × ℚ)) := do
  let embedding ← (generateEmbedding env.services query.text).mapError .http
  match query.outage with
  | some .unexpectedResponse => throw (.http
      ⟨503, "Failed to search experiences in vector database. Please try again later."⟩)
  | some .other => throw (.http ⟨500, "Internal server error while searching experiences."⟩)
  | none =>
    let hits := (query.closest embedding (db.ofUser userId)).take query.limit
    match hits.mapM fun hit => (Experience.ofPayload? env.fresh hit.point.payload).map
        fun experience => (experience, hit.score) with
    | some results => return results
    | none => throw .validationError

/-- `ChatRequest.validate_experience_ids`: the ids of a chat, or the message it refuses them
with. -/
def validateExperienceIds (experienceIds : List String) : Except String (List String) :=
  if experienceIds.length = 0 then .ok []
  else if experienceIds.length > 3 then .error "최대 3개의 경험만 선택할 수 있습니다"
  else if ¬ experienceIds.Nodup then .error "중복된 경험을 선택할 수 없습니다"
  else .ok experienceIds

/-- An id of a chat, with the surroundings of the call that retrieves it, and the id as Qdrant
reads it, if it does. -/
structure Selected (V : Type) where
  experienceId : String
  env : Env V
  id : Option UUID

/-- One round of the loop of `get_experiences_by_ids`, which passes over all exceptions. -/
def Selected.load (db : Collection V) (userId : UUID) (selected : Selected V) :
    List Experience :=
  match selected.id with
  | none => []
  | some id => (getExperience selected.env db id userId).toOption.toList

/-! ## Requests -/

/-- The experiences that are stored, and whom each id has been given to. -/
structure Storage (V : Type) where
  db : Collection V
  given : List (UUID × UUID)

/-- The user of a request. -/
def Edit.userId : Edit V → UUID
  | update _ _ userId _ => userId
  | deletion _ _ userId => userId

/-- What a user has read. -/
inductive Answer
  | one (experience : Except ServiceError Experience)
  | page (experiences : Except ServiceError (List Experience × ℕ))
  | found (experiences : Except ServiceError (List (Experience × ℚ)))

/-- Where a request stands between its calls of Qdrant. -/
inductive StorageTask (V : Type)
  | creating (env : Env V) (userId : UUID) (create : ExperienceCreate)
  | editing (edit : Edit V)
  /-- An update or a deletion has read its experience and is about to write. -/
  | writing (edit : Edit V) (write : Write V)
  | getting (env : Env V) (userId experienceId : UUID)
  | listing (env : Env V) (userId : UUID) (limit offset : ℕ)
  | scrolling (env : Env V) (userId : UUID) (total limit offset : ℕ)
  | searching (env : Env V) (userId : UUID) (query : Query V)
  /-- A chat has loaded some of its experiences and is about to load the others. -/
  | selecting (userId : UUID) (selection : List (Selected V)) (loaded : List Experience)
  | answered (userId : UUID) (answer : Answer)
  | over (userId : UUID)

def StorageTask.userId : StorageTask V → UUID
  | creating _ userId _ => userId
  | editing edit => edit.userId
  | writing edit _ => edit.userId
  | getting _ userId _ => userId
  | listing _ userId _ _ => userId
  | scrolling _ userId _ _ _ => userId
  | searching _ userId _ => userId
  | selecting userId _ _ => userId
  | answered userId _ => userId
  | .over userId => userId

/-- One call of Qdrant. -/
inductive StorageAct : Storage V → StorageTask V → Storage V → StorageTask V → Prop
  /-- `uuid4` returns an id that it has not returned before. -/
  | create {s : Storage V} {env : Env V} {userId : UUID} {create : ExperienceCreate}
      {e : Experience} {after : Collection V}
      (hcreate : createExperience env s.db userId create = .ok (e, after))
      (hnew : env.newId ∉ s.given.map Prod.fst) :
      StorageAct s (.creating env userId create) ⟨after, (env.newId, userId) :: s.given⟩
        (.over userId)
  | read {s : Storage V} {edit : Edit V} {write : Write V}
      (hread : edits.prepare s.db edit = some write) :
      StorageAct s (.editing edit) s (.writing edit write)
  | write {s : Storage V} {edit : Edit V} {write : Write V} :
      StorageAct s (.writing edit write) { s with db := write.apply s.db } (.over edit.userId)
  | get {s : Storage V} {env : Env V} {userId id : UUID} : StorageAct s (.getting env userId id) s
      (.answered userId (.one (getExperience env s.db id userId)))
  | count {s : Storage V} {env : Env V} {userId : UUID} {limit offset : ℕ}
      (hreach : env.reach .count "list experiences from" "listing experiences" = .ok ()) :
      StorageAct s (.listing env userId limit offset) s
        (.scrolling env userId (s.db.ofUser userId).length limit offset)
  | scroll {s : Storage V} {env : Env V} {userId : UUID} {total limit offset : ℕ} :
      StorageAct s (.scrolling env userId total limit offset) s
        (.answered userId (.page (scrollExperiences env s.db userId total limit offset)))
  | search {s : Storage V} {env : Env V} {userId : UUID} {query : Query V} :
      StorageAct s (.searching env userId query) s
        (.answered userId (.found (searchExperiences env s.db userId query)))
  | select {s : Storage V} {userId : UUID} {selected : Selected V} {selection : List (Selected V)}
      {loaded : List Experience} : StorageAct s (.selecting userId (selected :: selection) loaded) s
        (.selecting userId selection (loaded ++ selected.load s.db userId))
  /-- Any call may fail, or a request be refused. -/
  | fail {s : Storage V} {task : StorageTask V} : StorageAct s task s (.over task.userId)

/-- The requests that may start. -/
def StorageTask.Starts : StorageTask V → Prop
  | writing _ _ => False
  | scrolling _ _ _ _ _ => False
  | selecting _ selection loaded => loaded = [] ∧
    validateExperienceIds (selection.map (·.experienceId)) = .ok (selection.map (·.experienceId))
  | answered _ _ => False
  | .over _ => False
  | _ => True

/-- An id may be given away elsewhere. -/
def Gives (s s' : Storage V) : Prop :=
  s'.db = s.db ∧ ∃ id userId, id ∉ s.given.map Prod.fst ∧ s'.given = (id, userId) :: s.given

/-- The requests about experiences. -/
def storages (V : Type) : Program (Storage V) (StorageTask V) :=
  ⟨Gives, StorageTask.Starts, StorageAct⟩

/-- A request for a list that runs alone answers what `listExperiences` returns. -/
theorem runs_listExperiences (s : Storage V) (env : Env V) (userId : UUID) (limit offset : ℕ)
    (hreach : env.reach .count "list experiences from" "listing experiences" = .ok ()) :
    (storages V).Runs (s, .listing env userId limit offset)
      (s, .answered userId (.page (listExperiences env s.db userId limit offset))) := by
  have hlist : listExperiences env s.db userId limit offset =
      scrollExperiences env s.db userId (s.db.ofUser userId).length limit offset := by
    rw [listExperiences, hreach]
    rfl
  rw [hlist]
  exact .step (.count hreach) (.last .scroll)

/-- What one user has stored. -/
def Storage.view (userId : UUID) (s : Storage V) : Storage V := ⟨s.db.ofUser userId, s.given⟩

/-- The user of a task. -/
def StorageTask.isOf (userId : UUID) (task : StorageTask V) : Bool := task.userId = userId

/-! ## Owners -/

/-- Whose a point is. -/
def Point.OwnedBy (userId : UUID) (point : Point V) : Prop :=
  (point.payload .userId).get = some userId.str

instance (userId : UUID) (point : Point V) : Decidable (point.OwnedBy userId) :=
  inferInstanceAs (Decidable (_ = _))

theorem Point.OwnedBy.eq {userId other : UUID} {point : Point V} (h : point.OwnedBy userId)
    (hother : point.OwnedBy other) : userId = other :=
  UUID.str_injective (Option.some.inj (h.symm.trans hother))

/-- The ids differ, each has been given to one user, and the points are theirs. -/
structure Storage.Owned (s : Storage V) : Prop where
  keyed : s.db.Keyed
  once : (s.given.map Prod.fst).Nodup
  owner : ∀ point ∈ s.db, ∃ userId, (point.id, userId) ∈ s.given ∧ point.OwnedBy userId

/-- What is written is the user's. -/
def Write.OwnedBy (userId : UUID) : Write V → Prop
  | upsert point => point.OwnedBy userId
  | setPayload _ payload => (payload .userId).get = some userId.str
  | delete _ => True

/-- A request that is about to write has been given the id, and writes what is its user's. -/
def Holds (s : Storage V) : StorageTask V → Prop
  | .writing edit write => (write.target, edit.userId) ∈ s.given ∧ write.OwnedBy edit.userId
  | _ => True

variable {s s' : Storage V} {task task' : StorageTask V} {userId other id : UUID}
  {db : Collection V} {env : Env V}

/-- An id that has been given to a user names a point of that user, if any. -/
theorem Storage.Owned.of_given (h : s.Owned) (hgiven : (id, userId) ∈ s.given) {point : Point V}
    (hpoint : point ∈ s.db) (hid : point.id = id) : point.OwnedBy userId := by
  obtain ⟨owner, howner, howned⟩ := h.owner point hpoint
  rw [hid] at howner
  have hsame := List.inj_on_of_nodup_map h.once howner hgiven rfl
  rwa [(Prod.mk.inj hsame).2] at howned

/-! ## What is read -/

namespace Collection

theorem retrieve_eq_some_iff (h : db.Keyed) {point : Point V} :
    db.retrieve id = some point ↔ point ∈ db ∧ point.id = id := by
  constructor
  · intro hfound
    exact ⟨List.mem_of_find?_eq_some hfound, by simpa using List.find?_some hfound⟩
  · rintro ⟨hpoint, hid⟩
    have hsome : (db.retrieve id).isSome = true :=
      List.find?_isSome.mpr ⟨point, hpoint, by simpa using hid⟩
    obtain ⟨found, hfound⟩ := Option.isSome_iff_exists.mp hsome
    rw [hfound, h.eq_of_retrieve hfound hpoint hid]

theorem Keyed.ofUser (h : db.Keyed) (userId : UUID) : (db.ofUser userId).Keyed :=
  h.sublist (List.filter_sublist.map _)

theorem mem_ofUser {point : Point V} :
    point ∈ db.ofUser userId ↔ point ∈ db ∧ point.OwnedBy userId := by
  rw [Collection.ofUser, List.mem_filter, decide_eq_true_eq]
  rfl

/-- The point with an id, if it is the user's. -/
theorem retrieve_ofUser (h : db.Keyed) :
    (db.ofUser userId).retrieve id = (db.retrieve id).filter (·.OwnedBy userId) := by
  ext point
  rw [retrieve_eq_some_iff (h.ofUser userId), mem_ofUser, Option.filter_eq_some_iff,
    retrieve_eq_some_iff h, decide_eq_true_eq]
  tauto

theorem ofUser_ofUser (db : Collection V) (userId : UUID) :
    (db.ofUser userId).ofUser userId = db.ofUser userId := by
  simp [Collection.ofUser, List.filter_filter]

end Collection

/-- A user reads one experience among those of others as among the own ones. -/
theorem getExperience_ofUser (h : db.Keyed) (env : Env V) (id userId : UUID) :
    getExperience env (db.ofUser userId) id userId = getExperience env db id userId := by
  unfold getExperience
  rw [Collection.retrieve_ofUser h]
  cases db.retrieve id with
  | none => rfl
  | some point =>
    by_cases howned : point.OwnedBy userId
    · rw [Option.filter_some_pos (by simpa using howned)]
    · rw [Option.filter_some_neg (by simpa using howned)]
      have hother : (point.payload .userId).get ≠ some userId.str := howned
      simp only [hother, ne_eq, not_false_eq_true, if_true]
      rfl

theorem load_ofUser (h : db.Keyed) (selected : Selected V) (userId : UUID) :
    selected.load (db.ofUser userId) userId = selected.load db userId := by
  unfold Selected.load
  cases selected.id with
  | none => rfl
  | some id => simp only [getExperience_ofUser h]

theorem scrollExperiences_ofUser (env : Env V) (db : Collection V) (userId : UUID)
    (total limit offset : ℕ) : scrollExperiences env (db.ofUser userId) userId total limit offset =
      scrollExperiences env db userId total limit offset := by
  unfold scrollExperiences
  rw [Collection.ofUser_ofUser]

theorem searchExperiences_ofUser (env : Env V) (db : Collection V) (userId : UUID)
    (query : Query V) :
    searchExperiences env (db.ofUser userId) userId query =
      searchExperiences env db userId query := by
  unfold searchExperiences
  rw [Collection.ofUser_ofUser]

theorem prepare_ofUser (h : db.Keyed) {edit : Edit V} (huser : edit.userId = userId) :
    edits.prepare (db.ofUser userId) edit = edits.prepare db edit := by
  cases edit with
  | update env experienceId user body =>
    obtain rfl : user = userId := huser
    simp only [edits, Edit.prepare, getExperience_ofUser h]
  | deletion env experienceId user =>
    obtain rfl : user = userId := huser
    simp only [edits, Edit.prepare, getExperience_ofUser h]

/-! ## What is written -/

/-- A creation stores a point of the user, whatever is stored. -/
theorem createExperience_point {create : ExperienceCreate} {e : Experience}
    {after : Collection V} (h : createExperience env db userId create = .ok (e, after)) :
    ∃ point : Point V, point.id = env.newId ∧ point.OwnedBy userId ∧ after = db.upsert point ∧
      ∀ db', createExperience env db' userId create = .ok (e, db'.upsert point) := by
  obtain ⟨temp, htemp, h⟩ := bind_eq_ok.mp h
  obtain ⟨experience, hbuilt, h⟩ := bind_eq_ok.mp h
  obtain ⟨vector, hvector, h⟩ := bind_eq_ok.mp h
  obtain ⟨_, hreach, h⟩ := bind_eq_ok.mp h
  rw [pure_eq_ok, Prod.mk.injEq] at h
  obtain ⟨rfl, rfl⟩ := h
  refine ⟨⟨env.newId, vector, experience.attributes.modelDump⟩, rfl, ?_, rfl, fun db' => ?_⟩
  · have hattributes := congrArg Attributes.userId (buildExperience_ok.mp hbuilt)
    exact congrArg some hattributes
  · exact bind_eq_ok.mpr ⟨temp, htemp, bind_eq_ok.mpr ⟨experience, hbuilt, bind_eq_ok.mpr
      ⟨vector, hvector, bind_eq_ok.mpr ⟨(), hreach, rfl⟩⟩⟩⟩

theorem mem_of_getExperience {e : Experience}
    (h : getExperience env db id userId = .ok e) :
    ∃ point ∈ db, point.id = id ∧ point.OwnedBy userId := by
  obtain ⟨-, point, hpoint, howner, -⟩ := getExperience_ok_iff.mp h
  exact ⟨point, List.mem_of_find?_eq_some hpoint, by simpa using List.find?_some hpoint, howner⟩

/-- What has been read was the user's, and so is what is written. -/
theorem owned_of_prepare {edit : Edit V} {write : Write V}
    (h : edits.prepare db edit = some write) :
    (∃ point ∈ db, point.id = write.target ∧ point.OwnedBy edit.userId) ∧
      write.OwnedBy edit.userId := by
  rw [target_of_prepare h]
  cases edit with
  | update env experienceId user body =>
    obtain ⟨existing, a, hexisting, hwritten⟩ := prepare_update.mp h
    obtain ⟨-, point, -, howner, hread⟩ := getExperience_ok_iff.mp hexisting
    refine ⟨mem_of_getExperience hexisting, ?_⟩
    have hsame : a.userId = user.str := by
      rw [owner_of_prepareUpdate hwritten]
      exact Option.some.inj ((userId_of_ofPayload? hread).symm.trans howner)
    rcases prepareUpdate_ok hwritten with ⟨-, -, vector, -, rfl⟩ | ⟨-, -, rfl⟩
    · exact congrArg some hsame
    · exact congrArg some hsame
  | deletion env experienceId user =>
    obtain ⟨⟨existing, hexisting⟩, -, rfl⟩ := prepare_deletion.mp h
    exact ⟨mem_of_getExperience hexisting, trivial⟩

theorem ownedBy_iff_eq {point : Point V} (howned : point.OwnedBy other) :
    point.OwnedBy userId ↔ other = userId := by
  constructor
  · exact howned.eq
  · rintro rfl
    exact howned

/-- A point of a user that is overwritten with a payload of that user. -/
theorem ownedBy_merge {point : Point V} {payload : Payload}
    (hpayload : (payload .userId).get = some other.str) :
    ({ point with payload := fun key => (point.payload key).merge (payload key) } :
      Point V).OwnedBy other := by
  change ((point.payload .userId).merge (payload .userId)).get = some other.str
  cases hgiven : payload .userId with
  | unset => rw [hgiven] at hpayload; cases hpayload
  | null => rw [hgiven] at hpayload; cases hpayload
  | value text =>
    rw [hgiven] at hpayload
    exact hpayload

namespace Write

variable {write : Write V}

theorem ownedBy_setPayload {payload : Payload}
    (hpayload : (payload .userId).get = some other.str)
    (hheld : ∀ point ∈ db, point.id = id → point.OwnedBy other) {point : Point V}
    (hpoint : point ∈ db) :
    (if point.id = id then
      { point with payload := fun key => (point.payload key).merge (payload key) }
    else point).OwnedBy userId ↔ point.OwnedBy userId := by
  split_ifs with hid
  · rw [ownedBy_iff_eq (ownedBy_merge hpayload), ownedBy_iff_eq (hheld point hpoint hid)]
  · rfl

theorem ofUser_setPayload {payload : Payload} (hpayload : (payload .userId).get = some other.str)
    (hheld : ∀ point ∈ db, point.id = id → point.OwnedBy other) :
    (db.setPayload id payload).ofUser userId = (db.ofUser userId).setPayload id payload := by
  rw [Collection.setPayload, Collection.ofUser, List.filter_map, Collection.setPayload,
    Collection.ofUser]
  refine congrArg _ (List.filter_congr fun point hpoint => decide_eq_decide.mpr ?_)
  exact ownedBy_setPayload hpayload hheld hpoint

/-- A user's write is one to the user's own points. -/
theorem ofUser_apply (hwrite : write.OwnedBy userId)
    (hheld : ∀ point ∈ db, point.id = write.target → point.OwnedBy userId) :
    (write.apply db).ofUser userId = write.apply (db.ofUser userId) := by
  cases write with
  | upsert point =>
    have howned : [point].filter (fun p => (p.payload .userId).get = some userId.str) = [point] :=
      List.filter_cons_of_pos (decide_eq_true hwrite)
    rw [apply, apply, Collection.upsert, Collection.upsert, Collection.ofUser, List.filter_append,
      howned, List.filter_comm]
    rfl
  | setPayload id payload => exact ofUser_setPayload hwrite hheld
  | delete id => exact List.filter_comm _ _ db

/-- And it does nothing to the points of others. -/
theorem ofUser_apply_of_ne (hne : other ≠ userId) (hwrite : write.OwnedBy other)
    (hheld : ∀ point ∈ db, point.id = write.target → point.OwnedBy other) :
    (write.apply db).ofUser userId = db.ofUser userId := by
  have hids : ∀ point ∈ db.ofUser userId, point.id ≠ write.target := by
    intro point hpoint hid
    obtain ⟨hmem, howned⟩ := Collection.mem_ofUser.mp hpoint
    exact hne ((hheld point hmem hid).eq howned)
  have hkept : (db.ofUser userId).filter (fun point => point.id ≠ write.target) =
      db.ofUser userId :=
    List.filter_eq_self.mpr fun point hpoint => decide_eq_true (hids point hpoint)
  cases write with
  | upsert point =>
    have hothers : [point].filter (fun p => (p.payload .userId).get = some userId.str) = [] :=
      List.filter_cons_of_neg fun hmine =>
        hne (Point.OwnedBy.eq hwrite (of_decide_eq_true hmine))
    rw [apply, Collection.upsert, Collection.ofUser, List.filter_append, hothers, List.append_nil,
      List.filter_comm]
    exact hkept
  | setPayload id payload =>
    have hview := @ofUser_setPayload _ userId other id db _ hwrite hheld
    rw [apply, hview, Collection.setPayload]
    refine (List.map_congr_left fun point hpoint => ?_).trans (List.map_id _)
    exact if_neg (hids point hpoint)
  | delete id => exact (List.filter_comm _ _ db).trans hkept

end Write

/-! ## Runs -/

/-- A write to an id that has been given to its user. -/
theorem Storage.Owned.write (h : s.Owned) {write : Write V}
    (hgiven : (write.target, other) ∈ s.given) (hwrite : write.OwnedBy other) :
    ({ s with db := write.apply s.db } : Storage V).Owned where
  keyed := by
    cases write with
    | upsert point => exact h.keyed.upsert point
    | setPayload id payload => exact h.keyed.setPayload id payload
    | delete id => exact h.keyed.delete id
  once := h.once
  owner := by
    intro point hpoint
    cases write with
    | upsert stored =>
      rcases List.mem_append.mp hpoint with hold | hnew
      · exact h.owner point (List.mem_of_mem_filter hold)
      · rw [List.mem_singleton] at hnew
        subst hnew
        exact ⟨other, hgiven, hwrite⟩
    | setPayload id payload =>
      obtain ⟨before, hbefore, rfl⟩ := List.mem_map.mp hpoint
      split_ifs with hid
      · exact ⟨other, hid ▸ hgiven, ownedBy_merge hwrite⟩
      · exact h.owner before hbefore
    | delete id => exact h.owner point (List.mem_of_mem_filter hpoint)

/-- An id that is given to somebody. -/
theorem Storage.Owned.give (h : s.Owned) (hnew : id ∉ s.given.map Prod.fst) (userId : UUID) :
    ({ s with given := (id, userId) :: s.given } : Storage V).Owned where
  keyed := h.keyed
  once := List.nodup_cons.mpr ⟨hnew, h.once⟩
  owner point hpoint := by
    obtain ⟨owner, howner, howned⟩ := h.owner point hpoint
    exact ⟨owner, List.mem_cons_of_mem _ howner, howned⟩

/-- A creation, as an id that is given and a write to it. -/
theorem Storage.Owned.create (h : s.Owned) {point : Point V}
    (hnew : point.id ∉ s.given.map Prod.fst) (hpoint : point.OwnedBy userId) :
    (⟨s.db.upsert point, (point.id, userId) :: s.given⟩ : Storage V).Owned :=
  @Storage.Owned.write _ _ userId (h.give hnew userId) (.upsert point) List.mem_cons_self hpoint

/-- No point has an id that has not been given. -/
theorem Storage.Owned.not_mem (h : s.Owned) (hnew : id ∉ s.given.map Prod.fst) :
    ∀ point ∈ s.db, point.id ≠ id := by
  rintro point hpoint rfl
  obtain ⟨owner, howner, -⟩ := h.owner point hpoint
  exact hnew (List.mem_map_of_mem (f := Prod.fst) howner)

/-- Everything about the points a request finds is kept, and so is what it is about to write. -/
theorem keeps_owned : (storages V).Keeps (fun s s' => s.given ⊆ s'.given) Storage.Owned Holds where
  env := by
    rintro s ⟨db, given⟩ ⟨hdb, id, userId, hnew, hgiven⟩ h
    obtain rfl : db = s.db := hdb
    obtain rfl : given = (id, userId) :: s.given := hgiven
    exact ⟨h.give hnew userId, List.subset_cons_self _ _⟩
  start := by
    intro s task hstart _
    cases task with
    | writing edit write => exact hstart.elim
    | _ => trivial
  act := by
    intro s s' task task' hact h hholds
    cases hact with
    | create hcreate hnew =>
      obtain ⟨point, hid, howned, rfl, -⟩ := createExperience_point hcreate
      rw [← hid] at hnew ⊢
      exact ⟨h.create hnew howned, List.subset_cons_self _ _, trivial⟩
    | read hread =>
      obtain ⟨⟨point, hpoint, hid, howned⟩, hwrite⟩ := owned_of_prepare hread
      obtain ⟨owner, howner, howned'⟩ := h.owner point hpoint
      refine ⟨h, List.Subset.refl _, ?_, hwrite⟩
      rwa [hid, ← howned.eq howned'] at howner
    | write => exact ⟨h.write hholds.1 hholds.2, List.Subset.refl _, trivial⟩
    | _ => exact ⟨h, List.Subset.refl _, trivial⟩
  stable := by
    intro s s' task hgrows hholds
    cases task with
    | writing edit write => exact ⟨hgrows hholds.1, hholds.2⟩
    | _ => trivial

/-- What one user sees of the requests of all. -/
theorem projects_view (userId : UUID) :
    (storages V).Projects (storages V) (Storage.view userId) (StorageTask.isOf userId) Storage.Owned
      Holds where
  env := by
    rintro s s' ⟨hdb, id, owner, hnew, hgiven⟩ -
    exact .inr ⟨congrArg (Collection.ofUser · userId) hdb, id, owner, hnew, hgiven⟩
  start := fun hstart _ => hstart
  mine := by
    intro s s' task task' hact h hholds hmine
    have huser : task.userId = userId := of_decide_eq_true hmine
    cases hact with
    | @create env user create e after hcreate hnew =>
      obtain rfl : user = userId := huser
      obtain ⟨point, hid, howned, rfl, hall⟩ := createExperience_point hcreate
      have hnone := h.not_mem (show point.id ∉ s.given.map Prod.fst by rwa [hid])
      have hview : (s.db.upsert point).ofUser user = (s.db.ofUser user).upsert point := by
        refine @Write.ofUser_apply _ user s.db (.upsert point) howned fun p hp hsame => ?_
        exact absurd hsame (hnone p hp)
      rw [Storage.view, Storage.view, hview]
      exact .create (hall _) hnew
    | read hread => exact .read ((prepare_ofUser h.keyed huser).trans hread)
    | @write edit write =>
      obtain rfl : edit.userId = userId := huser
      have hview := Write.ofUser_apply hholds.2 fun p hp hid => h.of_given hholds.1 hp hid
      rw [Storage.view, Storage.view, hview]
      exact .write
    | @get env user id =>
      obtain rfl : user = userId := huser
      rw [← getExperience_ofUser h.keyed]
      exact .get
    | @count env user limit offset hreach =>
      obtain rfl : user = userId := huser
      rw [← Collection.ofUser_ofUser]
      exact .count hreach
    | @scroll env user total limit offset =>
      obtain rfl : user = userId := huser
      rw [← scrollExperiences_ofUser]
      exact .scroll
    | @search env user query =>
      obtain rfl : user = userId := huser
      rw [← searchExperiences_ofUser]
      exact .search
    | @select user selected selection loaded =>
      obtain rfl : user = userId := huser
      rw [← load_ofUser h.keyed]
      exact .select
    | fail => exact .fail
  others := by
    intro s s' task task' hact h hholds hother
    have hne : task.userId ≠ userId := of_decide_eq_false hother
    cases hact with
    | @create env user create e after hcreate hnew =>
      obtain ⟨point, hid, howned, rfl, -⟩ := createExperience_point hcreate
      have hnone := h.not_mem (show point.id ∉ s.given.map Prod.fst by rwa [hid])
      have hview : (s.db.upsert point).ofUser userId = s.db.ofUser userId := by
        refine @Write.ofUser_apply_of_ne _ userId user s.db (.upsert point) hne howned
          fun p hp hsame => ?_
        exact absurd hsame (hnone p hp)
      exact .inr ⟨hview, env.newId, user, hnew, rfl⟩
    | write =>
      have hview := Write.ofUser_apply_of_ne hne hholds.2 fun p hp hid =>
        h.of_given hholds.1 hp hid
      rw [Storage.view, Storage.view, hview]
      exact .inl rfl
    | _ => exact .inl rfl
  same := by
    intro s s' task task' hact
    cases hact <;> rfl

/-- Whatever other users do, and in whatever order all calls are made: the user's experiences, and
all that the user's requests have read, are those of a run of the user's own requests alone. -/
theorem alone_of_reachable {p : Pool (Storage V) (StorageTask V)} (h : s.Owned)
    (hrun : Pool.Reachable (storages V) s p) (userId : UUID) :
    Pool.Reachable (storages V) (s.view userId)
      (p.project (Storage.view userId) (StorageTask.isOf userId)) :=
  (projects_view userId).of_reachable keeps_owned h hrun

/-! ### Two users -/

/-- A collection without experiences. -/
def Storage.empty : Storage String := ⟨[], []⟩

theorem Storage.owned_empty : Storage.empty.Owned :=
  ⟨Collection.keyed_nil, List.nodup_nil, fun _ hpoint => absurd hpoint List.not_mem_nil⟩

/-- The surroundings of a call that draws an id. -/
def drawing (id : UUID) : Env String := { echo with newId := id }

theorem valid_note : note.Valid := by decide +kernel

/-- A note that is stored. -/
def stores (id userId : UUID) : StorageTask String :=
  .creating (drawing id) userId ⟨note, valid_note⟩

/-- Whatever is stored, a note is stored with it. -/
theorem runs_stores {s : Storage String} {id userId : UUID} (hnew : id ∉ s.given.map Prod.fst)
    (hcreated : (createExperience (drawing id) [] userId ⟨note, valid_note⟩).toOption.isSome =
      true) :
    ∃ point : Point String, point.id = id ∧ (storages String).Runs (s, stores id userId)
      (⟨s.db.upsert point, (id, userId) :: s.given⟩, .over userId) := by
  obtain ⟨⟨e, after⟩, hsome⟩ := Option.isSome_iff_exists.mp hcreated
  obtain ⟨point, hid, -, -, hall⟩ := createExperience_point (toOption_eq_some.mp hsome)
  exact ⟨point, hid, .last (.create (hall s.db) hnew)⟩

theorem alone_of_reachable_notes : ∃ p, Pool.Reachable (storages String) .empty p ∧
    p.shared.db.length = 2 ∧ Pool.Reachable (storages String) (Storage.empty.view 7)
      (p.project (Storage.view 7) (StorageTask.isOf 7)) := by
  obtain ⟨first, hfirst, hrun⟩ :=
    @runs_stores Storage.empty 1 7 List.not_mem_nil (by decide +kernel)
  have hstored : Pool.Reachable (storages String) Storage.empty _ := hrun.reachable trivial .refl
  have hnew : (2 : UUID) ∉ [((1 : UUID), (7 : UUID))].map Prod.fst := by decide
  obtain ⟨second, hsecond, hrun'⟩ :=
    @runs_stores ⟨Storage.empty.db.upsert first, [(1, 7)]⟩ 2 8 hnew (by decide +kernel)
  have hreach := hrun'.reachable trivial hstored
  refine ⟨_, hreach, ?_, alone_of_reachable Storage.owned_empty hreach 7⟩
  simp [Storage.empty, Collection.upsert, hfirst, hsecond]

end Logit.Experiences
