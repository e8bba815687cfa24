import Basilica.ApiKeys

/-!
The rentals of the public API. The validator knows every rental and no users; the table `user_rentals` says whose each one is,
and the handlers look there before they answer or ask the validator for a rental.
-/

namespace Basilica.Api.Rentals

open AssocMaps StepRuns List Option AssocMap

section Tables

/-- A row of `user_rentals` under its `rental_id`; the column `created_at` may be null. -/
structure UserRental where
  userId : String
  sshCredentials : Option String
  createdAt : Option ℤ

structure TerminatedUserRental where
  userId : String
  sshCredentials : Option String
  createdAt : ℤ
  stoppedAt : ℤ
  stopReason : Option String

structure Tables where
  userRentals : AssocMap String UserRental
  terminatedUserRentals : AssocMap String TerminatedUserRental

inductive DbError
  | failed (text : String)
  | unexpectedNull
  | uniqueViolation
  | notNullViolation

/-- `ORDER BY created_at DESC`, which puts nulls first. -/
def NotBefore : Option ℤ → Option ℤ → Prop
  | none, _ => True
  | some _, none => False
  | some a, some b => b ≤ a

structure Selected (userId : String) (s : Tables) (rows : List (String × UserRental)) : Prop where
  perm : rows.Perm (s.userRentals.entries.filter (fun p => p.2.userId = userId))
  sorted : rows.Pairwise (fun a b => NotBefore a.2.createdAt b.2.createdAt)

variable (fault : Option String)

def Answers (userId : String) (s : Tables) (answer : Except String (List (String × UserRental))) : Prop :=
  match fault with
  | some text => answer = .error text
  | none => ∃ rows, answer = .ok rows ∧ Selected userId s rows

def getRentalOwnership (rentalId userId : String) (s : Tables) : Except DbError (Option UserRental) :=
  match fault with
  | some text => .error (.failed text)
  | none =>
    match (s.userRentals.get? rentalId).filter (fun row => row.userId = userId) with
    | none => .ok none
    -- the row type has no null in this column
    | some row => if row.createdAt.isNone then .error .unexpectedNull else .ok (some row)

inductive WriteReply
  | done
  | failed (text : String)
  | lost (text : String)

/-- A write whose answer is `lost` takes effect and is reported as failed. -/
def WriteReply.settle (reply : WriteReply) (written : Except DbError Tables) (s : Tables) : Except DbError Unit × Tables :=
  match reply, written with
  | failed text, _ => (.error (.failed text), s)
  | _, .error e => (.error e, s)
  | done, .ok s' => (.ok (), s')
  | lost text, .ok s' => (.error (.failed text), s')

def storeRentalOwnership (now : ℤ) (rentalId userId : String) (sshCredentials : Option String)
    (s : Tables) : Except DbError Tables :=
  if (s.userRentals.get? rentalId).isSome then .error .uniqueViolation
  else .ok { s with userRentals := s.userRentals.insert rentalId ⟨userId, sshCredentials, some now⟩ }

/-- One transaction: the row is copied and deleted, or the tables stay as they are. -/
def archiveRentalOwnership (now : ℤ) (rentalId : String) (stopReason : Option String) (s : Tables) :
    Except DbError Tables :=
  match s.userRentals.get? rentalId with
  | none => .ok s
  | some row =>
    match row.createdAt with
    | none => .error .notNullViolation
    | some createdAt =>
      if (s.terminatedUserRentals.get? rentalId).isSome then .error .uniqueViolation
      else .ok {
        userRentals := s.userRentals.erase rentalId
        terminatedUserRentals := s.terminatedUserRentals.insert rentalId
          ⟨row.userId, row.sshCredentials, createdAt, now, stopReason⟩ }

end Tables

section Handlers

inductive Rejection
  | badRequest
  | unauthorized
  | internalServerError
  | notFound
deriving DecidableEq

structure OwnedRental where
  rentalId : String
  userId : String
  sshCredentials : Option String

/-- `OwnedRental::from_request_parts` -/
def fromRequestParts (fault : Option String) (path : Option String) (context : Option AuthContext) (s : Tables) :
    Except Rejection OwnedRental :=
  match path with
  | none => .error .badRequest
  | some rentalId =>
    match context with
    | none => .error .unauthorized
    | some context =>
      match getRentalOwnership fault rentalId context.userId s with
      | .error _ => .error .internalServerError
      | .ok none => .error .notFound
      | .ok (some row) => .ok ⟨rentalId, row.userId, row.sshCredentials⟩

inductive RentalState
  | provisioning
  | active
  | stopping
  | stopped
  | failed
deriving DecidableEq

structure GpuSpec where
  name : String
  memoryGb : ℕ
  computeCapability : String

structure CpuSpec where
  cores : ℕ
  model : String
  memoryGb : ℕ

structure NetworkSpeedInfo (F : Type) where
  downloadMbps : Option F
  uploadMbps : Option F
  testTimestamp : Option ℤ

structure RentalListItem (F : Type) where
  rentalId : String
  executorId : String
  containerId : String
  state : RentalState
  createdAt : String
  minerId : String
  containerImage : String
  gpuSpecs : Option (List GpuSpec)
  cpuSpecs : Option CpuSpec
  location : Option String
  networkSpeed : Option (NetworkSpeedInfo F)

structure ApiRentalListItem (F : Type) where
  rentalId : String
  executorId : String
  containerId : String
  state : RentalState
  createdAt : String
  minerId : String
  containerImage : String
  gpuSpecs : List GpuSpec
  hasSsh : Bool
  cpuSpecs : Option CpuSpec
  location : Option String
  networkSpeed : Option (NetworkSpeedInfo F)

structure ApiListRentalsResponse (F : Type) where
  rentals : List (ApiRentalListItem F)
  totalCount : ℕ

inductive RentalError
  | internal (message : String)
  | validatorCommunication (message : String)
  | rejected (status : Rejection)

structure RentalWithSshStatus where
  rentalId : String
  hasSsh : Bool

def getUserRentalsWithSsh (rows : List (String × UserRental)) : List RentalWithSshStatus :=
  rows.map (fun p => ⟨p.1, p.2.sshCredentials.isSome⟩)

def sshStatusMap (rentals : List RentalWithSshStatus) : AssocMap String Bool :=
  rentals.foldl (fun m rental => m.set rental.rentalId rental.hasSsh) .empty

variable {F : Type}

def RentalListItem.toApi (hasSsh : Bool) (rental : RentalListItem F) : ApiRentalListItem F where
  rentalId := rental.rentalId
  executorId := rental.executorId
  containerId := rental.containerId
  state := rental.state
  createdAt := rental.createdAt
  minerId := rental.minerId
  containerImage := rental.containerImage
  gpuSpecs := rental.gpuSpecs.getD []
  hasSsh := hasSsh
  cpuSpecs := rental.cpuSpecs
  location := rental.location
  networkSpeed := rental.networkSpeed

def ownRentals (owned : AssocMap String Bool) (rentals : List (RentalListItem F)) : List (ApiRentalListItem F) :=
  rentals.filterMap (fun rental => (owned.get? rental.rentalId).map (fun hasSsh => rental.toApi hasSsh))

def listRentalsValidator (answer : Except String (List (String × UserRental)))
    (listRentals : Option RentalState → Except String (List (RentalListItem F))) (status : Option RentalState) :
    Except RentalError (ApiListRentalsResponse F) :=
  match answer with
  | .error e => .error (.internal s!"Failed to get user rentals: {e}")
  | .ok rows =>
    match listRentals status with
    | .error e => .error (.validatorCommunication s!"Failed to list rentals: {e}")
    | .ok rentals =>
      let own := ownRentals (sshStatusMap (getUserRentalsWithSsh rows)) rentals
      .ok ⟨own, own.length⟩

end Handlers

section Requests

inductive ValidatorCall
  | getRentalStatus (rentalId : String)
  | terminateRental (rentalId : String) (reason : Option String)
  | streamRentalLogs (rentalId : String) (follow : Bool) (tail : Option ℕ)
deriving DecidableEq

structure RentalResponse where
  rentalId : String
  sshCredentials : Option String

variable {S L : Type}

structure Replies (S L : Type) where
  now : ℤ
  readFault : Option String
  written : WriteReply
  started : Except RentalError RentalResponse
  status : String → Except RentalError S
  terminated : String → Except RentalError Unit
  logs : String → Except String L

inductive Request
  | start
  | status (path : Option String)
  | stop (path : Option String)
  | logs (path : Option String) (follow : Option Bool) (tail : Option ℕ)

inductive Response (S L : Type)
  | started (rental : RentalResponse)
  | status (status : S) (sshCredentials : Option String)
  | noContent
  | logs (stream : L)

structure Outcome (S L : Type) where
  response : Except RentalError (Response S L)
  calls : List ValidatorCall
  tables : Tables

/-- From the validator's answer on; a rental that cannot be recorded is ended again, whether that works or not. -/
def startRental (replies : Replies S L) (context : AuthContext) (s : Tables) : Outcome S L :=
  match replies.started with
  | .error e => ⟨.error e, [], s⟩
  | .ok rental =>
    let stored := replies.written.settle (storeRentalOwnership replies.now rental.rentalId context.userId rental.sshCredentials s) s
    match stored.1 with
    | .error _ =>
      ⟨.error (.internal "Failed to create rental: unable to store ownership record"),
        [.terminateRental rental.rentalId (some "Failed to store ownership record - automatic rollback")], stored.2⟩
    | .ok () => ⟨.ok (.started rental), [], stored.2⟩

def getRentalStatus (replies : Replies S L) (owned : OwnedRental) (s : Tables) : Outcome S L :=
  ⟨(replies.status owned.rentalId).map (fun status => .status status owned.sshCredentials),
    [.getRentalStatus owned.rentalId], s⟩

def stopRental (replies : Replies S L) (owned : OwnedRental) (s : Tables) : Outcome S L :=
  let calls := [.terminateRental owned.rentalId (some "User requested stop")]
  match replies.terminated owned.rentalId with
  | .error e => ⟨.error e, calls, s⟩
  | .ok () =>
    -- an archive that fails is only logged
    let archived := replies.written.settle (archiveRentalOwnership replies.now owned.rentalId (some "User requested stop") s) s
    ⟨.ok .noContent, calls, archived.2⟩

def streamRentalLogs (replies : Replies S L) (follow : Option Bool) (tail : Option ℕ) (owned : OwnedRental) (s : Tables) :
    Outcome S L :=
  let calls := [.streamRentalLogs owned.rentalId (follow.getD false) tail]
  match replies.logs owned.rentalId with
  | .error e => ⟨.error (.validatorCommunication s!"Failed to stream logs: {e}"), calls, s⟩
  | .ok stream => ⟨.ok (.logs stream), calls, s⟩

/-- A handler that takes an `OwnedRental` runs only where the extractor gives one. -/
def withOwned (replies : Replies S L) (context : AuthContext) (path : Option String)
    (handler : OwnedRental → Tables → Outcome S L) (s : Tables) : Outcome S L :=
  match fromRequestParts replies.readFault path (some context) s with
  | .error status => ⟨.error (.rejected status), [], s⟩
  | .ok owned => handler owned s

def serve (context : AuthContext) (replies : Replies S L) (request : Request) (s : Tables) : Outcome S L :=
  match request with
  | .start => startRental replies context s
  | .status path => withOwned replies context path (getRentalStatus replies) s
  | .stop path => withOwned replies context path (stopRental replies) s
  | .logs path follow tail => withOwned replies context path (streamRentalLogs replies follow tail) s

end Requests

variable {context : AuthContext}

section Ownership

variable {u : String} {s s₁ s₂ : Tables}

def Owns (u rentalId : String) (s : Tables) : Prop := ∃ row, s.userRentals.get? rentalId = some row ∧ row.userId = u

def Agree (u : String) (s₁ s₂ : Tables) : Prop :=
  ∀ rentalId row, row.userId = u → (s₁.userRentals.get? rentalId = some row ↔ s₂.userRentals.get? rentalId = some row)

theorem Agree.row_iff (h : Agree u s₁ s₂) (rentalId : String) (row : UserRental) :
    s₁.userRentals.get? rentalId = some row ∧ row.userId = u ↔ s₂.userRentals.get? rentalId = some row ∧ row.userId = u :=
  and_congr_left (h rentalId row)

theorem Agree.filter_eq (h : Agree u s₁ s₂) (rentalId : String) :
    (s₁.userRentals.get? rentalId).filter (fun row => row.userId = u) =
      (s₂.userRentals.get? rentalId).filter (fun row => row.userId = u) := by
  apply ext
  intro row
  simp only [filter_eq_some_iff, decide_eq_true_eq]
  exact h.row_iff rentalId row

theorem Agree.fromRequestParts_eq (h : Agree u s₁ s₂) (fault path : Option String)
    (hu : context.userId = u) : fromRequestParts fault path (some context) s₁ = fromRequestParts fault path (some context) s₂ := by
  subst hu
  simp only [fromRequestParts, getRentalOwnership, h.filter_eq]

theorem owned_of_fromRequestParts {fault path : Option String} {owned : OwnedRental}
    (h : fromRequestParts fault path (some context) s = .ok owned) :
    ∃ row, s.userRentals.get? owned.rentalId = some row ∧ row.userId = context.userId ∧
      owned.userId = context.userId ∧ owned.sshCredentials = row.sshCredentials := by
  simp only [fromRequestParts, getRentalOwnership] at h
  split at h
  case h_1 => cases h
  case h_2 rentalId =>
    cases fault with
    | some text => cases h
    | none =>
      cases hrow : (s.userRentals.get? rentalId).filter (fun row => row.userId = context.userId) with
      | none =>
        rw [hrow] at h
        cases h
      | some row =>
        rw [hrow] at h
        dsimp only at h
        obtain ⟨hget, hmine⟩ := filter_eq_some_iff.mp hrow
        have hmine : row.userId = context.userId := of_decide_eq_true hmine
        cases hnull : row.createdAt.isNone with
        | true =>
          rw [hnull] at h
          cases h
        | false =>
          rw [hnull] at h
          cases h
          exact ⟨row, hget, hmine, hmine, rfl⟩

variable {rows : List (String × UserRental)}

theorem Selected.mem_iff (h : Selected u s rows) (rentalId : String) (row : UserRental) :
    (rentalId, row) ∈ rows ↔ s.userRentals.get? rentalId = some row ∧ row.userId = u := by
  rw [h.perm.mem_iff, mem_filter, decide_eq_true_eq]
  refine and_congr_left' ?_
  exact ⟨get?_of_mem, mem_entries_of_get?⟩

theorem Selected.nodup (h : Selected u s rows) : (rows.map Prod.fst).Nodup := by
  rw [(h.perm.map Prod.fst).nodup_iff]
  exact s.userRentals.nodup.sublist (filter_sublist.map Prod.fst)

theorem Selected.sshStatus_iff (h : Selected u s rows) (rentalId : String) (hasSsh : Bool) :
    (sshStatusMap (getUserRentalsWithSsh rows)).get? rentalId = some hasSsh ↔
      ∃ row, s.userRentals.get? rentalId = some row ∧ row.userId = u ∧ row.sshCredentials.isSome = hasSsh := by
  have hkeys : ((getUserRentalsWithSsh rows).map RentalWithSshStatus.rentalId).Nodup := by
    rw [getUserRentalsWithSsh, List.map_map]
    exact h.nodup
  rw [sshStatusMap, AssocMap.get?_foldl_set hkeys (fun _ _ => rfl)]
  constructor
  · rintro (hempty | ⟨rental, hrental, rfl, rfl⟩)
    · cases hempty
    · obtain ⟨⟨id, row⟩, hp, rfl⟩ := mem_map.mp hrental
      obtain ⟨hget, hrow⟩ := (h.mem_iff id row).mp hp
      exact ⟨row, hget, hrow, rfl⟩
  · rintro ⟨row, hget, hrow, hssh⟩
    refine Or.inr ⟨⟨rentalId, row.sshCredentials.isSome⟩, ?_, rfl, hssh⟩
    exact mem_map.mpr ⟨(rentalId, row), (h.mem_iff rentalId row).mpr ⟨hget, hrow⟩, rfl⟩

theorem Agree.sshStatus_eq (h : Agree u s₁ s₂) {rows₁ rows₂ : List (String × UserRental)} (h₁ : Selected u s₁ rows₁)
    (h₂ : Selected u s₂ rows₂) (rentalId : String) :
    (sshStatusMap (getUserRentalsWithSsh rows₁)).get? rentalId = (sshStatusMap (getUserRentalsWithSsh rows₂)).get? rentalId := by
  apply ext
  intro hasSsh
  simp only [h₁.sshStatus_iff, h₂.sshStatus_iff, ← and_assoc, h.row_iff]

variable {F : Type} {fault : Option String} {listRentals : Option RentalState → Except String (List (RentalListItem F))}
  {status : Option RentalState}

theorem Agree.listRentals_eq (h : Agree u s₁ s₂) {answer₁ answer₂ : Except String (List (String × UserRental))}
    (h₁ : Answers fault u s₁ answer₁) (h₂ : Answers fault u s₂ answer₂) :
    listRentalsValidator answer₁ listRentals status = listRentalsValidator answer₂ listRentals status := by
  cases fault with
  | some text =>
    cases h₁
    cases h₂
    rfl
  | none =>
    obtain ⟨rows₁, rfl, hrows₁⟩ := h₁
    obtain ⟨rows₂, rfl, hrows₂⟩ := h₂
    simp only [listRentalsValidator, ownRentals, h.sshStatus_eq hrows₁ hrows₂]

theorem owns_of_listRentals {answer : Except String (List (String × UserRental))} (h : Answers fault u s answer)
    {response : ApiListRentalsResponse F} (hlist : listRentalsValidator answer listRentals status = .ok response)
    {item : ApiRentalListItem F} (hitem : item ∈ response.rentals) : Owns u item.rentalId s := by
  cases fault with
  | some text =>
    cases h
    cases hlist
  | none =>
    obtain ⟨rows, rfl, hrows⟩ := h
    simp only [listRentalsValidator] at hlist
    cases hreply : listRentals status with
    | error e =>
      rw [hreply] at hlist
      cases hlist
    | ok rentals =>
      rw [hreply] at hlist
      cases hlist
      obtain ⟨rental, -, hsome⟩ := mem_filterMap.mp hitem
      obtain ⟨hasSsh, hssh, rfl⟩ := map_eq_some_iff.mp hsome
      obtain ⟨row, hget, hrow, -⟩ := (hrows.sshStatus_iff rental.rentalId hasSsh).mp hssh
      exact ⟨row, hget, hrow⟩

end Ownership

section Runs

variable {S L : Type} {u userId : String} {s s' : Tables} {replies : Replies S L} {request : Request}

inductive Change (userId : String) (s : Tables) : Request → Tables → Prop
  | kept (request : Request) : Change userId s request s
  | started {rentalId : String} {row : UserRental} (hfree : s.userRentals.get? rentalId = none) (hrow : row.userId = userId) :
    Change userId s .start { s with userRentals := s.userRentals.insert rentalId row }
  | stopped {rentalId : String} {row : UserRental} {createdAt : ℤ} (now : ℤ) (reason : Option String)
    (hget : s.userRentals.get? rentalId = some row) (hrow : row.userId = userId) (hcreated : row.createdAt = some createdAt)
    (hfree : s.terminatedUserRentals.get? rentalId = none) :
    Change userId s (.stop (some rentalId)) ⟨s.userRentals.erase rentalId,
      s.terminatedUserRentals.insert rentalId ⟨row.userId, row.sshCredentials, createdAt, now, reason⟩⟩

theorem WriteReply.settle_elim {P : Tables → Prop} (reply : WriteReply) {written : Except DbError Tables} (hs : P s)
    (hwritten : ∀ s', written = .ok s' → P s') : P (reply.settle written s).2 := by
  unfold settle
  split
  · exact hs
  · exact hs
  · exact hwritten _ rfl
  · exact hwritten _ rfl

variable {path : Option String} {handler : OwnedRental → Tables → Outcome S L}

theorem withOwned_elim {P : Outcome S L → Prop} (hrejected : ∀ status, P ⟨.error (.rejected status), [], s⟩)
    (howned : ∀ owned, path = some owned.rentalId → Owns context.userId owned.rentalId s → P (handler owned s)) :
    P (withOwned replies context path handler s) := by
  unfold withOwned
  cases h : fromRequestParts replies.readFault path (some context) s with
  | error status => exact hrejected status
  | ok owned =>
    obtain ⟨row, hget, hmine, -⟩ := owned_of_fromRequestParts h
    refine howned owned ?_ ⟨row, hget, hmine⟩
    unfold fromRequestParts at h
    split at h
    · cases h
    · dsimp only at h
      split at h <;> cases h
      rfl

theorem change_serve (request : Request) : Change context.userId s request (serve context replies request s).tables := by
  cases request with
  | start =>
    simp only [serve, startRental]
    split
    · exact .kept _
    case h_2 rental _ =>
      have hstored : Change context.userId s .start (replies.written.settle
          (storeRentalOwnership replies.now rental.rentalId context.userId rental.sshCredentials s) s).2 := by
        refine replies.written.settle_elim (.kept _) (fun s' hstore => ?_)
        unfold storeRentalOwnership at hstore
        split_ifs at hstore with htaken
        cases hstore
        exact .started (by simpa using htaken) rfl
      split <;> exact hstored
  | status path => exact withOwned_elim (P := fun o => Change _ s _ o.tables) (fun _ => .kept _) (fun _ _ _ => .kept _)
  | stop path =>
    refine withOwned_elim (P := fun o => Change _ s _ o.tables) (fun _ => .kept _) ?_
    rintro owned rfl ⟨row, hget, hrow⟩
    simp only [stopRental]
    split
    · exact .kept _
    refine replies.written.settle_elim (.kept _) (fun s' harchive => ?_)
    simp only [archiveRentalOwnership, hget] at harchive
    split at harchive
    · cases harchive
    case h_2 createdAt hcreated =>
      split_ifs at harchive with htaken
      cases harchive
      exact .stopped _ _ hget hrow hcreated (by simpa using htaken)
  | logs path follow tail =>
    refine withOwned_elim (P := fun o => Change _ s _ o.tables) (fun _ => .kept _) (fun owned _ _ => ?_)
    simp only [streamRentalLogs]
    split <;> exact .kept _

theorem Change.agree (h : Change userId s request s') (hu : userId ≠ u) : Agree u s s' := by
  intro id other hother
  cases h with
  | kept => rfl
  | started hfree hrow =>
    dsimp only
    rw [get?_insert hfree]
    split_ifs with hid
    · rw [hid, hfree]
      refine iff_of_false (by rintro ⟨⟩) ?_
      rintro ⟨⟩
      exact hu (hrow.symm.trans hother)
    · rfl
  | stopped now reason hget hrow hcreated hfree =>
    dsimp only
    rw [get?_erase]
    split_ifs with hid
    · rw [← hid, hget]
      refine iff_of_false ?_ (by rintro ⟨⟩)
      rintro ⟨⟩
      exact hu (hrow.symm.trans hother)
    · rfl

def act (e : AuthContext × Replies S L × Request) (s : Tables) : Tables := (serve e.1 e.2.1 e.2.2 s).tables

def Archived (rentalId : String) (row : UserRental) (s : Tables) : Prop :=
  ∃ old, s.terminatedUserRentals.get? rentalId = some old ∧ old.userId = row.userId ∧
    old.sshCredentials = row.sshCredentials ∧ some old.createdAt = row.createdAt

variable {id : String} {row : UserRental}

theorem Archived.change (h : Archived id row s) (hchange : Change userId s request s') : Archived id row s' := by
  obtain ⟨old, hget, hsame⟩ := h
  refine ⟨old, ?_, hsame⟩
  cases hchange with
  | kept | started => exact hget
  | stopped now reason _ _ _ hfree =>
    rw [get?_insert hfree, if_neg]
    · exact hget
    · rintro rfl
      rw [hfree] at hget
      cases hget

theorem Change.kept_or_archived (h : Change userId s request s') (hget : s.userRentals.get? id = some row) :
    s'.userRentals.get? id = some row ∨
      (userId = row.userId ∧ request = .stop (some id)) ∧ Archived id row s' := by
  cases h with
  | kept => exact .inl hget
  | started hfree hrow =>
    left
    rw [get?_insert hfree, if_neg]
    · exact hget
    · rintro rfl
      rw [hfree] at hget
      cases hget
  | stopped now reason hstopped hrow hcreated hfree =>
    rw [get?_erase]
    split_ifs with hid
    · subst hid
      obtain rfl := Option.some.inj (hstopped.symm.trans hget)
      refine .inr ⟨⟨hrow.symm, rfl⟩, _, (get?_insert hfree _ _).trans (if_pos rfl), rfl, rfl, hcreated.symm⟩
    · exact .inl hget

def ValidatorCall.rentalId : ValidatorCall → String
  | getRentalStatus id => id
  | terminateRental id _ => id
  | streamRentalLogs id _ _ => id

variable {call : ValidatorCall}

theorem withOwned_calls (hcalls : ∀ owned, (handler owned s).calls.map ValidatorCall.rentalId = [owned.rentalId]) :
    call ∈ (withOwned replies context path handler s).calls → Owns context.userId call.rentalId s := by
  refine withOwned_elim (P := fun outcome => call ∈ outcome.calls → _) (fun _ h => absurd h not_mem_nil) ?_
  intro owned _ howns h
  have hid : call.rentalId ∈ [owned.rentalId] := hcalls owned ▸ mem_map_of_mem h
  rw [mem_singleton.mp hid]
  exact howns

theorem startRental_calls (h : call ∈ (startRental replies context s).calls) :
    ∃ rental, replies.started = .ok rental ∧ call.rentalId = rental.rentalId := by
  simp only [startRental] at h
  split at h
  case h_1 => cases h
  case h_2 rental hstarted =>
    split at h
    case h_1 =>
      rw [mem_singleton.mp h]
      exact ⟨rental, hstarted, rfl⟩
    case h_2 => cases h

end Runs

theorem calls_concern_own_rentals {S L : Type} (context : AuthContext) (replies : Replies S L) (request : Request) (s : Tables)
    (call : ValidatorCall) (h : call ∈ (serve context replies request s).calls) :
    Owns context.userId call.rentalId s ∨
      request = .start ∧ ∃ rental, replies.started = .ok rental ∧ call.rentalId = rental.rentalId := by
  cases request with
  | start => exact Or.inr ⟨rfl, startRental_calls h⟩
  | status path => exact Or.inl (withOwned_calls (fun _ => rfl) h)
  | stop path =>
    refine Or.inl (withOwned_calls (fun owned => ?_) h)
    simp only [stopRental]
    split <;> rfl
  | logs path follow tail =>
    refine Or.inl (withOwned_calls (fun owned => ?_) h)
    simp only [streamRentalLogs]
    split <;> rfl

/-- Requests of other users leave the rows of a user as they are. -/
theorem agree_after_others {S L : Type} {u : String} (l : List (AuthContext × Replies S L × Request))
    (hl : ∀ e ∈ l, e.1.userId ≠ u) (s : Tables) : Agree u s (last act l s) := by
  induction l generalizing s with
  | nil => exact fun _ _ _ => Iff.rfl
  | cons e l ih =>
    have hfirst : Agree u s (act e s) := (change_serve e.2.2).agree (hl e mem_cons_self)
    have hrest := ih (fun e he => hl e (mem_cons_of_mem _ he)) (act e s)
    exact fun id row hrow => (hfirst id row hrow).trans (hrest id row hrow)

theorem rental_kept_until_stopped {S L : Type} (l : List (AuthContext × Replies S L × Request)) (s : Tables) (id : String)
    (row : UserRental) (h : s.userRentals.get? id = some row) :
    (last act l s).userRentals.get? id = some row ∨
      (∃ e ∈ l, e.1.userId = row.userId ∧ e.2.2 = .stop (some id)) ∧ Archived id row (last act l s) := by
  induction l generalizing s with
  | nil => exact .inl h
  | cons e l ih =>
    have hchange : Change e.1.userId s e.2.2 (act e s) := change_serve e.2.2
    rcases hchange.kept_or_archived h with hkept | ⟨hstop, harchived⟩
    · exact (ih (act e s) hkept).imp_right (fun ⟨⟨e, he, hstop⟩, hold⟩ => ⟨⟨e, mem_cons_of_mem _ he, hstop⟩, hold⟩)
    · exact .inr ⟨⟨e, mem_cons_self, hstop⟩, last_of_step (fun e s hs => hs.change (change_serve e.2.2)) l harchived⟩

theorem rentals_isolated {F : Type} {u : String} {s₁ s₂ : Tables} (hagree : Agree u s₁ s₂) (listFault readFault : Option String)
    {answer₁ answer₂ : Except String (List (String × UserRental))} (h₁ : Answers listFault u s₁ answer₁)
    (h₂ : Answers listFault u s₂ answer₂) (listRentals : Option RentalState → Except String (List (RentalListItem F)))
    (status : Option RentalState) (path : Option String) (context : AuthContext) (hu : context.userId = u) :
    listRentalsValidator answer₁ listRentals status = listRentalsValidator answer₂ listRentals status ∧
      fromRequestParts readFault path (some context) s₁ = fromRequestParts readFault path (some context) s₂ ∧
      (∀ response, listRentalsValidator answer₁ listRentals status = .ok response →
        ∀ item ∈ response.rentals, Owns u item.rentalId s₁) ∧
      (∀ owned, fromRequestParts readFault path (some context) s₁ = .ok owned →
        ∃ row, s₁.userRentals.get? owned.rentalId = some row ∧ row.userId = u ∧
          owned.userId = u ∧ owned.sshCredentials = row.sshCredentials) := by
  refine ⟨hagree.listRentals_eq h₁ h₂, hagree.fromRequestParts_eq readFault path hu, ?_, ?_⟩
  · intro response hlist item hitem
    exact owns_of_listRentals h₁ hlist hitem
  · intro owned howned
    rw [← hu]
    exact owned_of_fromRequestParts howned

def aliceRow : UserRental := ⟨"alice", some "ssh root@10.0.0.1", some 5⟩

def aliceAlone : Tables := ⟨⟨[("r1", aliceRow)], by decide⟩, .empty⟩

def aliceAndBob : Tables := ⟨⟨[("r2", ⟨"bob", none, some 7⟩), ("r1", aliceRow)], by decide⟩, .empty⟩

theorem agree_alice : Agree "alice" aliceAlone aliceAndBob := by
  intro rentalId row hrow
  have hiff : ∀ s : Tables, s.userRentals.get? rentalId = some row ↔ (rentalId, row) ∈ s.userRentals.entries := by
    intro s
    exact ⟨mem_entries_of_get?, get?_of_mem⟩
  rw [hiff, hiff]
  simp only [aliceAlone, aliceAndBob, mem_cons, Prod.mk.injEq, not_mem_nil, or_false]
  constructor
  · exact Or.inr
  · rintro (⟨-, rfl⟩ | h)
    · exact absurd hrow (by decide)
    · exact h

theorem selected_alice {s : Tables} (h : s.userRentals.entries.filter (fun p => p.2.userId = "alice") = [("r1", aliceRow)]) :
    Answers none "alice" s (.ok [("r1", aliceRow)]) := by
  refine ⟨[("r1", aliceRow)], rfl, ?_, pairwise_singleton _ _⟩
  rw [h]

def listed (rentalId : String) : RentalListItem ℕ :=
  ⟨rentalId, "e1", "c1", .active, "2025-01-01T00:00:00Z", "m1", "ubuntu:22.04", none, none, none, none⟩

theorem alice_rentals_isolated :
    (listRentalsValidator (.ok [("r1", aliceRow)]) (fun _ => .ok [listed "r1", listed "r2"]) none =
      .ok ⟨[(listed "r1").toApi true], 1⟩) ∧
    fromRequestParts none (some "r2") (some ⟨"alice", [], .apiKey⟩) aliceAlone =
      fromRequestParts none (some "r2") (some ⟨"alice", [], .apiKey⟩) aliceAndBob := by
  refine ⟨rfl, ?_⟩
  exact (rentals_isolated agree_alice none none (selected_alice rfl) (selected_alice rfl)
    (fun _ => .ok [listed "r1", listed "r2"]) none (some "r2") ⟨"alice", [], .apiKey⟩ rfl).2.1

def aliceContext : AuthContext := ⟨"alice", [], .apiKey⟩

def obliging : Replies Unit Unit := ⟨9, none, .done, .error (.internal "busy"), fun _ => .ok (), fun _ => .ok (), fun _ => .ok ()⟩

def bobStops : List (AuthContext × Replies Unit Unit × Request) := [(⟨"bob", [], .apiKey⟩, obliging, .stop (some "r2"))]

theorem stop_concerns_alice :
    Owns "alice" "r1" aliceAndBob ∨ Request.stop (some "r1") = .start ∧ ∃ rental, obliging.started = .ok rental ∧ "r1" = rental.rentalId :=
  calls_concern_own_rentals aliceContext obliging (.stop (some "r1")) aliceAndBob
    (.terminateRental "r1" (some "User requested stop")) (by decide)

theorem agree_alice_after_bob : Agree "alice" aliceAndBob (last act bobStops aliceAndBob) :=
  agree_after_others bobStops (by decide +kernel) aliceAndBob

theorem alice_kept_or_stopped :
    (last act bobStops aliceAndBob).userRentals.get? "r1" = some aliceRow ∨
      (∃ e ∈ bobStops, e.1.userId = "alice" ∧ e.2.2 = .stop (some "r1")) ∧ Archived "r1" aliceRow (last act bobStops aliceAndBob) :=
  rental_kept_until_stopped bobStops aliceAndBob "r1" aliceRow rfl

end Basilica.Api.Rentals
