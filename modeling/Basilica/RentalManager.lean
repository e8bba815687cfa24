import Basilica.RentalTables

/-!
The operations of the rental manager. Each reads the rental, changes it by the rules of its state, and writes it
back.
-/

namespace Basilica.Billing

open AssocMaps AtomicCalls Calls

def Rental.transitionTo (rental : Rental) (newState : RentalState) (now : ℤ) : Except BillingError Rental :=
  if rental.state.canTransitionTo newState then
    .ok { rental with
      state := newState
      endedAt := if newState.isTerminal && rental.endedAt.isNone then some now else rental.endedAt }
  else .error (.invalidStateTransition rental.state.toText newState.toText)

def findRental (id : RentalId) : BillingCalls Rental := do
  let found ← getRental id
  ofOption (.rentalNotFound id) found

namespace RentalManager

variable (id : RentalId)

def getRental : BillingCalls Rental := findRental id

def modify (change : Rental → Except BillingError Rental) : BillingCalls Rental := do
  let rental ← getRental id
  let rental ← ofExcept (change rental)
  updateRental rental
  return rental

def updateStatus (newState : RentalState) (now : ℤ) : BillingCalls Rental :=
  modify id (fun rental => rental.transitionTo newState now)

def updateRentalState (newState : RentalState) (now : ℤ) : BillingCalls Unit := do
  let _ ← modify id (fun rental => rental.transitionTo newState now)
  return ()

def terminated (reason : String) (now : ℤ) (rental : Rental) : Except BillingError Rental := do
  let rental := { rental with terminationReason := some reason }
  if rental.state.canTransitionTo .terminating then
    let rental ← rental.transitionTo .terminating now
    rental.transitionTo .completed now
  else .ok rental

def terminateRental (reason : String) (now : ℤ) : BillingCalls Unit := do
  let _ ← modify id (terminated reason now)
  return ()

def finalized (now : ℤ) (rental : Rental) : Except BillingError Rental := do
  let rental ← (if rental.state = .active then rental.transitionTo .terminating now else .ok rental)
  if rental.state = .terminating then rental.transitionTo .completed now
  else if rental.state ≠ .completed then
    .error (.invalidStateTransition rental.state.toText RentalState.completed.toText)
  else .ok rental

def finalizeRental (now : ℤ) : BillingCalls Rental := modify id (finalized now)

end RentalManager

open RentalManager

def FollowsStates (change : Rental → Except BillingError Rental) : Prop :=
  ∀ rental changed, change rental = .ok changed →
    changed.id = rental.id ∧ changed.userId = rental.userId ∧ rental.state.Reaches changed.state

theorem transitionTo_ok {rental changed : Rental} {newState : RentalState} {now : ℤ}
    (h : rental.transitionTo newState now = .ok changed) :
    rental.state.canTransitionTo newState = true ∧ changed.state = newState ∧ changed.id = rental.id ∧
      changed.userId = rental.userId := by
  unfold Rental.transitionTo at h
  by_cases hcan : rental.state.canTransitionTo newState = true
  · rw [if_pos hcan] at h
    cases h
    exact ⟨hcan, rfl, rfl, rfl⟩
  · rw [if_neg hcan] at h
    cases h

theorem transitionTo_eq (rental : Rental) {newState : RentalState} (now : ℤ)
    (h : rental.state.canTransitionTo newState = true) : ∃ changed, rental.transitionTo newState now = .ok changed := by
  unfold Rental.transitionTo
  rw [if_pos h]
  exact ⟨_, rfl⟩

theorem transitionTo_followsStates (newState : RentalState) (now : ℤ) :
    FollowsStates (fun rental => rental.transitionTo newState now) := by
  intro rental changed h
  obtain ⟨hcan, hstate, hid, huser⟩ := transitionTo_ok h
  refine ⟨hid, huser, ?_⟩
  rw [hstate]
  exact Relation.ReflTransGen.single hcan

theorem FollowsStates.then {change change' : Rental → Except BillingError Rental} (h : FollowsStates change)
    (h' : FollowsStates change') : FollowsStates (fun rental => change rental >>= change') := by
  intro rental changed hchanged
  dsimp only at hchanged
  cases hmid : change rental with
  | error e =>
    rw [hmid] at hchanged
    cases hchanged
  | ok mid =>
    rw [hmid] at hchanged
    obtain ⟨hid, huser, hreach⟩ := h rental mid hmid
    obtain ⟨hid', huser', hreach'⟩ := h' mid changed hchanged
    exact ⟨hid'.trans hid, huser'.trans huser, hreach.trans hreach'⟩

theorem terminated_followsStates (reason : String) (now : ℤ) : FollowsStates (terminated reason now) := by
  intro rental changed h
  unfold terminated at h
  dsimp only at h
  split_ifs at h
  · have hfollows := (transitionTo_followsStates .terminating now).then (transitionTo_followsStates .completed now)
    exact hfollows { rental with terminationReason := some reason } changed h
  · cases h
    exact ⟨rfl, rfl, .refl⟩

theorem finalized_followsStates (now : ℤ) : FollowsStates (finalized now) := by
  have hfirst : FollowsStates (fun rental =>
      if rental.state = .active then rental.transitionTo .terminating now else .ok rental) := by
    intro rental changed h
    dsimp only at h
    split_ifs at h
    · exact transitionTo_followsStates .terminating now rental changed h
    · cases h
      exact ⟨rfl, rfl, .refl⟩
  have hsecond : FollowsStates (fun rental =>
      if rental.state = .terminating then rental.transitionTo .completed now
      else if rental.state ≠ .completed then
        .error (.invalidStateTransition rental.state.toText RentalState.completed.toText)
      else .ok rental) := by
    intro rental changed h
    dsimp only at h
    split_ifs at h
    · exact transitionTo_followsStates .completed now rental changed h
    · cases h
      exact ⟨rfl, rfl, .refl⟩
  exact hfirst.then hsecond

/-- Only these states can be finalized; a completed rental stays as it is. -/
def RentalState.canFinalize : RentalState → Bool
  | .active => true
  | .terminating => true
  | .completed => true
  | _ => false

theorem finalized_ok (now : ℤ) (rental : Rental) (h : rental.state.canFinalize = true) :
    ∃ changed, finalized now rental = .ok changed ∧ changed.state = .completed := by
  have hcomplete : ∀ rental : Rental, rental.state = .terminating →
      ∃ changed, rental.transitionTo .completed now = .ok changed ∧ changed.state = .completed := by
    intro rental hstate
    have hcan : rental.state.canTransitionTo .completed = true := by
      rw [hstate]
      rfl
    obtain ⟨changed, hchanged⟩ := transitionTo_eq rental now hcan
    exact ⟨changed, hchanged, (transitionTo_ok hchanged).2.1⟩
  unfold finalized
  cases hstate : rental.state with
  | active =>
    have hcan : rental.state.canTransitionTo .terminating = true := by
      rw [hstate]
      rfl
    obtain ⟨mid, hmid⟩ := transitionTo_eq rental now hcan
    have hmidState : mid.state = .terminating := (transitionTo_ok hmid).2.1
    obtain ⟨changed, hchanged⟩ := hcomplete mid hmidState
    refine ⟨changed, ?_, hchanged.2⟩
    rw [if_pos rfl, hmid]
    change (if mid.state = .terminating then _ else _) = _
    rw [if_pos hmidState]
    exact hchanged.1
  | terminating =>
    obtain ⟨changed, hchanged⟩ := hcomplete rental hstate
    refine ⟨changed, ?_, hchanged.2⟩
    change (if rental.state = .terminating then _ else _) = _
    rw [if_pos hstate]
    exact hchanged.1
  | completed =>
    refine ⟨rental, ?_, hstate⟩
    change (if rental.state = .terminating then _ else if rental.state ≠ .completed then _ else _) = _
    rw [if_neg (by rw [hstate]; exact fun h => nomatch h), if_neg (not_not.mpr hstate)]
  | pending | suspended | failed =>
    rw [hstate] at h
    cases h

theorem finalized_error (now : ℤ) (rental : Rental) (h : rental.state.canFinalize = false) :
    ∃ e, finalized now rental = .error e := by
  have hne {state : RentalState} (hcan : state.canFinalize = true) : rental.state ≠ state := by
    rintro rfl
    rw [h] at hcan
    cases hcan
  refine ⟨.invalidStateTransition rental.state.toText RentalState.completed.toText, ?_⟩
  unfold finalized
  rw [if_neg (hne rfl)]
  change (if rental.state = .terminating then _ else if rental.state ≠ .completed then _ else _) = _
  rw [if_neg (hne rfl), if_pos (hne rfl)]

theorem run_findRental (t : BillingTables) (id : RentalId) : run serve (findRental id) t =
    match t.rentals.get? id with
    | none => (.error (.rentalNotFound id), t)
    | some row => (.ok (row.rental id), t) := by
  unfold findRental
  rw [run_bind_ok serve (run_getRental t id), BillingTables.rental?]
  cases t.rentals.get? id <;> rfl

theorem run_modify (t : BillingTables) (id : RentalId) {change : Rental → Except BillingError Rental}
    (hchange : FollowsStates change) : run serve (modify id change) t =
      match t.rentals.get? id with
      | none => (.error (.rentalNotFound id), t)
      | some row =>
        match change (row.rental id) with
        | .error e => (.error e, t)
        | .ok changed => (.ok changed, t.storeRental changed) := by
  have hfind := run_findRental t id
  unfold RentalManager.modify RentalManager.getRental
  cases hrow : t.rentals.get? id with
  | none =>
    rw [hrow] at hfind
    rw [run_bind_error serve hfind]
  | some row =>
    rw [hrow] at hfind
    rw [run_bind_ok serve hfind]
    dsimp only
    cases hchanged : change (row.rental id) with
    | error e => rfl
    | ok changed =>
      have hstored : t.rentals.get? changed.id = some row := by
        rw [(hchange _ _ hchanged).1]
        exact hrow
      rw [run_bind_ok serve (run_ofExcept serve _ _), run_bind_ok serve (run_updateRental hstored)]
      rfl

end Basilica.Billing
