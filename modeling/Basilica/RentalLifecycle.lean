import Basilica.RentalEvents
import Basilica.StepRuns

/-!
The stored states of rentals under the operations of the rental manager and the processing of events, one after
another.
-/

namespace Basilica.Billing

open AssocMaps AtomicCalls Calls StepRuns List BillingTables RentalManager

inductive LifecycleStep
  | updateStatus (id : RentalId) (newState : RentalState) (now : ℤ)
  | updateRentalState (id : RentalId) (newState : RentalState) (now : ℤ)
  | terminateRental (id : RentalId) (reason : String) (now : ℤ)
  | finalizeRental (id : RentalId) (now : ℤ)
  | statusChange (id : RentalId) (event : Except String StatusChangeData)
  | rentalEnd (id : RentalId) (event : Except String RentalEndData)
  | costUpdate (id : RentalId) (event : Except String CostUpdateData)

namespace LifecycleStep

def perform : LifecycleStep → BillingTables → BillingTables
  | .updateStatus id newState now, t => (run serve (RentalManager.updateStatus id newState now) t).2
  | .updateRentalState id newState now, t => (run serve (RentalManager.updateRentalState id newState now) t).2
  | .terminateRental id reason now, t => (run serve (RentalManager.terminateRental id reason now) t).2
  | .finalizeRental id now, t => (run serve (RentalManager.finalizeRental id now) t).2
  | .statusChange id event, t => (run serve (processStatusChange id event) t).2
  | .rentalEnd id event, t => (run serve (processRentalEnd id event) t).2
  | .costUpdate id event, t => (run serve (processCostUpdate id event) t).2

def Timely : LifecycleStep → BillingTables → Prop
  | .statusChange id (.ok data), t =>
    ∀ old new, t.state? id = some old → eventState data.newStatus = some new → old.NotBehind new
  | _, _ => True

end LifecycleStep

def StatesFollow (t t' : BillingTables) : Prop :=
  ∀ id old, t.state? id = some old → ∃ new, t'.state? id = some new ∧ old.Reaches new

section Steps

variable {t : BillingTables} {id : RentalId} {row : RentalRow} {rental : Rental}

theorem StatesFollow.isTerminal {t' : BillingTables} (h : StatesFollow t t') (id : RentalId) (state : RentalState)
    (hstate : t.state? id = some state) (hterminal : state.isTerminal = true) : t'.state? id = some state := by
  obtain ⟨new, hnew, hreaches⟩ := h id state hstate
  rw [hnew, hreaches.eq_of_isTerminal hterminal]

theorem statesFollow_of_eq {t' : BillingTables} (h : ∀ id, t'.state? id = t.state? id) : StatesFollow t t' := by
  intro id old hold
  exact ⟨old, (h id).trans hold, .refl⟩

theorem statesFollow_store {x : BillingTables} (hx : ∀ id, x.state? id = t.state? id) (hid : rental.id = id)
    (hrow : t.rentals.get? id = some row) (hreaches : row.state.Reaches rental.state) :
    StatesFollow t (x.storeRental rental) := by
  intro j old hold
  by_cases hj : j = id
  · subst hj
    have hstate := state?_of_row hrow
    rw [hstate] at hold
    cases hold
    exact ⟨rental.state, state?_stored hid ((hx j).trans hstate), hreaches⟩
  · refine ⟨old, ?_, .refl⟩
    rw [state?_storeRental, hid, if_neg hj, hx, hold]

theorem statesFollow_modify {change : Rental → Except BillingError Rental} (hchange : FollowsStates change) :
    StatesFollow t (run serve (modify id change) t).2 := by
  rw [run_modify t id hchange]
  cases hrow : t.rentals.get? id with
  | none => exact statesFollow_of_eq (fun _ => rfl)
  | some row =>
    dsimp only
    cases hchanged : change (row.rental id) with
    | error e => exact statesFollow_of_eq (fun _ => rfl)
    | ok changed =>
      obtain ⟨hid, -, hreaches⟩ := hchange _ _ hchanged
      exact statesFollow_store (fun _ => rfl) hid hrow hreaches

theorem getLastD_stored (l : List BillingTables) (t t' : BillingTables) (rental : Rental) (eventType : String) :
    (l ++ stored t' rental eventType).getLastD t =
      (t'.storeRental rental).addBillingEvent (rentalEvent eventType rental.id) := by
  simp [stored]

theorem statesFollow_settling {eventType : String} {l : List BillingTables} (h : Settling t rental eventType l)
    (hid : rental.id = id) (hrow : t.rentals.get? id = some row) (hreaches : row.state.Reaches rental.state) :
    StatesFollow t (l.getLastD t) := by
  cases h with
  | refused h =>
    rw [getLastD_of_forall h]
    exact statesFollow_of_eq (fun _ => rfl)
  | unpaid cost h | paid h haccount =>
    rw [getLastD_stored]
    exact statesFollow_store (fun _ => rfl) hid hrow hreaches

theorem statesFollow_of_skips {α : Type} {p : BillingCalls α} (h : ∀ x ∈ trace serve p t, x = t) :
    StatesFollow t (run serve p t).2 := by
  rw [run_snd, getLastD_of_forall h]
  exact statesFollow_of_eq (fun _ => rfl)

theorem statesFollow_rentalEnd (event : Except String RentalEndData) :
    StatesFollow t (run serve (processRentalEnd id event) t).2 := by
  by_cases h : ∀ data row, event = .ok data → t.rentals.get? id = some row → row.state.isTerminal = true
  · exact statesFollow_of_skips (processRentalEnd_skips h)
  · push Not at h
    obtain ⟨data, row, rfl, hrow, hopen⟩ := h
    rw [ne_eq, Bool.not_eq_true] at hopen
    obtain ⟨l, htrace, hsettling⟩ := processRentalEnd_settles data hrow hopen
    have hreaches : row.state.Reaches data.state := by
      apply RentalState.reaches_iff.mpr
      have hall : ∀ old new : RentalState, old.isTerminal = false → new.isTerminal = true → old.NotBehind new := by decide
      exact hall _ _ hopen data.isTerminal_state
    rw [run_snd, htrace, getLastD_cons]
    exact statesFollow_settling hsettling rfl hrow hreaches

theorem statesFollow_costUpdate (event : Except String CostUpdateData) :
    StatesFollow t (run serve (processCostUpdate id event) t).2 := by
  cases event with
  | error e => exact statesFollow_of_skips (trace_lost _ _ _ (Or.inl rfl))
  | ok data =>
    cases hrow : t.rentals.get? id with
    | none => exact statesFollow_of_skips (trace_lost _ _ _ (Or.inr hrow))
    | some row =>
      rw [run_snd, processCostUpdate_stores hrow, getLastD_cons, ← nil_append (stored _ _ _), getLastD_stored]
      exact statesFollow_store (fun _ => rfl) rfl hrow .refl

theorem statesFollow_statusChange_iff (data : StatusChangeData) :
    StatesFollow t (run serve (processStatusChange id (.ok data)) t).2 ↔
      ∀ old new, t.state? id = some old → eventState data.newStatus = some new → old.NotBehind new := by
  by_cases h : ∀ data' row new, Except.ok data = (.ok data' : Except String StatusChangeData) →
      t.rentals.get? id = some row → eventState data'.newStatus ≠ some new
  · refine iff_of_true (statesFollow_of_skips (processStatusChange_skips h)) ?_
    intro old new hold hnew
    obtain ⟨row, hrow, -⟩ := Option.map_eq_some_iff.mp hold
    exact absurd hnew (h data row new rfl hrow)
  · push Not at h
    obtain ⟨data', row, new, hdata, hrow, hnew⟩ := h
    cases hdata
    have hall : (∀ old new, t.state? id = some old → eventState data.newStatus = some new → old.NotBehind new) ↔
        row.state.NotBehind new := by
      rw [state?_of_row hrow, hnew]
      constructor
      · exact fun h => h _ _ rfl rfl
      · rintro h old new' hold hnew'
        cases hold
        cases hnew'
        exact h
    rw [hall, ← RentalState.reaches_iff]
    by_cases hends : row.state = .active ∧ new.isTerminal = true
    · obtain ⟨l, htrace, hsettling⟩ := processStatusChange_settles hrow hnew hends
      have hreaches : row.state.Reaches new := by
        apply RentalState.reaches_iff.mpr
        have hall : ∀ new : RentalState, new.isTerminal = true → RentalState.active.NotBehind new := by decide
        rw [hends.1]
        exact hall new hends.2
      rw [run_snd, htrace, getLastD_cons]
      exact iff_of_true (statesFollow_settling hsettling rfl hrow hreaches) hreaches
    · rw [run_snd, processStatusChange_stores hrow hnew hends, getLastD_cons, ← nil_append (stored _ _ _),
        getLastD_stored]
      let changed : Rental := { row.rental id with state := new }
      have hid : changed.id = id := rfl
      constructor
      · intro hfollow
        obtain ⟨new', hnew', hreaches⟩ := hfollow id row.state (state?_of_row hrow)
        have hstored := state?_stored hid (state?_of_row hrow)
        cases hstored.symm.trans hnew'
        exact hreaches
      · intro hreaches
        exact statesFollow_store (fun _ => rfl) hid hrow hreaches

theorem statesFollow_perform_iff (step : LifecycleStep) (t : BillingTables) :
    StatesFollow t (step.perform t) ↔ step.Timely t := by
  have hmodify {id change} (h : FollowsStates change) : StatesFollow t (run serve (modify id change >>= fun _ => pure ()) t).2 := by
    rw [run_bind_pure]
    exact statesFollow_modify h
  cases step with
  | updateStatus id newState now =>
    exact iff_of_true (statesFollow_modify (transitionTo_followsStates newState now)) trivial
  | updateRentalState id newState now =>
    exact iff_of_true (hmodify (transitionTo_followsStates newState now)) trivial
  | terminateRental id reason now => exact iff_of_true (hmodify (terminated_followsStates reason now)) trivial
  | finalizeRental id now => exact iff_of_true (statesFollow_modify (finalized_followsStates now)) trivial
  | statusChange id event =>
    cases event with
    | error e =>
      refine iff_of_true ?_ trivial
      exact statesFollow_of_skips (trace_lost _ _ _ (Or.inl rfl))
    | ok data => exact statesFollow_statusChange_iff data
  | rentalEnd id event => exact iff_of_true (statesFollow_rentalEnd event) trivial
  | costUpdate id event => exact iff_of_true (statesFollow_costUpdate event) trivial

end Steps

theorem states_follow_throughout_iff (steps : List LifecycleStep) (t : BillingTables) :
    EachStep LifecycleStep.perform (fun step t => StatesFollow t (step.perform t)) steps t ↔
      EachStep LifecycleStep.perform LifecycleStep.Timely steps t :=
  eachStep_congr statesFollow_perform_iff steps t

def lateActivation : List LifecycleStep :=
  [.updateStatus 1 .active 0, .updateStatus 1 .terminating 1, .updateStatus 1 .completed 2,
    .statusChange 1 (.ok ⟨"RENTAL_STATUS_ACTIVE", "active", none⟩)]

theorem late_event_reopens_rental : ¬ EachStep LifecycleStep.perform (fun step t => StatesFollow t (step.perform t))
    lateActivation (oneRental .pending) := by
  rintro ⟨-, -, -, hlast, -⟩
  have hcompleted := hlast.isTerminal 1 .completed (by decide) rfl
  revert hcompleted
  decide

end Basilica.Billing
