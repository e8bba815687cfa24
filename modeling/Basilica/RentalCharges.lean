import Basilica.RentalLifecycle
import Basilica.ServiceRequests

/-!
How often a rental is charged for.
-/

namespace Basilica.Billing

open AssocMaps AtomicCalls Calls StepRuns List BillingService BillingTables

def processed (stop : Option ℕ) (p : BillingCalls Unit) (t : BillingTables) : BillingTables :=
  match stop with
  | none => (run serve p t).2
  | some n => (advance serve n p t).2

inductive ChargeStep
  | finalizeRental (rentalId finalCost : String) (now : ℤ)
  | updateRentalStatus (rentalId : String) (status : RentalStatus) (reason : String) (now : ℤ)
  | rentalEnd (event : Except String RentalEndData) (stop : Option ℕ)
  | statusChange (event : Except String StatusChangeData) (stop : Option ℕ)

namespace ChargeStep

section Steps

variable (parsers : Parsers) (id : RentalId)

def perform : ChargeStep → BillingTables → BillingTables
  | .finalizeRental rentalId finalCost now, t =>
    (run (answering serve) (BillingService.finalizeRental parsers now rentalId finalCost) t).2
  | .updateRentalStatus rentalId status reason now, t =>
    (run (answering serve) (BillingService.updateRentalStatus parsers now rentalId status reason) t).2
  | .rentalEnd event stop, t => processed stop (processRentalEnd id event) t
  | .statusChange event stop, t => processed stop (processStatusChange id event) t

def Concerns : ChargeStep → Prop
  | .finalizeRental rentalId _ _ => ∀ j, BillingService.readId parsers "Invalid rental ID" rentalId = .ok j → j = id
  | .updateRentalStatus rentalId _ _ _ =>
    ∀ j, BillingService.readId parsers "Invalid rental ID" rentalId = .ok j → j = id
  | _ => True

def Uncut : ChargeStep → Prop
  | .rentalEnd _ (some n) => n ≤ 4 ∨ 7 ≤ n
  | .statusChange _ (some n) => n ≤ 4 ∨ 7 ≤ n
  | _ => True

def KeepsEnd : ChargeStep → BillingTables → Prop
  | .finalizeRental _ _ _, t => t.state? id ≠ some .completed
  | .statusChange (.ok data) _, t => ∀ old new, t.state? id = some old → old.isTerminal = true →
      eventState data.newStatus = some new → new.isTerminal = true
  | _, _ => True

def spent (user : UserId) (t : BillingTables) : ℤ := (t.credit.rowOf user).lifetimeSpent.micros

def charges (user : UserId) : List ChargeStep → BillingTables → ℕ
  | [], _ => 0
  | step :: rest, t =>
    (if spent user (step.perform parsers id t) = spent user t then 0 else 1) +
      charges user rest (step.perform parsers id t)

def Careful (user : UserId) (start : ℤ) (step : ChargeStep) (t : BillingTables) : Prop :=
  step.Uncut ∧ (spent user t ≠ start → step.KeepsEnd id t)

end Steps

end ChargeStep

def Ended (id : RentalId) (t : BillingTables) : Prop := ∃ state, t.state? id = some state ∧ state.isTerminal = true

section Processing

variable {t : BillingTables} {id : RentalId} {row : RentalRow} {rental : Rental} {stop : Option ℕ} {p : BillingCalls Unit}

theorem processed_cases (stop : Option ℕ) (p : BillingCalls Unit) (t : BillingTables) :
    processed stop p t = t ∨ processed stop p t ∈ trace serve p t := by
  have hlast : ∀ l : List BillingTables, l.getLastD t = t ∨ l.getLastD t ∈ l := by
    intro l
    cases l with
    | nil => exact Or.inl rfl
    | cons x l =>
      rw [getLastD_cons]
      exact Or.inr (getLastD_mem_cons ..)
  cases stop with
  | none =>
    change (run serve p t).2 = t ∨ (run serve p t).2 ∈ _
    rw [run_snd]
    exact hlast _
  | some n =>
    change (advance serve n p t).2 = t ∨ (advance serve n p t).2 ∈ _
    rw [advance_snd]
    exact (hlast _).imp id mem_of_mem_take

theorem processed_of_skips (h : ∀ x ∈ trace serve p t, x = t) : processed stop p t = t := by
  rcases processed_cases stop p t with hp | hp
  · exact hp
  · exact h _ hp

theorem processed_of_uncut {a b c d : BillingTables} (htrace : trace serve p t = [t, t, t, t, a, b, c, d])
    (hstop : ∀ n, stop = some n → n ≤ 4 ∨ 7 ≤ n) :
    processed stop p t = t ∨ processed stop p t = c ∨ processed stop p t = d := by
  cases stop with
  | none =>
    refine Or.inr (Or.inr ?_)
    change (run serve p t).2 = d
    rw [run_snd, htrace]
    rfl
  | some n =>
    change (advance serve n p t).2 = t ∨ (advance serve n p t).2 = c ∨ (advance serve n p t).2 = d
    rw [advance_snd, htrace]
    rcases hstop n rfl with hn | hn
    · left
      interval_cases n <;> rfl
    · right
      obtain rfl | hn := hn.eq_or_lt
      · exact Or.inl rfl
      · right
        have hlength : [t, t, t, t, a, b, c, d].length ≤ n := hn
        rw [take_of_length_le hlength]
        rfl

open ChargeStep (spent)

variable {eventType : String} {l : List BillingTables}

theorem processed_of_stored (stop : Option ℕ) (hl : ∀ x ∈ l, x = t)
    (htrace : trace serve p t = l ++ stored t rental eventType) :
    (∀ user, spent user (processed stop p t) = spent user t) ∧
      (processed stop p t = t ∨ (processed stop p t).state? = (t.storeRental rental).state?) := by
  rcases processed_cases stop p t with hp | hp
  · rw [hp]
    exact ⟨fun _ => rfl, Or.inl rfl⟩
  · rw [htrace, mem_append, stored, mem_pair] at hp
    rcases hp with hp | hp | hp
    · rw [hl _ hp]
      exact ⟨fun _ => rfl, Or.inl rfl⟩
    all_goals
      rw [hp]
      exact ⟨fun _ => rfl, Or.inr rfl⟩

theorem processed_of_settling (h : Settling t rental eventType l)
    (htrace : trace serve p t = t :: l) (hid : rental.id = id) (hrow : t.rentals.get? id = some row)
    (hterminal : rental.state.isTerminal = true) (hstop : ∀ n, stop = some n → n ≤ 4 ∨ 7 ≤ n) (user : UserId) :
    spent user (processed stop p t) = spent user t ∨ Ended id (processed stop p t) := by
  have hstate := state?_of_row hrow
  cases h with
  | refused h =>
    left
    rw [processed_of_skips]
    rw [htrace]
    simpa using h
  | unpaid cost h =>
    left
    have hreads : ∀ x ∈ t :: _, x = t := forall_mem_cons.mpr ⟨rfl, h⟩
    exact (processed_of_stored stop hreads htrace).1 user
  | paid h haccount =>
    rcases processed_of_uncut htrace hstop with hp | hp | hp
    · rw [hp]
      exact Or.inl rfl
    all_goals
      rw [hp]
      exact Or.inr ⟨rental.state, state?_stored hid hstate, hterminal⟩

theorem rentalEnd_charges_or_ends (event : Except String RentalEndData) (hstop : ∀ n, stop = some n → n ≤ 4 ∨ 7 ≤ n)
    (user : UserId) : spent user (processed stop (processRentalEnd id event) t) = spent user t ∨
      Ended id (processed stop (processRentalEnd id event) t) := by
  by_cases h : ∀ data row, event = .ok data → t.rentals.get? id = some row → row.state.isTerminal = true
  · rw [processed_of_skips (processRentalEnd_skips h)]
    exact Or.inl rfl
  · push Not at h
    obtain ⟨data, row, rfl, hrow, hopen⟩ := h
    rw [ne_eq, Bool.not_eq_true] at hopen
    obtain ⟨l, htrace, hsettling⟩ := processRentalEnd_settles data hrow hopen
    exact processed_of_settling hsettling htrace rfl hrow data.isTerminal_state hstop user

theorem statusChange_cases (t : BillingTables) (id : RentalId) (event : Except String StatusChangeData) :
    (∀ x ∈ trace serve (processStatusChange id event) t, x = t) ∨
      ∃ data row new, event = .ok data ∧ t.rentals.get? id = some row ∧ eventState data.newStatus = some new := by
  by_cases h : ∀ data row new, event = .ok data → t.rentals.get? id = some row → eventState data.newStatus ≠ some new
  · exact Or.inl (processStatusChange_skips h)
  · push Not at h
    exact Or.inr h

theorem statusChange_charges_or_ends (event : Except String StatusChangeData)
    (hstop : ∀ n, stop = some n → n ≤ 4 ∨ 7 ≤ n) (user : UserId) :
    spent user (processed stop (processStatusChange id event) t) = spent user t ∨
      Ended id (processed stop (processStatusChange id event) t) := by
  rcases statusChange_cases t id event with h | ⟨data, row, new, rfl, hrow, hnew⟩
  · rw [processed_of_skips h]
    exact Or.inl rfl
  · by_cases hends : row.state = .active ∧ new.isTerminal = true
    · obtain ⟨l, htrace, hsettling⟩ := processStatusChange_settles hrow hnew hends
      exact processed_of_settling hsettling htrace rfl hrow hends.2 hstop user
    · left
      have htrace := processStatusChange_stores hrow hnew hends
      have hread : ∀ x ∈ [t], x = t := by simp
      exact (processed_of_stored stop hread htrace).1 user

theorem statusChange_of_ended {event : Except String StatusChangeData} (hended : Ended id t)
    (hkeeps : (ChargeStep.statusChange event stop).KeepsEnd id t) (user : UserId) :
    spent user (processed stop (processStatusChange id event) t) = spent user t ∧
      Ended id (processed stop (processStatusChange id event) t) := by
  rcases statusChange_cases t id event with h | ⟨data, row, new, rfl, hrow, hnew⟩
  · rw [processed_of_skips h]
    exact ⟨rfl, hended⟩
  · obtain ⟨old, hold, hterminal⟩ := hended
    have hstate := state?_of_row hrow
    have hrowTerminal : row.state.isTerminal = true := by
      cases hstate.symm.trans hold
      exact hterminal
    have hquiet : ¬ (row.state = .active ∧ new.isTerminal = true) := by
      rintro ⟨hactive, -⟩
      rw [hactive] at hrowTerminal
      cases hrowTerminal
    have hread : ∀ x ∈ [t], x = t := by simp
    let changed : Rental := { row.rental id with state := new }
    have hid : changed.id = id := rfl
    obtain ⟨hspent, hp⟩ := processed_of_stored stop hread (processStatusChange_stores hrow hnew hquiet)
    refine ⟨hspent user, ?_⟩
    rcases hp with hp | hp
    · rw [hp]
      exact ⟨old, hold, hterminal⟩
    · refine ⟨new, ?_, hkeeps old new hold hterminal hnew⟩
      rw [hp]
      exact state?_stored hid hstate

end Processing

namespace ChargeStep

variable {parsers : Parsers} {id : RentalId} {t : BillingTables} {user : UserId}

theorem readId_of_finalizeArguments {rentalId finalCost : String} {j : RentalId} {q : ℚ}
    (h : finalizeArguments parsers rentalId finalCost = .ok (j, q)) :
    readId parsers "Invalid rental ID" rentalId = .ok j := by
  unfold finalizeArguments at h
  cases hid : readId parsers "Invalid rental ID" rentalId with
  | error e =>
    rw [hid] at h
    cases h
  | ok k =>
    rw [hid] at h
    cases hcost : readAmount parsers "Invalid final cost" finalCost with
    | error e =>
      rw [hcost] at h
      cases h
    | ok cost =>
      rw [hcost] at h
      cases h
      rfl

theorem spent_updateRentalStatus (rentalId : String) (status : RentalStatus) (reason : String) (now : ℤ) :
    spent user ((ChargeStep.updateRentalStatus rentalId status reason now).perform parsers id t) = spent user t := by
  have hcredit : ((ChargeStep.updateRentalStatus rentalId status reason now).perform parsers id t).credit = t.credit :=
    credit_updateRentalStatus parsers now rentalId status reason t
  unfold spent
  rw [hcredit]

variable {step : ChargeStep}

theorem perform_charges_or_ends (hconcerns : step.Concerns parsers id) (huncut : step.Uncut) :
    spent user (step.perform parsers id t) = spent user t ∨ Ended id (step.perform parsers id t) := by
  cases step with
  | finalizeRental rentalId finalCost now =>
    by_cases h : ∀ j q row, finalizeArguments parsers rentalId finalCost = .ok (j, q) →
        t.rentals.get? j = some row → row.state.canFinalize = false
    · left
      have hunchanged := finalizeRental_unchanged now h
      exact congrArg (spent user) hunchanged
    · push Not at h
      obtain ⟨j, q, row, hargs, hrow, hcan⟩ := h
      rw [ne_eq, Bool.not_eq_false] at hcan
      obtain rfl := hconcerns j (readId_of_finalizeArguments hargs)
      exact Or.inr ⟨.completed, (finalizeRental_charges now hargs hrow hcan).2, rfl⟩
  | updateRentalStatus rentalId status reason now => exact Or.inl (spent_updateRentalStatus ..)
  | rentalEnd event stop =>
    apply rentalEnd_charges_or_ends
    rintro n rfl
    exact huncut
  | statusChange event stop =>
    apply statusChange_charges_or_ends
    rintro n rfl
    exact huncut

theorem perform_of_ended (user : UserId) (hconcerns : step.Concerns parsers id) (hended : Ended id t)
    (hkeeps : step.KeepsEnd id t) :
    spent user (step.perform parsers id t) = spent user t ∧ Ended id (step.perform parsers id t) := by
  obtain ⟨state, hstate, hterminal⟩ := hended
  cases step with
  | finalizeRental rentalId finalCost now =>
    have hunchanged : (ChargeStep.finalizeRental rentalId finalCost now).perform parsers id t = t := by
      apply finalizeRental_unchanged
      intro j q row hargs hrow
      obtain rfl := hconcerns j (readId_of_finalizeArguments hargs)
      cases (state?_of_row hrow).symm.trans hstate
      have hfailed : row.state = .failed := by
        apply (isTerminal_iff.mp hterminal).resolve_left
        intro hcompleted
        exact hkeeps (hstate.trans (congrArg some hcompleted))
      rw [hfailed]
      rfl
    rw [hunchanged]
    exact ⟨rfl, state, hstate, hterminal⟩
  | updateRentalStatus rentalId status reason now =>
    refine ⟨spent_updateRentalStatus .., state, ?_, hterminal⟩
    rcases view_updateRentalStatus parsers now rentalId status reason t with hview | ⟨j, -, hview⟩
    · exact (congrFun (congrArg Prod.snd hview) id).trans hstate
    · have hfollows : StatesFollow t (run serve (RentalManager.updateStatus j (rentalStatusToDomain status) now) t).2 :=
        statesFollow_modify (transitionTo_followsStates _ now)
      exact (congrFun (congrArg Prod.snd hview) id).trans (hfollows.isTerminal id state hstate hterminal)
  | rentalEnd event stop =>
    have hskips : processed stop (processRentalEnd id event) t = t := by
      apply processed_of_skips
      apply processRentalEnd_skips
      intro data row _ hrow
      cases (state?_of_row hrow).symm.trans hstate
      exact hterminal
    change spent user (processed stop (processRentalEnd id event) t) = _ ∧ Ended id (processed stop _ t)
    rw [hskips]
    exact ⟨rfl, state, hstate, hterminal⟩
  | statusChange event stop => exact statusChange_of_ended ⟨state, hstate, hterminal⟩ hkeeps user

variable {start : ℤ} {steps : List ChargeStep} (hconcerns : ∀ step ∈ steps, step.Concerns parsers id)

include hconcerns

variable (hcareful : EachStep (perform parsers id) (Careful id user start) steps t)

include hcareful

theorem charges_of_ended (hstart : spent user t ≠ start)
    (hended : Ended id t) : charges parsers id user steps t = 0 := by
  induction steps generalizing t with
  | nil => rfl
  | cons step rest ih =>
    obtain ⟨⟨-, hkeeps⟩, hrest⟩ := hcareful
    obtain ⟨hspent, hended'⟩ := perform_of_ended user (hconcerns step mem_cons_self) hended (hkeeps hstart)
    rw [charges, if_pos hspent, ih (fun s hs => hconcerns s (mem_cons_of_mem _ hs)) hrest (by rwa [hspent]) hended']

theorem charges_le_one (hstart : spent user t = start) :
    charges parsers id user steps t ≤ 1 := by
  induction steps generalizing t with
  | nil => exact Nat.zero_le 1
  | cons step rest ih =>
    obtain ⟨⟨huncut, -⟩, hrest⟩ := hcareful
    have hrestConcerns : ∀ s ∈ rest, s.Concerns parsers id := fun s hs => hconcerns s (mem_cons_of_mem _ hs)
    rw [charges]
    split_ifs with hspent
    · have hle := ih hrestConcerns hrest (hspent.trans hstart)
      omega
    · have hended := (perform_charges_or_ends (hconcerns step mem_cons_self) huncut).resolve_left hspent
      have hzero := charges_of_ended hrestConcerns hrest (fun h => hspent (h.trans hstart.symm)) hended
      omega

end ChargeStep

theorem charged_at_most_once (parsers : Parsers) (id : RentalId) (user : UserId) (steps : List ChargeStep)
    (t : BillingTables) (hconcerns : ∀ step ∈ steps, step.Concerns parsers id)
    (hcareful : EachStep (ChargeStep.perform parsers id) (ChargeStep.Careful id user (ChargeStep.spent user t)) steps t) :
    ChargeStep.charges parsers id user steps t ≤ 1 :=
  ChargeStep.charges_le_one hconcerns hcareful rfl

theorem concerns_finalize (finalCost : String) (now : ℤ) :
    (ChargeStep.finalizeRental "1" finalCost now).Concerns plainParsers 1 := by
  intro j hj
  cases hj
  rfl

def finalizedThenReported : List ChargeStep :=
  [.finalizeRental "1" "10" 0, .rentalEnd (.ok ⟨1, 10, none⟩) none,
    .statusChange (.ok ⟨"RENTAL_STATUS_STOPPED", "completed", none⟩) (some 2)]

theorem charged_once_finalizedThenReported :
    ChargeStep.charges plainParsers 1 "alice" finalizedThenReported (oneRental .active) ≤ 1 := by
  apply charged_at_most_once
  · intro step hstep
    simp only [finalizedThenReported, mem_cons, not_mem_nil, or_false] at hstep
    rcases hstep with rfl | rfl | rfl
    · exact concerns_finalize "10" 0
    all_goals trivial
  · refine ⟨⟨trivial, fun h => absurd rfl h⟩, ⟨trivial, fun _ => trivial⟩, ⟨Or.inl (by decide), fun _ => ?_⟩, trivial⟩
    intro old new _ _ hnew
    cases hnew
    rfl

theorem repeated_finalize_charges_twice :
    let steps := [ChargeStep.finalizeRental "1" "10" 0, ChargeStep.finalizeRental "1" "10" 1]
    (∀ step ∈ steps, step.Concerns plainParsers 1) ∧
      ¬ ChargeStep.charges plainParsers 1 "alice" steps (oneRental .active) ≤ 1 := by
  intro steps
  constructor
  · intro step hstep
    simp only [steps, mem_cons, not_mem_nil, or_false] at hstep
    rcases hstep with rfl | rfl
    · exact concerns_finalize "10" 0
    · exact concerns_finalize "10" 1
  · decide +kernel

end Basilica.Billing
