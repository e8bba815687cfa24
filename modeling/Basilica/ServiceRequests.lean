import Basilica.BillingService

/-!
What a request can do to the accounts. No handler looks at the sign of an amount.
-/

namespace Basilica.Billing

open AssocMaps AtomicCalls Calls CreditTables BillingService

inductive ServiceRequest
  | applyCredits (user : UserId) (amount : String)
  | getBalance (user : UserId)
  | reserveCredits (reservation : ReservationId) (user : UserId) (amount rentalId : String) (duration : Option ProtoDuration)
  | releaseReservation (reservationId finalAmount : String)
  | updateRentalStatus (rentalId : String) (status : RentalStatus) (reason : String)
  | finalizeRental (rentalId finalCost : String)

namespace ServiceRequest

open BillingService

def perform (parsers : Parsers) (now : ℤ) : ServiceRequest → BillingTables → BillingTables
  | .applyCredits user amount, t => (run (answering serve) (BillingService.applyCredits parsers user amount) t).2
  | .getBalance user, t => (run (answering serve) (BillingService.getBalance user) t).2
  | .reserveCredits reservation user amount rentalId duration, t =>
    (run (answering serve) (BillingService.reserveCredits parsers reservation now user amount rentalId duration) t).2
  | .releaseReservation reservationId finalAmount, t =>
    (run (answering serve) (BillingService.releaseReservation parsers reservationId finalAmount) t).2
  | .updateRentalStatus rentalId status reason, t =>
    (run (answering serve) (BillingService.updateRentalStatus parsers now rentalId status reason) t).2
  | .finalizeRental rentalId finalCost, t =>
    (run (answering serve) (BillingService.finalizeRental parsers now rentalId finalCost) t).2

def isApply : ServiceRequest → Bool
  | .applyCredits _ _ => true
  | _ => false

def isReserve : ServiceRequest → Bool
  | .reserveCredits _ _ _ _ _ => true
  | _ => false

def Harmless (parsers : Parsers) (now : ℤ) : ServiceRequest → BillingTables → Prop
  | .reserveCredits reservation user amount rentalId duration, t =>
    ∀ q nanos rental, reserveArguments parsers amount rentalId duration = .ok (q, nanos, rental) →
      representable (now + nanos) → t.credit.reservations.get? reservation = none →
        let row := t.credit.rowOf user
        let n := (CreditBalance.fromDecimal q).micros
        0 ≤ n ∨ row.reserved.micros + n < 0 ∨ row.balance.micros ≤ row.reserved.micros + n
  | .releaseReservation reservationId finalAmount, t =>
    ∀ id q r, releaseArguments parsers reservationId finalAmount = .ok (id, q) →
      t.credit.reservations.get? id = some r → r.released = false → (t.credit.credits.get? r.userId).isSome →
        0 ≤ (CreditBalance.fromDecimal q).micros
  | .finalizeRental rentalId finalCost, t =>
    ∀ id q row, finalizeArguments parsers rentalId finalCost = .ok (id, q) →
      t.rentals.get? id = some row → row.state.canFinalize = true → (t.credit.credits.get? row.userId).isSome →
        0 ≤ (CreditBalance.fromDecimal q).micros
  | _, _ => True

end ServiceRequest

def CreditTables.available (c : CreditTables) (user : UserId) : CreditBalance :=
  ((c.rowOf user).account user).availableBalance

theorem CreditTables.available_micros (c : CreditTables) (user : UserId) :
    (c.available user).micros = max ((c.rowOf user).balance.micros - (c.rowOf user).reserved.micros) 0 :=
  CreditAccount.availableBalance_micros

structure KeepsCredits (request : ServiceRequest) (c c' : CreditTables) : Prop where
  balance : request.isApply = false → ∀ user, (c'.rowOf user).balance.micros ≤ (c.rowOf user).balance.micros
  available : request.isReserve = true → ∀ user, (c'.available user).micros ≤ (c.available user).micros
  spent : ∀ user, (c.rowOf user).lifetimeSpent.micros ≤ (c'.rowOf user).lifetimeSpent.micros

section Requests

variable {c c' : CreditTables} {request : ServiceRequest} {user : UserId} {amount : CreditBalance}

theorem keepsCredits_of_rows (h : ∀ u, c'.rowOf u = c.rowOf u) : KeepsCredits request c c' where
  balance _ u := by rw [h u]
  available _ u := by rw [available, available, h u]
  spent u := by rw [h u]

theorem KeepsCredits.refl : KeepsCredits request c c := keepsCredits_of_rows (fun _ => rfl)

theorem ChargeOutcome.keepsCredits_iff (h : ChargeOutcome c c' user amount) (hreserve : request.isReserve = false) :
    KeepsCredits request c c' ↔ ((c.credits.get? user).isSome → 0 ≤ amount.micros) := by
  have hnotReserve : request.isReserve = true → ∀ u, (c'.available u).micros ≤ (c.available u).micros := by
    intro hreserve'
    rw [hreserve] at hreserve'
    cases hreserve'
  cases h with
  | refused hless hrows =>
    constructor
    · intro _ hsome
      obtain ⟨row, hrow⟩ := Option.isSome_iff_exists.mp hsome
      have hbalance := row.positive_balance
      have hlt := hless row hrow
      omega
    · intro _
      refine ⟨fun _ u => ?_, hnotReserve, fun u => ?_⟩
      · rw [(hrows u).1]
      · rw [(hrows u).2]
  | charged hrow hle hbalance hspent =>
    have hsome : (c.credits.get? user).isSome = true := by
      rw [hrow]
      rfl
    constructor
    · intro hkeeps _
      have hself := hspent user
      rw [if_pos rfl] at hself
      have hle := hkeeps.spent user
      omega
    · intro hamount
      have hamount := hamount hsome
      refine ⟨fun _ u => ?_, hnotReserve, fun u => ?_⟩
      · rw [hbalance u]
        split_ifs <;> omega
      · rw [hspent u]
        split_ifs <;> omega

theorem rowOf_store {account : CreditAccount} {old : CreditsRow} (hold : c.credits.get? account.userId = some old)
    (u : UserId) : (c.store account).2.rowOf u = c.rowOf u ∨
      u = account.userId ∧ ((c.store account).2.rowOf u).lifetimeSpent = account.lifetimeSpent := by
  unfold store
  cases hrow : account.row? with
  | none => exact Or.inl rfl
  | some row =>
    rw [rowOf_setAccount hold]
    split_ifs with hu
    · exact Or.inr ⟨hu, (CreditAccount.row?_eq_some.mp hrow).2.2⟩
    · exact Or.inl rfl

theorem keepsCredits_applyCredits (user : UserId) (amount : CreditBalance) (happly : request.isApply = true)
    (hreserve : request.isReserve = false) :
    KeepsCredits request c (run serveRow (CreditManager.applyCredits user amount) c).2 := by
  refine ⟨fun h => ?_, fun h => ?_, fun u => ?_⟩
  · rw [happly] at h
    cases h
  · rw [hreserve] at h
    cases h
  · rw [CreditManager.run_applyCredits]
    have hold : (c.ensureAccount user .zero).credits.get? (((c.rowOf user).account user).applyCredits amount).userId =
        some (c.rowOf user) := c.credits_ensured user
    rcases rowOf_store hold u with h | ⟨hu, h⟩
    · rw [h, rowOf_ensureAccount]
    · rw [h, hu]
      exact le_rfl

theorem keepsCredits_reserved_iff {row : CreditsRow} (hreserve : request.isReserve = true)
    (hrows : ∀ u, c'.rowOf u = if u = user then row else c.rowOf u)
    (hbalance : row.balance = (c.rowOf user).balance) (hspent : row.lifetimeSpent = (c.rowOf user).lifetimeSpent) :
    KeepsCredits request c c' ↔ (c'.available user).micros ≤ (c.available user).micros := by
  constructor
  · intro hkeeps
    exact hkeeps.available hreserve user
  · intro havailable
    refine ⟨fun _ u => ?_, fun _ u => ?_, fun u => ?_⟩
    · rw [hrows u]
      split_ifs with hu
      · rw [hbalance, hu]
      · exact le_rfl
    · by_cases hu : u = user
      · rw [hu]
        exact havailable
      · rw [available, available, hrows u, if_neg hu]
    · rw [hrows u]
      split_ifs with hu
      · rw [hspent, hu]
      · exact le_rfl

theorem keepsCredits_reserveCredits_iff (reservation : ReservationId) (now nanos : ℤ) (user : UserId)
    (amount : CreditBalance) (rentalId : Option RentalId) (hreserve : request.isReserve = true) : KeepsCredits request c
        (run serveRow (CreditManager.reserveCredits reservation now user amount nanos rentalId) c).2 ↔
      (representable (now + nanos) → c.reservations.get? reservation = none →
        0 ≤ amount.micros ∨ (c.rowOf user).reserved.micros + amount.micros < 0 ∨
          (c.rowOf user).balance.micros ≤ (c.rowOf user).reserved.micros + amount.micros) := by
  have hensured : ∀ u, (c.ensureAccount user .zero).rowOf u = c.rowOf u := fun u => rowOf_ensureAccount u
  rw [CreditManager.run_reserveCredits]
  dsimp only
  split_ifs with hcan hexpiry
  · rw [forall_prop_of_true hexpiry]
    cases hid : c.reservations.get? reservation with
    | some old =>
      refine iff_of_true (keepsCredits_of_rows hensured) ?_
      intro h
      cases h
    | none =>
      let account := (c.rowOf user).account user
      let held : CreditAccount := { account with reserved := account.reserved.add amount }
      have hreserved : held.reserved.micros = (c.rowOf user).reserved.micros + amount.micros := by
        change (account.reserved.add amount).micros = _
        rw [CreditBalance.add_eq]
        rfl
      let added := (c.ensureAccount user .zero).addReservation (.made reservation now user amount nanos rentalId)
      have hadded : ∀ u, added.rowOf u = c.rowOf u := hensured
      have hold : added.credits.get? user = some (c.rowOf user) := c.credits_ensured user
      change KeepsCredits request c (added.store held).2 ↔ _
      cases hrow : held.row? with
      | none =>
        have hstored : (added.store held).2 = added := by rw [store, hrow]
        have hnegative := CreditAccount.row?_eq_none.mp hrow
        have hbalance : 0 ≤ held.balance.micros := (c.rowOf user).positive_balance
        rw [hstored]
        refine iff_of_true (keepsCredits_of_rows hadded) (fun _ => ?_)
        omega
      | some row =>
        obtain ⟨hbalance, hrowReserved, hspent⟩ := CreditAccount.row?_eq_some.mp hrow
        have hnonneg := row.positive_reserved
        have hstored : (added.store held).2 = added.setAccount user row := by
          rw [store_eq hrow]
          rfl
        have hrows : ∀ u, (added.setAccount user row).rowOf u = if u = user then row else c.rowOf u := by
          intro u
          rw [rowOf_setAccount hold, hadded]
        rw [hstored, keepsCredits_reserved_iff hreserve hrows hbalance hspent, available_micros,
          available_micros, hrows, if_pos rfl, hrowReserved, hreserved, hbalance]
        rw [hrowReserved, hreserved] at hnonneg
        have hsame : held.balance.micros = (c.rowOf user).balance.micros := rfl
        rw [hsame, forall_prop_of_true rfl]
        omega
  · exact iff_of_true (keepsCredits_of_rows hensured) (fun h => absurd h hexpiry)
  · refine iff_of_true (keepsCredits_of_rows hensured) (fun _ _ => Or.inl ?_)
    rw [CreditAccount.canReserve_iff] at hcan
    have hzero := le_max_right (((c.rowOf user).account user).balance.micros - ((c.rowOf user).account user).reserved.micros) 0
    omega

variable (parsers : Parsers) (now : ℤ) (t : BillingTables)

theorem keepsCredits_apply (user : UserId) (amount : String) :
    let request := ServiceRequest.applyCredits user amount
    KeepsCredits request t.credit (request.perform parsers now t).credit := by
  intro request
  change KeepsCredits request t.credit
    (run (answering serve) (applyCredits parsers user amount) t).2.credit
  unfold applyCredits
  cases readAmount parsers "Invalid amount" amount with
  | error e => exact .refl
  | ok q =>
    rw [run_bind_ok _ (run_ofExcept _ _ _), run_mapError, run_managerCalls]
    exact keepsCredits_applyCredits user _ rfl rfl

theorem keepsCredits_getBalance (user : UserId) :
    let request := ServiceRequest.getBalance user
    KeepsCredits request t.credit (request.perform parsers now t).credit := by
  intro request
  change KeepsCredits request t.credit (run (answering serve) (getBalance user) t).2.credit
  unfold getBalance
  rw [run_bind_pure, run_mapError, run_managerCalls, CreditManager.getAccount, CreditManager.run_getOrCreateAccount]
  exact keepsCredits_of_rows (fun u => rowOf_ensureAccount u)

theorem keepsCredits_reserve_iff (reservation : ReservationId) (user : UserId) (amount rentalId : String)
    (duration : Option ProtoDuration) :
    let request := ServiceRequest.reserveCredits reservation user amount rentalId duration
    KeepsCredits request t.credit (request.perform parsers now t).credit ↔ request.Harmless parsers now t := by
  intro request
  change KeepsCredits request t.credit (run (answering serve)
    (reserveCredits parsers reservation now user amount rentalId duration) t).2.credit ↔
      ∀ q nanos rental, reserveArguments parsers amount rentalId duration = .ok (q, nanos, rental) → _
  unfold reserveCredits
  cases reserveArguments parsers amount rentalId duration with
  | error e => exact iff_of_true .refl (fun _ _ _ h => nomatch h)
  | ok args =>
    obtain ⟨q, nanos, rental⟩ := args
    rw [run_bind_ok _ (run_ofExcept _ _ _)]
    -- The reservation is only read after it has been made.
    rw [run_bind_snd (answering serve) BillingTables.credit, run_mapError, run_managerCalls, BillingTables.credit_setCredit,
      keepsCredits_reserveCredits_iff reservation now nanos user _ rental rfl]
    · constructor
      · rintro h q' nanos' rental' hargs
        cases hargs
        exact h
      · intro h
        exact h q nanos rental rfl
    · intro id s
      rw [run_mapError, run_managerCalls, CreditManager.run_findReservation]
      cases s.credit.reservations.get? id <;> rfl

theorem keepsCredits_release_iff (reservationId finalAmount : String) :
    let request := ServiceRequest.releaseReservation reservationId finalAmount
    KeepsCredits request t.credit (request.perform parsers now t).credit ↔ request.Harmless parsers now t := by
  intro request
  change KeepsCredits request t.credit
    (run (answering serve) (releaseReservation parsers reservationId finalAmount) t).2.credit ↔
      ∀ id q r, releaseArguments parsers reservationId finalAmount = .ok (id, q) → _
  unfold releaseReservation
  cases releaseArguments parsers reservationId finalAmount with
  | error e => exact iff_of_true .refl (fun _ _ _ h => nomatch h)
  | ok args =>
    obtain ⟨id, q⟩ := args
    rw [run_bind_ok _ (run_ofExcept _ _ _)]
    have hfound := run_mapError serve (fun e => (⟨.notFound, "Reservation not found", some e⟩ : Status))
      (managerCalls (CreditManager.getReservation id)) t
    rw [run_managerCalls, CreditManager.run_findReservation] at hfound
    cases hr : t.credit.reservations.get? id with
    | none =>
      rw [hr] at hfound
      rw [run_bind_error _ hfound]
      refine iff_of_true .refl ?_
      rintro id' q' r hargs hr'
      cases hargs
      rw [hr] at hr'
      cases hr'
    | some r =>
      rw [hr] at hfound
      rw [run_bind_ok _ hfound, run_bind_pure, run_mapError, run_managerCalls]
      change KeepsCredits request t.credit (run serveRow (CreditManager.chargeFromReservation id (.fromDecimal q)) t.credit).2 ↔ _
      cases hreleased : r.released with
      | true =>
        have hunchanged : (run serveRow (CreditManager.chargeFromReservation id (.fromDecimal q)) t.credit).2 = t.credit := by
          rw [CreditManager.run_chargeFromReservation, CreditManager.ended, hr]
          dsimp only
          rw [if_pos hreleased]
        rw [hunchanged]
        refine iff_of_true .refl ?_
        rintro id' q' r' hargs hr' hreleased'
        cases hargs
        cases hr.symm.trans hr'
        rw [hreleased] at hreleased'
        cases hreleased'
      | false =>
        rw [(chargeFromReservation_outcome (.fromDecimal q) hr hreleased).keepsCredits_iff rfl]
        constructor
        · rintro h id' q' r' hargs hr' -
          cases hargs
          cases hr.symm.trans hr'
          exact h
        · intro h
          exact h id q r rfl hr hreleased

theorem keepsCredits_updateRentalStatus (rentalId : String) (status : RentalStatus) (reason : String) :
    let request := ServiceRequest.updateRentalStatus rentalId status reason
    KeepsCredits request t.credit (request.perform parsers now t).credit := by
  intro request
  have hcredit : (request.perform parsers now t).credit = t.credit := credit_updateRentalStatus parsers now rentalId status reason t
  rw [hcredit]
  exact .refl

theorem keepsCredits_finalize_iff (rentalId finalCost : String) :
    let request := ServiceRequest.finalizeRental rentalId finalCost
    KeepsCredits request t.credit (request.perform parsers now t).credit ↔ request.Harmless parsers now t := by
  intro request
  by_cases h : ∀ id q row, finalizeArguments parsers rentalId finalCost = .ok (id, q) →
      t.rentals.get? id = some row → row.state.canFinalize = false
  · have hunchanged : request.perform parsers now t = t := finalizeRental_unchanged now h
    rw [hunchanged]
    refine iff_of_true .refl ?_
    intro id q row hargs hrow hcan
    rw [h id q row hargs hrow] at hcan
    cases hcan
  · push Not at h
    obtain ⟨id, q, row, hargs, hrow, hcan⟩ := h
    rw [ne_eq, Bool.not_eq_false] at hcan
    obtain ⟨houtcome, -⟩ := finalizeRental_charges now hargs hrow hcan
    refine (houtcome.keepsCredits_iff rfl).trans ?_
    constructor
    · rintro h id' q' row' hargs' hrow' -
      cases hargs.symm.trans hargs'
      cases hrow.symm.trans hrow'
      exact h
    · intro h
      exact h id q row hargs hrow hcan

end Requests

/-- A request keeps the credits exactly if every amount it acts on is harmless. -/
theorem request_keeps_credits_iff (parsers : Parsers) (now : ℤ) (request : ServiceRequest) (t : BillingTables) :
    KeepsCredits request t.credit (request.perform parsers now t).credit ↔ request.Harmless parsers now t := by
  cases request with
  | applyCredits user amount => exact iff_of_true (keepsCredits_apply parsers now t user amount) trivial
  | getBalance user => exact iff_of_true (keepsCredits_getBalance parsers now t user) trivial
  | reserveCredits reservation user amount rentalId duration =>
    exact keepsCredits_reserve_iff parsers now t reservation user amount rentalId duration
  | releaseReservation reservationId finalAmount => exact keepsCredits_release_iff parsers now t reservationId finalAmount
  | updateRentalStatus rentalId status reason =>
    exact iff_of_true (keepsCredits_updateRentalStatus parsers now t rentalId status reason) trivial
  | finalizeRental rentalId finalCost => exact keepsCredits_finalize_iff parsers now t rentalId finalCost

theorem negative_cost_pays_user :
    let request := ServiceRequest.finalizeRental "1" "-5"
    ¬ KeepsCredits request (oneRental .active).credit (request.perform plainParsers 0 (oneRental .active)).credit := by
  intro request hkeeps
  have hbalance := hkeeps.balance rfl "alice"
  revert hbalance
  decide +kernel

end Basilica.Billing
