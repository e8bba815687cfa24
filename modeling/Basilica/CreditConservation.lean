import Basilica.CreditFailures
import Basilica.StepRuns

/-!
The balance of an account together with what it has spent, over runs of the credit manager in which any
repository call may fail.
-/

namespace Basilica.Billing

open AssocMaps AtomicCalls Calls CreditTables StepRuns Option CreditManager

def CreditCall.fault : CreditCall → BillingError
  | .row c => c.fault
  | .getActiveReservations _ _ => .databaseError "get_active_reservations"
  | .getExpiredReservations _ _ => .databaseError "get_expired_reservations"
  | .releaseReservation _ => .databaseError "release_reservation"
  | .holdReservation _ => .databaseError "insert_reservation"
  | .deductBalance _ _ => .databaseError "deduct_credits"
  | .recordDeduction _ _ => .databaseError "record_credit_deduction"

inductive Request
  | getBalance (user : UserId)
  | getAccount (user : UserId)
  | applyCredits (user : UserId) (amount : ℚ)
  | reserveCredits (id : ReservationId) (now : ℤ) (user : UserId) (amount : ℚ) (duration : ℤ)
      (rentalId : Option RentalId)
  | releaseReservation (id : ReservationId)
  | chargeCredits (user : UserId) (amount : ℚ)
  | chargeFromReservation (id : ReservationId) (actualAmount : ℚ)
  | getReservation (id : ReservationId)
  | getActiveReservations (user : UserId) (now : ℤ)
  | cleanupExpiredReservations (now : ℤ)

def Request.calls : Request → CreditCalls Reply
  | .getBalance user => do
    let balance ← rowCalls (CreditManager.getBalance user)
    return .amount balance
  | .getAccount user => do
    let _ ← rowCalls (CreditManager.getAccount user)
    return .done
  | .applyCredits user amount => rowCalls (ManagerOp.applyCredits user (.fromDecimal amount)).calls
  | .reserveCredits id now user amount duration rentalId =>
    rowCalls (ManagerOp.reserveCredits id now user (.fromDecimal amount) duration rentalId).calls
  | .releaseReservation id => rowCalls (ManagerOp.releaseReservation id).calls
  | .chargeCredits user amount => rowCalls (ManagerOp.chargeCredits user (.fromDecimal amount)).calls
  | .chargeFromReservation id actualAmount =>
    rowCalls (ManagerOp.chargeFromReservation id (.fromDecimal actualAmount)).calls
  | .getReservation id => do
    let reservation ← rowCalls (CreditManager.getReservation id)
    return .reservation reservation.id
  | .getActiveReservations user now => do
    let active ← CreditManager.getActiveReservations user now
    return .count active.length
  | .cleanupExpiredReservations now => (CreditOp.cleanupExpiredReservations now).calls

def CreditTables.worth (t : CreditTables) (user : UserId) : ℤ :=
  (t.rowOf user).balance.micros + (t.rowOf user).lifetimeSpent.micros

def SameWorth (t t' : CreditTables) : Prop := ∀ user, t'.worth user = t.worth user

theorem SameWorth.refl (t : CreditTables) : SameWorth t t := fun _ => rfl

variable {t : CreditTables}

theorem SameWorth.trans {t₁ t₂ : CreditTables} (h : SameWorth t t₁) (h' : SameWorth t₁ t₂) : SameWorth t t₂ :=
  fun user => (h' user).trans (h user)

abbrev RowEnsures {α : Type} := Ensures (α := α) serveRow RowCall.fault

section Calls

variable {user : UserId} {old : CreditsRow}

theorem worth_setAccount {row : CreditsRow} (h : t.credits.get? user = some old) (u : UserId) :
    (t.setAccount user row).worth u =
      if u = user then row.balance.micros + row.lifetimeSpent.micros else t.worth u := by
  rw [worth, rowOf_setAccount h]
  split_ifs <;> rfl

variable {t' : CreditTables}

theorem sameWorth_of_credits (h : t'.credits = t.credits) : SameWorth t t' := by
  intro u
  rw [worth, worth, rowOf, rowOf, h]

theorem ensures_getAccount (user : UserId) : RowEnsures (getAccount user) t
      (fun r t' => t' = t ∧ ∀ found, r = .ok found → found = t.account? user) := by
  refine ⟨⟨rfl, ?_⟩, ⟨rfl, ?_⟩⟩
  · intro found h
    cases h
  · intro found h
    exact (Except.ok.inj h).symm

variable (id : ReservationId)

theorem ensures_getReservation : RowEnsures (getReservation id) t (fun _ t' => t' = t) := ⟨rfl, rfl⟩

theorem ensures_createAccount (user : UserId) :
    RowEnsures (createAccount (.new user)) t (fun _ t' => SameWorth t t') := by
  refine ⟨SameWorth.refl t, ?_⟩
  change SameWorth t (serveRow (RowCall.createAccount (.new user)) t).2
  simp only [serveRow, CreditAccount.row?_new]
  intro u
  rw [worth, rowOf_ensureAccount, ← worth]

variable (reservation : Reservation)

theorem ensures_createReservation :
    RowEnsures (createReservation reservation) t (fun _ t' => t'.credits = t.credits) := by
  refine ⟨rfl, ?_⟩
  change (serveRow (RowCall.createReservation reservation) t).2.credits = t.credits
  simp only [serveRow]
  cases t.reservations.get? reservation.id <;> rfl

theorem ensures_updateReservation :
    RowEnsures (updateReservation reservation) t (fun _ t' => t'.credits = t.credits) := by
  refine ⟨rfl, ?_⟩
  change (serveRow (RowCall.updateReservation reservation) t).2.credits = t.credits
  simp only [serveRow]
  cases t.reservations.get? reservation.id <;> rfl

theorem ensures_updateAccount (account : CreditAccount) (h : t.credits.get? account.userId = some old) :
    RowEnsures (updateAccount account) t (fun r t' => match r with
      | .ok _ => ∀ u, t'.worth u =
          if u = account.userId then account.balance.micros + account.lifetimeSpent.micros else t.worth u
      | .error _ => t' = t) := by
  refine ⟨rfl, ?_⟩
  change match (run serveRow (updateAccount account) t).1 with
    | .ok _ => ∀ u, (run serveRow (updateAccount account) t).2.worth u =
        if u = account.userId then account.balance.micros + account.lifetimeSpent.micros else t.worth u
    | .error _ => (run serveRow (updateAccount account) t).2 = t
  rw [run_updateAccount h, store]
  cases hrow : account.row? with
  | none => rfl
  | some row =>
    intro u
    obtain ⟨hbalance, -, hspent⟩ := CreditAccount.row?_eq_some.mp hrow
    rw [worth_setAccount h, hbalance, hspent]

theorem ensures_updateAccount_same (account : CreditAccount) (h : t.credits.get? account.userId = some old)
    (hworth : account.balance.micros + account.lifetimeSpent.micros = old.balance.micros + old.lifetimeSpent.micros) :
    RowEnsures (updateAccount account) t (fun _ t' => SameWorth t t') := by
  apply (ensures_updateAccount account h).mono
  intro r t' ht'
  cases r with
  | ok _ =>
    intro u
    rw [ht' u]
    split_ifs with hu
    · rw [hworth, worth, hu, rowOf_of_some h]
    · rfl
  | error e =>
    rw [ht']
    exact SameWorth.refl t

def Read (user : UserId) (t t' : CreditTables) (r : Except BillingError CreditAccount) : Prop :=
  SameWorth t t' ∧ ∀ account, r = .ok account → ∃ row, t'.credits.get? user = some row ∧ account = row.account user

theorem read_error (h : SameWorth t t') (e : BillingError) : Read user t t' (.error e) := by
  refine ⟨h, ?_⟩
  intro account haccount
  cases haccount

theorem read_account (h : SameWorth t t') {account : CreditAccount}
    (haccount : t'.account? user = some account) : Read user t t' (.ok account) := by
  refine ⟨h, ?_⟩
  rintro _ ⟨⟩
  obtain ⟨row, hrow, hrow'⟩ := map_eq_some_iff.mp haccount
  exact ⟨row, hrow, hrow'.symm⟩

variable {t₀ : CreditTables}

theorem ensures_foundAccount (e : BillingError) (h : SameWorth t₀ t) :
    RowEnsures (do
      let found ← getAccount user
      ofOption e found) t (fun r t' => Read user t₀ t' r) := by
  apply (ensures_getAccount user).bind
  · rintro found t' ⟨rfl, hfound⟩
    rw [hfound found rfl]
    cases haccount : t'.account? user with
    | none => exact read_error h e
    | some account => exact read_account h haccount
  · rintro e t' ⟨rfl, -⟩
    exact read_error h e

theorem ensures_getOrCreateAccount (user : UserId) :
    RowEnsures (getOrCreateAccount user) t (fun r t' => Read user t t' r) := by
  unfold getOrCreateAccount
  apply (ensures_getAccount user).bind
  · rintro found t' ⟨rfl, hfound⟩
    rw [hfound found rfl]
    cases haccount : t'.account? user with
    | some account => exact read_account (SameWorth.refl t') haccount
    | none =>
      apply (ensures_createAccount user).bind
      · intro _ t₁ ht₁
        exact ensures_foundAccount _ ht₁
      · intro e t₁ ht₁
        exact read_error ht₁ e
  · rintro e t' ⟨rfl, -⟩
    exact read_error (SameWorth.refl t') e

theorem ensures_applyCredits (user : UserId) (amount : CreditBalance) :
    RowEnsures (applyCredits user amount) t (fun r t' => ∀ u,
      t'.worth u = t.worth u + if u = user ∧ r.isOk then amount.micros else 0) := by
  unfold applyCredits
  apply (ensures_getOrCreateAccount user).bind
  · rintro account t₁ ⟨hsame, hread⟩
    obtain ⟨row, hrow, rfl⟩ := hread account rfl
    apply (ensures_updateAccount ((row.account user).applyCredits amount) hrow).bind
    · intro _ t₂ ht₂ u
      change t₂.worth u = t.worth u + if u = user ∧ true then amount.micros else 0
      rw [ht₂ u, ← hsame u]
      by_cases hu : u = user
      · simp only [hu, CreditAccount.applyCredits, CreditsRow.account, CreditBalance.add_eq, ↓reduceIte, and_self, worth,
          rowOf_of_some hrow]
        ring
      · simp [hu, CreditAccount.applyCredits, CreditsRow.account]
    · rintro e t₂ rfl u
      change t₂.worth u = t.worth u + if u = user ∧ false then amount.micros else 0
      simp [hsame u]
  · rintro e t₁ ⟨hsame, -⟩ u
    change t₁.worth u = t.worth u + if u = user ∧ false then amount.micros else 0
    simp [hsame u]

theorem ensures_reserveCredits (now : ℤ) (user : UserId) (amount : CreditBalance) (duration : ℤ)
    (rentalId : Option RentalId) : RowEnsures (reserveCredits id now user amount duration rentalId) t
      (fun _ t' => SameWorth t t') := by
  unfold reserveCredits
  apply (ensures_getOrCreateAccount user).bind
  · rintro account t₁ ⟨hsame, hread⟩
    obtain ⟨row, hrow, rfl⟩ := hread account rfl
    split_ifs with hcan
    · rw [CreditAccount.reserveCredits, if_pos hcan, Reservation.new]
      split_ifs
      · apply (ensures_createReservation (.made id now user amount duration rentalId)).bind
        · intro _ t₂ ht₂
          apply ((ensures_updateAccount_same _ (ht₂ ▸ hrow) rfl).bind_pure _).mono
          intro _ t₃ ht₃
          exact hsame.trans ((sameWorth_of_credits ht₂).trans ht₃)
        · intro e t₂ ht₂
          exact hsame.trans (sameWorth_of_credits ht₂)
      · exact hsame
    · exact hsame
  · rintro e t₁ ⟨hsame, -⟩
    exact hsame

def Took (t t' : CreditTables) (r : Except BillingError (Reservation × CreditAccount)) : Prop :=
  SameWorth t t' ∧ ∀ reservation account, r = .ok (reservation, account) →
    ∃ row, t'.credits.get? reservation.userId = some row ∧ account = row.account reservation.userId

theorem took_error (h : SameWorth t t') (e : BillingError) : Took t t' (.error e) := by
  refine ⟨h, ?_⟩
  intro reservation account hr
  cases hr

theorem ensures_takeReservation : RowEnsures (takeReservation id) t (fun r t' => Took t t' r) := by
  unfold takeReservation
  apply (ensures_getReservation id).bind
  · rintro found t' rfl
    cases found with
    | none => exact took_error (SameWorth.refl t') _
    | some reservation =>
      change RowEnsures (if reservation.released then _ else _) t' _
      split_ifs with hreleased
      · exact took_error (SameWorth.refl t') _
      · apply (ensures_updateReservation { reservation with released := true }).bind
        · intro _ t₁ ht₁
          apply (ensures_getAccount reservation.userId).bind
          · rintro found t₂ ⟨rfl, hfound⟩
            rw [hfound found rfl]
            cases haccount : t₂.account? reservation.userId with
            | none => exact took_error (sameWorth_of_credits ht₁) _
            | some account =>
              obtain ⟨row, hrow, rfl⟩ := map_eq_some_iff.mp haccount
              refine ⟨sameWorth_of_credits ht₁, ?_⟩
              rintro _ _ ⟨⟩
              exact ⟨row, hrow, rfl⟩
          · rintro e t₂ ⟨rfl, -⟩
            exact took_error (sameWorth_of_credits ht₁) e
        · intro e t₁ ht₁
          exact took_error (sameWorth_of_credits ht₁) e
  · rintro e t' rfl
    exact took_error (SameWorth.refl t') e

theorem ensures_releaseReservation :
    RowEnsures (releaseReservation id) t (fun _ t' => SameWorth t t') := by
  unfold releaseReservation
  apply (ensures_takeReservation id).bind
  · rintro ⟨reservation, account⟩ t₁ ⟨hsame, htook⟩
    obtain ⟨row, hrow, rfl⟩ := htook reservation account rfl
    apply ((ensures_updateAccount_same ((row.account reservation.userId).releaseReservation reservation.amount) hrow
      rfl).bind_pure _).mono
    intro _ t₂ ht₂
    exact hsame.trans ht₂
  · rintro e t₁ ⟨hsame, -⟩
    exact hsame

theorem ensures_charge (hsame : SameWorth t₀ t) (row : CreditsRow)
    (hold : t.credits.get? user = some old) (hbalance : row.balance = old.balance)
    (hspent : row.lifetimeSpent = old.lifetimeSpent) (amount : CreditBalance) :
    RowEnsures (do
      let account ← ofExcept ((row.account user).charge amount)
      updateAccount account
      return account.balance) t (fun _ t' => SameWorth t₀ t') := by
  by_cases hle : amount.micros ≤ row.balance.micros
  · let charged := row.deduct amount hle
    rw [row.charge_account user hle]
    have hworth : (charged.account user).balance.micros + (charged.account user).lifetimeSpent.micros =
        old.balance.micros + old.lifetimeSpent.micros := by
      dsimp only [charged, CreditsRow.deduct, CreditsRow.account]
      rw [hbalance, hspent]
      omega
    apply ((ensures_updateAccount_same (charged.account user) hold hworth).bind_pure _).mono
    intro _ t₁ ht₁
    exact hsame.trans ht₁
  · rw [CreditAccount.charge_of_lt (not_le.mp hle)]
    exact hsame

theorem ensures_chargeFromReservation (amount : CreditBalance) :
    RowEnsures (chargeFromReservation id amount) t (fun _ t' => SameWorth t t') := by
  unfold chargeFromReservation
  apply (ensures_takeReservation id).bind
  · rintro ⟨reservation, account⟩ t₁ ⟨hsame, htook⟩
    obtain ⟨row, hrow, rfl⟩ := htook reservation account rfl
    dsimp only
    rw [row.chargeFromReservation_account]
    exact ensures_charge hsame (row.release reservation.amount) hrow rfl rfl amount
  · rintro e t₁ ⟨hsame, -⟩
    exact hsame

theorem ensures_chargeCredits (user : UserId) (amount : CreditBalance) :
    RowEnsures (chargeCredits user amount) t (fun _ t' => SameWorth t t') := by
  unfold chargeCredits
  apply (ensures_getAccount user).bind
  · rintro found t' ⟨rfl, hfound⟩
    rw [hfound found rfl]
    cases haccount : t'.account? user with
    | none => exact SameWorth.refl t'
    | some account =>
      obtain ⟨row, hrow, rfl⟩ := map_eq_some_iff.mp haccount
      exact ensures_charge (SameWorth.refl t') row hrow rfl rfl amount
  · rintro e t' ⟨rfl, -⟩
    exact SameWorth.refl t'

theorem ensures_releaseExpired :
    RowEnsures (releaseExpired reservation) t (fun _ t' => SameWorth t t') := by
  unfold releaseExpired
  split_ifs with hreleased
  · exact SameWorth.refl t
  · apply (ensures_updateReservation { reservation with released := true }).bind
    · intro _ t₁ ht₁
      have hsame := sameWorth_of_credits ht₁
      have hget : RowEnsures (catching (getAccount reservation.userId)) t₁
          (fun r t' => t' = t₁ ∧ ∀ found, r = .ok (.ok found) → found = t₁.account? reservation.userId) := by
        apply Ensures.catching
        apply (ensures_getAccount reservation.userId).mono
        rintro r t' ⟨rfl, hfound⟩
        exact ⟨rfl, fun found h => hfound found (Except.ok.inj h)⟩
      apply hget.bind
      · rintro r t₂ ⟨rfl, hfound⟩
        cases r with
        | error e => exact hsame
        | ok found =>
          rw [hfound found rfl]
          cases haccount : t₂.account? reservation.userId with
          | none => exact hsame
          | some account =>
            obtain ⟨row, hrow, rfl⟩ := map_eq_some_iff.mp haccount
            have hupdate := ensures_updateAccount_same
              ((row.account reservation.userId).releaseReservation reservation.amount) hrow rfl
            apply ((Ensures.catching (Q := fun _ t' => SameWorth t₂ t') hupdate).bind_pure _).mono
            intro _ t₃ ht₃
            exact hsame.trans ht₃
      · rintro e t₂ ⟨rfl, -⟩
        exact hsame
    · intro e t₁ ht₁
      exact sameWorth_of_credits ht₁

theorem ensures_releaseAllExpired (expired : List Reservation) :
    RowEnsures (releaseAllExpired expired) t (fun _ t' => SameWorth t t') := by
  induction expired generalizing t with
  | nil => exact SameWorth.refl t
  | cons reservation rest ih =>
    unfold releaseAllExpired
    apply (ensures_releaseExpired reservation).bind
    · intro _ t₁ ht₁
      exact ih.mono (fun _ _ h => ht₁.trans h)
    · intro e t₁ ht₁
      exact ht₁

variable {α : Type}

theorem ensures_rowCalls {p : RowCalls α} {Q : Except BillingError α → CreditTables → Prop}
    (h : RowEnsures p t Q) : Ensures serveCredit CreditCall.fault (rowCalls p) t Q := by
  apply ensures_embed CreditCall.row (fun _ r => r) (fun _ => rfl) _ h
  intro c t
  refine ⟨?_, rfl⟩
  change (serveRow c t).1.map _ = (serveRow c t).1
  cases (serveRow c t).1 <;> rfl

theorem ensures_cleanup (now : ℤ) : Ensures serveCredit CreditCall.fault (cleanupExpiredReservations now) t
    (fun _ t' => SameWorth t t') := by
  have hexpired : Ensures serveCredit CreditCall.fault (ask (CreditCall.getExpiredReservations 100 now)) t
      (fun _ t' => t' = t) := ⟨rfl, rfl⟩
  unfold cleanupExpiredReservations
  apply hexpired.bind
  · rintro expired t' rfl
    exact (ensures_rowCalls (ensures_releaseAllExpired expired)).bind_pure _
  · rintro e t' rfl
    exact SameWorth.refl t'

def Request.credit (request : Request) (user : UserId) (result : Except BillingError Reply) : CreditBalance :=
  match request, result with
  | .applyCredits u amount, .ok _ => if user = u then .fromDecimal amount else .zero
  | _, _ => .zero

theorem ensures_uncredited {request : Request} (hzero : ∀ user r, request.credit user r = .zero)
    (h : Ensures serveCredit CreditCall.fault request.calls t (fun _ t' => SameWorth t t')) :
    Ensures serveCredit CreditCall.fault request.calls t
      (fun r t' => ∀ user, t'.worth user = t.worth user + (request.credit user r).micros) := by
  apply h.mono
  intro r t' hsame user
  rw [hzero, hsame user]
  exact (add_zero _).symm

theorem ensures_request (request : Request) : Ensures serveCredit CreditCall.fault request.calls t
    (fun r t' => ∀ user, t'.worth user = t.worth user + (request.credit user r).micros) := by
  have hread (user : UserId) : RowEnsures (getOrCreateAccount user) t
      (fun _ t' => SameWorth t t') := (ensures_getOrCreateAccount user).mono (fun _ _ h => h.1)
  cases request with
  | getBalance user =>
    apply ensures_uncredited (fun _ _ => rfl)
    apply Ensures.bind_pure
    apply ensures_rowCalls
    exact (hread user).bind_pure _
  | getAccount user =>
    apply ensures_uncredited (fun _ _ => rfl)
    apply Ensures.bind_pure
    exact ensures_rowCalls (hread user)
  | applyCredits user amount =>
    apply ensures_rowCalls
    apply (ensures_applyCredits user (.fromDecimal amount)).bind
    · intro balance t' ht' u
      change t'.worth u = t.worth u + (if u = user then CreditBalance.fromDecimal amount else .zero).micros
      rw [ht' u]
      by_cases hu : u = user
      · rw [if_pos ⟨hu, rfl⟩, if_pos hu]
      · rw [if_neg (fun h => hu h.1), if_neg hu]
        rfl
    · intro e t' ht' u
      rw [ht' u, if_neg (fun h => Bool.false_ne_true h.2)]
      rfl
  | reserveCredits id now user amount duration rentalId =>
    apply ensures_uncredited (fun _ _ => rfl)
    apply ensures_rowCalls
    exact (ensures_reserveCredits id now user _ duration rentalId).bind_pure _
  | releaseReservation id =>
    apply ensures_uncredited (fun _ _ => rfl)
    apply ensures_rowCalls
    exact (ensures_releaseReservation id).bind_pure _
  | chargeCredits user amount =>
    apply ensures_uncredited (fun _ _ => rfl)
    apply ensures_rowCalls
    exact (ensures_chargeCredits user _).bind_pure _
  | chargeFromReservation id actualAmount =>
    apply ensures_uncredited (fun _ _ => rfl)
    apply ensures_rowCalls
    exact (ensures_chargeFromReservation id _).bind_pure _
  | getReservation id =>
    apply ensures_uncredited (fun _ _ => rfl)
    apply Ensures.bind_pure
    apply ensures_rowCalls
    apply (ensures_getReservation id).bind
    · rintro found t' rfl
      cases found with
      | none | some reservation => exact SameWorth.refl t'
    · rintro e t' rfl
      exact SameWorth.refl t'
  | getActiveReservations user now =>
    apply ensures_uncredited (fun _ _ => rfl)
    apply Ensures.bind_pure
    exact ⟨SameWorth.refl t, SameWorth.refl t⟩
  | cleanupExpiredReservations now =>
    apply ensures_uncredited (fun _ _ => rfl)
    exact (ensures_cleanup now).bind_pure _

end Calls

structure Attempt where
  request : Request
  fails : ℕ → Bool

def Attempt.run (a : Attempt) (t : CreditTables) : Except BillingError Reply × CreditTables :=
  let outcome := Calls.run (faulty serveCredit CreditCall.fault) a.request.calls (t, a.fails)
  (outcome.1, outcome.2.1)

def Attempt.perform (a : Attempt) (t : CreditTables) : CreditTables := (a.run t).2

def appliedCredits (user : UserId) : List Attempt → CreditTables → ℚ
  | [], _ => 0
  | a :: attempts, t => (a.request.credit user (a.run t).1).asDecimal + appliedCredits user attempts (a.perform t)

theorem worth_perform (a : Attempt) (t : CreditTables) (user : UserId) :
    (a.perform t).worth user = t.worth user + (a.request.credit user (a.run t).1).micros :=
  (ensures_request a.request).run a.fails user

theorem worth_last (attempts : List Attempt) (t : CreditTables) (user : UserId) :
    ((last Attempt.perform attempts t).worth user : ℚ) / 10 ^ 6 =
      (t.worth user : ℚ) / 10 ^ 6 + appliedCredits user attempts t := by
  induction attempts generalizing t with
  | nil => exact (add_zero _).symm
  | cons a attempts ih =>
    change ((last Attempt.perform attempts (a.perform t)).worth user : ℚ) / 10 ^ 6 = _
    rw [ih, worth_perform, appliedCredits, CreditBalance.asDecimal]
    push_cast
    ring

theorem balance_add_spent_eq_applied (user : UserId) (start : CreditTables) (hnew : start.rowOf user = .zero)
    (attempts : List Attempt) :
    let row := (last Attempt.perform attempts start).rowOf user
    row.balance.asDecimal + row.lifetimeSpent.asDecimal = appliedCredits user attempts start := by
  intro row
  have hworth := worth_last attempts start user
  have hstart : start.worth user = 0 := by
    rw [worth, hnew]
    rfl
  rw [hstart, Int.cast_zero, zero_div, zero_add] at hworth
  rw [← hworth, worth, CreditBalance.asDecimal, CreditBalance.asDecimal]
  push_cast
  ring

def someFail : List Attempt :=
  [⟨.applyCredits "alice" (101234567 / 10 ^ 7), fun _ => false⟩, ⟨.chargeCredits "alice" (7 / 2), fun _ => false⟩,
    ⟨.applyCredits "alice" 5, fun n => n = 1⟩]

theorem balance_add_spent_someFail :
    let row := (last Attempt.perform someFail .empty).rowOf "alice"
    row.balance.asDecimal + row.lifetimeSpent.asDecimal = appliedCredits "alice" someFail .empty ∧
      appliedCredits "alice" someFail .empty = 10123457 / 10 ^ 6 :=
  ⟨balance_add_spent_eq_applied "alice" .empty rfl someFail, by decide +kernel⟩

end Basilica.Billing
