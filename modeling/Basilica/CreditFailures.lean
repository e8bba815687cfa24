import Basilica.CreditMoves

/-!
The credit manager when repository calls fail, each without an effect.
-/

namespace Basilica.Billing

open AssocMaps AtomicCalls Calls CreditTables Option CreditManager RowCall

def RowCall.fault : RowCall → BillingError
  | .getAccount _ => .databaseError "get_account"
  | .createAccount _ => .databaseError "create_account"
  | .updateAccount _ => .databaseError "update_account"
  | .createReservation _ => .databaseError "create_reservation"
  | .getReservation _ => .databaseError "get_reservation"
  | .updateReservation _ => .databaseError "update_reservation"

abbrev faultyRow := faulty serveRow RowCall.fault

section ChargeFromReservation

variable {t : CreditTables} {plan : ℕ → Bool}

def Retryable (t : CreditTables) (id : ReservationId) (outcome : Except BillingError CreditBalance × CreditTables) :
    Prop :=
  ∀ e, outcome.1 = .error e →
    (∀ r, t.active? id = some r → outcome.2.active? id = some r) ∧
      ∀ user, outcome.2.credits.get? user = t.credits.get? user

variable {id : ReservationId} {row : ReservationRow}

theorem retryable_marked_iff {t' : CreditTables}
    {r : Except BillingError CreditBalance} (hid : t.active? id = some row)
    (hmarked : t'.reservations = (t.setReleased id true).reservations) :
    Retryable t id (r, t') ↔ ∃ balance, r = .ok balance := by
  constructor
  · intro h
    cases r with
    | ok balance => exact ⟨balance, rfl⟩
    | error e =>
      have hactive := (h e rfl).1 row hid
      obtain ⟨hrow, hreleased⟩ := active?_eq_some.mp hactive
      rw [hmarked, reservations_setReleased, if_pos rfl] at hrow
      obtain ⟨old, -, rfl⟩ := map_eq_some_iff.mp hrow
      cases hreleased
  · rintro ⟨balance, rfl⟩ e he
    cases he

theorem run_faulty_takeReservation (hid : t.active? id = some row) (h0 : plan 0 = false) (h1 : plan 1 = false) :
    run faultyRow (takeReservation id) (t, plan) =
      run faultyRow (do
        let found ← getAccount row.userId
        let account ← ofOption (.userNotFound row.userId) found
        return (⟨row, id⟩, account)) (t.setReleased id true, fun n => plan (n + 2)) := by
  obtain ⟨hrow, hreleased⟩ := active?_eq_some.mp hid
  let marked : Reservation := ⟨{ row with released := true }, id⟩
  have hmarked : t.reservations.get? marked.id = some row := hrow
  have hfound : run faultyRow (getReservation id) (t, plan) = (.ok (some ⟨row, id⟩), (t, fun n => plan (n + 1))) := by
    apply run_faulty_false serveRow fault h0
    rw [run_ask]
    simp only [serveRow, reservation?, hrow, map_some]
  have hmark : run faultyRow (updateReservation marked) (t, fun n => plan (n + 1)) =
      (.ok (), (t.setReleased id true, fun n => plan (n + 2))) :=
    run_faulty_false serveRow fault h1 (run_updateReservation hmarked)
  unfold takeReservation
  rw [run_bind_ok faultyRow hfound, run_bind_ok faultyRow (run_ofOption_some faultyRow _ _ _), run_ite]
  rw [if_neg (Bool.not_eq_true _ ▸ hreleased), run_bind_ok faultyRow hmark]

theorem run_faulty_takeReservation_stops (h : t.active? id = none ∨ plan 0 = true ∨ plan 1 = true) :
    ∃ e plan', run faultyRow (takeReservation id) (t, plan) = (.error e, (t, plan')) := by
  unfold takeReservation
  cases h0 : plan 0 with
  | true =>
    have hfound : run faultyRow (getReservation id) (t, plan) =
        (.error (.databaseError "get_reservation"), (t, fun n => plan (n + 1))) :=
      run_faulty_true serveRow fault h0 _ _
    exact ⟨_, _, run_bind_error faultyRow hfound⟩
  | false =>
    have hfound : run faultyRow (getReservation id) (t, plan) = (.ok (t.reservation? id), (t, fun n => plan (n + 1))) :=
      run_faulty_false serveRow fault h0 (run_getReservation t id)
    rw [run_bind_ok faultyRow hfound, reservation?]
    cases hrow : t.reservations.get? id with
    | none => exact ⟨_, _, run_bind_error faultyRow (run_ofOption_none faultyRow _ _)⟩
    | some r =>
      rw [map_some, run_bind_ok faultyRow (run_ofOption_some faultyRow _ _ _), run_ite]
      split_ifs with hreleased
      · exact ⟨_, _, rfl⟩
      · have hactive : t.active? id = some r := active?_eq_some.mpr ⟨hrow, Bool.eq_false_iff.mpr hreleased⟩
        have h1 : plan 1 = true := by simpa [hactive, h0] using h
        let marked : Reservation := ⟨{ r with released := true }, id⟩
        have hmark : run faultyRow (updateReservation marked) (t, fun n => plan (n + 1)) =
            (.error (.databaseError "update_reservation"), (t, fun n => plan (n + 2))) :=
          run_faulty_true serveRow fault h1 _ _
        exact ⟨_, _, run_bind_error faultyRow hmark⟩

theorem chargeFromReservation_marked (hid : t.active? id = some row) (h0 : plan 0 = false) (h1 : plan 1 = false)
    (actual : CreditBalance) :
    let outcome := run faultyRow (chargeFromReservation id actual) (t, plan)
    outcome.2.1.reservations = (t.setReleased id true).reservations ∧
      ((∃ balance, outcome.1 = .ok balance) ↔
        plan 2 = false ∧ plan 3 = false ∧ ∃ account ∈ t.credits.get? row.userId, actual.micros ≤ account.balance.micros) := by
  have htake := run_faulty_takeReservation hid h0 h1
  let marked := t.setReleased id true
  unfold chargeFromReservation
  rw [run_bind, htake]
  cases h2 : plan 2 with
  | true =>
    have hget : run faultyRow (getAccount row.userId) (marked, fun n => plan (n + 2)) =
        (.error (.databaseError "get_account"), (marked, fun n => plan (n + 3))) :=
      run_faulty_true serveRow fault h2 _ _
    rw [run_bind_error faultyRow hget]
    simp [marked]
  | false =>
    have hget : run faultyRow (getAccount row.userId) (marked, fun n => plan (n + 2)) =
        (.ok (marked.account? row.userId), (marked, fun n => plan (n + 3))) :=
      run_faulty_false serveRow fault h2 (run_getAccount marked row.userId)
    rw [run_bind_ok faultyRow hget, account?, credits_setReleased]
    cases haccount : t.credits.get? row.userId with
    | none =>
      rw [map_none, run_bind_error faultyRow (run_ofOption_none faultyRow _ _)]
      simp [marked]
    | some account =>
      rw [map_some, run_bind_ok faultyRow (run_ofOption_some faultyRow _ _ _), run_pure]
      dsimp only
      rw [account.chargeFromReservation_account]
      by_cases hle : actual.micros ≤ account.balance.micros
      · let charged := (account.release row.amount).deduct actual hle
        rw [(account.release row.amount).charge_account row.userId hle,
          run_bind_ok faultyRow (run_ofExcept faultyRow _ _), run_bind_pure]
        have hexists : marked.credits.get? (charged.account row.userId).userId = some account := haccount
        have hstore := (run_updateAccount hexists).trans (store_eq (charged.row?_account row.userId) marked)
        cases h3 : plan 3 with
        | true =>
          have hupdate : run faultyRow (updateAccount (charged.account row.userId)) (marked, fun n => plan (n + 3)) =
              (.error (.databaseError "update_account"), (marked, fun n => plan (n + 4))) :=
            run_faulty_true serveRow fault h3 _ _
          rw [hupdate]
          simp [marked, Except.map]
        | false =>
          have hupdate : run faultyRow (updateAccount (charged.account row.userId)) (marked, fun n => plan (n + 3)) =
              (.ok (), (marked.setAccount row.userId charged, fun n => plan (n + 4))) :=
            run_faulty_false serveRow fault h3 hstore
          rw [hupdate]
          simp [marked, Except.map, hle]
      · rw [CreditAccount.charge_of_lt (not_le.mp hle), run_bind_error faultyRow (run_ofExcept faultyRow _ _)]
        simp [marked, hle]

theorem chargeFromReservation_retryable_iff (t : CreditTables) (id : ReservationId) (actual : CreditBalance)
    (plan : ℕ → Bool) :
    let outcome := run faultyRow (CreditManager.chargeFromReservation id actual) (t, plan)
    Retryable t id (outcome.1, outcome.2.1) ↔ ∀ r ∈ t.active? id, plan 0 = true ∨ plan 1 = true ∨
      (plan 2 = false ∧ plan 3 = false ∧
        ∃ account ∈ t.credits.get? r.userId, actual.micros ≤ account.balance.micros) := by
  intro outcome
  by_cases hstops : t.active? id = none ∨ plan 0 = true ∨ plan 1 = true
  · obtain ⟨e, plan', htake⟩ := run_faulty_takeReservation_stops hstops
    have houtcome : outcome = (.error e, (t, plan')) := by
      dsimp only [outcome]
      rw [chargeFromReservation, run_bind_error faultyRow htake]
    rw [houtcome]
    refine iff_of_true (fun _ _ => ⟨fun _ h => h, fun _ => rfl⟩) ?_
    intro r hr
    rcases hstops with hid | h0 | h1
    · rw [hid] at hr
      cases hr
    · exact Or.inl h0
    · exact Or.inr (Or.inl h1)
  · simp only [not_or, Bool.not_eq_true] at hstops
    obtain ⟨hid, h0, h1⟩ := hstops
    obtain ⟨r, hid⟩ := ne_none_iff_exists'.mp hid
    obtain ⟨hreservations, hok⟩ := chargeFromReservation_marked hid h0 h1 actual
    rw [retryable_marked_iff hid hreservations, hok, hid]
    simp [h0, h1]

end ChargeFromReservation

def heldByAlice : CreditTables :=
  (CreditTables.empty.ensureAccount "alice" ⟨⟨3000000⟩, ⟨2000000⟩, ⟨0⟩, by decide, by decide⟩).addReservation
    (.made 1 0 "alice" ⟨2000000⟩ (3600 * 10 ^ 9) none)

theorem failed_charge_loses_hold :
    let outcome := run faultyRow (CreditManager.chargeFromReservation 1 ⟨5000000⟩) (heldByAlice, fun _ => false)
    outcome.1 = .error (.insufficientBalance 3 5) ∧
      (outcome.2.1.credits.get? "alice").map (fun row => row.reserved.micros) = some 2000000 ∧
      ¬ Retryable heldByAlice 1 (outcome.1, outcome.2.1) := by
  intro outcome
  have herror : outcome.1 = .error (.insufficientBalance 3 5) := by decide +kernel
  refine ⟨herror, by decide +kernel, ?_⟩
  intro h
  have hactive : (heldByAlice.active? 1).isSome := by decide +kernel
  have hlost : outcome.2.1.active? 1 = none := by decide +kernel
  obtain ⟨r, hr⟩ := isSome_iff_exists.mp hactive
  have hkept := (h _ herror).1 r hr
  rw [hlost] at hkept
  cases hkept

end Basilica.Billing
