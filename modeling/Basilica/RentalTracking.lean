import Basilica.BillingService
import Basilica.ColumnText

/-!
The handler that starts the billing of a rental. It writes the rental before it looks at the duration and at the
balance, and takes nothing back when a later step fails.
-/

namespace Basilica.Billing

open AssocMaps AtomicCalls Calls Decimals

structure TrackRequest where
  rentalId : String
  userId : UserId
  executorId : String
  validatorId : String
  hourlyRate : String
  gpuModels : List String
  maxDuration : Option ProtoDuration

structure TrackResponse where
  trackingId : RentalId
  reservationId : ReservationId
  estimatedCost : CreditBalance
deriving DecidableEq

inductive TrackCall
  | billing (c : Call)
  | createRental (rental : Rental) (gpuModels : List String)

abbrev TrackCall.Answer : TrackCall → Type
  | .billing c => c.Answer
  | .createRental _ _ => Unit

def Rental.newRow (rental : Rental) : RentalRow :=
  ⟨rental.userId, rental.executorId, if rental.validatorId = "" then none else some rental.validatorId,
    some rental.packageId, rental.state.toText, none, none, none⟩

def BillingTables.addRental (t : BillingTables) (rental : Rental) : BillingTables :=
  { t with rentals := t.rentals.insert rental.id rental.newRow }

/-- The columns of `billing.rentals` take the texts; `jsonb` takes no NUL in the GPU models. -/
def Rental.storable (rental : Rental) (gpuModels : List String) : Bool :=
  [rental.userId, rental.executorId, rental.validatorId].all (fitsColumn 255) &&
    gpuModels.all (fun model => model.toList.all (fun c => c ≠ Char.ofNat 0))

def serveTrack : Server TrackCall TrackCall.Answer BillingError BillingTables
  | .billing c, t => serve c t
  | .createRental rental gpuModels, t =>
    if rental.storable gpuModels = true ∧ t.rentals.get? rental.id = none then (.ok (), t.addRental rental)
    else (.error (.databaseError "create_rental"), t)

abbrev TrackCalls := Calls TrackCall TrackCall.Answer BillingError

def trackCalls {α : Type} (p : BillingCalls α) : TrackCalls α := p.embed TrackCall.billing (fun _ r => r)

namespace BillingService

def fromGpuModel (lower : String → String) (model : String) : PackageId :=
  if (Words.after? "h100".toList (lower model).toList).isSome then "h100"
  else if (Words.after? "h200".toList (lower model).toList).isSome then "h200"
  else "custom"

/-- `max_duration.num_hours() as u32` -/
def maxDurationHours (nanos : ℤ) : ℕ := (nanos.tdiv (3600 * 10 ^ 9) % 2 ^ 32).toNat

def estimatedCost (rate : ℚ) (nanos : ℤ) : CreditBalance :=
  (CreditBalance.fromDecimal rate).multiply (maxDurationHours nanos)

section Track

variable (parsers : Parsers) (lower : String → String) (id : RentalId) (reservation : ReservationId) (now : ℤ)
  (req : TrackRequest)

def trackArguments : Except Status ℚ := do
  let _ ← readId parsers "Invalid rental ID" req.rentalId
  readAmount parsers "Invalid hourly rate" req.hourlyRate

def trackPackage : PackageId :=
  match req.gpuModels with
  | [] => "custom"
  | model :: _ => fromGpuModel lower model

def trackedRental : Rental :=
  ⟨id, req.userId, req.executorId, req.validatorId, trackPackage lower req, none, .pending, none, .zero, none⟩

def startEvent (rate : ℚ) (nanos : ℤ) : UsageEvent :=
  ⟨id, req.userId, req.executorId, req.validatorId,
    .rentalStart (trackPackage lower req) rate (estimatedCost rate nanos) (maxDurationHours nanos)⟩

/-- The handler once the rental is written. -/
def trackCreated (rate : ℚ) :
    Calls TrackCall (fun c => Except BillingError c.Answer) (Option Status) TrackResponse := do
  let _ ← (trackCalls (RentalManager.getRental id)).mapError (fun e => some (.internal "Failed to get created rental" e))
  let duration ← ofOption (some ⟨.invalidArgument, "Max duration is required", none⟩) req.maxDuration
  let nanos ← ofOption none duration.toChrono?
  let reserved ← (trackCalls (managerCalls (CreditManager.reserveCredits reservation now req.userId
    (estimatedCost rate nanos) nanos (some id)))).mapError reserveError
  (trackCalls (appendUsageEvent (startEvent lower id req rate nanos))).mapError
    (fun e => some (.internal "Failed to store rental start event" e))
  return ⟨id, reserved, estimatedCost rate nanos⟩

/-- `id`, `reservation` and `now` are those the handler generates. -/
def trackRental : Calls TrackCall (fun c => Except BillingError c.Answer) (Option Status) TrackResponse := do
  let rate ← ofExcept ((trackArguments parsers req).mapError some)
  (ask (TrackCall.createRental (trackedRental lower id req) req.gpuModels) : TrackCalls Unit).mapError
    (fun e => some (.internal "Failed to create rental" e))
  trackCreated lower id reservation now req rate

variable {parsers lower id reservation now req} {t : BillingTables} {rate : ℚ}

theorem run_trackCalls {α : Type} (p : BillingCalls α) (t : BillingTables) :
    run serveTrack (trackCalls p) t = run serve p t := by
  have hembeds : Embeds TrackCall.billing (fun _ r => r) serve serveTrack (fun t => t) (fun _ t => t) :=
    ⟨fun _ => rfl, fun _ _ => rfl, fun _ _ _ => rfl, fun _ _ => congrFun Except.map_id _, fun _ _ => rfl⟩
  exact run_embed hembeds p t

def Reservable (c : CreditTables) (reservation : ReservationId) (user : UserId) (amount : CreditBalance) (expiry : ℤ) : Prop :=
  representable expiry ∧ amount.micros ≤ max ((c.rowOf user).balance.micros - (c.rowOf user).reserved.micros) 0 ∧
    0 ≤ (c.rowOf user).reserved.micros + amount.micros ∧ c.reservations.get? reservation = none

theorem run_reserveCredits_cases (c : CreditTables) (reservation : ReservationId) (now : ℤ) (user : UserId)
    (amount : CreditBalance) (duration : ℤ) (rentalId : Option RentalId) :
    let outcome := run serveRow (CreditManager.reserveCredits reservation now user amount duration rentalId) c
    (Reservable c reservation user amount (now + duration) ∧ outcome.1 = .ok reservation ∧
      ∃ row, outcome.2.reservations.get? reservation = some row ∧ row.amount = amount) ∨
      ¬ Reservable c reservation user amount (now + duration) ∧ ∃ e, outcome.1 = .error e := by
  have hcan : ((c.rowOf user).account user).canReserve amount ↔
      amount.micros ≤ max ((c.rowOf user).balance.micros - (c.rowOf user).reserved.micros) 0 :=
    CreditAccount.canReserve_iff
  rw [CreditManager.run_reserveCredits]
  dsimp only
  split_ifs with h hexpiry
  · cases hfree : c.reservations.get? reservation with
    | some old => exact Or.inr ⟨fun hreservable => Option.some_ne_none old (hfree.symm.trans hreservable.2.2.2), _, rfl⟩
    | none =>
      rw [CreditTables.store]
      cases hrow : ({ (c.rowOf user).account user with
          reserved := ((c.rowOf user).account user).reserved.add amount } : CreditAccount).row? with
      | none =>
        rw [CreditAccount.row?_eq_none] at hrow
        refine Or.inr ⟨fun hreservable => ?_, _, rfl⟩
        have hbalance := (c.rowOf user).positive_balance
        have hreserved := hreservable.2.2.1
        simp [CreditsRow.account] at hrow
        omega
      | some row =>
        obtain ⟨-, hreserved, -⟩ := CreditAccount.row?_eq_some.mp hrow
        have hpos := row.positive_reserved
        simp [hreserved, CreditsRow.account] at hpos
        let reservation := Reservation.made reservation now user amount duration rentalId
        refine Or.inl ⟨⟨hexpiry, hcan.mp h, hpos, hfree⟩, rfl, reservation.toReservationRow, ?_, rfl⟩
        exact (CreditTables.reservations_addReservation _ _ (r := reservation) hfree).trans (if_pos rfl)
  · exact Or.inr ⟨fun hreservable => hexpiry hreservable.1, _, rfl⟩
  · exact Or.inr ⟨fun hreservable => h (hcan.mpr hreservable.2.1), _, rfl⟩

def NoResidue (t t' : BillingTables) : Prop :=
  (∀ id, t.rentals.get? id = none → t'.rentals.get? id = none) ∧
    (∀ id row, t'.credit.reservations.get? id = some row → row.released = false →
      ∃ old, t.credit.reservations.get? id = some old ∧ old.released = false) ∧
    ∀ user, (t'.credit.rowOf user).reserved.micros ≤ (t.credit.rowOf user).reserved.micros

def FailsCleanly (t : BillingTables) (outcome : Except (Option Status) TrackResponse × BillingTables) : Prop :=
  ∀ e, outcome.1 = .error e → NoResidue t outcome.2

def Completes (lower : String → String) (id : RentalId) (reservation : ReservationId) (now : ℤ) (req : TrackRequest)
    (c : CreditTables) (rate : ℚ) : Prop :=
  ∃ duration nanos, req.maxDuration = some duration ∧ duration.toChrono? = some nanos ∧
    Reservable c reservation req.userId (estimatedCost rate nanos) (now + nanos) ∧
    (startEvent lower id req rate nanos).checkIds = .ok ()

def Reserves (c : CreditTables) (reservation : ReservationId) (req : TrackRequest) (rate : ℚ) : Prop :=
  ∃ duration nanos row, req.maxDuration = some duration ∧ duration.toChrono? = some nanos ∧
    c.reservations.get? reservation = some row ∧ row.amount = estimatedCost rate nanos

theorem run_trackCreated_cases {row : RentalRow} (hrow : t.rentals.get? id = some row) (lower : String → String)
    (reservation : ReservationId) (now : ℤ) (req : TrackRequest) (rate : ℚ) :
    let outcome := run (answering serveTrack) (trackCreated lower id reservation now req rate) t
    outcome.2.rentals = t.rentals ∧
      ((Completes lower id reservation now req t.credit rate ∧
          ∃ response, outcome.1 = .ok response ∧ Reserves outcome.2.credit response.reservationId req rate) ∨
        ¬ Completes lower id reservation now req t.credit rate ∧ ∃ e, outcome.1 = .error e) := by
  have hget : run serveTrack (trackCalls (RentalManager.getRental id)) t = (.ok (row.rental id), t) := by
    rw [run_trackCalls, RentalManager.getRental, run_findRental, hrow]
  unfold trackCreated
  rw [run_bind, run_mapError, hget]
  dsimp only [Except.mapError]
  cases hduration : req.maxDuration with
  | none => exact ⟨rfl, Or.inr ⟨by simp [Completes, hduration], _, rfl⟩⟩
  | some duration =>
    rw [run_bind_ok _ (run_ofOption_some _ _ _ _)]
    cases hnanos : duration.toChrono? with
    | none => exact ⟨rfl, Or.inr ⟨by simp [Completes, hduration, hnanos], _, rfl⟩⟩
    | some nanos =>
      have hcompletes : Completes lower id reservation now req t.credit rate ↔
          Reservable t.credit reservation req.userId (estimatedCost rate nanos) (now + nanos) ∧
            (startEvent lower id req rate nanos).checkIds = .ok () := by
        simp [Completes, hduration, hnanos]
      rw [run_bind_ok _ (run_ofOption_some _ _ _ _), run_bind, run_mapError, run_trackCalls, run_managerCalls]
      rcases run_reserveCredits_cases t.credit reservation now req.userId (estimatedCost rate nanos) nanos
        (some id) with ⟨hreservable, hok, hreserved⟩ | ⟨hnot, e, he⟩
      · rw [hok]
        dsimp only [Except.mapError]
        rw [run_bind, run_mapError, run_trackCalls, run_appendUsageEvent, hcompletes]
        cases hids : (startEvent lower id req rate nanos).checkIds with
        | error e => exact ⟨rfl, Or.inr ⟨by simp, _, rfl⟩⟩
        | ok _ =>
          obtain ⟨row, hrow, hamount⟩ := hreserved
          exact ⟨rfl, Or.inl ⟨⟨hreservable, rfl⟩, _, rfl, duration, nanos, row, hduration, hnanos, hrow, hamount⟩⟩
      · rw [he]
        exact ⟨rfl, Or.inr ⟨fun h => hnot (hcompletes.mp h).1, _, rfl⟩⟩

theorem run_trackRental_refused {σ : Type} {S : Server TrackCall TrackCall.Answer BillingError σ} {e : Status}
    (h : trackArguments parsers req = .error e) (s : σ) :
    run (answering S) (trackRental parsers lower id reservation now req) s = (.error (some e), s) := by
  rw [trackRental, h]
  rfl

theorem run_trackRental_accepted {σ : Type} {S : Server TrackCall TrackCall.Answer BillingError σ} (s : σ)
    (h : trackArguments parsers req = .ok rate) :
    run (answering S) (trackRental parsers lower id reservation now req) s =
      match S (.createRental (trackedRental lower id req) req.gpuModels) s with
      | (.ok (), s') => run (answering S) (trackCreated lower id reservation now req rate) s'
      | (.error e, s') => (.error (some (.internal "Failed to create rental" e)), s') := by
  rw [trackRental, h]
  change run (answering S) ((ask (TrackCall.createRental (trackedRental lower id req) req.gpuModels) : TrackCalls Unit).mapError _ >>= _) s = _
  rw [run_bind, run_mapError, run_ask]
  cases S (.createRental (trackedRental lower id req) req.gpuModels) s with
  | mk r s' => cases r <;> rfl

theorem NoResidue.refl (t : BillingTables) : NoResidue t t :=
  ⟨fun _ h => h, fun _ row h hreleased => ⟨row, h, hreleased⟩, fun _ => le_rfl⟩

theorem serveTrack_createRental (lower : String → String) (hstorable : (trackedRental lower id req).storable req.gpuModels = true)
    (hid : t.rentals.get? id = none) : serveTrack (.createRental (trackedRental lower id req) req.gpuModels) t =
      (.ok (), t.addRental (trackedRental lower id req)) :=
  if_pos ⟨hstorable, hid⟩

theorem serveTrack_createRental_refused (lower : String → String)
    (h : ¬ ((trackedRental lower id req).storable req.gpuModels = true ∧ t.rentals.get? id = none)) :
    serveTrack (.createRental (trackedRental lower id req) req.gpuModels) t = (.error (.databaseError "create_rental"), t) :=
  if_neg h

theorem rentals_addRental (lower : String → String) (req : TrackRequest) (h : t.rentals.get? id = none) :
    (t.addRental (trackedRental lower id req)).rentals.get? id = some (trackedRental lower id req).newRow := by
  exact (AssocMap.get?_insert h ..).trans (if_pos rfl)

theorem track_fails_cleanly_iff (parsers : Parsers) (lower : String → String) (id : RentalId)
    (reservation : ReservationId) (now : ℤ) (req : TrackRequest) (t : BillingTables) :
    (∀ fault plan, FailsCleanly t ((run (answering (faulty serveTrack fault))
        (trackRental parsers lower id reservation now req) (t, plan)).map (fun r => r) Prod.fst)) ↔
      (∃ e, trackArguments parsers req = .error e) ∨ (trackedRental lower id req).storable req.gpuModels = false ∨
        t.rentals.get? id ≠ none := by
  cases hargs : trackArguments parsers req with
  | error e =>
    refine iff_of_true ?_ (Or.inl ⟨e, rfl⟩)
    intro fault plan e' _
    rw [run_trackRental_refused hargs]
    exact .refl t
  | ok rate =>
    by_cases haccepted : (trackedRental lower id req).storable req.gpuModels = true ∧ t.rentals.get? id = none
    · obtain ⟨hstorable, hid⟩ := haccepted
      refine iff_of_false (fun h => ?_) (by simp [hstorable, hid])
      -- the rental is there when reading it again fails
      have hfault := h (fun _ => .databaseError "get_rental") (fun n => n == 1)
      rw [run_trackRental_accepted _ hargs, faulty, serveTrack_createRental lower hstorable hid,
        if_neg (show ¬ (0 == 1) = true by decide)] at hfault
      dsimp only at hfault
      rw [trackCreated, run_bind, run_mapError] at hfault
      have hnone := (hfault _ rfl).1 id hid
      exact Option.some_ne_none _ ((rentals_addRental lower req hid).symm.trans hnone)
    · refine iff_of_true ?_ (Or.inr ?_)
      · intro fault plan e _
        rw [run_trackRental_accepted _ hargs, faulty, serveTrack_createRental_refused lower haccepted]
        split_ifs <;> exact .refl t
      · rwa [not_and_or, Bool.not_eq_true] at haccepted

theorem estimatedCost_asDecimal (rate : ℚ) (nanos : ℤ) :
    (estimatedCost rate nanos).asDecimal = roundHalfEven (rate * 10 ^ 6) / 10 ^ 6 * maxDurationHours nanos := by
  have hround : ((roundHalfEven (rate * 10 ^ 6) : ℤ) : ℚ) * maxDurationHours nanos =
      ((roundHalfEven (rate * 10 ^ 6) * maxDurationHours nanos : ℤ) : ℚ) := by push_cast; rfl
  rw [estimatedCost, CreditBalance.multiply_eq, CreditBalance.fromDecimal, hround, roundHalfEven_intCast,
    CreditBalance.asDecimal]
  push_cast
  ring

theorem maxDurationHours_eq {nanos : ℤ} (h : 0 ≤ nanos) :
    (maxDurationHours nanos : ℤ) = ⌊(nanos : ℚ) / (3600 * 10 ^ 9)⌋ % 2 ^ 32 := by
  have hfloor : ⌊(nanos : ℚ) / (3600 * 10 ^ 9)⌋ = nanos / (3600 * 10 ^ 9) := by
    exact_mod_cast Rat.floor_intCast_div_natCast nanos (3600 * 10 ^ 9)
  rw [maxDurationHours, Int.tdiv_eq_ediv_of_nonneg h, hfloor]
  exact Int.toNat_of_nonneg (Int.emod_nonneg _ (by norm_num))

theorem reservation_covers_iff (parsers : Parsers) (lower : String → String) (id : RentalId)
    (reservation : ReservationId) (now : ℤ) (req : TrackRequest) (t : BillingTables) {rate : ℚ}
    {duration : ProtoDuration} {nanos : ℤ} {response : TrackResponse}
    (hargs : trackArguments parsers req = .ok rate) (hduration : req.maxDuration = some duration)
    (hnanos : duration.toChrono? = some nanos) (hpos : 0 ≤ nanos)
    (haccepted : (run (answering serveTrack) (trackRental parsers lower id reservation now req) t).1 = .ok response) :
    let hours := (nanos : ℚ) / (3600 * 10 ^ 9)
    let kept : ℤ := ⌊hours⌋ % 2 ^ 32
    ∃ row, (run (answering serveTrack) (trackRental parsers lower id reservation now req)
        t).2.credit.reservations.get? response.reservationId = some row ∧
      (rate * hours ≤ row.amount.asDecimal + 1 / 10 ^ 6 ↔
        rate * (hours - kept) + (rate - roundHalfEven (rate * 10 ^ 6) / 10 ^ 6) * kept ≤ 1 / 10 ^ 6) := by
  rw [run_trackRental_accepted _ hargs] at haccepted ⊢
  by_cases hcreated : (trackedRental lower id req).storable req.gpuModels = true ∧ t.rentals.get? id = none
  · obtain ⟨hstorable, hid⟩ := hcreated
    rw [serveTrack_createRental lower hstorable hid] at haccepted ⊢
    rcases (run_trackCreated_cases (rentals_addRental lower req hid) lower reservation now req rate).2 with
      ⟨-, response', hok, duration', nanos', row, hduration', hnanos', hrow, hamount⟩ | ⟨-, e, he⟩
    · cases hok.symm.trans haccepted
      cases hduration.symm.trans hduration'
      cases hnanos.symm.trans hnanos'
      refine ⟨row, hrow, ?_⟩
      have hkept : (maxDurationHours nanos : ℚ) = ((⌊(nanos : ℚ) / (3600 * 10 ^ 9)⌋ % 2 ^ 32 : ℤ) : ℚ) := by
        rw [← maxDurationHours_eq hpos]
        rfl
      rw [hamount, estimatedCost_asDecimal, hkept]
      constructor
      all_goals
        intro h
        linarith
    · cases he.symm.trans haccepted
  · rw [serveTrack_createRental_refused lower hcreated] at haccepted
    cases haccepted

end Track

def ninetyMinutes : TrackRequest :=
  ⟨"1", "alice", "executor", "validator", "2", ["H100"], some ⟨5400, 0⟩⟩

theorem ninetyMinutes_accepted :
    (run (answering serveTrack) (trackRental plainParsers (fun text => text) 2 1 0 ninetyMinutes)
      (oneRental .active)).1 = .ok ⟨2, 1, ⟨2000000⟩⟩ := by decide +kernel

theorem reservation_covers_iff_ninetyMinutes :
    ∃ row, (run (answering serveTrack) (trackRental plainParsers (fun text => text) 2 1 0 ninetyMinutes)
        (oneRental .active)).2.credit.reservations.get? 1 = some row ∧
      ((2 : ℚ) * (3 / 2) ≤ row.amount.asDecimal + 1 / 10 ^ 6 ↔ (2 : ℚ) * (1 / 2) ≤ 1 / 10 ^ 6) := by
  obtain ⟨row, hrow, hcovers⟩ := reservation_covers_iff plainParsers (fun text => text) 2 1 0 ninetyMinutes
    (oneRental .active) (show trackArguments _ _ = .ok 2 from rfl) rfl (show _ = some (5400 * 10 ^ 9) from rfl) (by norm_num) ninetyMinutes_accepted
  have hround : roundHalfEven 2000000 = 2000000 := by decide +kernel
  norm_num [hround] at hcovers
  exact ⟨row, hrow, by norm_num; exact hcovers⟩

theorem ninetyMinutes_not_covered :
    (run (answering serveTrack) (trackRental plainParsers (fun text => text) 2 1 0 ninetyMinutes)
        (oneRental .active)).2.credit.reservations.get? 1 = some ⟨"alice", some 2, ⟨2000000⟩, 0, 5400 * 10 ^ 9, false⟩ ∧
      ¬ (2 : ℚ) * (3 / 2) ≤ (⟨2000000⟩ : CreditBalance).asDecimal + 1 / 10 ^ 6 := by
  constructor
  · decide +kernel
  · norm_num [CreditBalance.asDecimal]

theorem track_leaves_rental : ¬ FailsCleanly (oneRental .active) (run (answering serveTrack)
      (trackRental plainParsers (fun text => text) 2 1 0 { ninetyMinutes with maxDuration := none }) (oneRental .active)) := by
  intro h
  have hnone := (h (some ⟨.invalidArgument, "Max duration is required", none⟩) (by decide +kernel)).1 2 rfl
  exact absurd hnone (by decide +kernel)

end BillingService

end Basilica.Billing
