import Basilica.CreditRepository
import Basilica.Tallies
import Basilica.Fleets

/-!
Calls of `deduct_credits` at the same time, interleaved statement by statement.
-/

namespace Basilica.Billing

open AssocMaps AtomicCalls Calls StepRuns SqlCreditRepository List Function

structure Deduction where
  user : UserId
  amount : CreditBalance
  positive : 0 < amount.micros

variable {t : CreditTables}

namespace CreditTables

def balanceOf (t : CreditTables) (user : UserId) : ℤ := ((t.credits.get? user).map (fun row => row.balance.micros)).getD 0

def deducted (t : CreditTables) (user : UserId) : ℤ :=
  ((t.billingEvents.filter (fun e => e.eventType = "credit_deduction" ∧ e.entityId = user)).map
    (fun e => (e.amount.map CreditBalance.micros).getD 0)).sum

variable {user : UserId}

theorem balanceOf_setAccount {row : CreditsRow} (h : t.credits.get? user = some row) (row' : CreditsRow) (v : UserId) :
    (t.setAccount user row').balanceOf v = if v = user then row'.balance.micros else t.balanceOf v := by
  unfold balanceOf
  rw [credits_setAccount]
  split_ifs with hv
  · rw [h]
    rfl
  · rfl

theorem exists_row_of_pos (h : 0 < t.balanceOf user) :
    ∃ row, t.credits.get? user = some row ∧ t.balanceOf user = row.balance.micros := by
  cases hrow : t.credits.get? user with
  | none => simp [balanceOf, hrow] at h
  | some row => exact ⟨row, rfl, by simp [balanceOf, hrow]⟩

theorem balanceOf_recordDeduction (t : CreditTables) (user : UserId) (amount : CreditBalance) (v : UserId) :
    (t.recordDeduction user amount).balanceOf v = t.balanceOf v := rfl

theorem deducted_recordDeduction (t : CreditTables) (user : UserId) (amount : CreditBalance) (v : UserId) :
    (t.recordDeduction user amount).deducted v = t.deducted v + if v = user then amount.micros else 0 := by
  unfold deducted recordDeduction
  rw [filter_append, map_append, sum_append]
  by_cases hv : v = user
  · simp [hv]
  · simp [hv, Ne.symm hv]

end CreditTables

structure Member where
  rest : CreditCalls Unit
  lowered : ℤ

structure Race (ι : Type) where
  db : CreditTables
  members : ι → Member

def Member.returned (m : Member) : Bool :=
  match m.rest with
  | done (.ok _) => true
  | _ => false

variable {ι : Type}

section Steps

variable [DecidableEq ι] (calls : ι → Deduction)

def Race.start (t : CreditTables) : Race ι := ⟨t, fun i => ⟨deductCredits (calls i).user (calls i).amount, 0⟩⟩

def Race.step (move : ι × Bool) (s : Race ι) : Race ι :=
  match (s.members move.1).rest with
  | done _ => s
  | call c next =>
    if move.2 then
      ⟨s.db, update s.members move.1
        ⟨next (.error (.databaseError "statement")), (s.members move.1).lowered⟩⟩
    else
      let (answer, db) := serveCredit c s.db
      ⟨db, update s.members move.1 ⟨next answer, (s.members move.1).lowered +
        (s.db.balanceOf (calls move.1).user - db.balanceOf (calls move.1).user)⟩⟩

def Race.undisturbed (move : ι × Bool) (s : Race ι) : Bool :=
  match (s.members move.1).rest with
  | call (.deductBalance user amount) _ => move.2 || decide (amount.micros ≤ s.db.balanceOf user)
  | call (.recordDeduction _ _) _ => !move.2
  | _ => true

variable [Fintype ι]

def Race.paid (s : Race ι) (user : UserId) : ℤ :=
  ∑ i, if (calls i).user = user ∧ (s.members i).returned then (calls i).amount.micros else 0

structure Race.Agrees (t : CreditTables) (s : Race ι) : Prop where
  returns : ∀ i r, (s.members i).rest = done r → (r = .ok () ↔ (s.members i).lowered = (calls i).amount.micros)
  totals : (∀ i, ∃ r, (s.members i).rest = done r) → ∀ user,
    s.paid calls user = t.balanceOf user - s.db.balanceOf user ∧ s.paid calls user = s.db.deducted user - t.deducted user

end Steps

variable {m : Member} {r : Except BillingError Unit} {d : Deduction}

section Stages

def Deduction.deducting (d : Deduction) : CreditCalls Unit := do
  let _ ← (ask (CreditCall.deductBalance d.user d.amount) : CreditCalls Unit)
  ask (CreditCall.recordDeduction d.user d.amount)

inductive CallStage (d : Deduction) : Member → Prop
  | reading : CallStage d ⟨deductCredits d.user d.amount, 0⟩
  | deducting : CallStage d ⟨d.deducting, 0⟩
  | recording : CallStage d ⟨ask (CreditCall.recordDeduction d.user d.amount), d.amount.micros⟩
  | returned : CallStage d ⟨done (.ok ()), d.amount.micros⟩
  | failed (e : BillingError) : CallStage d ⟨done (.error e), 0⟩

theorem deductCredits_reads (d : Deduction) :
    ∃ next, deductCredits d.user d.amount = call (.row (.getAccount d.user)) next ∧
      ∀ r, next r = d.deducting ∨ ∃ e, next r = done (.error e) := by
  refine ⟨_, rfl, ?_⟩
  rintro (e | found)
  · exact .inr ⟨e, rfl⟩
  · cases found with
    | none => exact .inr ⟨_, rfl⟩
    | some account =>
      by_cases h : account.balance.asDecimal < d.amount.asDecimal
      · exact .inr ⟨_, if_pos h⟩
      · exact .inl (if_neg h)

theorem CallStage.of_read {p : CreditCalls Unit} (h : p = d.deducting ∨ ∃ e, p = done (.error e)) :
    CallStage d ⟨p, 0⟩ := by
  rcases h with rfl | ⟨e, rfl⟩
  · exact .deducting
  · exact .failed e

theorem CallStage.returns (h : CallStage d m) (hr : m.rest = done r) :
    r = .ok () ↔ m.lowered = d.amount.micros := by
  have hpos := d.positive
  cases h with
  | reading | deducting | recording => cases hr
  | returned =>
    cases hr
    exact iff_of_true rfl rfl
  | failed e =>
    cases hr
    refine iff_of_false (fun h => by cases h) (fun h => ?_)
    dsimp only at h
    omega

end Stages

section Runs

variable [Fintype ι] {calls : ι → Deduction}

structure Race.Balanced (calls : ι → Deduction) (t : CreditTables) (s : Race ι) : Prop where
  stages : ∀ i, CallStage (calls i) (s.members i)
  balances : ∀ user, t.balanceOf user - s.db.balanceOf user =
    ∑ i, if (calls i).user = user then (s.members i).lowered else 0
  events : ∀ user, s.db.deducted user - t.deducted user = s.paid calls user

theorem balanced_start (calls : ι → Deduction) (t : CreditTables) : (Race.start calls t).Balanced calls t where
  stages _ := .reading
  balances user := by simp [Race.start]
  events user := by
    rw [Race.paid, Finset.sum_eq_zero]
    · exact sub_self _
    · intro i _
      exact if_neg (fun h => by cases h.2)

theorem CallStage.lowered_of_done (h : CallStage d m)
    (hr : m.rest = done r) : m.lowered = if m.returned then d.amount.micros else 0 := by
  cases h with
  | reading | deducting | recording => cases hr
  | returned | failed e => rfl

variable {s : Race ι}

theorem Race.Balanced.agrees (h : s.Balanced calls t) : s.Agrees calls t where
  returns i r hr := (h.stages i).returns hr
  totals hdone user := by
    have hpaid : s.paid calls user = ∑ i, if (calls i).user = user then (s.members i).lowered else 0 := by
      apply Finset.sum_congr rfl
      intro i _
      obtain ⟨r, hr⟩ := hdone i
      rw [(h.stages i).lowered_of_done hr]
      by_cases huser : (calls i).user = user
      all_goals simp [huser]
    exact ⟨hpaid.trans (h.balances user).symm, (h.events user).symm⟩

variable [DecidableEq ι]

theorem Race.Balanced.update (h : s.Balanced calls t) (i : ι) {db : CreditTables} (hstage : CallStage (calls i) m)
    (hbalance : ∀ user, s.db.balanceOf user - db.balanceOf user =
      if (calls i).user = user then m.lowered - (s.members i).lowered else 0)
    (hevents : ∀ user, db.deducted user - s.db.deducted user =
      (if (calls i).user = user ∧ m.returned then (calls i).amount.micros else 0) -
        if (calls i).user = user ∧ (s.members i).returned then (calls i).amount.micros else 0) :
    Race.Balanced calls t ⟨db, update s.members i m⟩ where
  stages j := by
    change CallStage (calls j) (Function.update s.members i m j)
    by_cases hj : j = i
    · subst hj
      rw [update_self]
      exact hstage
    · rw [update_of_ne hj]
      exact h.stages j
  balances user := by
    have hsum := FiniteTotals.sum_update_member
      (fun j (m : Member) => if (calls j).user = user then m.lowered else 0) s.members i m
    rw [hsum, ← h.balances user]
    have := hbalance user
    split_ifs at this ⊢ <;> dsimp only <;> omega
  events user := by
    have hsum := FiniteTotals.sum_update_member
      (fun j (m : Member) => if (calls j).user = user ∧ m.returned then (calls j).amount.micros else 0) s.members i m
    have hold := h.events user
    have hnew := hevents user
    unfold Race.paid at hold ⊢
    dsimp only at hsum ⊢
    rw [hsum, ← hold]
    omega

theorem Race.Balanced.update_member (h : s.Balanced calls t) (i : ι) (hstage : CallStage (calls i) m)
    (hlowered : m.lowered = (s.members i).lowered) (hreturned : m.returned = (s.members i).returned) :
    Race.Balanced calls t ⟨s.db, Function.update s.members i m⟩ := by
  apply h.update i hstage
  · intro user
    rw [hlowered, sub_self, sub_self, ite_self]
  · intro user
    rw [hreturned, sub_self, sub_self]

section Step

variable {i : ι} {c : CreditCall} {next : Except BillingError c.Answer → CreditCalls Unit} {lowered : ℤ}

omit [Fintype ι] in
theorem Race.step_refused (hm : s.members i = ⟨call c next, lowered⟩) : s.step calls (i, true) =
      ⟨s.db, update s.members i ⟨next (.error (.databaseError "statement")), lowered⟩⟩ := by
  simp only [Race.step, hm, ↓reduceIte]

omit [Fintype ι] in
theorem Race.step_served (hm : s.members i = ⟨call c next, lowered⟩) : s.step calls (i, false) =
      ⟨(serveCredit c s.db).2, update s.members i ⟨next (serveCredit c s.db).1, lowered +
        (s.db.balanceOf (calls i).user - (serveCredit c s.db).2.balanceOf (calls i).user)⟩⟩ := by
  simp only [Race.step, hm, Bool.false_eq_true, ↓reduceIte]

variable (h : s.Balanced calls t)

include h

theorem Race.Balanced.step_reading
    (hm : s.members i = ⟨deductCredits (calls i).user (calls i).amount, 0⟩) (refused : Bool) :
    (s.step calls (i, refused)).Balanced calls t := by
  obtain ⟨next, hprogram, hnext⟩ := deductCredits_reads (calls i)
  have hcall : s.members i = ⟨call (.row (.getAccount (calls i).user)) next, 0⟩ := by rw [hm, hprogram]
  have hreturned (p : CreditCalls Unit) (hp : p = (calls i).deducting ∨ ∃ e, p = done (.error e)) :
      (⟨p, 0⟩ : Member).returned = (s.members i).returned := by
    rw [hm]
    rcases hp with rfl | ⟨e, rfl⟩ <;> rfl
  cases refused with
  | true =>
    rw [Race.step_refused hcall]
    exact h.update_member i (CallStage.of_read (hnext _)) (by rw [hm]) (hreturned _ (hnext _))
  | false =>
    rw [Race.step_served hcall]
    have hsame : (serveCredit (.row (.getAccount (calls i).user)) s.db).2 = s.db := rfl
    rw [hsame, sub_self, add_zero]
    exact h.update_member i (CallStage.of_read (hnext _)) (by rw [hm]) (hreturned _ (hnext _))

theorem Race.Balanced.step_deducting (hm : s.members i = ⟨(calls i).deducting, 0⟩) (refused : Bool)
    (henough : refused = true ∨ (calls i).amount.micros ≤ s.db.balanceOf (calls i).user) :
    (s.step calls (i, refused)).Balanced calls t := by
  have hpos := (calls i).positive
  cases refused with
  | true =>
    rw [Race.step_refused hm]
    exact h.update_member i (.failed _) (by rw [hm]) (by rw [hm]; rfl)
  | false =>
    have hle : (calls i).amount.micros ≤ s.db.balanceOf (calls i).user := by simpa using henough
    obtain ⟨row, hrow, hbalance⟩ := CreditTables.exists_row_of_pos (lt_of_lt_of_le hpos hle)
    have hrow_le : (calls i).amount.micros ≤ row.balance.micros := hbalance ▸ hle
    have hserve := run_deductBalance hrow hrow_le
    rw [run_ask] at hserve
    have hafter := CreditTables.balanceOf_setAccount hrow (row.deduct (calls i).amount hrow_le)
    have hdrop : (row.deduct (calls i).amount hrow_le).balance.micros = row.balance.micros - (calls i).amount.micros := rfl
    rw [Race.step_served hm, hserve]
    rw [hafter, if_pos rfl, hdrop, hbalance, sub_sub_cancel, zero_add]
    apply h.update i .recording
    · intro user
      rw [hafter, hm]
      by_cases huser : user = (calls i).user
      · subst huser
        rw [if_pos rfl, if_pos rfl, hdrop, hbalance]
        ring
      · rw [if_neg huser, if_neg (Ne.symm huser), sub_self]
    · intro user
      have hbefore : (⟨(calls i).deducting, 0⟩ : Member).returned = false := rfl
      rw [hm, hbefore]
      change s.db.deducted user - s.db.deducted user = _
      simp [Member.returned, ask]

theorem Race.Balanced.step_recording
    (hm : s.members i = ⟨ask (CreditCall.recordDeduction (calls i).user (calls i).amount), (calls i).amount.micros⟩) :
    (s.step calls (i, false)).Balanced calls t := by
  rw [Race.step_served hm]
  have hserve : serveCredit (.recordDeduction (calls i).user (calls i).amount) s.db =
      (.ok (), s.db.recordDeduction (calls i).user (calls i).amount) := rfl
  rw [hserve]
  rw [CreditTables.balanceOf_recordDeduction, sub_self, add_zero]
  apply h.update i .returned
  · intro user
    rw [CreditTables.balanceOf_recordDeduction, hm]
    simp
  · intro user
    rw [CreditTables.deducted_recordDeduction, hm]
    simp only [Member.returned, ask, eq_comm, and_true, Bool.false_eq_true, and_false, ↓reduceIte, sub_zero,
      add_sub_cancel_left]

end Step

theorem Race.Balanced.step (h : s.Balanced calls t) (move : ι × Bool) (hok : s.undisturbed move) :
    (s.step calls move).Balanced calls t := by
  obtain ⟨i, refused⟩ := move
  have hstage := h.stages i
  unfold Race.undisturbed at hok
  generalize hm : s.members i = m at hstage hok
  cases hstage with
  | reading => exact h.step_reading hm refused
  | deducting =>
    change (refused || decide ((calls i).amount.micros ≤ s.db.balanceOf (calls i).user)) = true at hok
    exact h.step_deducting hm refused (by simpa using hok)
  | recording =>
    change (!refused) = true at hok
    obtain rfl : refused = false := by simpa using hok
    exact h.step_recording hm
  | returned | failed e =>
    have hstep : s.step calls (i, refused) = s := by simp only [Race.step, hm]
    rwa [hstep]

theorem deductions_agree (calls : ι → Deduction) (t : CreditTables) (moves : List (ι × Bool))
    (hundisturbed : EachStep (Race.step calls) (fun move s => s.undisturbed move) moves (Race.start calls t)) :
    Throughout (Race.step calls) (Race.Agrees calls t) moves (Race.start calls t) :=
  throughout_of_step (fun move _ h hok => h.step move hok) (fun _ h => h.agrees) (balanced_start calls t) hundisturbed

end Runs

def tenCredits : CreditTables :=
  CreditTables.empty.ensureAccount "alice" { CreditsRow.zero with balance := ⟨10000000⟩, positive_balance := by decide }

def sixEach : Fleets.Two → Deduction := fun _ => ⟨"alice", ⟨6000000⟩, by decide⟩

def fourEach : Fleets.Two → Deduction := fun _ => ⟨"alice", ⟨4000000⟩, by decide⟩

def bothRead : List (Fleets.Two × Bool) :=
  [(.first, false), (.second, false), (.first, false), (.second, false), (.first, false), (.second, false)]

theorem deductions_agree_four_each :
    Throughout (Race.step fourEach) (Race.Agrees fourEach tenCredits) bothRead (Race.start fourEach tenCredits) :=
  deductions_agree fourEach tenCredits bothRead (by decide +kernel)

theorem deduction_recorded_unpaid :
    let final := last (Race.step sixEach) bothRead (Race.start sixEach tenCredits)
    (∀ i, (final.members i).returned) ∧ (final.members .second).lowered = 0 ∧ final.db.balanceOf "alice" = 4000000 ∧
      final.db.deducted "alice" = 12000000 ∧ ¬ final.Agrees sixEach tenCredits := by
  intro final
  have hreturned : ∀ i, (final.members i).rest.result? = some (.ok ()) := by decide +kernel
  have hnothing : (final.members .second).lowered = 0 := by decide +kernel
  refine ⟨by decide +kernel, hnothing, by decide +kernel, by decide +kernel, ?_⟩
  intro h
  have hpaid := (h.returns .second _ (result?_eq_some.mp (hreturned .second))).mp rfl
  rw [hnothing] at hpaid
  cases hpaid

end Basilica.Billing
