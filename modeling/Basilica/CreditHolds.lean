import Basilica.CreditMoves
import Basilica.StepRuns

/-!
The reserved balance of an account against the reservations of its user that are not marked released.
-/

namespace Basilica.Billing

open AssocMaps AtomicCalls Calls StepRuns List AssocMap CreditOp

variable {t : CreditTables} {id : ReservationId} {r : ReservationRow}

namespace CreditTables

def heldAmount (user : UserId) (r : ReservationRow) : ℤ :=
  if r.userId = user ∧ r.released = false then r.amount.micros else 0

def held (t : CreditTables) (user : UserId) : ℤ := t.reservations.total (fun _ r => heldAmount user r)

theorem held_addReservation {reservation : Reservation} (hnew : t.reservations.get? reservation.id = none)
    (hactive : reservation.released = false) (user : UserId) : (t.addReservation reservation).held user =
      t.held user + if reservation.userId = user then reservation.amount.micros else 0 := by
  rw [held, addReservation, total_insert hnew, ← held]
  simp only [heldAmount, hactive, and_true]

theorem held_setReleased (h : t.active? id = some r) (user : UserId) :
    (t.setReleased id true).held user = t.held user - if r.userId = user then r.amount.micros else 0 := by
  obtain ⟨hr, hactive⟩ := active?_eq_some.mp h
  rw [held, setReleased, total_modify hr, ← held]
  simp only [heldAmount, hactive, and_true, Bool.true_eq_false, and_false, ↓reduceIte, add_zero]

theorem held_setReleased_none (h : t.active? id = none) (user : UserId) :
    (t.setReleased id true).held user = t.held user := by
  cases hr : t.reservations.get? id with
  | none => simp only [held, setReleased, total, modify_of_none hr]
  | some r =>
    have hreleased : r.released = true := by
      rw [active?, hr] at h
      simpa using h
    rw [held, setReleased, total_modify hr, ← held]
    simp only [heldAmount, hreleased, Bool.true_eq_false, and_false, ↓reduceIte, add_zero, sub_zero]

theorem amount_le_held (hsound : Sound t) (h : t.active? id = some r) : r.amount.micros ≤ t.held r.userId := by
  obtain ⟨hr, hactive⟩ := active?_eq_some.mp h
  have hle : heldAmount r.userId r ≤ t.held r.userId := by
    apply le_total _ hr
    intro p hp
    dsimp only [heldAmount]
    split_ifs
    · exact hsound.amount_nonneg p.1 p.2 (get?_of_mem hp)
    · exact le_rfl
  rwa [heldAmount, if_pos ⟨rfl, hactive⟩] at hle

theorem held_of_no_account (hsound : Sound t) {user : UserId} (h : t.credits.get? user = none) : t.held user = 0 := by
  apply sum_eq_zero
  intro x hx
  obtain ⟨p, hp, rfl⟩ := mem_map.mp hx
  obtain ⟨row, hrow⟩ := hsound.owned p.1 p.2 (get?_of_mem hp)
  have hne : p.2.userId ≠ user := by
    rintro rfl
    rw [h] at hrow
    cases hrow
  exact if_neg (fun h => hne h.1)

@[simp] theorem held_setAccount (user u : UserId) (row : CreditsRow) : (t.setAccount user row).held u = t.held u := rfl

@[simp] theorem held_ensureAccount (user u : UserId) (row : CreditsRow) :
    (t.ensureAccount user row).held u = t.held u := rfl

def slack (t : CreditTables) (user : UserId) : ℤ := (t.rowOf user).reserved.micros - t.held user

end CreditTables

open CreditTables

def Label.leak (t : CreditTables) (user : UserId) : Label → ℤ
  | .marked id =>
    match t.active? id with
    | none => 0
    | some r => if r.userId = user then r.amount.micros else 0
  | _ => 0

theorem release_reserved (hsound : Sound t) (hcovered : ∀ u, 0 ≤ t.slack u)
    (hid : t.active? id = some r) {old : CreditsRow} (hrow : t.credits.get? r.userId = some old) :
    (old.release r.amount).reserved.micros = old.reserved.micros - r.amount.micros := by
  have hle : r.amount.micros ≤ old.reserved.micros := by
    have hslack := hcovered r.userId
    have hamount := amount_le_held hsound hid
    rw [CreditTables.slack, rowOf_of_some hrow] at hslack
    omega
  simp only [CreditsRow.release, CreditBalance.subtract_eq, if_pos hle, Option.getD_some]

theorem Move.slack {t' : CreditTables} {l : Label} (h : Move t l t') (hsound : Sound t)
    (hcovered : ∀ u, 0 ≤ t.slack u) (user : UserId) : t'.slack user = t.slack user + l.leak t user := by
  unfold CreditTables.slack
  cases h with
  | opened user =>
    rw [rowOf_ensureAccount, held_ensureAccount]
    exact (add_zero _).symm
  | credited hrow hbalance hreserved | charged hrow hbalance hreserved =>
    rw [rowOf_setAccount hrow, held_setAccount]
    dsimp only [Label.leak]
    rw [add_zero]
    split_ifs with hu
    · rw [hu, rowOf_of_some hrow, hreserved]
    · rfl
  | @held reservation old row hnew hactive hrow hroom hbalance hreserved =>
    have hrow' : (t.addReservation reservation).credits.get? reservation.userId = some old := hrow
    rw [rowOf_setAccount hrow', held_setAccount, held_addReservation hnew hactive]
    dsimp only [Label.leak]
    rw [add_zero]
    by_cases hu : user = reservation.userId
    · rw [if_pos hu, if_pos hu.symm, hu, rowOf_of_some hrow, hreserved]
      ring
    · rw [if_neg hu, if_neg (Ne.symm hu), add_zero]
      rfl
  | @settled id r old row actual hr hactive hrow hbalance hreserved =>
    have hid : t.active? id = some r := active?_eq_some.mpr ⟨hr, hactive⟩
    have hrow' : (t.setReleased id true).credits.get? r.userId = some old := hrow
    rw [rowOf_setAccount hrow', held_setAccount, held_setReleased hid]
    dsimp only [Label.leak]
    rw [add_zero]
    by_cases hu : user = r.userId
    · rw [if_pos hu, if_pos hu.symm, hu, rowOf_of_some hrow, hreserved, release_reserved hsound hcovered hid hrow]
      ring
    · rw [if_neg hu, if_neg (Ne.symm hu), sub_zero]
      rfl
  | marked id =>
    have hrow : (t.setReleased id true).rowOf user = t.rowOf user := rfl
    rw [hrow, Label.leak]
    cases hid : t.active? id with
    | none => rw [held_setReleased_none hid, add_zero]
    | some r =>
      rw [held_setReleased hid]
      ring
  | recorded events => exact (add_zero _).symm

theorem Label.leak_nonneg (hsound : Sound t) (l : Label) (user : UserId) : 0 ≤ l.leak t user := by
  cases l with
  | marked id =>
    rw [leak]
    cases hid : t.active? id with
    | none => exact le_rfl
    | some r =>
      dsimp only
      split_ifs
      · exact hsound.amount_nonneg id r (active?_eq_some.mp hid).1
      · exact le_rfl
  | _ => exact le_rfl

variable {ls : List Label}

theorem Moves.covered {t' : CreditTables} (h : Moves t ls t') (hls : ∀ l ∈ ls, l.Nonnegative)
    (hsound : Sound t) (hcovered : ∀ u, 0 ≤ t.slack u) : ∀ u, 0 ≤ t'.slack u := by
  induction h with
  | nil t => exact hcovered
  | cons h hs ih =>
    apply ih
    · exact fun l hl => hls l (mem_cons_of_mem _ hl)
    · exact h.sound (hls _ mem_cons_self) hsound
    · intro u
      rw [h.slack hsound hcovered u]
      exact add_nonneg (hcovered u) (Label.leak_nonneg hsound _ u)

def Reconciled (t : CreditTables) : Prop :=
  ∀ user row, t.credits.get? user = some row → row.reserved.micros = t.held user

theorem reconciled_iff (hsound : Sound t) : Reconciled t ↔ ∀ user, t.slack user = 0 := by
  constructor
  · intro h user
    unfold slack
    cases hrow : t.credits.get? user with
    | none =>
      rw [rowOf, hrow, held_of_no_account hsound hrow]
      rfl
    | some row => rw [rowOf_of_some hrow, h user row hrow, sub_self]
  · intro h user row hrow
    have hslack := h user
    rw [slack, rowOf_of_some hrow] at hslack
    omega

def CreditOp.KeepsHolds (op : CreditOp) (t : CreditTables) : Prop :=
  match op with
  | .repositoryRelease id => ∀ r ∈ t.active? id, r.amount.micros = 0
  | .manager (.chargeFromReservation id actual) =>
    ∀ r ∈ t.active? id, r.amount.micros = 0 ∨ ∃ row ∈ t.credits.get? r.userId, actual.micros ≤ row.balance.micros
  | _ => True

instance (op : CreditOp) (t : CreditTables) : Decidable (op.KeepsHolds t) := by
  unfold CreditOp.KeepsHolds
  split <;> infer_instance

section Reconciled

variable {t' : CreditTables}

theorem Moves.reconciled (h : Moves t ls t') (hls : ∀ l ∈ ls, l.Nonnegative)
    (hmarked : ∀ id, .marked id ∉ ls) (hsound : Sound t) (hslack : ∀ u, t.slack u = 0) : ∀ u, t'.slack u = 0 := by
  induction h with
  | nil t => exact hslack
  | @cons t t₁ t₂ l ls h hs ih =>
    apply ih
    · exact fun l hl => hls l (mem_cons_of_mem _ hl)
    · exact fun id hid => hmarked id (mem_cons_of_mem _ hid)
    · exact h.sound (hls _ mem_cons_self) hsound
    · intro u
      have hleak : l.leak t u = 0 := by
        cases l with
        | marked id => exact absurd mem_cons_self (hmarked id)
        | _ => rfl
      rw [h.slack hsound (fun u => (hslack u).ge) u, hslack u, hleak, add_zero]

theorem marked_reconciled_iff (hsound : Sound t) (hslack : ∀ u, t.slack u = 0) (id : ReservationId) :
    (∀ u, (t.setReleased id true).slack u = 0) ↔ ∀ r ∈ t.active? id, r.amount.micros = 0 := by
  have hmove (u : UserId) := (Move.marked id).slack hsound (fun u => (hslack u).ge) u
  constructor
  · intro h r hr
    have hleak := hmove r.userId
    rw [h, hslack, Label.leak, hr] at hleak
    simpa using hleak.symm
  · intro h u
    rw [hmove u, hslack u, zero_add, Label.leak]
    cases hr : t.active? id with
    | none => rfl
    | some r =>
      dsimp only
      rw [h r hr, ite_self]

theorem chargeFromReservation_reconciled_iff {actual : CreditBalance} (hsound : Sound t)
    (hslack : ∀ u, t.slack u = 0) :
    let op := manager (.chargeFromReservation id actual)
    (∀ u, (op.perform t).slack u = 0) ↔ op.KeepsHolds t := by
  intro op
  have hmoves : Moves t (op.plan t) (op.perform t) := moves_chargeFromReservation hsound
  dsimp only [op, CreditOp.KeepsHolds]
  dsimp only [op, plan] at hmoves
  cases hid : t.active? id with
  | none =>
    rw [hid] at hmoves
    exact iff_of_true (hmoves.reconciled (by simp) (by simp) hsound hslack) (by simp)
  | some r =>
    rw [hid] at hmoves
    dsimp only at hmoves
    cases haffords : t.affords? r.userId actual with
    | some row =>
      rw [haffords] at hmoves
      obtain ⟨hrow, hle⟩ := affords?_eq_some.mp haffords
      refine iff_of_true (hmoves.reconciled ?_ (by simp) hsound hslack) ?_
      · intro l hl
        obtain rfl := mem_singleton.mp hl
        trivial
      · intro r' hr'
        cases hr'
        exact Or.inr ⟨row, hrow, hle⟩
    | none =>
      rw [haffords] at hmoves
      have hmarked : (manager (.chargeFromReservation id actual)).perform t = t.setReleased id true := by
        generalize (manager (.chargeFromReservation id actual)).perform t = t' at hmoves
        cases hmoves.of_single
        rfl
      rw [hmarked, marked_reconciled_iff hsound hslack, hid]
      apply forall₂_congr
      intro r' hr'
      cases hr'
      have hshort : ¬ ∃ row ∈ t.credits.get? r.userId, actual.micros ≤ row.balance.micros := by
        rintro ⟨row, hrow, hle⟩
        rw [affords?_eq_some.mpr ⟨hrow, hle⟩] at haffords
        cases haffords
      exact (or_iff_left hshort).symm

theorem reconciled_perform_iff {op : CreditOp} (hop : 0 ≤ op.amount.micros) (hsound : Sound t)
    (hreconciled : Reconciled t) : Reconciled (op.perform t) ↔ op.KeepsHolds t := by
  have hslack := (reconciled_iff hsound).mp hreconciled
  have hmoves := moves_perform hsound hop
  have hnonneg := plan_nonnegative (t := t) hop
  have hunmarked (h : ∀ id, .marked id ∉ op.plan t) : ∀ u, (op.perform t).slack u = 0 :=
    hmoves.reconciled hnonneg h hsound hslack
  rw [reconciled_iff (sound_perform hsound hop)]
  cases op with
  | manager op =>
    cases op with
    | chargeFromReservation id actual =>
      exact chargeFromReservation_reconciled_iff hsound hslack
    | applyCredits user amount =>
      refine iff_of_true (hunmarked ?_) trivial
      simp [plan]
    | reserveCredits id now user amount duration rentalId =>
      refine iff_of_true (hunmarked ?_) trivial
      intro id
      dsimp only [plan]
      split_ifs <;> simp
    | releaseReservation id | chargeCredits user amount =>
      refine iff_of_true (hunmarked ?_) trivial
      intro id
      dsimp only [plan]
      split <;> simp
  | cleanupExpiredReservations now =>
    refine iff_of_true (hunmarked ?_) trivial
    intro id hid
    obtain ⟨r, -, hr⟩ := mem_map.mp hid
    cases hr
  | repositoryReserve id now user amount rentalId =>
    refine iff_of_true (hunmarked ?_) trivial
    intro id
    dsimp only [plan]
    split
    · simp
    · split_ifs <;> simp
  | repositoryRelease id => exact marked_reconciled_iff hsound hslack id
  | deductCredits user amount =>
    refine iff_of_true (hunmarked ?_) trivial
    intro id
    dsimp only [plan]
    split <;> simp

theorem reconciled_throughout_iff (ops : List CreditOp) (hops : ∀ op ∈ ops, 0 ≤ op.amount.micros) :
    Throughout CreditOp.perform Reconciled ops .empty ↔
      EachStep CreditOp.perform CreditOp.KeepsHolds ops .empty := by
  have hempty : Reconciled .empty := by
    intro user row h
    cases h
  refine throughout_iff ?_ ?_ hops sound_empty hempty
  · intro op t hop hsound
    exact sound_perform hsound hop
  · intro op t hop hsound hreconciled
    exact reconciled_perform_iff hop hsound hreconciled

def holdAndCharge : List CreditOp :=
  [.manager (.applyCredits "alice" ⟨10000000⟩), .manager (.reserveCredits 1 0 "alice" ⟨4000000⟩ (3600 * 10 ^ 9) none),
    .manager (.chargeFromReservation 1 ⟨3000000⟩)]

theorem reconciled_throughout_holdAndCharge : Throughout CreditOp.perform Reconciled holdAndCharge .empty :=
  (reconciled_throughout_iff holdAndCharge (by decide)).mpr (by decide +kernel)

def holdAndRelease : List CreditOp :=
  [.manager (.applyCredits "alice" ⟨10000000⟩), .repositoryReserve 1 0 "alice" ⟨4000000⟩ 7, .repositoryRelease 1]

theorem repository_release_not_reconciled :
    (∀ op ∈ holdAndRelease, 0 ≤ op.amount.micros) ∧ ¬ Throughout CreditOp.perform Reconciled holdAndRelease .empty := by
  refine ⟨by decide, ?_⟩
  rintro ⟨-, -, -, h⟩
  let final := last perform holdAndRelease .empty
  have hreserved : (final.credits.get? "alice").map (fun row => row.reserved.micros) = some 4000000 := by decide +kernel
  have hheld : final.held "alice" = 0 := by decide +kernel
  obtain ⟨row, hrow, hmicros⟩ := Option.map_eq_some_iff.mp hreserved
  have hequal : row.reserved.micros = final.held "alice" := h "alice" row hrow
  omega

end Reconciled

end Basilica.Billing
