import Basilica.CreditHolds

/-!
Whether the balance of an account covers what is reserved on it.
-/

namespace Basilica.Billing

open AssocMaps AtomicCalls Calls StepRuns CreditTables List CreditOp

def CreditTables.room (t : CreditTables) (user : UserId) : ℤ :=
  (t.rowOf user).balance.micros - (t.rowOf user).reserved.micros

def Label.roomChange (t : CreditTables) (user : UserId) : Label → ℤ
  | .credited u amount => if user = u then amount.micros else 0
  | .charged u amount => if user = u then -amount.micros else 0
  | .held reservation => if user = reservation.userId then -reservation.amount.micros else 0
  | .settled id actual =>
    match t.active? id with
    | none => 0
    | some r => if user = r.userId then r.amount.micros - actual.micros else 0
  | _ => 0

section Moves

variable {t t' : CreditTables} {l : Label}

theorem Move.room (h : Move t l t') (hsound : Sound t) (hcovered : ∀ u, 0 ≤ t.slack u) (user : UserId) :
    t'.room user = t.room user + l.roomChange t user := by
  unfold CreditTables.room
  cases h with
  | opened user =>
    rw [rowOf_ensureAccount]
    exact (add_zero _).symm
  | credited hrow hbalance hreserved | charged hrow hbalance hreserved =>
    rw [rowOf_setAccount hrow]
    dsimp only [Label.roomChange]
    split_ifs with hu
    · rw [hu, rowOf_of_some hrow, hbalance, hreserved]
      ring
    · rw [add_zero]
  | @held reservation old row hnew hactive hrow hroom hbalance hreserved =>
    have hrow' : (t.addReservation reservation).credits.get? reservation.userId = some old := hrow
    rw [rowOf_setAccount hrow']
    dsimp only [Label.roomChange]
    split_ifs with hu
    · rw [hu, rowOf_of_some hrow, hbalance, hreserved]
      ring
    · rw [add_zero]
      rfl
  | @settled id r old row actual hr hactive hrow hbalance hreserved =>
    have hid : t.active? id = some r := active?_eq_some.mpr ⟨hr, hactive⟩
    have hrow' : (t.setReleased id true).credits.get? r.userId = some old := hrow
    rw [rowOf_setAccount hrow']
    dsimp only [Label.roomChange]
    rw [hid]
    dsimp only
    split_ifs with hu
    · rw [hu, rowOf_of_some hrow, hbalance, hreserved, release_reserved hsound hcovered hid hrow]
      ring
    · rw [add_zero]
      rfl
  | marked id | recorded events => exact (add_zero _).symm

def Label.Chargeless : Label → Prop
  | .credited _ amount => 0 ≤ amount.micros
  | .charged _ _ => False
  | .held reservation => 0 ≤ reservation.amount.micros
  | .settled _ actual => actual = .zero
  | _ => True

theorem Label.Chargeless.nonnegative (h : l.Chargeless) : l.Nonnegative := by
  cases l with
  | held reservation => exact h
  | _ => trivial

theorem Move.room_nonneg (h : Move t l t') (hl : l.Chargeless) (hsound : Sound t) (hcovered : ∀ u, 0 ≤ t.slack u)
    (hroom : ∀ u, 0 ≤ t.room u) (user : UserId) : 0 ≤ t'.room user := by
  rw [h.room hsound hcovered user]
  have huser := hroom user
  cases h with
  | opened user | marked id | recorded events => exact add_nonneg huser le_rfl
  | credited hrow hbalance hreserved =>
    apply add_nonneg huser
    dsimp only [Label.roomChange]
    split_ifs
    · exact hl
    · exact le_rfl
  | charged hrow hbalance hreserved => exact hl.elim
  | @held reservation old row hnew hactive hrow hfits hbalance hreserved =>
    dsimp only [Label.roomChange]
    split_ifs with hu
    · rw [CreditTables.room, hu, rowOf_of_some hrow] at huser ⊢
      omega
    · rwa [add_zero]
  | @settled id r old row actual hr hactive hrow hbalance hreserved =>
    apply add_nonneg huser
    dsimp only [Label.roomChange]
    rw [active?_eq_some.mpr ⟨hr, hactive⟩]
    dsimp only
    split_ifs
    · have hzero : actual.micros = 0 := congrArg CreditBalance.micros hl
      have hamount := hsound.amount_nonneg id r hr
      omega
    · exact le_rfl

theorem Moves.room_nonneg {ls : List Label} (h : Moves t ls t') (hls : ∀ l ∈ ls, l.Chargeless) (hsound : Sound t)
    (hcovered : ∀ u, 0 ≤ t.slack u) (hroom : ∀ u, 0 ≤ t.room u) : ∀ u, 0 ≤ t'.room u := by
  induction h with
  | nil t => exact hroom
  | @cons t t₁ t₂ l ls h hs ih =>
    have hl := hls l mem_cons_self
    apply ih
    · exact fun l hl => hls l (mem_cons_of_mem _ hl)
    · exact h.sound hl.nonnegative hsound
    · intro u
      rw [h.slack hsound hcovered u]
      exact add_nonneg (hcovered u) (l.leak_nonneg hsound u)
    · exact h.room_nonneg hl hsound hcovered hroom

end Moves

def CreditOp.SparesHolds (op : CreditOp) (t : CreditTables) : Prop :=
  match op with
  | .manager (.chargeCredits user amount) =>
    ∀ row ∈ t.affords? user amount, row.reserved.micros + amount.micros ≤ row.balance.micros
  | .deductCredits user amount =>
    ∀ row ∈ t.affords? user amount, row.reserved.micros + amount.micros ≤ row.balance.micros
  | .manager (.chargeFromReservation id actual) =>
    ∀ r ∈ t.active? id, ∀ row ∈ t.affords? r.userId actual,
      row.reserved.micros + actual.micros ≤ row.balance.micros + r.amount.micros
  | _ => True

instance : ∀ (op : CreditOp) (t : CreditTables), Decidable (op.SparesHolds t)
  | .manager (.applyCredits ..), _ => isTrue trivial
  | .manager (.reserveCredits ..), _ => isTrue trivial
  | .manager (.releaseReservation _), _ => isTrue trivial
  | .manager (.chargeCredits user amount), t => inferInstanceAs (Decidable (∀ row ∈ t.affords? user amount,
      row.reserved.micros + amount.micros ≤ row.balance.micros))
  | .manager (.chargeFromReservation id actual), t => inferInstanceAs (Decidable (∀ r ∈ t.active? id,
      ∀ row ∈ t.affords? r.userId actual, row.reserved.micros + actual.micros ≤ row.balance.micros + r.amount.micros))
  | .cleanupExpiredReservations _, _ => isTrue trivial
  | .repositoryReserve .., _ => isTrue trivial
  | .repositoryRelease _, _ => isTrue trivial
  | .deductCredits user amount, t => inferInstanceAs (Decidable (∀ row ∈ t.affords? user amount,
      row.reserved.micros + amount.micros ≤ row.balance.micros))

section Operations

variable {t t' : CreditTables} {user : UserId} {amount : CreditBalance} {row : CreditsRow}

theorem room_iff_of_change {change : ℤ} (hchange : ∀ u, t'.room u = t.room u + if u = user then change else 0)
    (hroom : ∀ u, 0 ≤ t.room u) (hrow : t.credits.get? user = some row) :
    (∀ u, 0 ≤ t'.room u) ↔ row.reserved.micros ≤ row.balance.micros + change := by
  constructor
  · intro hafter
    have huser := hafter user
    rw [hchange user, CreditTables.room, rowOf_of_some hrow, if_pos rfl] at huser
    omega
  · intro hle u
    rw [hchange u]
    split_ifs with hu
    · rw [CreditTables.room, hu, rowOf_of_some hrow]
      omega
    · rw [add_zero]
      exact hroom u

section Covered

variable (hsound : Sound t) (hcovered : ∀ u, 0 ≤ t.slack u) (hroom : ∀ u, 0 ≤ t.room u)

include hsound hcovered hroom

theorem charged_room_iff (h : Move t (.charged user amount) t') (hrow : t.credits.get? user = some row) :
    (∀ u, 0 ≤ t'.room u) ↔ row.reserved.micros + amount.micros ≤ row.balance.micros := by
  rw [room_iff_of_change (h.room hsound hcovered) hroom hrow]
  omega

theorem settled_room_iff {id : ReservationId} {r : ReservationRow} (h : Move t (.settled id amount) t')
    (hid : t.active? id = some r) (hrow : t.credits.get? r.userId = some row) :
    (∀ u, 0 ≤ t'.room u) ↔ row.reserved.micros + amount.micros ≤ row.balance.micros + r.amount.micros := by
  have hchange (u : UserId) := h.room hsound hcovered u
  simp only [Label.roomChange, hid] at hchange
  rw [room_iff_of_change hchange hroom hrow]
  omega

theorem unmoved_room (h : Moves t [] t') : ∀ u, 0 ≤ t'.room u :=
  h.room_nonneg (by simp) hsound hcovered hroom

theorem chargeCredits_room_iff :
    let op := manager (.chargeCredits user amount)
    (∀ u, 0 ≤ (op.perform t).room u) ↔ op.SparesHolds t := by
  intro op
  have hmoves : Moves t (op.plan t) (op.perform t) := moves_chargeCredits
  dsimp only [op, CreditOp.SparesHolds]
  dsimp only [op, plan] at hmoves
  cases haffords : t.affords? user amount with
  | none =>
    rw [haffords] at hmoves
    exact iff_of_true (unmoved_room hsound hcovered hroom hmoves) (by simp)
  | some row =>
    rw [haffords] at hmoves
    obtain ⟨hrow, -⟩ := affords?_eq_some.mp haffords
    rw [charged_room_iff hsound hcovered hroom hmoves.of_single hrow]
    simp

theorem deductCredits_room_iff :
    let op := deductCredits user amount
    (∀ u, 0 ≤ (op.perform t).room u) ↔ op.SparesHolds t := by
  intro op
  have hmoves : Moves t (op.plan t) (op.perform t) := moves_deductCredits
  dsimp only [op, CreditOp.SparesHolds]
  dsimp only [op, plan] at hmoves
  cases haffords : t.affords? user amount with
  | none =>
    rw [haffords] at hmoves
    exact iff_of_true (unmoved_room hsound hcovered hroom hmoves) (by simp)
  | some row =>
    rw [haffords] at hmoves
    obtain ⟨hrow, -⟩ := affords?_eq_some.mp haffords
    generalize (deductCredits user amount).perform t = final at hmoves
    cases hmoves with
    | @cons _ t₁ _ _ _ hcharge hrecord =>
      cases hrecord.of_single
      have hiff := charged_room_iff hsound hcovered hroom hcharge hrow
      exact hiff.trans (by simp)

theorem chargeFromReservation_room_iff {id : ReservationId} :
    let op := manager (.chargeFromReservation id amount)
    (∀ u, 0 ≤ (op.perform t).room u) ↔ op.SparesHolds t := by
  intro op
  have hmoves : Moves t (op.plan t) (op.perform t) := moves_chargeFromReservation hsound
  dsimp only [op, CreditOp.SparesHolds]
  dsimp only [op, plan] at hmoves
  cases hid : t.active? id with
  | none =>
    rw [hid] at hmoves
    exact iff_of_true (unmoved_room hsound hcovered hroom hmoves) (by simp)
  | some r =>
    rw [hid] at hmoves
    dsimp only at hmoves
    cases haffords : t.affords? r.userId amount with
    | none =>
      rw [haffords] at hmoves
      refine iff_of_true (hmoves.room_nonneg ?_ hsound hcovered hroom) (by simp [haffords])
      intro l hl
      obtain rfl := mem_singleton.mp hl
      trivial
    | some row =>
      rw [haffords] at hmoves
      obtain ⟨hrow, -⟩ := affords?_eq_some.mp haffords
      rw [settled_room_iff hsound hcovered hroom hmoves.of_single hid hrow]
      simp [haffords]

end Covered

theorem room_perform_iff {op : CreditOp} (hop : 0 ≤ op.amount.micros) (hsound : Sound t)
    (hcovered : ∀ u, 0 ≤ t.slack u) (hroom : ∀ u, 0 ≤ t.room u) :
    (∀ u, 0 ≤ (op.perform t).room u) ↔ op.SparesHolds t := by
  have hchargeless (h : ∀ l ∈ op.plan t, l.Chargeless) : ∀ u, 0 ≤ (op.perform t).room u :=
    (moves_perform hsound hop).room_nonneg h hsound hcovered hroom
  cases op with
  | manager op =>
    cases op with
    | chargeCredits user amount => exact chargeCredits_room_iff hsound hcovered hroom
    | chargeFromReservation id actual => exact chargeFromReservation_room_iff hsound hcovered hroom
    | applyCredits user amount =>
      have hamount : 0 ≤ amount.micros := hop
      refine iff_of_true (hchargeless ?_) trivial
      simpa [plan, Label.Chargeless] using hamount
    | reserveCredits id now user amount duration rentalId =>
      have hamount : 0 ≤ amount.micros := hop
      refine iff_of_true (hchargeless ?_) trivial
      dsimp only [plan]
      split_ifs
      · simpa [Label.Chargeless, Reservation.made] using hamount
      · simp [Label.Chargeless]
    | releaseReservation id =>
      refine iff_of_true (hchargeless ?_) trivial
      dsimp only [plan]
      split <;> simp [Label.Chargeless]
  | cleanupExpiredReservations now =>
    refine iff_of_true (hchargeless ?_) trivial
    intro l hl
    obtain ⟨r, -, rfl⟩ := mem_map.mp hl
    rfl
  | repositoryReserve id now user amount rentalId =>
    have hamount : 0 ≤ amount.micros := hop
    refine iff_of_true (hchargeless ?_) trivial
    dsimp only [plan]
    split
    · simp
    · split_ifs
      · simpa [Label.Chargeless, Reservation.made] using hamount
      · simp
  | repositoryRelease id =>
    refine iff_of_true (hchargeless ?_) trivial
    simp [plan, Label.Chargeless]
  | deductCredits user amount => exact deductCredits_room_iff hsound hcovered hroom

end Operations

structure Backed (t : CreditTables) : Prop where
  reserved_le : ∀ user row, t.credits.get? user = some row → row.reserved.micros ≤ row.balance.micros
  chargeable : ∀ id r actual, t.active? id = some r → 0 ≤ actual.micros → actual.micros ≤ r.amount.micros →
    ∃ balance, (run serveRow (CreditManager.chargeFromReservation id actual) t).1 = .ok balance

theorem backed_iff {t : CreditTables} (hsound : Sound t) (hcovered : ∀ u, 0 ≤ t.slack u) :
    Backed t ↔ ∀ u, 0 ≤ t.room u := by
  constructor
  · intro h u
    unfold room
    cases hrow : t.credits.get? u with
    | none =>
      rw [rowOf, hrow]
      exact le_rfl
    | some row =>
      rw [rowOf_of_some hrow]
      exact sub_nonneg.mpr (h.reserved_le u row hrow)
  · intro h
    have hreserved : ∀ user row, t.credits.get? user = some row → row.reserved.micros ≤ row.balance.micros := by
      intro user row hrow
      have hroom := h user
      rw [room, rowOf_of_some hrow] at hroom
      omega
    refine ⟨hreserved, ?_⟩
    intro id r actual hid hnonneg hle
    obtain ⟨hr, hactive⟩ := active?_eq_some.mp hid
    obtain ⟨row, hrow⟩ := hsound.owned id r hr
    have hamount := amount_le_held hsound hid
    have hslack := hcovered r.userId
    rw [slack, rowOf_of_some hrow] at hslack
    have hbalance := hreserved r.userId row hrow
    have henough : actual.micros ≤ row.balance.micros := by omega
    refine ⟨(row.deduct actual henough).balance, ?_⟩
    rw [CreditManager.run_chargeFromReservation, CreditManager.ended, hr]
    simp only [hactive, Bool.false_eq_true, ↓reduceIte, hrow, henough, ↓reduceDIte]

theorem backed_throughout_iff (ops : List CreditOp) (hops : ∀ op ∈ ops, 0 ≤ op.amount.micros) :
    Throughout CreditOp.perform Backed ops .empty ↔ EachStep CreditOp.perform CreditOp.SparesHolds ops .empty := by
  have hempty : Sound .empty ∧ ∀ u, 0 ≤ CreditTables.empty.slack u := ⟨sound_empty, fun _ => le_rfl⟩
  have hbacked : Backed .empty := (backed_iff hempty.1 hempty.2).mpr (fun _ => le_rfl)
  refine throughout_iff (I := fun t => Sound t ∧ ∀ u, 0 ≤ t.slack u) ?_ ?_ hops hempty hbacked
  · rintro op t hop ⟨hsound, hcovered⟩
    have hnonneg := plan_nonnegative (t := t) hop
    exact ⟨sound_perform hsound hop, (moves_perform hsound hop).covered hnonneg hsound hcovered⟩
  · rintro op t hop ⟨hsound, hcovered⟩ hbacked
    have hnonneg := plan_nonnegative (t := t) hop
    rw [backed_iff (sound_perform hsound hop) ((moves_perform hsound hop).covered hnonneg hsound hcovered)]
    exact room_perform_iff hop hsound hcovered ((backed_iff hsound hcovered).mp hbacked)

def holdThenCharge (amount : CreditBalance) : List CreditOp :=
  [.manager (.applyCredits "alice" ⟨10000000⟩), .manager (.reserveCredits 1 0 "alice" ⟨6000000⟩ (3600 * 10 ^ 9) none),
    .manager (.chargeCredits "alice" amount)]

theorem backed_throughout_holdThenCharge : Throughout CreditOp.perform Backed (holdThenCharge ⟨4000000⟩) .empty :=
  (backed_throughout_iff (holdThenCharge ⟨4000000⟩) (by decide)).mpr (by decide +kernel)

theorem charge_takes_reserved : (∀ op ∈ holdThenCharge ⟨7000000⟩, 0 ≤ op.amount.micros) ∧
      ¬ Throughout CreditOp.perform Backed (holdThenCharge ⟨7000000⟩) .empty ∧
      (run serveRow (CreditManager.chargeFromReservation 1 ⟨6000000⟩)
        (last CreditOp.perform (holdThenCharge ⟨7000000⟩) .empty)).1 = .error (.insufficientBalance 3 6) := by
  refine ⟨by decide, ?_, by decide +kernel⟩
  rintro ⟨-, -, -, h⟩
  let final := last perform (holdThenCharge ⟨7000000⟩) .empty
  have hcolumns : (final.credits.get? "alice").map (fun row => (row.reserved.micros, row.balance.micros)) =
      some (6000000, 3000000) := by decide +kernel
  obtain ⟨row, hrow, hmicros⟩ := Option.map_eq_some_iff.mp hcolumns
  have hle := h.reserved_le "alice" row hrow
  simp only [Prod.mk.injEq] at hmicros
  omega

end Basilica.Billing
