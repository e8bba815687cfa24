import Basilica.DepositLedger

/-!
How often a row of the outbox raises the balance of its user.
-/

namespace Basilica.Payments

open AssocMaps AtomicCalls Calls Fleets StepRuns OutboxDispatcher Billing List Option Function PaymentState

variable {fault : Fault} {parsers : Parsers}

section Requests

def Fresh (user : UserId) : ServiceCalls CreditBalance → Prop
  | .done _ => True
  | .call c next =>
    ((∀ t, ¬ PaymentState.raises t (Billing.serve c t).2 user) ∧ ∀ answer, Fresh user (next (.ok answer))) ∨
      ((∀ t, PaymentState.raises t (Billing.serve c t).2 user → ∃ answer, (Billing.serve c t).1 = .ok answer) ∧
        (∀ answer, ∃ balance, next (.ok (.ok answer)) = done (.ok balance)) ∧
        ∀ e, ∃ status, next (.ok (.error e)) = done (.error status))

variable (t : BillingTables) (user : UserId)

theorem not_raises_self : ¬ raises t t user := lt_irrefl _

theorem not_raises_createAccount :
    ¬ raises t (Billing.serve (.credit (.row (.createAccount (.new user)))) t).2 user := by
  have hserve : (Billing.serve (.credit (.row (.createAccount (.new user)))) t).2 =
      t.setCredit (t.credit.ensureAccount user .zero) := by
    simp only [Billing.serve, serveCredit, serveRow, CreditAccount.row?_new]
    rfl
  unfold raises
  rw [hserve, BillingTables.credit_setCredit, CreditTables.rowOf_ensureAccount]
  exact lt_irrefl _

theorem answered_updateAccount (account : CreditAccount) (user : UserId)
    (h : raises t (Billing.serve (.credit (.row (.updateAccount account))) t).2 user) :
    ∃ answer, (Billing.serve (.credit (.row (.updateAccount account))) t).1 = .ok answer := by
  cases hold : t.credit.credits.get? account.userId with
  | none =>
    simp only [Billing.serve, serveCredit, serveRow, hold] at h
    exact absurd h (not_raises_self t user)
  | some old =>
    cases hrow : account.row? with
    | none =>
      simp only [Billing.serve, serveCredit, serveRow, hold, hrow] at h
      exact absurd h (not_raises_self t user)
    | some row =>
      refine ⟨(), ?_⟩
      simp only [Billing.serve, serveCredit, serveRow, hold, hrow]

section Calls

variable {user : UserId} {f : BillingError → Status}

theorem fresh_quiet {c : Call} {next : Except BillingError c.Answer → BillingCalls CreditBalance}
    (hquiet : ∀ t, ¬ raises t (Billing.serve c t).2 user) (hnext : ∀ answer, Fresh user (mapError f (next answer))) :
    Fresh user (mapError f (.call c next)) := by
  rw [mapError]
  exact Or.inl ⟨hquiet, hnext⟩

theorem fresh_updateAccount {account : CreditAccount} {next : Except BillingError Unit → BillingCalls CreditBalance}
    (hok : ∃ balance, next (.ok ()) = done (.ok balance)) (herror : ∀ e, next (.error e) = done (.error e)) :
    Fresh user (mapError f (.call (.credit (.row (.updateAccount account))) next)) := by
  rw [mapError]
  refine Or.inr ⟨fun t h => answered_updateAccount t account user h, ?_, ?_⟩
  · intro _
    obtain ⟨balance, hdone⟩ := hok
    refine ⟨balance, ?_⟩
    dsimp only
    rw [hdone]
    rfl
  · intro e
    refine ⟨f e, ?_⟩
    dsimp only
    rw [herror]
    rfl

end Calls

theorem fresh_applyCredits (credits : String) :
    Fresh user (BillingService.applyCredits parsers user credits) := by
  unfold BillingService.applyCredits
  cases hamount : BillingService.readAmount parsers "Invalid amount" credits with
  | error status => exact trivial
  | ok amount =>
    refine fresh_quiet (c := .credit (.row (.getAccount user))) (fun t => not_raises_self t user) ?_
    rintro (e | account | account)
    · exact trivial
    · refine fresh_quiet (c := .credit (.row (.createAccount (.new user)))) (fun t => not_raises_createAccount t user) ?_
      rintro (e | _)
      · exact trivial
      · refine fresh_quiet (c := .credit (.row (.getAccount user))) (fun t => not_raises_self t user) ?_
        rintro (e | account | account)
        · exact trivial
        · exact trivial
        · exact fresh_updateAccount ⟨_, rfl⟩ (fun _ => rfl)
    · exact fresh_updateAccount ⟨_, rfl⟩ (fun _ => rfl)

theorem fresh_or_done {user : UserId} {c : Call}
    {next : Except Status (Except BillingError c.Answer) → ServiceCalls CreditBalance} (h : Fresh user (.call c next))
    (hfault : fault ≠ .lost) (t : BillingTables) :
    (raises t (serveFault fault c t).2 user ∧
        ∃ balance, next (.ok (serveFault fault c t).1) = done (.ok balance)) ∨
      (¬ raises t (serveFault fault c t).2 user ∧
        Fresh user (next (.ok (serveFault fault c t).1))) := by
  have hlater : Fresh user (next (.ok (serveFault fault c t).1)) := by
    rcases h with ⟨-, hnext⟩ | ⟨-, hok, herror⟩
    · exact hnext _
    · cases (serveFault fault c t).1 with
      | ok answer =>
        obtain ⟨balance, hdone⟩ := hok answer
        rw [hdone]
        exact trivial
      | error e =>
        obtain ⟨status, hdone⟩ := herror e
        rw [hdone]
        exact trivial
  by_cases hraises : raises t (serveFault fault c t).2 user
  · refine Or.inl ⟨hraises, ?_⟩
    cases fault with
    | lost => exact absurd rfl hfault
    | refused => exact absurd hraises (not_raises_self t user)
    | none =>
      rcases h with ⟨hquiet, -⟩ | ⟨hanswer, hok, -⟩
      · exact absurd hraises (hquiet t)
      · obtain ⟨answer, hanswer⟩ := hanswer t hraises
        obtain ⟨balance, hdone⟩ := hok answer
        refine ⟨balance, ?_⟩
        change next (.ok (Billing.serve c t).1) = _
        rw [hanswer, hdone]
  · exact Or.inr ⟨hraises, hlater⟩

end Requests

def unfinished : DispatchCalls Unit → List OutboxId
  | .done _ => []
  | .call (.claimBatch _) _ => []
  | .call (.backoff id _) next => id :: unfinished (next (.ok ()))
  | .call (.taoToCredits _) next => unfinished (next (.error ""))
  | .call (.sendApplyCredits _ _ _) next => unfinished (next (.error ""))
  | .call (.awaitReply _) next => unfinished (next (.error ""))
  | .call (.markCredited _ _ _) next => unfinished (next (.error ""))

def isSettling : DispatchCalls Unit → Bool
  | .call (.awaitReply _) _ => true
  | .call (.markCredited _ _ _) _ => true
  | _ => false

theorem unfinished_dispatchRows (rows : List OutboxRow) : unfinished (dispatchRows rows) = rows.map OutboxRow.id := by
  induction rows with
  | nil => rfl
  | cons r rows ih => exact congrArg (cons r.id) ih

theorem unfinished_rest (stage : Stage) : unfinished stage.rest = stage.rows.map OutboxRow.id := by
  cases stage with
  | claiming | finished result => rfl
  | row r stage rows => cases stage <;> exact congrArg (cons r.id) (unfinished_dispatchRows rows)

variable {ι : Type}

def Unshared (s : PaymentFleet ι) (i : ι) (fault : Fault) : DispatchCalls Unit → Prop
  | .call (.claimBatch limit) _ => ∀ j, j ≠ i → ∀ q ∈ s.db.tables.claimable limit, q.1 ∉ unfinished (s.rest j)
  | .call (.sendApplyCredits _ _ _) _ => fault ≠ .lost
  | .call (.awaitReply _) _ => fault = .none
  | .call (.markCredited _ _ _) _ => fault ≠ .refused
  | _ => True

def Careful : Move ι Fault PaymentEvent → PaymentFleet ι → Prop
  | .answer i fault, s => Unshared s i fault (s.rest i)
  | .restart i, s => isSettling (s.rest i) = false
  | .world (.serve _ fault), _ => fault ≠ .lost
  | .world _, _ => True

def AppliedOnce (s : PaymentFleet ι) : Prop := s.db.raised.Nodup

def Outbox.Open (outbox : Outbox) (r : OutboxRow) : Prop :=
  ∃ entry, outbox.rows.get? r.id = some entry ∧ entry.transactionId = r.transactionId ∧ entry.dispatchedAt = none

namespace OutboxDispatcher

def Stage.pending : Stage → List OutboxRow
  | .row _ .retrying rows => rows
  | .row _ .failing rows => rows
  | .row r _ rows => r :: rows
  | _ => []

theorem Stage.pending_ofRows (l : List OutboxRow) : (Stage.ofRows l).pending = l := by
  cases l <;> rfl

theorem Stage.pending_subset_rows (stage : Stage) : stage.pending ⊆ stage.rows := by
  cases stage with
  | row r stage rows =>
    cases stage with
    | retrying | failing => exact subset_cons_self _ _
    | _ => exact List.Subset.refl _
  | _ => exact List.Subset.refl _

def RowStage.Applied (requests : List Request) : RowStage → Prop
  | .marking _ => True
  | .awaiting k => ∃ request, requests[k]? = some request ∧ ∃ balance, request.rest = done (.ok balance)
  | _ => False

def RowStage.isSettling : RowStage → Bool
  | .marking _ => true
  | .awaiting _ => true
  | _ => false

variable {requests : List Request} {stage : RowStage}

theorem RowStage.Applied.mono {requests' : List Request} (h : stage.Applied requests)
    (hkept : ∀ (k : ℕ) (request : Request) (balance : CreditBalance), requests[k]? = some request →
      request.rest = done (.ok balance) → requests'[k]? = some request) : stage.Applied requests' := by
  cases stage with
  | marking creditId => trivial
  | awaiting k =>
    obtain ⟨request, hrequest, balance, hdone⟩ := h
    exact ⟨request, hkept k request balance hrequest hdone, balance, hdone⟩
  | _ => cases h

theorem RowStage.Applied.isSettling (h : stage.Applied requests) : stage.isSettling = true := by
  cases stage with
  | marking creditId | awaiting k => rfl
  | _ => cases h

end OutboxDispatcher

def OutboxDispatcher.Stage.Unsent : Stage → Prop
  | .row _ (.awaiting _) _ => False
  | _ => True

variable {k : ℕ} {rows : List OutboxRow} {r : OutboxRow}

theorem OutboxDispatcher.Stage.Unsent.ne {stage : Stage} (h : stage.Unsent) :
    stage ≠ .row r (.awaiting k) rows := by
  rintro rfl
  exact h

theorem unsent_ofRows (l : List OutboxRow) : (Stage.ofRows l).Unsent := by
  cases l <;> trivial

structure Once (db : PaymentState) (stages : ι → Stage) : Prop where
  pending : ∀ i, ∀ r ∈ (stages i).pending, db.tables.outbox.Open r
  nodup : ∀ i, ((stages i).pending.map OutboxRow.id).Nodup
  disjoint : ∀ i j, i ≠ j → ∀ r ∈ (stages i).pending, ∀ r' ∈ (stages j).pending, r.id ≠ r'.id
  once : db.raised.Nodup
  covered : ∀ txid ∈ db.raised, ∃ id entry, db.tables.outbox.rows.get? id = some entry ∧ entry.transactionId = txid ∧
    (entry.dispatchedAt ≠ none ∨ ∃ i r stage rows, stages i = .row r stage rows ∧ r.id = id ∧ stage.Applied db.requests)
  unserved : ∀ (k : ℕ) request, db.requests[k]? = some request → (∀ result, request.rest ≠ done result) →
    Fresh request.userId request.rest ∧ ∃ i r rows, stages i = .row r (.awaiting k) rows ∧
      request.transactionId = r.transactionId ∧ r.transactionId ∉ db.raised
  awaited : ∀ i r (k : ℕ) rows, stages i = .row r (.awaiting k) rows →
    ∃ request, db.requests[k]? = some request ∧ request.transactionId = r.transactionId

variable {db : PaymentState} {stages : ι → Stage} {request : Request} {creditId : String}

namespace Once

variable {db' : PaymentState}

theorem tables (h : Once db stages) (hrequests : db'.requests = db.requests) (hraised : db'.raised = db.raised)
    (hrows : ∀ id entry, db.tables.outbox.rows.get? id = some entry → ∃ entry', db'.tables.outbox.rows.get? id = some entry' ∧
      entry'.transactionId = entry.transactionId ∧ entry'.dispatchedAt = entry.dispatchedAt) : Once db' stages := by
  constructor
  · intro i r hr
    obtain ⟨entry, hentry, htxid, hopen⟩ := h.pending i r hr
    obtain ⟨entry', hentry', htxid', hopen'⟩ := hrows r.id entry hentry
    exact ⟨entry', hentry', htxid'.trans htxid, hopen'.trans hopen⟩
  · exact h.nodup
  · exact h.disjoint
  · rw [hraised]
    exact h.once
  · rw [hraised, hrequests]
    intro txid htxid
    obtain ⟨id, entry, hentry, heq, hcover⟩ := h.covered txid htxid
    obtain ⟨entry', hentry', htxid', hopen'⟩ := hrows id entry hentry
    refine ⟨id, entry', hentry', htxid'.trans heq, ?_⟩
    rw [hopen']
    exact hcover
  · rw [hraised, hrequests]
    exact h.unserved
  · rw [hrequests]
    exact h.awaited

theorem eq_of_transactionId (h : Once db stages) {i j : ι} {r' : OutboxRow} (hr : r ∈ (stages i).pending)
    (hr' : r' ∈ (stages j).pending) (heq : r.transactionId = r'.transactionId) : i = j := by
  obtain ⟨entry, hentry, htxid, -⟩ := h.pending i r hr
  obtain ⟨entry', hentry', htxid', -⟩ := h.pending j r' hr'
  by_contra hij
  apply h.disjoint i j hij r hr r' hr'
  apply Outbox.eq_of_transactionId hentry hentry'
  rw [htxid, htxid', heq]

variable [DecidableEq ι] {i : ι} {stage : Stage}

theorem pending_update (hsub : stage.pending.Sublist (stages i).pending) (j : ι) :
    (update stages i stage j).pending.Sublist (stages j).pending := by
  by_cases hj : j = i
  · subst hj
    rw [update_self]
    exact hsub
  · rw [update_of_ne hj]

theorem awaiting_of_update (hnew : stage.Unsent) {j : ι}
    (hj : update stages i stage j = .row r (.awaiting k) rows) : stages j = .row r (.awaiting k) rows := by
  by_cases hji : j = i
  · subst hji
    rw [update_self] at hj
    exact absurd hj hnew.ne
  · rw [update_of_ne hji] at hj
    exact hj

theorem move (h : Once db stages) (hsub : stage.pending.Sublist (stages i).pending)
    (hkeep : ∀ r st rows, stages i = .row r st rows → st.Applied db.requests →
      ∃ st' rows', stage = .row r st' rows' ∧ st'.Applied db.requests)
    (hclosed : ∀ r k rows request, stages i = .row r (.awaiting k) rows → db.requests[k]? = some request →
      ∃ result, request.rest = done result)
    (hnew : stage.Unsent) : Once db (update stages i stage) := by
  have hsubs := pending_update hsub
  constructor
  · exact fun j r hr => h.pending j r ((hsubs j).subset hr)
  · exact fun j => (h.nodup j).sublist ((hsubs j).map _)
  · exact fun j k hjk r hr r' hr' => h.disjoint j k hjk r ((hsubs j).subset hr) r' ((hsubs k).subset hr')
  · exact h.once
  · intro txid htxid
    obtain ⟨id, entry, hentry, heq, hcover⟩ := h.covered txid htxid
    refine ⟨id, entry, hentry, heq, hcover.imp_right ?_⟩
    rintro ⟨j, r, st, rows, hj, hid, happlied⟩
    by_cases hji : j = i
    · subst hji
      obtain ⟨st', rows', hstage, happlied'⟩ := hkeep r st rows hj happlied
      refine ⟨j, r, st', rows', ?_, hid, happlied'⟩
      rw [update_self, hstage]
    · refine ⟨j, r, st, rows, ?_, hid, happlied⟩
      rw [update_of_ne hji, hj]
  · intro k request hrequest hopen
    obtain ⟨hfresh, j, r, rows, hj, htxid, hraised⟩ := h.unserved k request hrequest hopen
    refine ⟨hfresh, j, r, rows, ?_, htxid, hraised⟩
    have hji : j ≠ i := by
      rintro rfl
      obtain ⟨result, hdone⟩ := hclosed r k rows request hj hrequest
      exact hopen result hdone
    rw [update_of_ne hji, hj]
  · intro j r k rows hj
    exact h.awaited j r k rows (awaiting_of_update hnew hj)

theorem quiet (h : Once db stages) (hidle : ∀ r st rows, stages i = .row r st rows → st.isSettling = false)
    (hsub : stage.pending.Sublist (stages i).pending) (hnew : stage.Unsent) :
    Once db (update stages i stage) := by
  apply h.move hsub _ _ hnew
  · intro r st rows hstage happlied
    have hsettling := happlied.isSettling
    rw [hidle r st rows hstage] at hsettling
    cases hsettling
  · intro r k rows request hstage
    cases hidle r (.awaiting k) rows hstage

variable {st : RowStage}

theorem leave (h : Once db stages) (hstage : stages i = .row r st rows)
    (hidle : st.isSettling = false) (hsub : stage.pending.Sublist (Stage.row r st rows).pending)
    (hnew : stage.Unsent) : Once db (update stages i stage) := by
  apply h.quiet _ _ hnew
  · intro r' st' rows' hstage'
    rw [hstage] at hstage'
    cases hstage'
    exact hidle
  · rw [hstage]
    exact hsub

section

variable (h : Once db stages)

include h

theorem answered (hstage : stages i = .row r (.awaiting k) rows) (hrequest : db.requests[k]? = some request)
    {result : Except Status CreditBalance} (hdone : request.rest = done result) (hsub : stage.pending.Sublist (r :: rows))
    (hkeep : ∀ balance, result = .ok balance → ∃ st rows', stage = .row r st rows' ∧ st.Applied db.requests)
    (hnew : stage.Unsent) : Once db (update stages i stage) := by
  refine h.move ?_ ?_ ?_ hnew
  · rw [hstage]
    exact hsub
  · intro r' st rows' hrow happlied
    rw [hstage] at hrow
    cases hrow
    obtain ⟨request', hrequest', balance, hdone'⟩ := happlied
    rw [hrequest] at hrequest'
    cases hrequest'
    exact hkeep balance (done.inj (hdone.symm.trans hdone'))
  · intro r' k' rows' request' hrow hrequest'
    rw [hstage] at hrow
    cases hrow
    rw [hrequest] at hrequest'
    cases hrequest'
    exact ⟨result, hdone⟩

theorem claimed (hstage : stages i = .claiming)
    (hopen : ∀ r ∈ rows, db.tables.outbox.Open r) (hnodup : (rows.map OutboxRow.id).Nodup)
    (hfree : ∀ j, j ≠ i → ∀ r ∈ rows, ∀ r' ∈ (stages j).pending, r.id ≠ r'.id) :
    Once db (update stages i (.ofRows rows)) := by
  have hpending : ∀ j, (update stages i (.ofRows rows) j).pending = if j = i then rows else (stages j).pending := by
    intro j
    split_ifs with hj
    · subst hj
      rw [update_self, Stage.pending_ofRows]
    · rw [update_of_ne hj]
  have hother : ∀ {j r st rows'}, stages j = .row r st rows' → j ≠ i := by
    rintro j r st rows' hj rfl
    rw [hstage] at hj
    cases hj
  constructor
  · intro j r hr
    rw [hpending] at hr
    split_ifs at hr
    · exact hopen r hr
    · exact h.pending j r hr
  · intro j
    rw [hpending]
    split_ifs
    · exact hnodup
    · exact h.nodup j
  · intro j k hjk r hr r' hr'
    rw [hpending] at hr hr'
    split_ifs at hr hr' with hj hk hk
    · exact absurd (hj.trans hk.symm) hjk
    · exact hfree k hk r hr r' hr'
    · exact (hfree j hj r' hr' r hr).symm
    · exact h.disjoint j k hjk r hr r' hr'
  · exact h.once
  · intro txid htxid
    obtain ⟨id, entry, hentry, heq, hcover⟩ := h.covered txid htxid
    refine ⟨id, entry, hentry, heq, hcover.imp_right ?_⟩
    rintro ⟨j, r, st, rows', hj, hid, happlied⟩
    refine ⟨j, r, st, rows', ?_, hid, happlied⟩
    rw [update_of_ne (hother hj), hj]
  · intro k request hrequest hopen'
    obtain ⟨hfresh, j, r, rows', hj, htxid, hraised⟩ := h.unserved k request hrequest hopen'
    refine ⟨hfresh, j, r, rows', ?_, htxid, hraised⟩
    rw [update_of_ne (hother hj), hj]
  · intro j r k rows' hj
    exact h.awaited j r k rows' (awaiting_of_update (unsent_ofRows rows) hj)

theorem unraised
    (hstage : stages i = .row r st rows) (hpending : r ∈ (stages i).pending) (hidle : st.isSettling = false) :
    r.transactionId ∉ db.raised := by
  intro hraised
  obtain ⟨id, entry, hentry, htxid, hcover⟩ := h.covered _ hraised
  obtain ⟨own, hown, hownTx, hundispatched⟩ := h.pending i r hpending
  have hid := Outbox.eq_of_transactionId hentry hown (htxid.trans hownTx.symm)
  subst hid
  rw [hown] at hentry
  cases hentry
  rcases hcover with hdispatched | ⟨j, r', st', rows', hj, hid, happlied⟩
  · exact hdispatched hundispatched
  · by_cases hji : j = i
    · subst hji
      rw [hstage] at hj
      cases hj
      have hsettling := happlied.isSettling
      rw [hidle] at hsettling
      cases hsettling
    · apply h.disjoint j i hji r' _ r hpending hid
      rw [hj]
      cases st' with
      | marking creditId | awaiting k => exact mem_cons_self
      | _ => cases happlied

theorem sent {credits : String}
    (hstage : stages i = .row r (.sending credits) rows) (hrequest : request.transactionId = r.transactionId)
    (hfresh : Fresh request.userId request.rest) : Once { db with requests := db.requests ++ [request] }
      (update stages i (.row r (.awaiting db.requests.length) rows)) := by
  have hpending : ∀ j, (update stages i (.row r (.awaiting db.requests.length) rows) j).pending =
      (stages j).pending := by
    intro j
    by_cases hj : j = i
    · subst hj
      rw [update_self, hstage]
      rfl
    · rw [update_of_ne hj]
  have hmem : r ∈ (stages i).pending := by
    rw [hstage]
    exact mem_cons_self
  have hunraised := h.unraised hstage hmem rfl
  have hlater : ∀ {k : ℕ} {q}, db.requests[k]? = some q → (db.requests ++ [request])[k]? = some q := by
    intro k q hq
    rw [List.getElem?_append_left (List.getElem?_eq_some_iff.mp hq).1, hq]
  constructor
  · intro j r' hr'
    rw [hpending] at hr'
    exact h.pending j r' hr'
  · intro j
    rw [hpending]
    exact h.nodup j
  · intro j k hjk
    rw [hpending, hpending]
    exact h.disjoint j k hjk
  · exact h.once
  · intro txid htxid
    obtain ⟨id, entry, hentry, heq, hcover⟩ := h.covered txid htxid
    refine ⟨id, entry, hentry, heq, hcover.imp_right ?_⟩
    rintro ⟨j, r', st, rows', hj, hid, happlied⟩
    have hji : j ≠ i := by
      rintro rfl
      rw [hstage] at hj
      cases hj
      cases happlied
    refine ⟨j, r', st, rows', ?_, hid, ?_⟩
    · rw [update_of_ne hji, hj]
    · exact RowStage.Applied.mono happlied (fun _ _ _ hq _ => hlater hq)
  · intro k q hq hopen
    rcases lt_or_ge k db.requests.length with hk | hk
    · rw [getElem?_append_left hk] at hq
      obtain ⟨hq', j, r', rows', hj, htxid, hraised⟩ := h.unserved k q hq hopen
      refine ⟨hq', j, r', rows', ?_, htxid, hraised⟩
      have hji : j ≠ i := by
        rintro rfl
        rw [hstage] at hj
        cases hj
      rw [update_of_ne hji, hj]
    · rw [getElem?_append_right hk] at hq
      obtain ⟨hlt, hq⟩ := List.getElem?_eq_some_iff.mp hq
      have hk' : k = db.requests.length := by
        rw [length_singleton] at hlt
        omega
      subst hk'
      rw [getElem_singleton] at hq
      subst hq
      exact ⟨hfresh, i, r, rows, update_self .., hrequest, hunraised⟩
  · intro j r' k rows' hj
    by_cases hji : j = i
    · subst hji
      rw [update_self] at hj
      cases hj
      refine ⟨request, ?_, hrequest⟩
      exact getElem?_concat_length
    · rw [update_of_ne hji] at hj
      obtain ⟨q, hq, htxid⟩ := h.awaited j r' k rows' hj
      exact ⟨q, hlater hq, htxid⟩

theorem marked
    (hstage : stages i = .row r (.marking creditId) rows) (hrequests : db'.requests = db.requests)
    (hraised : db'.raised = db.raised)
    (hdone : ∃ entry, db'.tables.outbox.rows.get? r.id = some entry ∧ entry.transactionId = r.transactionId ∧
      entry.dispatchedAt ≠ none)
    (hrows : ∀ id, id ≠ r.id → db'.tables.outbox.rows.get? id = db.tables.outbox.rows.get? id)
    (hsub : stage.pending.Sublist rows) (hnew : stage.Unsent) : Once db' (update stages i stage) := by
  have hpending : (stages i).pending = r :: rows := by
    rw [hstage]
    rfl
  have hsubs : ∀ j, (update stages i stage j).pending.Sublist (stages j).pending := by
    apply pending_update
    rw [hpending]
    exact hsub.cons r
  -- no other pending row has the id of the marked one
  have hne : ∀ j, ∀ r' ∈ (update stages i stage j).pending, r'.id ≠ r.id := by
    intro j r' hr'
    by_cases hj : j = i
    · subst hj
      rw [update_self] at hr'
      have hnodup := h.nodup j
      rw [hpending, map_cons, nodup_cons] at hnodup
      intro hid
      exact hnodup.1 (mem_map.mpr ⟨r', hsub.subset hr', hid⟩)
    · apply h.disjoint j i hj r' ((hsubs j).subset hr') r
      rw [hpending]
      exact mem_cons_self
  have hother : ∀ {j r' k rows'}, stages j = .row r' (.awaiting k) rows' → j ≠ i := by
    rintro j r' k rows' hj rfl
    rw [hstage] at hj
    cases hj
  constructor
  · intro j r' hr'
    obtain ⟨entry, hentry, hopen⟩ := h.pending j r' ((hsubs j).subset hr')
    exact ⟨entry, (hrows r'.id (hne j r' hr')).trans hentry, hopen⟩
  · exact fun j => (h.nodup j).sublist ((hsubs j).map _)
  · exact fun j k hjk r' hr' r'' hr'' => h.disjoint j k hjk r' ((hsubs j).subset hr') r'' ((hsubs k).subset hr'')
  · rw [hraised]
    exact h.once
  · rw [hraised, hrequests]
    intro txid htxid
    obtain ⟨id, entry, hentry, heq, hcover⟩ := h.covered txid htxid
    by_cases hid : id = r.id
    · obtain ⟨entry', hentry', htxid', hdispatched⟩ := hdone
      obtain ⟨own, hown, hownTx, -⟩ := h.pending i r (by rw [hpending]; exact mem_cons_self)
      rw [hid, hown] at hentry
      cases hentry
      exact ⟨r.id, entry', hentry', htxid'.trans (hownTx.symm.trans heq), Or.inl hdispatched⟩
    · refine ⟨id, entry, (hrows id hid).trans hentry, heq, hcover.imp_right ?_⟩
      rintro ⟨j, r', st, rows', hj, hid', happlied⟩
      have hji : j ≠ i := by
        rintro rfl
        rw [hstage] at hj
        cases hj
        exact hid hid'.symm
      refine ⟨j, r', st, rows', ?_, hid', happlied⟩
      rw [update_of_ne hji, hj]
  · rw [hraised, hrequests]
    intro k request hrequest hopen
    obtain ⟨hfresh, j, r', rows', hj, htxid, hunraised⟩ := h.unserved k request hrequest hopen
    refine ⟨hfresh, j, r', rows', ?_, htxid, hunraised⟩
    rw [update_of_ne (hother hj), hj]
  · rw [hrequests]
    intro j r' k rows' hj
    exact h.awaited j r' k rows' (awaiting_of_update hnew hj)

end

end Once

theorem getElem?_set_cases {α : Type} {l : List α} {j : ℕ} {a b : α} (h : (l.set k a)[j]? = some b) :
    (j = k ∧ b = a) ∨ (j ≠ k ∧ l[j]? = some b) := by
  by_cases hj : j = k
  · subst hj
    rw [getElem?_set_self'] at h
    obtain ⟨_, -, hb⟩ := map_eq_some_iff.mp h
    exact Or.inl ⟨rfl, hb.symm⟩
  · rw [getElem?_set_ne (Ne.symm hj)] at h
    exact Or.inr ⟨hj, h⟩

theorem Once.served (h : Once db stages)
    (hrequest : db.requests[k]? = some request) (hopen : ∀ result, request.rest ≠ done result)
    {rest : ServiceCalls CreditBalance} {raised : Prop} [Decidable raised] {billing : BillingTables}
    (hrest : (raised ∧ ∃ balance, rest = done (.ok balance)) ∨ (¬ raised ∧ Fresh request.userId rest)) :
    Once { db with
      billing := billing
      requests := db.requests.set k { request with rest := rest }
      raised := if raised then db.raised ++ [request.transactionId] else db.raised } stages := by
  obtain ⟨-, i, r, rows, hstage, htxid, hunraised⟩ := h.unserved k request hrequest hopen
  have hlen : k < db.requests.length := (List.getElem?_eq_some_iff.mp hrequest).1
  have hself : (db.requests.set k { request with rest := rest })[k]? = some { request with rest := rest } := by
    rw [getElem?_set_self hlen]
  have hother : ∀ {j : ℕ}, j ≠ k → (db.requests.set k { request with rest := rest })[j]? = db.requests[j]? := by
    intro j hj
    rw [getElem?_set_ne (Ne.symm hj)]
  have hstill : ∀ {st : RowStage}, st.Applied db.requests → st.Applied (db.requests.set k { request with rest := rest }) := by
    intro st happlied
    apply RowStage.Applied.mono happlied
    intro j q balance hq hdone
    have hj : j ≠ k := by
      rintro rfl
      rw [hrequest] at hq
      cases hq
      exact hopen _ hdone
    exact (hother hj).trans hq
  have hpending : r ∈ (stages i).pending := by
    rw [hstage]
    exact mem_cons_self
  have hmem : ∀ {txid}, txid ∈ (if raised then db.raised ++ [request.transactionId] else db.raised) →
      txid ∈ db.raised ∨ (raised ∧ txid = r.transactionId) := by
    intro txid hin
    split_ifs at hin with hraised
    · rcases mem_append.mp hin with hin | hin
      · exact Or.inl hin
      · exact Or.inr ⟨hraised, (mem_singleton.mp hin).trans htxid⟩
    · exact Or.inl hin
  constructor
  · exact h.pending
  · exact h.nodup
  · exact h.disjoint
  · split_ifs
    · rw [← concat_eq_append, nodup_concat]
      exact ⟨htxid ▸ hunraised, h.once⟩
    · exact h.once
  · intro txid hin
    rcases hmem hin with hold | ⟨hraised, rfl⟩
    · obtain ⟨id, entry, hentry, heq, hcover⟩ := h.covered txid hold
      refine ⟨id, entry, hentry, heq, hcover.imp_right ?_⟩
      rintro ⟨j, r', st, rows', hj, hid, happlied⟩
      exact ⟨j, r', st, rows', hj, hid, hstill happlied⟩
    · obtain ⟨entry, hentry, hentryTx, -⟩ := h.pending i r hpending
      refine ⟨r.id, entry, hentry, hentryTx, Or.inr ⟨i, r, .awaiting k, rows, hstage, rfl, ?_⟩⟩
      rcases hrest with ⟨-, hdone⟩ | ⟨hnot, -⟩
      · exact ⟨_, hself, hdone⟩
      · exact absurd hraised hnot
  · intro j q hq hopen'
    rcases getElem?_set_cases hq with ⟨rfl, rfl⟩ | ⟨hj, hq'⟩
    · rcases hrest with ⟨-, balance, hdone⟩ | ⟨hnot, hfresh⟩
      · exact absurd hdone (hopen' _)
      · refine ⟨hfresh, i, r, rows, hstage, htxid, ?_⟩
        rw [if_neg hnot]
        exact hunraised
    · obtain ⟨hfresh, j', r', rows', hj', htxid', hunraised'⟩ := h.unserved j q hq' hopen'
      refine ⟨hfresh, j', r', rows', hj', htxid', ?_⟩
      intro hin
      rcases hmem hin with hold | ⟨-, heq⟩
      · exact hunraised' hold
      · -- two requests at work are for different rows
        have hpending' : r' ∈ (stages j').pending := by
          rw [hj']
          exact mem_cons_self
        obtain rfl := h.eq_of_transactionId hpending' hpending heq
        rw [hstage] at hj'
        cases hj'
        exact hj rfl
  · intro j r' k' rows' hj
    obtain ⟨q, hq, htxid'⟩ := h.awaited j r' k' rows' hj
    by_cases hk : k' = k
    · subst hk
      rw [hrequest] at hq
      cases hq
      exact ⟨_, hself, htxid'⟩
    · exact ⟨q, (hother hk).trans hq, htxid'⟩

section Runs

variable {chain : ℕ → ℕ → Transfer}

def Orderly (s : PaymentFleet ι) : Prop := ∃ stages : ι → Stage, (∀ i, s.rest i = (stages i).rest) ∧ Once s.db stages

theorem orderly_start (accounts : DepositAccounts) (billing : BillingTables) (now : ℤ) :
    Orderly (start (paymentSystem ι parsers chain) (.opening accounts billing now)) := by
  refine ⟨fun _ => .claiming, fun _ => rfl, ?_⟩
  constructor
  · intro i r hr
    cases hr
  · exact fun _ => nodup_nil
  · intro i j _ r hr
    cases hr
  · exact nodup_nil
  · intro txid htxid
    cases htxid
  · intro k request hrequest
    cases hrequest
  · intro i r k rows hstage
    cases hstage

variable (t : PaymentTables)

theorem rows_mark (target : OutboxId) (txid : TransactionId) (creditId : String) (id : OutboxId) :
    ((t.markDispatchedTx target).markCreditedTx txid creditId).outbox.rows.get? id =
      (t.outbox.rows.get? id).map (fun entry => if id = target then entry.dispatch t.now else entry) :=
  Outbox.get?_update _ _ _ (fun entry => entry.transactionId_dispatch t.now) id

theorem open_claimBatch {t : PaymentTables} {limit : ℕ} (h : r ∈ (t.claimBatch limit).1) : t.outbox.Open r := by
  obtain ⟨q, hq, rfl⟩ := mem_map.mp h
  obtain ⟨hentries, hclaimable⟩ := mem_filter.mp ((mem_insertionSort _).mp (mem_of_mem_take hq))
  exact ⟨q.2, AssocMap.get?_of_mem hentries, rfl, (of_decide_eq_true hclaimable).1⟩

theorem ids_claimBatch (limit : ℕ) : (t.claimBatch limit).1.map OutboxRow.id = (t.claimable limit).map Prod.fst := by
  unfold PaymentTables.claimBatch
  rw [List.map_map]
  rfl

theorem nodup_claimBatch (limit : ℕ) : ((t.claimBatch limit).1.map OutboxRow.id).Nodup := by
  rw [ids_claimBatch]
  unfold PaymentTables.claimable
  rw [map_take]
  apply List.Nodup.sublist (take_sublist _ _)
  apply ((perm_insertionSort _ _).map Prod.fst).nodup_iff.mpr
  exact t.outbox.rows.nodup.sublist (filter_sublist.map Prod.fst)

def isPlain : DispatchCall → Bool
  | .sendApplyCredits _ _ _ => false
  | .markCredited _ _ _ => false
  | _ => true

variable {s s' : PaymentState} {c : DispatchCall}

theorem once_answer {r : Except String c.Answer}
    (h : Once s stages) (hc : isPlain c = true) (hanswer : answer parsers c s = some (r, s')) :
    Once s' stages := by
  cases c with
  | claimBatch limit =>
    cases hanswer
    exact h.tables rfl rfl (fun _ _ hentry => Outbox.exists_update hentry (fun entry => entry.transactionId_claim _) ⟨rfl, rfl⟩ ⟨rfl, rfl⟩)
  | backoff id secs =>
    cases hanswer
    exact h.tables rfl rfl (fun _ _ hentry => Outbox.exists_update hentry (fun entry => entry.transactionId_postpone _) ⟨rfl, rfl⟩ ⟨rfl, rfl⟩)
  | taoToCredits amount =>
    simp only [answer] at hanswer
    split at hanswer
    all_goals
      cases hanswer
      exact h
  | awaitReply request =>
    simp only [answer, map_eq_some_iff] at hanswer
    obtain ⟨reply, -, heq⟩ := hanswer
    cases heq
    exact h
  | sendApplyCredits user credits txid | markCredited id txid creditId => cases hc

theorem once_desk {r : Except String c.Answer}
    (h : Once s stages) (hc : isPlain c = true) (hdesk : desk parsers fault c s = some (r, s')) :
    Once s' stages := by
  cases fault with
  | none => exact once_answer h hc hdesk
  | refused =>
    cases hdesk
    exact h
  | lost =>
    cases hdesk
    cases hanswer : answer parsers c s with
    | none => exact h
    | some answer => exact once_answer h hc hanswer

variable [DecidableEq ι] {i : ι}

theorem once_marked (h : Once s stages)
    (hstage : stages i = .row r (.marking creditId) rows) {stage : Stage}
    (hsub : stage.pending.Sublist rows) (hnew : stage.Unsent) :
    Once { s with tables := (s.tables.markDispatchedTx r.id).markCreditedTx r.transactionId creditId }
      (update stages i stage) := by
  have hpending : r ∈ (stages i).pending := by
    rw [hstage]
    exact mem_cons_self
  obtain ⟨entry, hentry, htxid, -⟩ := h.pending i r hpending
  refine h.marked hstage rfl rfl ?_ ?_ hsub hnew
  · refine ⟨entry.dispatch s.tables.now, ?_, htxid, fun hnone => some_ne_none _ hnone⟩
    rw [rows_mark, hentry, map_some, if_pos rfl]
  · intro id hid
    rw [rows_mark]
    cases s.tables.outbox.rows.get? id with
    | none => rfl
    | some other => rw [map_some, if_neg hid]

theorem reply_of_await {reply : Except String String}
    (h : desk parsers .none (.awaitReply k) s = some (reply, s')) :
    ∃ request, s.requests[k]? = some request ∧ request.reply? = some reply ∧ s' = s := by
  change ((s.requests[k]?).bind Request.reply?).map (fun reply => (reply, s)) = some (reply, s') at h
  obtain ⟨reply', hreply, heq⟩ := map_eq_some_iff.mp h
  cases heq
  obtain ⟨request, hrequest, hreply⟩ := bind_eq_some_iff.mp hreply
  exact ⟨request, hrequest, hreply, rfl⟩

theorem done_of_reply (h : request.reply? = some (.ok creditId)) : ∃ balance, request.rest = done (.ok balance) := by
  unfold Request.reply? at h
  split at h
  · rename_i balance hdone
    exact ⟨balance, hdone⟩
  all_goals cases h

theorem failed_of_reply {e : String} (h : request.reply? = some (.error e)) :
    ∃ status, request.rest = done (.error status) := by
  unfold Request.reply? at h
  split at h
  · cases h
  · rename_i status hdone
    exact ⟨status, hdone⟩
  · cases h

theorem rest_update {s : PaymentFleet ι} (h : ∀ i, s.rest i = (stages i).rest) (i : ι) (stage : Stage)
    (j : ι) : update s.rest i stage.rest j = (update stages i stage j).rest := by
  have hrest : s.rest = fun i => (stages i).rest := by
    funext i
    exact h i
  rw [hrest]
  exact (apply_update (fun _ => Stage.rest) stages i stage j).symm

theorem Once.next {s : PaymentFleet ι} (hstages : ∀ i, s.rest i = (stages i).rest)
    (h : Once s.db stages) {next : Except String c.Answer → DispatchCalls Unit}
    {answer : Except String c.Answer} (hok : Unshared s i fault (.call c next))
    (hdesk : desk parsers fault c s.db = some (answer, db)) {stage' : Stage}
    (hnext : (stages i).Next c answer stage') : Once db (update stages i stage') := by
  generalize hstage : stages i = stage at hnext
  cases hnext with
  | claimed rows =>
    cases fault with
    | refused | lost => cases hdesk
    | none =>
      cases hdesk
      refine (h.claimed hstage (fun r hr => open_claimBatch hr) (nodup_claimBatch _ _) ?_).tables rfl rfl
        (fun _ _ hentry => Outbox.exists_update hentry (fun entry => entry.transactionId_claim _) ⟨rfl, rfl⟩ ⟨rfl, rfl⟩)
      intro j hj r hr r' hr' heq
      obtain ⟨q, hq, rfl⟩ := mem_map.mp hr
      apply hok j hj q hq
      rw [hstages j, unfinished_rest]
      exact mem_map.mpr ⟨r', Stage.pending_subset_rows _ hr', heq.symm⟩
  | unclaimed e =>
    apply once_desk _ rfl hdesk
    apply h.quiet
    · intro r st rows hrow
      rw [hstage] at hrow
      cases hrow
    · exact nil_sublist _
    · trivial
  | priced r rows credits =>
    apply once_desk _ rfl hdesk
    refine h.leave hstage rfl (List.Sublist.refl _) ?_
    trivial
  | unpriced r rows e =>
    apply once_desk _ rfl hdesk
    apply h.leave hstage rfl (sublist_cons_self _ _)
    trivial
  | sent r rows credits request =>
    cases fault with
    | refused | lost => cases hdesk
    | none =>
      cases hdesk
      exact h.sent hstage rfl (fresh_applyCredits r.userId credits)
  | unsent r rows credits e =>
    cases fault with
    | none => cases hdesk
    | lost => exact absurd rfl hok
    | refused =>
      cases hdesk
      apply h.leave hstage rfl (sublist_cons_self _ _)
      trivial
  | applied r rows k creditId =>
    obtain rfl : fault = .none := hok
    obtain ⟨request, hrequest, hreply, rfl⟩ := reply_of_await hdesk
    obtain ⟨balance, hdone⟩ := done_of_reply hreply
    refine h.answered hstage hrequest hdone (List.Sublist.refl _) ?_ ?_
    · intro _ _
      exact ⟨.marking creditId, rows, rfl, trivial⟩
    · trivial
  | unapplied r rows k e =>
    obtain rfl : fault = .none := hok
    obtain ⟨request, hrequest, hreply, rfl⟩ := reply_of_await hdesk
    obtain ⟨status, hdone⟩ := failed_of_reply hreply
    refine h.answered hstage hrequest hdone (sublist_cons_self _ _) ?_ ?_
    · intro balance hok
      cases hok
    · trivial
  | marked r rows creditId =>
    cases fault with
    | refused | lost => cases hdesk
    | none =>
      cases hdesk
      apply once_marked h hstage
      · rw [Stage.pending_ofRows]
      · exact unsent_ofRows rows
  | unmarked r rows creditId e =>
    cases fault with
    | none => cases hdesk
    | refused => exact absurd rfl hok
    | lost =>
      cases hdesk
      apply once_marked h hstage (List.Sublist.refl _)
      trivial
  | retried r rows result | postponed r rows =>
    apply once_desk _ rfl hdesk
    apply h.leave hstage rfl _ (unsent_ofRows rows)
    rw [Stage.pending_ofRows]
    exact List.Sublist.refl _
  | gaveUp r rows e =>
    apply once_desk _ rfl hdesk
    refine h.leave hstage rfl (nil_sublist _) ?_
    trivial

theorem orderly_keeps : Keeps (paymentSystem ι parsers chain) Careful Orderly where
  answer := by
    intro s i fault c next answer db h hok hrest hdesk
    obtain ⟨stages, hstages, honce⟩ := h
    obtain ⟨stage', hnext, hrest'⟩ := Stage.next_of_call ((hstages i).symm.trans hrest) answer
    change Unshared s i fault (s.rest i) at hok
    rw [hrest] at hok
    refine ⟨update stages i stage', ?_, honce.next hstages hok hdesk hnext⟩
    rw [hrest']
    exact rest_update hstages i stage'
  finished := by
    intro s i result h hrest
    obtain ⟨stages, hstages, honce⟩ := h
    refine ⟨update stages i .claiming, rest_update hstages i .claiming, ?_⟩
    refine honce.quiet ?_ (nil_sublist _) ?_
    · intro r st rows hrow
      rw [hstages i, hrow] at hrest
      cases st <;> cases hrest
    · trivial
  restart := by
    intro s i h hok
    obtain ⟨stages, hstages, honce⟩ := h
    refine ⟨update stages i .claiming, rest_update hstages i .claiming, ?_⟩
    refine honce.quiet ?_ (nil_sublist _) ?_
    · intro r st rows hrow
      change isSettling (s.rest i) = false at hok
      rw [hstages i, hrow] at hok
      cases st with
      | marking creditId | awaiting k => cases hok
      | _ => rfl
    · trivial
  world := by
    intro s m h hok
    obtain ⟨stages, hstages, honce⟩ := h
    refine ⟨stages, hstages, ?_⟩
    cases m with
    | insertAccount account | lock ids | clock now | quote quotes | billing tables =>
      exact honce.tables rfl rfl (fun _ entry hentry => ⟨entry, hentry, rfl, rfl⟩)
    | handleTransfer known block index fault =>
      refine honce.tables rfl rfl ?_
      intro id entry hentry
      refine ⟨entry, ?_, rfl, rfl⟩
      change (s.db.tables.handleTransfer known (chain block index) block index fault).outbox.rows.get? id = some entry
      rcases handleTransfer_cases s.db.tables known (chain block index) block index fault with hsame | hrecord
      · rw [hsame, hentry]
      · exact PaymentTables.get?_recordDeposit hrecord hentry
    | serve k fault =>
      change Once (s.db.serve k fault) stages
      unfold PaymentState.serve
      split
      · exact honce
      · rename_i request hrequest
        split
        · exact honce
        · rename_i c next hrest
          have hopen : ∀ result, request.rest ≠ done result := by
            intro result hdone
            rw [hrest] at hdone
            cases hdone
          have hfresh := (honce.unserved k request hrequest hopen).1
          rw [hrest] at hfresh
          exact honce.served hrequest hopen (fresh_or_done hfresh hok s.db.billing)

theorem careful_run_applies_once (accounts : DepositAccounts) (billing : BillingTables) (now : ℤ)
    (l : List (Move ι Fault PaymentEvent))
    (h : EachStep (step (paymentSystem ι parsers chain)) Careful l
      (start (paymentSystem ι parsers chain) (.opening accounts billing now))) :
    Throughout (step (paymentSystem ι parsers chain)) AppliedOnce l
      (start (paymentSystem ι parsers chain) (.opening accounts billing now)) := by
  apply orderly_keeps.throughout _ (orderly_start accounts billing now) h
  rintro s ⟨stages, -, honce⟩
  exact honce.once

instance [Fintype ι] (s : PaymentFleet ι) (i : ι) (fault : Fault) : (p : DispatchCalls Unit) → Decidable (Unshared s i fault p)
  | .call (.claimBatch limit) _ => inferInstanceAs (Decidable
      (∀ j, j ≠ i → ∀ q ∈ s.db.tables.claimable limit, q.1 ∉ unfinished (s.rest j)))
  | .call (.sendApplyCredits _ _ _) _ => inferInstanceAs (Decidable (fault ≠ .lost))
  | .call (.awaitReply _) _ => inferInstanceAs (Decidable (fault = .none))
  | .call (.markCredited _ _ _) _ => inferInstanceAs (Decidable (fault ≠ .refused))
  | .done _ | .call (.taoToCredits _) _ | .call (.backoff _ _) _ => isTrue trivial

instance [Fintype ι] : (m : Move ι Fault PaymentEvent) → (s : PaymentFleet ι) → Decidable (Careful m s)
  | .answer i fault, s => inferInstanceAs (Decidable (Unshared s i fault (s.rest i)))
  | .restart i, s => inferInstanceAs (Decidable (isSettling (s.rest i) = false))
  | .world (.serve _ fault), _ => inferInstanceAs (Decidable (fault ≠ .lost))
  | .world (.insertAccount _), _ | .world (.handleTransfer _ _ _ _), _ | .world (.lock _), _ | .world (.clock _), _
  | .world (.quote _), _ | .world (.billing _), _ => isTrue trivial

def settledRun : List (Move Two Fault PaymentEvent) :=
  appliedRun.append (.answer .first .lost :: .answer .first .none :: .world (.clock 400000000) :: answered .second 2 [])

theorem settled_run_applies_once :
    EachStep (step twoDispatchers) Careful settledRun (start twoDispatchers (.opening .empty noBilling 0)) ∧
      (last (step twoDispatchers) settledRun (start twoDispatchers (.opening .empty noBilling 0))).db.raised = ["b5#e2#0a"] ∧
      Throughout (step twoDispatchers) AppliedOnce settledRun (start twoDispatchers (.opening .empty noBilling 0)) := by
  have hrun : EachStep (step twoDispatchers) Careful settledRun (start twoDispatchers (.opening .empty noBilling 0)) := by
    decide +kernel
  exact ⟨hrun, by decide +kernel, careful_run_applies_once .empty noBilling 0 settledRun hrun⟩

def lostReplyRun : List (Move Two Fault PaymentEvent) :=
  appliedRun.dropLast.append (.answer .first .lost :: .answer .first .none :: .world (.clock 400000000) ::
    answered .second 3 [.world (.serve 1 .none), .world (.serve 1 .none)])

def slowReplyRun : List (Move Two Fault PaymentEvent) :=
  (appliedRun.take 7).append (.world (.clock 400000000) :: answered .second 3
    [.world (.serve 0 .none), .world (.serve 0 .none), .world (.serve 0 .none), .world (.serve 0 .none),
      .world (.serve 1 .none), .world (.serve 1 .none)])

theorem deposit_credited_twice :
    ¬ AppliedOnce (last (step twoDispatchers) lostReplyRun (start twoDispatchers (.opening .empty noBilling 0))) ∧
      ¬ AppliedOnce (last (step twoDispatchers) slowReplyRun (start twoDispatchers (.opening .empty noBilling 0))) ∧
      ((last (step twoDispatchers) slowReplyRun
        (start twoDispatchers (.opening .empty noBilling 0))).db.billing.credit.rowOf "alice").balance.asDecimal = 25 := by
  unfold AppliedOnce
  decide +kernel

end Runs

end Basilica.Payments
