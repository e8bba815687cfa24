import Basilica.CollateralAccounts
import Basilica.StepRuns

/-!
Who put collateral on a key and who took it away. The ledger of a key is tallied from the log; its
`holder` is the last miner to deposit, until the key is slashed, and `opened` are the requests opened
since the last slash.
-/

namespace Basilica.Collateral

open CallTrees CheckedSteps LogRules List Option Function

structure Ledger where
  holder : Option Address
  opened : List ℕ
  deposited : Address → ℕ
  paid : Address → ℕ
  slashed : Address → ℕ

open Ledger

def credit (f : Address → ℕ) (a : Address) (n : ℕ) : Address → ℕ := update f a (f a + n)

theorem credit_self (f : Address → ℕ) (a : Address) (n : ℕ) : credit f a n a = f a + n := by
  simp [credit]

theorem credit_of_ne {f : Address → ℕ} {a b : Address} (n : ℕ) (h : b ≠ a) : credit f a n b = f b := by
  simp [credit, h]

def Ledger.record (k : Key) (x : Ledger) : Event → Ledger
  | .deposit e =>
    if (e.hotkey, e.executorId) = k then
      { x with holder := some e.miner, deposited := credit x.deposited e.miner e.amount }
    else x
  | .reclaimProcessStarted e =>
    if (e.hotkey, e.executorId) = k then { x with opened := e.reclaimRequestId :: x.opened } else x
  | .reclaimed e =>
    if (e.hotkey, e.executorId) = k then { x with paid := credit x.paid e.miner e.amount } else x
  | .slashed e =>
    if (e.hotkey, e.executorId) = k then
      { x with holder := none, opened := [], slashed := credit x.slashed e.miner e.amount }
    else x
  | _ => x

def Ledger.empty : Ledger := ⟨none, [], fun _ => 0, fun _ => 0, fun _ => 0⟩

def ledger (k : Key) (log : List Record) : Ledger := foldLog (Ledger.record k) Ledger.empty log

theorem ledger_concat (k : Key) (log : List Record) (r : Record) :
    ledger k (log ++ [r]) = (ledger k log).record k r.event :=
  foldLog_concat _ _ _ _

variable {k : Key}

theorem Ledger.record_other {e : Event} (he : e.key ≠ some k) (x : Ledger) : x.record k e = x := by
  cases e <;> simp_all [record, Event.key]

def paidTo (a : Address) (k : Key) (payments : List Payment) : ℕ :=
  (payments.map (fun p => if p.recipient = a ∧ (p.hotkey, p.executorId) = k then p.amount else 0)).sum

theorem ledger_paid (a : Address) (k : Key) (log : List Record) :
    (ledger k log).paid a = paidTo a k (log.flatMap (fun r => r.event.payment)) := by
  induction log using reverseRecOn with
  | nil => rfl
  | append_singleton log r ih =>
    rw [ledger_concat, flatMap_append, paidTo, map_append, sum_append, ← paidTo, ← ih]
    cases he : r.event with
    | reclaimed e =>
      by_cases hk : (e.hotkey, e.executorId) = k
      · by_cases ha : a = e.miner
        · subst ha; simp [record, he, hk, Event.payment, credit_self]
        · simp [record, he, hk, Event.payment, credit_of_ne _ ha, Ne.symm ha]
      · simp [record, he, hk, Event.payment]
    | _ => simp only [record]; (try split_ifs) <;> simp [he, Event.payment]

/-- A key without owner gets a new one only when it has neither collateral nor reclaims left; its
last depositor may come back as long as the key was not slashed. -/
def OpensSettledKeys (_ : ℕ) (c : Call) (w : World) : Prop :=
  ∀ k ∈ c.depositKey, w.storage.minCollateralIncrease ≤ c.value → w.storage.executorToMiner k = 0 →
    (w.storage.collaterals k = 0 ∧ w.storage.collateralUnderPendingReclaims k = 0) ∨
      (ledger k w.log).holder = some c.sender

instance (now : ℕ) (c : Call) (w : World) : Decidable (OpensSettledKeys now c w) :=
  (Option.decidableForallMem _ : Decidable (∀ k ∈ c.depositKey, _ → _ → _ ∨ _))

variable {w : World}

theorem Reachable.holder (h : Reachable w) (k : Key) (howner : w.storage.executorToMiner k ≠ 0) :
    (ledger k w.log).holder = some (w.storage.executorToMiner k) := by
  refine account_invariant (record k) empty
    (fun a x => a.owner ≠ 0 → x.holder = some a.owner) ?_ ?_ h.unguarded howner
  · intro hne
    exact absurd rfl hne
  · intro now c w e a _ _ hw hacc
    cases hacc with
    | deposit => intro _; simp [record]
    | reclaim => simp only [record, ↓reduceIte]; exact hw
    | finalize | slash => intro hne; exact absurd rfl hne
    | deny => exact hw
    | other e he => rw [record_other he]; exact hw

variable {now : ℕ}

section Reclaims

variable {c : Call}

theorem OpensSettledKeys.holder (hr : Reachable w) (hg : OpensSettledKeys now c w)
    (hk : c.method = .deposit k.1 k.2) (hmin : w.storage.minCollateralIncrease ≤ c.value)
    (howner : w.storage.executorToMiner k = 0 ∨ w.storage.executorToMiner k = c.sender) :
    (w.storage.collaterals k = 0 ∧ w.storage.collateralUnderPendingReclaims k = 0) ∨
      (ledger k w.log).holder = some c.sender := by
  rcases howner with hzero | hsender
  · exact hg k (by simp [Call.depositKey, hk]) hmin hzero
  · right
    rw [hr.holder k (hsender ▸ c.sender_ne_zero), hsender]

def World.HeldReclaims (w : World) : Prop :=
  ∀ id, 0 < (w.storage.reclaims id).amount →
    ∀ m, (ledger (w.storage.reclaims id).key w.log).holder = some m →
      (w.storage.reclaims id).miner = m ∧ id ∈ (ledger (w.storage.reclaims id).key w.log).opened

theorem World.HeldReclaims.deposit (hw : w.HeldReclaims) (hr : Reachable w)
    (hg : OpensSettledKeys now c w) {hotkey : Bytes32} {executorId : Bytes16}
    (hmethod : c.method = .deposit hotkey executorId) (hmin : w.storage.minCollateralIncrease ≤ c.value)
    (howner : w.storage.executorToMiner (hotkey, executorId) = 0 ∨
      w.storage.executorToMiner (hotkey, executorId) = c.sender) (r : Record)
    (hevent : r.event = .deposit ⟨hotkey, executorId, c.sender, c.value⟩) (id : ℕ)
    (hamount : 0 < (w.storage.reclaims id).amount) (m : Address)
    (hm : (ledger (w.storage.reclaims id).key (w.log ++ [r])).holder = some m) : (w.storage.reclaims id).miner = m ∧
      id ∈ (ledger (w.storage.reclaims id).key (w.log ++ [r])).opened := by
  rw [ledger_concat, hevent] at hm ⊢
  by_cases hk : (hotkey, executorId) = (w.storage.reclaims id).key
  · simp only [record, hk, ↓reduceIte, some.injEq] at hm ⊢
    rw [hk] at howner
    have hmethod' : c.method = .deposit (w.storage.reclaims id).key.1 (w.storage.reclaims id).key.2 := by
      rw [hmethod, ← hk]
    rcases hg.holder hr hmethod' hmin howner with ⟨_, hpending⟩ | hholder
    · -- A request stored for an empty key would be counted as pending.
      have hle := hr.counted.amount_le id
      omega
    · rw [← hm]
      exact hw id hamount c.sender hholder
  · have hother : Event.key (.deposit ⟨hotkey, executorId, c.sender, c.value⟩) ≠
        some (w.storage.reclaims id).key := by simpa [Event.key] using hk
    rw [record_other hother] at hm ⊢
    exact hw id hamount m hm

theorem World.HeldReclaims.reclaim (hw : w.HeldReclaims) (hr : Reachable w)
    {r : Reclaim} (howner : w.storage.executorToMiner r.key = c.sender) (hminer : r.miner = c.sender)
    (x : Record) (e : ReclaimProcessStarted) (hevent : x.event = .reclaimProcessStarted e)
    (hid : e.reclaimRequestId = w.storage.nextReclaimId) (hkey : (e.hotkey, e.executorId) = r.key) :
    World.HeldReclaims ⟨{ w.storage.afterReclaim r with nextReclaimId := w.storage.nextReclaimId + 1 },
      w.balance, w.log ++ [x], w.payments⟩ := by
  intro id hamount m hm
  simp only [Storage.afterReclaim] at hamount hm ⊢
  rw [ledger_concat, hevent] at hm ⊢
  by_cases hnew : id = w.storage.nextReclaimId
  · subst hnew
    simp only [update_self] at hamount hm ⊢
    simp only [record, hkey, ↓reduceIte] at hm ⊢
    rw [hr.holder r.key (howner ▸ c.sender_ne_zero), howner] at hm
    exact ⟨hminer.trans (some.inj hm), by simp [hid]⟩
  · simp only [update_of_ne hnew] at hamount hm ⊢
    simp only [record] at hm ⊢
    split_ifs at hm ⊢ with hk
    · have hold := hw id hamount m hm
      exact ⟨hold.1, mem_cons_of_mem _ hold.2⟩
    · exact hw id hamount m hm

variable {w' : World}

theorem World.HeldReclaims.remove (hw : w.HeldReclaims) (id₀ : ℕ) (r : Record)
    (hreclaims : w'.storage.reclaims = update w.storage.reclaims id₀ Reclaim.zero)
    (hlog : w'.log = w.log ++ [r])
    (hholder : ∀ k, (ledger k (w.log ++ [r])).holder = (ledger k w.log).holder)
    (hopened : ∀ k, (ledger k (w.log ++ [r])).opened = (ledger k w.log).opened) : w'.HeldReclaims := by
  intro id hamount m hm
  rw [hreclaims] at hamount hm ⊢
  rw [hlog, hholder] at hm
  rw [hlog, hopened]
  by_cases hid : id = id₀
  · subst hid
    simp [Reclaim.zero] at hamount
  · rw [update_of_ne hid] at hamount hm ⊢
    exact hw id hamount m hm

theorem World.HeldReclaims.step (hw : w.HeldReclaims)
    (hr : Reachable w) (hg : OpensSettledKeys now c w) (h : Step now c w w') : w'.HeldReclaims := by
  cases h with
  | deposit hotkey executorId hmethod hmin howner hbound =>
    intro id hamount m hm
    exact hw.deposit hr hg hmethod hmin howner _ rfl id hamount m hm
  | reclaim hotkey executorId url md5 r hmethod howner hpending hamount htimeout hr' =>
    have hkey : r.key = (hotkey, executorId) := by rw [hr']; rfl
    exact hw.reclaim hr (hkey ▸ howner) (by rw [hr']) _ _ rfl rfl hkey.symm
  | finalize id =>
    refine hw.remove id _ rfl rfl ?_ ?_ <;>
    · intro k
      simp only [ledger_concat, record]
      split_ifs <;> rfl
  | deny id =>
    refine hw.remove id _ rfl rfl ?_ ?_ <;>
    · intro k
      rw [ledger_concat]
      rfl
  | slash hotkey executorId =>
    -- The requests of the key stay stored, but the key has no holder any more.
    intro id hamount m hm
    simp only [World.logWith, ledger_concat, record, Storage.afterSlash] at hamount hm ⊢
    split_ifs at hm ⊢
    exact hw id hamount m hm
  | update trustee timeout minIncrease e s he hs =>
    subst hs
    intro id hamount m hm
    simp only [World.logWith, ledger_concat] at hm ⊢
    rw [record_other (by simp [Event.key_update he])] at hm ⊢
    exact hw id hamount m hm

end Reclaims

theorem ReachableBy.heldReclaims (h : ReachableBy OpensSettledKeys w) : w.HeldReclaims := by
  apply reachableBy_invariant _ _ h
  · intro s hs id hamount
    simp [World.deployed, hs.reclaims, Reclaim.zero] at hamount
  · intro now c w w' hr hw hg hs
    exact hw.step hr.reachable hg hs

structure Account.Balanced (a : Account) (x : Ledger) : Prop where
  each : ∀ m, m ≠ 0 → x.paid m + x.slashed m ≤ x.deposited m
  held : ∀ m, m ≠ 0 → x.holder = some m → x.paid m + x.slashed m + a.collateral ≤ x.deposited m
  free : x.holder = none → a.collateral = 0

section Balance

variable {c : Call} {a : Account} {x : Ledger}

theorem Account.Balanced.deposit (h : a.Balanced x) (pending n : ℕ)
    (m₀ : Address) (hholder : a.collateral = 0 ∨ x.holder = some m₀) : Account.Balanced ⟨m₀, a.collateral + n, pending⟩
      { x with holder := some m₀, deposited := credit x.deposited m₀ n } := by
  refine ⟨?_, ?_, ?_⟩
  · intro m hm
    have hle := h.each m hm
    by_cases hm₀ : m = m₀
    · subst hm₀; simp only [credit_self]; omega
    · simpa only [credit_of_ne _ hm₀] using hle
  · intro m hm hsome
    obtain rfl : m₀ = m := some.inj hsome
    have hle := h.each m₀ hm
    simp only [credit_self]
    rcases hholder with hzero | hheld
    · omega
    · have := h.held m₀ hm hheld
      omega
  · intro hnone
    cases hnone

theorem Account.Balanced.payout (h : a.Balanced x) (owner : Address)
    (pending n : ℕ) {m₀ : Address} (hn : n ≤ a.collateral) (hholder : x.holder = some m₀) :
    Account.Balanced ⟨owner, a.collateral - n, pending⟩ { x with paid := credit x.paid m₀ n } := by
  refine ⟨?_, ?_, ?_⟩
  · intro m hm
    by_cases hm₀ : m = m₀
    · subst hm₀
      have := h.held m hm hholder
      simp only [credit_self]
      omega
    · simpa only [credit_of_ne _ hm₀] using h.each m hm
  · intro m hm hsome
    obtain rfl : m₀ = m := some.inj (hholder.symm.trans hsome)
    have := h.held m₀ hm hholder
    simp only [credit_self]
    omega
  · intro hnone
    exact absurd (hholder.symm.trans hnone) (by simp)

theorem Account.Balanced.slash (h : a.Balanced x) (owner m₀ : Address)
    (pending : ℕ) (hholder : m₀ ≠ 0 → x.holder = some m₀) : Account.Balanced ⟨owner, 0, pending⟩
      { x with holder := none, opened := [], slashed := credit x.slashed m₀ a.collateral } := by
  refine ⟨?_, ?_, fun _ => rfl⟩
  · intro m hm
    by_cases hm₀ : m = m₀
    · subst hm₀
      have := h.held m hm (hholder hm)
      simp only [credit_self]
      omega
    · simpa only [credit_of_ne _ hm₀] using h.each m hm
  · intro m hm hsome
    cases hsome

theorem ReachableBy.holder_of_payable (h : ReachableBy OpensSettledKeys w)
    (hb : (w.storage.account k).Balanced (ledger k w.log)) {id : ℕ}
    (hkey : (w.storage.reclaims id).key = k) (hamount : 0 < (w.storage.reclaims id).amount)
    (hcollateral : (w.storage.reclaims id).amount ≤ w.storage.collaterals k) :
    (ledger k w.log).holder = some (w.storage.reclaims id).miner ∧ id ∈ (ledger k w.log).opened := by
  subst hkey
  cases hm : (ledger (w.storage.reclaims id).key w.log).holder with
  | none =>
    have hzero : w.storage.collaterals (w.storage.reclaims id).key = 0 := hb.free hm
    omega
  | some m =>
    obtain ⟨hminer, hopened⟩ := h.heldReclaims id hamount m hm
    exact ⟨by rw [hminer], hopened⟩

theorem ReachableBy.balanced (h : ReachableBy OpensSettledKeys w) (k : Key) :
    (w.storage.account k).Balanced (ledger k w.log) := by
  apply account_invariant (record k) empty Account.Balanced _ _ h
  · exact ⟨fun _ _ => le_refl 0, fun _ _ h => absurd h (by simp [empty]), fun _ => rfl⟩
  · intro now c w e a hr hg hw hacc
    cases hacc with
    | deposit hmethod hmin howner hbound =>
      simp only [record, ↓reduceIte]
      apply hw.deposit
      exact (hg.holder hr.reachable hmethod hmin howner).imp And.left id
    | reclaim => simpa only [record, ↓reduceIte] using ⟨hw.each, hw.held, hw.free⟩
    | finalize id hmethod hkey hamount htime hpending hcollateral =>
      simp only [record, ↓reduceIte]
      exact hw.payout _ _ _ hcollateral (hr.holder_of_payable hw hkey hamount hcollateral).1
    | deny => exact ⟨hw.each, hw.held, hw.free⟩
    | slash url md5 hmethod htrustee hamount =>
      simp only [record, ↓reduceIte]
      exact hw.slash _ _ _ (hr.reachable.holder k)
    | other e he => rw [record_other he]; exact hw

def PaidSinceSlash (before : List Record) (r : Record) : Prop :=
  ∀ e, r.event = .reclaimed e → e.reclaimRequestId ∈ (ledger (e.hotkey, e.executorId) before).opened

theorem ReachableBy.paid_since_slash (h : ReachableBy OpensSettledKeys w) : Always PaidSinceSlash w.log := by
  apply reachableBy_invariant (I := fun w => Always PaidSinceSlash w.log) _ _ h
  · intro s _
    exact always_nil _
  · intro now c w w' hr hw _ hs
    cases hs with
    | finalize id r hmethod hr' hamount htime hpending hcollateral hbalance =>
      subst hr'
      refine always_concat.mpr ⟨hw, ?_⟩
      intro e he
      obtain rfl := Event.reclaimed.inj he
      exact (hr.holder_of_payable (hr.balanced _) rfl hamount hcollateral).2
    | update trustee timeout minIncrease e s he hs =>
      refine always_concat.mpr ⟨hw, ?_⟩
      intro e' he'
      obtain rfl : e = .reclaimed e' := he'
      simp [Event.isUpdate] at he
    | _ =>
      refine always_concat.mpr ⟨hw, ?_⟩
      intro e he
      cases he

end Balance

theorem payouts_within_deposits (w : World) (h : ReachableBy OpensSettledKeys w) : (∀ k a, a ≠ 0 →
      paidTo a k w.payments + (ledger k w.log).slashed a ≤ (ledger k w.log).deposited a) ∧
    Always PaidSinceSlash w.log := by
  refine ⟨?_, h.paid_since_slash⟩
  intro k a ha
  rw [h.reachable.payments, ← ledger_paid]
  exact (h.balanced k).each a ha

def payoutAfterSlash : History :=
  [tx 100 alice 5 (.deposit 1 2),
   tx 105 alice 0 (.reclaimCollateral 1 2 "" 0),
   tx 110 sampleTrustee 0 (.slashCollateral 1 2 "" 0),
   tx 115 bob 5 (.deposit 1 2),
   tx 120 alice 0 (.finalizeReclaim 0)]

theorem payout_exceeds_deposits :
    let w := final payoutAfterSlash (World.deployed sampleStorage)
    Reachable w ∧ paidTo 7 (1, 2) w.payments = 5 ∧ (ledger (1, 2) w.log).slashed 7 = 5 ∧
      (ledger (1, 2) w.log).deposited 7 = 5 ∧
      ¬ paidTo 7 (1, 2) w.payments + (ledger (1, 2) w.log).slashed 7 ≤ (ledger (1, 2) w.log).deposited 7 :=
  ⟨reachable_final _, by decide, by decide, by decide, by decide⟩

def denyBeforeTakeover : History :=
  [tx 100 alice 5 (.deposit 1 2),
   tx 105 alice 0 (.reclaimCollateral 1 2 "" 0),
   tx 110 sampleTrustee 0 (.slashCollateral 1 2 "" 0),
   tx 112 sampleTrustee 0 (.denyReclaimRequest 0 "" 0),
   tx 115 bob 6 (.deposit 1 2),
   tx 120 bob 0 (.reclaimCollateral 1 2 "" 0),
   tx 140 bob 0 (.finalizeReclaim 1)]

theorem payouts_denyBeforeTakeover :
    let w := final denyBeforeTakeover (World.deployed sampleStorage)
    paidTo 8 (1, 2) w.payments = 6 ∧
      paidTo 8 (1, 2) w.payments + (ledger (1, 2) w.log).slashed 8 ≤ (ledger (1, 2) w.log).deposited 8 :=
  ⟨by decide, (payouts_within_deposits _ ⟨_, denyBeforeTakeover, sampleStorage_deployed, by decide,
    final_mem_visited _ _⟩).1 (1, 2) 8 (by decide)⟩

end Basilica.Collateral
