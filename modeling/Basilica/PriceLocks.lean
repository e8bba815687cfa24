import Basilica.CreditConversion
import Basilica.StepRuns

/-!
The read-write lock of the price oracle. `get_tao_usd_price` keeps the guard of its first read to its end, also while
it fetches a price and waits to write it.
-/

namespace Basilica.Payments

open StepRuns Function

structure CachedPrice where
  price : BigDecimal
  timestamp : ℕ

def CachedPrice.isStale (cached : CachedPrice) (now maxAge : ℕ) : Bool := maxAge < now - cached.timestamp

inductive OracleTask
  | ended (result : Option (Except String BigDecimal))
  | reading
  -- these three hold a read guard
  | fetching
  | upgrading (cached : CachedPrice)
  | rereading
  | refreshing
  | writing (cached : CachedPrice)

namespace OracleTask

def WaitsToWrite : OracleTask → Prop
  | upgrading _ | writing _ => True
  | _ => False

def HoldsRead : OracleTask → Prop
  | fetching | upgrading _ | rereading => True
  | _ => False

instance (task : OracleTask) : Decidable task.HoldsRead := by
  cases task <;> unfold HoldsRead <;> infer_instance

def SelfBlocked (task : OracleTask) : Prop := task.WaitsToWrite ∧ task.HoldsRead

end OracleTask

inductive OracleInput
  | getTaoUsdPrice
  | refreshPrice
  | read
  | fetched (price : Except String BigDecimal)
  | write

namespace OracleTask

variable (maxAge now : ℕ) (guarded : Prop) [Decidable guarded] (cache : Option CachedPrice)

/-- What a task does next, and the cache it leaves. `guarded` says whether some task holds a read guard. -/
def next : OracleInput → OracleTask → OracleTask × Option CachedPrice
  | .getTaoUsdPrice, ended _ => (reading, cache)
  | .refreshPrice, ended _ => (refreshing, cache)
  | .read, reading =>
    match cache with
    | some cached => if cached.isStale now maxAge then (fetching, cache) else (ended (some (.ok cached.price)), cache)
    | none => (fetching, cache)
  | .read, rereading =>
    match cache with
    | some cached => (ended (some (.ok cached.price)), cache)
    | none => (ended (some (.error "No price available: API failed and no cached price")), cache)
  | .fetched (.ok price), fetching => (upgrading ⟨price, now⟩, cache)
  | .fetched (.error _), fetching => (rereading, cache)
  | .fetched (.ok price), refreshing => (writing ⟨price, now⟩, cache)
  | .fetched (.error e), refreshing => (ended (some (.error e)), cache)
  | .write, upgrading cached =>
    if guarded then (upgrading cached, cache) else (ended (some (.ok cached.price)), some cached)
  | .write, writing cached =>
    if guarded then (writing cached, cache) else (ended (some (.ok cached.price)), some cached)
  | _, task => (task, cache)

variable {maxAge now guarded cache} {task : OracleTask} {input : OracleInput}

theorem selfBlocked_iff : task.SelfBlocked ↔ ∃ cached, task = upgrading cached := by
  cases task <;> simp [SelfBlocked, WaitsToWrite, HoldsRead]

theorem selfBlocked_next_iff (h : ¬ task.SelfBlocked) : ((next maxAge now guarded cache input task).1).SelfBlocked ↔
    task = fetching ∧ ∃ price, input = .fetched (.ok price) := by
  simp only [selfBlocked_iff, not_exists] at h ⊢
  fun_cases next maxAge now guarded cache input task <;> grind

theorem next_of_guarded (h : guarded) : (next maxAge now guarded cache input task).2 = cache := by
  fun_cases next maxAge now guarded cache input task <;> simp_all

theorem next_upgrading (h : guarded) (cached : CachedPrice) :
    (next maxAge now guarded cache input (upgrading cached)).1 = upgrading cached := by
  cases input <;> simp [next, h]

end OracleTask

structure OracleState (ι : Type) where
  cachedPrice : Option CachedPrice
  now : ℕ
  tasks : ι → OracleTask

inductive OracleMove (ι : Type)
  | tick (elapsed : ℕ)
  | task (i : ι) (input : OracleInput)

section Runs

variable {ι : Type} [DecidableEq ι] [Fintype ι] {maxAge : ℕ}

def OracleState.Guarded (s : OracleState ι) : Prop := ∃ i, (s.tasks i).HoldsRead

instance (s : OracleState ι) : Decidable s.Guarded := inferInstanceAs (Decidable (∃ _, _))

def oracleStep (maxAge : ℕ) : OracleMove ι → OracleState ι → OracleState ι
  | .tick elapsed, s => { s with now := s.now + elapsed }
  | .task i input, s =>
    let (task, cache) := (s.tasks i).next maxAge s.now s.Guarded s.cachedPrice input
    ⟨cache, s.now, Function.update s.tasks i task⟩

def OracleState.Unblocked (s : OracleState ι) : Prop := ∀ i, ¬ (s.tasks i).SelfBlocked

def FetchesUnguarded (m : OracleMove ι) (s : OracleState ι) : Prop :=
  ∀ i price, m = .task i (.fetched (.ok price)) → s.tasks i ≠ .fetching

theorem unblocked_oracleStep_iff (m : OracleMove ι) {s : OracleState ι} (h : s.Unblocked) :
    (oracleStep maxAge m s).Unblocked ↔ FetchesUnguarded m s := by
  cases m with
  | tick elapsed => exact iff_of_true h (fun i price hm => by cases hm)
  | task i input =>
    have hi : ((s.tasks i).next maxAge s.now s.Guarded s.cachedPrice input).1.SelfBlocked ↔ _ :=
      OracleTask.selfBlocked_next_iff (h i)
    constructor
    · rintro hstep j price hm hfetching
      cases hm
      apply hstep i
      simp only [oracleStep, update_self]
      exact hi.mpr ⟨hfetching, price, rfl⟩
    · intro hfetches j
      by_cases hj : j = i
      · subst hj
        simp only [oracleStep, update_self, hi]
        rintro ⟨hfetching, price, rfl⟩
        exact hfetches j price rfl hfetching
      · simp only [oracleStep, update_of_ne hj]
        exact h j

def OracleState.start (cachedPrice : Option CachedPrice) (now : ℕ) : OracleState ι := ⟨cachedPrice, now, fun _ => .ended none⟩

theorem no_self_block_iff (maxAge now : ℕ) (cachedPrice : Option CachedPrice) (l : List (OracleMove ι)) :
    Throughout (oracleStep maxAge) OracleState.Unblocked l (.start cachedPrice now) ↔
      EachStep (oracleStep maxAge) FetchesUnguarded l (.start cachedPrice now) := by
  have hkeep : ∀ (m : OracleMove ι) (s : OracleState ι), True → True → True := fun _ _ _ _ => trivial
  exact throughout_iff hkeep (fun m _ _ _ h => unblocked_oracleStep_iff m h) (fun _ _ => trivial) trivial
    (fun _ h => h.1)

/-- A call that waits for its own guard waits for ever, and no call writes the cache any more. -/
theorem blocked_for_ever {s : OracleState ι} {i : ι} {cached : CachedPrice} (h : s.tasks i = .upgrading cached)
    (l : List (OracleMove ι)) : (last (oracleStep maxAge) l s).tasks i = .upgrading cached ∧
      (last (oracleStep maxAge) l s).cachedPrice = s.cachedPrice := by
  refine last_of_step (I := fun s' : OracleState ι => s'.tasks i = .upgrading cached ∧ s'.cachedPrice = s.cachedPrice) ?_ l ⟨h, rfl⟩
  rintro m s' ⟨hi, hcache⟩
  have hguarded : s'.Guarded := ⟨i, by rw [hi]; trivial⟩
  cases m with
  | tick elapsed => exact ⟨hi, hcache⟩
  | task j input =>
    simp only [oracleStep, OracleTask.next_of_guarded hguarded]
    refine ⟨?_, hcache⟩
    by_cases hj : i = j
    · subst hj
      rw [update_self, hi, OracleTask.next_upgrading hguarded]
    · rw [update_of_ne hj, hi]

def firstCall : List (OracleMove Unit) :=
  [.task () .getTaoUsdPrice, .task () .read, .task () (.fetched (.ok ⟨400, 0⟩))]

theorem first_price_blocks : ¬ Throughout (oracleStep 60) OracleState.Unblocked firstCall (.start none 0) ∧
      ∀ l, ((last (oracleStep 60) (firstCall ++ l) (.start none 0)).tasks ()).SelfBlocked := by
  have hblocked : (last (oracleStep 60) firstCall (.start none 0)).tasks () = .upgrading ⟨⟨400, 0⟩, 0⟩ := rfl
  constructor
  · intro h
    exact h.last () (OracleTask.selfBlocked_iff.mpr ⟨_, hblocked⟩)
  · intro l
    rw [last, List.foldl_append]
    exact OracleTask.selfBlocked_iff.mpr ⟨_, (blocked_for_ever hblocked l).1⟩

end Runs

end Basilica.Payments
