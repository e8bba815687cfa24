import Basilica.StepRuns

/-!
Leader election with an advisory lock of Postgres. The lock belongs to a session; a process takes a connection from its pool,
locks on it, runs as leader and unlocks, and the connection goes back to the pool with the session it has.
-/

namespace Basilica.Common.Election

open StepRuns Function

section Sessions

variable {κ : Type} [DecidableEq κ]

abbrev SessionLock (κ : Type) := Option (κ × ℕ)

namespace SessionLock

/-- `pg_try_advisory_lock`. -/
def tryLock (c : κ) (lock : SessionLock κ) : Bool × SessionLock κ :=
  match lock with
  | none => (true, some (c, 1))
  | some (holder, n) => if holder = c then (true, some (c, n + 1)) else (false, lock)

/-- `pg_advisory_unlock`. -/
def unlock (c : κ) (lock : SessionLock κ) : Bool × SessionLock κ :=
  match lock with
  | none => (false, none)
  | some (holder, n) => if holder = c then (true, if n ≤ 1 then none else some (c, n - 1)) else (false, lock)

def close (c : κ) (lock : SessionLock κ) : SessionLock κ :=
  match lock with
  | none => none
  | some (holder, n) => if holder = c then none else some (holder, n)

variable {c holder : κ} {n : ℕ} {lock : SessionLock κ}

theorem tryLock_of_refused (h : (lock.tryLock c).1 = false) : (lock.tryLock c).2 = lock := by
  unfold tryLock at h ⊢
  split at h
  · cases h
  · split_ifs at h ⊢
    rfl

theorem unlock_eq_some (hone : ∀ k m, lock = some (k, m) → m = 1)
    (h : (lock.unlock c).2 = some (holder, n)) : lock = some (holder, n) ∧ holder ≠ c := by
  cases lock with
  | none => cases h
  | some p =>
    obtain ⟨k, m⟩ := p
    have hm := hone k m rfl
    subst hm
    simp only [unlock, le_refl, if_true] at h
    split_ifs at h with hk
    cases h
    exact ⟨rfl, hk⟩

theorem close_eq_some (h : lock.close c = some (holder, n)) : lock = some (holder, n) ∧ holder ≠ c := by
  cases lock with
  | none => cases h
  | some p =>
    obtain ⟨k, m⟩ := p
    simp only [close] at h
    split_ifs at h with hk
    cases h
    exact ⟨rfl, hk⟩

end SessionLock

end Sessions

open SessionLock

section Election

variable {ι κ : Type} [DecidableEq ι] [DecidableEq κ]

/-- Where a process is in `run_as_leader`; with `finished` it has yet to release its guard. -/
inductive Phase (κ : Type)
  | waiting
  | leading (conn : κ)
  | finished (conn : κ)
  | stopped
deriving DecidableEq

def Phase.guard : Phase κ → Option κ
  | leading c => some c
  | finished c => some c
  | _ => none

structure State (ι κ : Type) where
  lock : SessionLock κ
  opened : κ → Bool
  taken : κ → Bool
  phase : ι → Phase κ

def State.start : State ι κ := ⟨none, fun _ => true, fun _ => false, fun _ => .waiting⟩

/-- With `unanswered` the lock statement takes effect and its answer does not arrive; a task that ends during the
statement is `unanswered` and then `drop`. -/
inductive Event (ι κ : Type)
  | tryAcquire (i : ι) (c : κ)
  | unanswered (i : ι) (c : κ)
  | finish (i : ι)
  | release (i : ι) (ok : Bool)
  | lose (c : κ)
  | reopen (c : κ)
  | drop (i : ι)
  | restart (i : ι)

def Ready (pool : ι → κ → Bool) (s : State ι κ) (i : ι) (c : κ) : Prop :=
  s.phase i = .waiting ∧ pool i c = true ∧ s.opened c = true ∧ s.taken c = false

instance (pool : ι → κ → Bool) (s : State ι κ) (i : ι) (c : κ) : Decidable (Ready pool s i c) :=
  inferInstanceAs (Decidable (_ ∧ _ ∧ _ ∧ _))

variable (pool : ι → κ → Bool)

def acquired (i : ι) (c : κ) (s : State ι κ) : State ι κ :=
  match SessionLock.tryLock c s.lock with
  | (true, lock) =>
    { s with lock := lock, taken := update s.taken c true, phase := update s.phase i (.leading c) }
  | (false, _) => s

def parted (i : ι) (c : κ) (lock : SessionLock κ) (next : Phase κ) (s : State ι κ) : State ι κ :=
  { s with lock := lock, taken := update s.taken c false, phase := update s.phase i next }

/-- `release`; where the statement fails, or the connection is lost, the guard is dropped all the same. -/
def released (i : ι) (c : κ) (ok : Bool) (s : State ι κ) : State ι κ :=
  parted i c (if s.opened c && ok then (SessionLock.unlock c s.lock).2 else s.lock) .waiting s

/-- The task ends with its guard, and `Drop` unlocks nothing. -/
def dropped (i : ι) (s : State ι κ) : State ι κ :=
  match (s.phase i).guard with
  | some c => parted i c s.lock .stopped s
  | none => { s with phase := update s.phase i .stopped }

def step (e : Event ι κ) (s : State ι κ) : State ι κ :=
  match e with
  | .tryAcquire i c => if Ready pool s i c then acquired i c s else s
  | .unanswered i c => if Ready pool s i c then { s with lock := (SessionLock.tryLock c s.lock).2 } else s
  | .finish i => match s.phase i with
    | .leading c => { s with phase := update s.phase i (.finished c) }
    | _ => s
  | .release i ok => match s.phase i with
    | .finished c => released i c ok s
    | _ => s
  | .lose c => { s with lock := SessionLock.close c s.lock, opened := update s.opened c false }
  | .reopen c => if s.taken c then s else { s with opened := update s.opened c true }
  | .drop i => dropped i s
  | .restart i => if s.phase i = .stopped then { s with phase := update s.phase i .waiting } else s

def Lapsed (i : ι) (s : State ι κ) : Prop :=
  ∀ c, (s.phase i).guard = some c → s.opened c = false

structure Elected (s : State ι κ) : Prop where
  single : ∀ i j c d, s.phase i = .leading c → s.phase j = .leading d → i = j
  free : (∀ i, Lapsed i s) → ∀ i c, Ready pool s i c → (step pool (.tryAcquire i c) s).phase i = .leading c

def Undisturbed (e : Event ι κ) (s : State ι κ) : Prop :=
  match e with
  | .unanswered _ c => (SessionLock.tryLock c s.lock).1 = false
  | .lose c => ∀ i, s.phase i ≠ .leading c
  | .release i ok => ok = true ∨ Lapsed i s
  | .drop i => Lapsed i s
  | _ => True

end Election

section Invariant

variable {ι κ : Type} {s : State ι κ}

structure Sound (s : State ι κ) : Prop where
  held : ∀ c n, s.lock = some (c, n) → n = 1 ∧ s.opened c = true ∧ ∃ i, (s.phase i).guard = some c
  leading : ∀ i c, s.phase i = .leading c → s.lock = some (c, 1)
  apart : ∀ i j c, (s.phase i).guard = some c → (s.phase j).guard = some c → i = j
  taken : ∀ i c, (s.phase i).guard = some c → s.taken c = true

theorem sound_start : Sound (State.start : State ι κ) := by
  constructor
  · intro c n h
    cases h
  · intro i c h
    cases h
  · intro i j c h
    cases h
  · intro i c h
    cases h

variable {p : Phase κ} {c : κ}

theorem Phase.guard_of_leading (h : p = .leading c) : p.guard = some c := by
  rw [h]
  rfl

variable {i : ι} {d : κ}

theorem Sound.not_held (hs : Sound s) (h : (s.phase i).guard = some c) (hc : s.opened c = false) {n : ℕ}
    (hd : s.lock = some (d, n)) : d ≠ c := by
  rintro rfl
  have hopen := (hs.held d n hd).2.1
  rw [hc] at hopen
  cases hopen

theorem sound_reopened [DecidableEq κ] (hs : Sound s) (c : κ) : Sound { s with opened := update s.opened c true } := by
  refine ⟨?_, hs.leading, hs.apart, hs.taken⟩
  intro d n hd
  obtain ⟨hn, hopen, hguard⟩ := hs.held d n hd
  refine ⟨hn, ?_, hguard⟩
  dsimp only
  rw [update_apply]
  split_ifs
  · rfl
  · exact hopen

variable [DecidableEq ι]

theorem guard_update {f : ι → Phase κ} {j : ι} (h : (update f i p j).guard = some d) :
    (j = i ∧ p.guard = some d) ∨ (j ≠ i ∧ (f j).guard = some d) := by
  rw [update_apply] at h
  split_ifs at h with hj
  · exact Or.inl ⟨hj, h⟩
  · exact Or.inr ⟨hj, h⟩

theorem sound_moved (hs : Sound s) (hguard : p.guard = (s.phase i).guard) (hp : ∀ c, p ≠ .leading c) :
    Sound { s with phase := update s.phase i p } := by
  have hsame : ∀ j, (update s.phase i p j).guard = (s.phase j).guard := by
    intro j
    rw [update_apply]
    split_ifs with hj
    · rw [hguard, hj]
    · rfl
  constructor
  · intro c n hc
    obtain ⟨hn, hopen, j, hj⟩ := hs.held c n hc
    exact ⟨hn, hopen, j, (hsame j).trans hj⟩
  · intro j c hj
    dsimp only at hj
    rw [update_apply] at hj
    split_ifs at hj
    · exact absurd hj (hp c)
    · exact hs.leading j c hj
  · intro j k c hj hk
    exact hs.apart j k c ((hsame j).symm.trans hj) ((hsame k).symm.trans hk)
  · intro j c hj
    exact hs.taken j c ((hsame j).symm.trans hj)

variable [DecidableEq κ] {pool : ι → κ → Bool}

section

variable (hs : Sound s)

include hs

theorem Sound.elected : Elected pool s := by
  constructor
  · intro i j c d hi hj
    have hlock := hs.leading i c hi
    rw [hs.leading j d hj] at hlock
    cases hlock
    exact hs.apart i j c (Phase.guard_of_leading hi) (Phase.guard_of_leading hj)
  · intro hguards i c hready
    have hlock : s.lock = none := by
      cases hlock : s.lock with
      | none => rfl
      | some p =>
        obtain ⟨-, hopen, j, hj⟩ := hs.held p.1 p.2 hlock
        rw [hguards j p.1 hj] at hopen
        cases hopen
    simp only [step, if_pos hready, acquired, hlock, tryLock, update_self]

theorem sound_taken (hlock : s.lock = none) (hopen : s.opened c = true) (hfree : ∀ j, (s.phase j).guard ≠ some c) :
    Sound { s with
      lock := some (c, 1), taken := update s.taken c true, phase := update s.phase i (.leading c) } := by
  constructor
  · intro d n hd
    cases hd
    refine ⟨rfl, hopen, i, ?_⟩
    simp only [update_self, Phase.guard]
  · intro j d hj
    rcases guard_update (Phase.guard_of_leading hj) with ⟨-, hd⟩ | ⟨hji, -⟩
    · cases hd
      rfl
    · dsimp only at hj
      rw [update_of_ne hji] at hj
      have hheld := hs.leading j d hj
      rw [hlock] at hheld
      cases hheld
  · intro j k d hj hk
    rcases guard_update hj with ⟨hji, hd⟩ | ⟨-, hj⟩ <;> rcases guard_update hk with ⟨hki, hd'⟩ | ⟨-, hk⟩
    · rw [hji, hki]
    · cases hd
      exact absurd hk (hfree k)
    · cases hd'
      exact absurd hj (hfree j)
    · exact hs.apart j k d hj hk
  · intro j d hj
    dsimp only
    rw [update_apply]
    split_ifs with hdc
    · rfl
    · rcases guard_update hj with ⟨-, hd⟩ | ⟨-, hj⟩
      · cases hd
        exact absurd rfl hdc
      · exact hs.taken j d hj

theorem sound_acquired (h : Ready pool s i c) : Sound (acquired i c s) := by
  have hfree : ∀ j, (s.phase j).guard ≠ some c := by
    intro j hj
    have htaken := hs.taken j c hj
    rw [h.2.2.2] at htaken
    cases htaken
  cases hlock : s.lock with
  | none =>
    simp only [acquired, hlock, tryLock]
    exact sound_taken hs hlock h.2.2.1 hfree
  | some p =>
    -- the session that has the lock has a guard, so it is another one
    obtain ⟨holder, n⟩ := p
    have hother : holder ≠ c := by
      rintro rfl
      obtain ⟨-, -, j, hj⟩ := hs.held holder n hlock
      exact hfree j hj
    simp only [acquired, hlock, tryLock, if_neg hother]
    exact hs

theorem sound_parted {lock : SessionLock κ} {next : Phase κ} (hi : (s.phase i).guard = some c)
    (hnext : next.guard = none) (hsome : ∀ d n, lock = some (d, n) → s.lock = some (d, n) ∧ d ≠ c)
    (hkept : ∀ d n, s.lock = some (d, n) → d ≠ c → lock = some (d, n)) : Sound (parted i c lock next s) := by
  have hold : ∀ {j d}, ((parted i c lock next s).phase j).guard = some d → j ≠ i ∧ (s.phase j).guard = some d := by
    intro j d hj
    rcases guard_update hj with ⟨-, hd⟩ | h
    · rw [hnext] at hd
      cases hd
    · exact h
  have hother : ∀ {j d}, j ≠ i → (s.phase j).guard = some d → d ≠ c := by
    rintro j d hji hj rfl
    exact hji (hs.apart j i d hj hi)
  constructor
  · intro d n hd
    obtain ⟨hlock, hdc⟩ := hsome d n hd
    obtain ⟨hn, hopen, j, hj⟩ := hs.held d n hlock
    have hji : j ≠ i := by
      rintro rfl
      rw [hi] at hj
      cases hj
      exact hdc rfl
    refine ⟨hn, hopen, j, ?_⟩
    simp only [parted, update_of_ne hji, hj]
  · intro j d hj
    obtain ⟨hji, hguard⟩ := hold (Phase.guard_of_leading hj)
    have hleads : s.phase j = .leading d := by
      rw [← hj]
      simp only [parted, update_of_ne hji]
    exact hkept d 1 (hs.leading j d hleads) (hother hji hguard)
  · intro j k d hj hk
    exact hs.apart j k d (hold hj).2 (hold hk).2
  · intro j d hj
    obtain ⟨hji, hguard⟩ := hold hj
    simp only [parted, update_of_ne (hother hji hguard)]
    exact hs.taken j d hguard

theorem sound_released {ok : Bool} (hi : s.phase i = .finished c) (hok : ok = true ∨ Lapsed i s) :
    Sound (released i c ok s) := by
  have hguard : (s.phase i).guard = some c := by
    rw [hi]
    rfl
  cases hopen : s.opened c with
  | false =>
    simp only [released, hopen, Bool.false_and]
    refine sound_parted hs hguard rfl ?_ ?_
    · intro d n hd
      exact ⟨hd, hs.not_held hguard hopen hd⟩
    · intro d n hd _
      exact hd
  | true =>
    have hyes : ok = true := by
      refine hok.resolve_right ?_
      intro hlapsed
      have hclosed := hlapsed c hguard
      rw [hopen] at hclosed
      cases hclosed
    simp only [released, hopen, hyes, Bool.true_and, if_true]
    refine sound_parted hs hguard rfl ?_ ?_
    · intro d n hd
      exact unlock_eq_some (fun k m h => (hs.held k m h).1) hd
    · intro d n hd hdc
      simp only [hd, unlock, if_neg hdc]

theorem sound_dropped (h : Lapsed i s) : Sound (dropped i s) := by
  cases hi : (s.phase i).guard with
  | none =>
    simp only [dropped, hi]
    apply sound_moved hs
    · rw [hi]
      rfl
    · intro c hc
      cases hc
  | some c =>
    simp only [dropped, hi]
    refine sound_parted hs hi rfl ?_ ?_
    · intro d n hd
      exact ⟨hd, hs.not_held hi (h c hi) hd⟩
    · intro d n hd _
      exact hd

theorem sound_lost (h : ∀ i, s.phase i ≠ .leading c) : Sound (step pool (.lose c) s) := by
  constructor
  · intro d n hd
    obtain ⟨hlock, hdc⟩ := close_eq_some hd
    obtain ⟨hn, hopen, hguard⟩ := hs.held d n hlock
    refine ⟨hn, ?_, hguard⟩
    simp only [step, update_of_ne hdc, hopen]
  · intro j d hj
    have hdc : d ≠ c := by
      rintro rfl
      exact h j hj
    simp only [step]
    rw [hs.leading j d hj, close, if_neg hdc]
  · exact hs.apart
  · exact hs.taken

end

theorem sound_step (e : Event ι κ) (hs : Sound s) (he : Undisturbed e s) : Sound (step pool e s) := by
  cases e with
  | tryAcquire i c =>
    simp only [step]
    split_ifs with hready
    · exact sound_acquired hs hready
    · exact hs
  | unanswered i c =>
    simp only [step, tryLock_of_refused he, ite_self]
    exact hs
  | finish i =>
    simp only [step]
    split
    case h_1 c hi =>
      apply sound_moved hs
      · rw [hi]
        rfl
      · intro d hd
        cases hd
    case h_2 => exact hs
  | release i ok =>
    simp only [step]
    split
    case h_1 c hi => exact sound_released hs hi he
    case h_2 => exact hs
  | lose c => exact sound_lost hs he
  | reopen c =>
    simp only [step]
    split_ifs
    · exact hs
    · exact sound_reopened hs c
  | drop i => exact sound_dropped hs he
  | restart i =>
    simp only [step]
    split_ifs with hi
    · apply sound_moved hs
      · rw [hi]
        rfl
      · intro c hc
        cases hc
    · exact hs

end Invariant

theorem elected_throughout {ι κ : Type} [DecidableEq ι] [DecidableEq κ] (pool : ι → κ → Bool) (l : List (Event ι κ))
    (hl : EachStep (step pool) Undisturbed l .start) : Throughout (step pool) (Elected pool) l .start := by
  apply throughout_of_step (I := Sound)
  · intro e s hs he
    exact sound_step e hs he
  · intro s hs
    exact hs.elected
  · exact sound_start
  · exact hl

def ownConnection (i c : Bool) : Bool := i == c

def handover : List (Event Bool Bool) := [.tryAcquire false false, .finish false, .release false true, .tryAcquire true true]

theorem handover_elected : Elected ownConnection (last (step ownConnection) handover .start) ∧
      (last (step ownConnection) handover .start).phase true = .leading true := by
  have hl : EachStep (step ownConnection) Undisturbed handover .start :=
    ⟨trivial, trivial, Or.inl rfl, trivial, trivial⟩
  exact ⟨(elected_throughout ownConnection handover hl).last, by decide⟩

def lostLeader : List (Event Bool Bool) := [.tryAcquire false false, .lose false, .tryAcquire true true]

def failedRelease : List (Event Bool Bool) := [.tryAcquire false false, .finish false, .release false false]

def unansweredGrant : List (Event Bool Bool) := [.unanswered false false, .drop false]

theorem second_leader_after_lost_connection :
    ((last (step ownConnection) lostLeader .start).phase false = .leading false ∧
      (last (step ownConnection) lostLeader .start).phase true = .leading true) ∧
    ((last (step ownConnection) failedRelease .start).phase false = .waiting ∧
      Ready ownConnection (last (step ownConnection) failedRelease .start) true true ∧
      (step ownConnection (.tryAcquire true true) (last (step ownConnection) failedRelease .start)).phase true = .waiting) ∧
    (last (step ownConnection) unansweredGrant .start).phase false = .stopped ∧
      Ready ownConnection (last (step ownConnection) unansweredGrant .start) true true ∧
      (step ownConnection (.tryAcquire true true) (last (step ownConnection) unansweredGrant .start)).phase true = .waiting := by
  decide

end Basilica.Common.Election
