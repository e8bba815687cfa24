import Basilica.RwLocks

/-!
The two maps of the miner's token service, as the locks that its operations take. Validating a token takes the revoked tokens
before the sessions; revoking a session and the clean-up take them the other way round.
-/

namespace Basilica.Miner

open RwLocks StepRuns List Function

inductive JwtLock
  | sessions
  | revokedTokens
deriving DecidableEq

inductive JwtOperation
  | validateToken
  | generateToken
  | revokeSession
  | cleanupExpired

open JwtLock in
def jwtProgram : JwtOperation → Program JwtLock
  -- a token that is among the revoked ones is refused at once
  | .validateToken => .acquire revokedTokens .read (fun revoked => if revoked then .done else .acquire sessions .write (fun _ => .done))
  | .generateToken => .acquire sessions .write (fun _ => .done)
  | .revokeSession => .acquire sessions .write (fun found => if found then .acquire revokedTokens .write (fun _ => .done) else .done)
  | .cleanupExpired => .acquire sessions .write (fun _ => .acquire revokedTokens .write (fun _ => .done))

inductive Legal : LockTask JwtLock → Prop
  | ended (held : List (JwtLock × Mode)) : Legal ⟨held, .done⟩
  | begun (op : JwtOperation) : Legal ⟨[], jwtProgram op⟩
  | validating : Legal ⟨[(.revokedTokens, .read)], .acquire .sessions .write (fun _ => .done)⟩
  | revoking : Legal ⟨[(.sessions, .write)], .acquire .revokedTokens .write (fun _ => .done)⟩

variable {lock : JwtLock} {mode : Mode} {next : Bool → Program JwtLock}

section Tasks

variable {a b : JwtLock} {held : List (JwtLock × Mode)} {rest : Program JwtLock}

theorem Legal.advance (h : Legal ⟨held, .acquire lock mode next⟩) (found : Bool) : Legal ⟨(lock, mode) :: held, next found⟩ := by
  generalize htask : (⟨held, .acquire lock mode next⟩ : LockTask JwtLock) = task at h
  cases h with
  | ended held' => cases htask
  | begun op =>
    cases op <;> cases htask
    · cases found
      · exact .validating
      · exact .ended _
    · exact .ended _
    · cases found
      · exact .ended _
      · exact .revoking
    · exact .revoking
  | validating | revoking =>
    cases htask
    exact .ended _

theorem Legal.between (h : Legal ⟨(lock, mode) :: held, rest⟩) (hab : Between a b ⟨(lock, mode) :: held, rest⟩) :
    a = lock ∧ a ≠ b ∧ held = [] := by
  obtain ⟨⟨next, hwants⟩, q, hq, rfl⟩ := hab
  change rest = .acquire b .write next at hwants
  subst hwants
  cases h with
  | validating | revoking =>
    obtain rfl := mem_singleton.mp hq
    exact ⟨rfl, by decide, rfl⟩

end Tasks

variable {task : LockTask JwtLock} {ι : Type}

section States

variable {s : ι → LockTask JwtLock}

def Crossed (s : ι → LockTask JwtLock) : Prop :=
  (∃ i, Between .revokedTokens .sessions (s i)) ∧ ∃ j, Between .sessions .revokedTokens (s j)

def lastRank (a lock : JwtLock) : ℕ := if lock = a then 1 else 0

theorem Legal.rank (h : Legal task) {a b : JwtLock} (hab : a ≠ b) (hnone : ¬ Between a b task)
    (hwants : task.Wants lock mode) : ∀ q ∈ task.held, lastRank a q.1 < lastRank a lock := by
  intro q hq
  -- a task that waits with a lock is between the two, so it is in the other order
  have hbetween : mode = .write ∧ q.1 ≠ lock := by
    obtain ⟨next, hnext⟩ := hwants
    cases h with
    | ended held => cases hnext
    | begun op => cases hq
    | validating | revoking =>
      cases hnext
      obtain rfl := mem_singleton.mp hq
      exact ⟨rfl, by decide⟩
  obtain ⟨rfl, hne⟩ := hbetween
  have hother : ¬ (q.1 = a ∧ lock = b) := by
    rintro ⟨rfl, rfl⟩
    exact hnone ⟨hwants, q, hq, rfl⟩
  have hall : ∀ a b held lock : JwtLock, a ≠ b → held ≠ lock → ¬ (held = a ∧ lock = b) → lastRank a held < lastRank a lock := by
    intro a b held lock
    cases a <;> cases b <;> cases held <;> cases lock <;> decide
  exact hall a b q.1 lock hab hne hother

theorem cycle_iff_crossed (hlegal : ∀ i, Legal (s i)) : Cycle s ↔ Crossed s := by
  constructor
  · intro hcycle
    by_contra hcrossed
    by_cases hvalidating : ∃ i, Between .revokedTokens .sessions (s i)
    · have hnone : ∀ j, ¬ Between .sessions .revokedTokens (s j) := fun j hj => hcrossed ⟨hvalidating, j, hj⟩
      exact not_cycle_of_rank (lastRank .sessions) (fun i _ _ hwants => (hlegal i).rank (by decide) (hnone i) hwants) hcycle
    · have hnone : ∀ i, ¬ Between .revokedTokens .sessions (s i) := fun i hi => hvalidating ⟨i, hi⟩
      exact not_cycle_of_rank (lastRank .revokedTokens) (fun i _ _ hwants => (hlegal i).rank (by decide) (hnone i) hwants) hcycle
  · rintro ⟨⟨i, hi⟩, j, hj⟩
    exact cycle_of_between (by decide) hi hj

end States

section Runs

variable [DecidableEq ι] {s : ι → LockTask JwtLock} {i : ι}

theorem legal_update (hlegal : ∀ i, Legal (s i)) (htask : Legal task) (j : ι) :
    Legal (update s i task j) := by
  by_cases hj : j = i
  · subst hj
    rw [update_self]
    exact htask
  · rw [update_of_ne hj]
    exact hlegal j

theorem crossed_of_update (hnone : ∀ a b, ¬ Between a b task)
    (h : Crossed (update s i task)) : Crossed s := by
  have hold : ∀ {a b j}, Between a b (update s i task j) → Between a b (s j) := by
    intro a b j hj
    by_cases hji : j = i
    · subst hji
      rw [update_self] at hj
      exact absurd hj (hnone a b)
    · rwa [update_of_ne hji] at hj
  obtain ⟨⟨j, hj⟩, k, hk⟩ := h
  exact ⟨⟨j, hold hj⟩, k, hold hk⟩

theorem crossed_taken_iff {found : Bool}
    (hrest : (s i).rest = .acquire lock mode next) (hlegal : ∀ i, Legal (s i)) (h : ¬ Crossed s) :
    ¬ Crossed (update s i ⟨(lock, mode) :: (s i).held, next found⟩) ↔
      ∀ other, Between lock other ⟨(lock, mode) :: (s i).held, next found⟩ → ∀ j, ¬ Between other lock (s j) := by
  have htask : Legal ⟨(lock, mode) :: (s i).held, next found⟩ := by
    apply Legal.advance
    rw [← hrest]
    exact hlegal i
  constructor
  · intro hcrossed other htaken j hj
    obtain ⟨-, hne, hheld⟩ := htask.between htaken
    have hji : j ≠ i := by
      rintro rfl
      obtain ⟨q, hq, -⟩ := hj.2
      rw [hheld] at hq
      cases hq
    -- the two tasks are between the locks in the two orders
    apply hcrossed
    have hi' : Between lock other (update s i ⟨(lock, mode) :: (s i).held, next found⟩ i) := by
      rw [update_self]
      exact htaken
    have hj' : Between other lock (update s i ⟨(lock, mode) :: (s i).held, next found⟩ j) := by
      rw [update_of_ne hji]
      exact hj
    cases lock <;> cases other
    · exact absurd rfl hne
    · exact ⟨⟨j, hj'⟩, i, hi'⟩
    · exact ⟨⟨i, hi'⟩, j, hj'⟩
    · exact absurd rfl hne
  · intro horder hcrossed
    by_cases hbetween : ∃ other, Between lock other ⟨(lock, mode) :: (s i).held, next found⟩
    · obtain ⟨other, htaken⟩ := hbetween
      obtain ⟨-, hne, -⟩ := htask.between htaken
      have hnone : ∀ j, ¬ Between other lock (update s i ⟨(lock, mode) :: (s i).held, next found⟩ j) := by
        intro j hj
        by_cases hji : j = i
        · subst hji
          rw [update_self] at hj
          exact hne (htask.between hj).1.symm
        · rw [update_of_ne hji] at hj
          exact horder other htaken j hj
      obtain ⟨⟨j, hj⟩, k, hk⟩ := hcrossed
      cases lock <;> cases other
      · exact hne rfl
      · exact hnone j hj
      · exact hnone k hk
      · exact hne rfl
    · have hnone : ∀ a b, ¬ Between a b ⟨(lock, mode) :: (s i).held, next found⟩ := by
        intro a b hab
        obtain ⟨rfl, -, -⟩ := htask.between hab
        exact hbetween ⟨b, hab⟩
      exact h (crossed_of_update hnone hcrossed)

variable [Fintype ι] (m : LockMove ι JwtOperation)

theorem legal_lockStep (hlegal : ∀ i, Legal (s i)) (j : ι) : Legal (lockStep jwtProgram m s j) := by
  cases m with
  | call i op =>
    rcases lockStep_call_cases jwtProgram i op s with hsame | hbegun
    · rw [hsame]
      exact hlegal j
    · rw [hbegun]
      exact legal_update hlegal (.begun op) j
  | advance i found =>
    cases hrest : (s i).rest with
    | done =>
      rw [lockStep_done hrest]
      exact legal_update hlegal (.ended []) j
    | acquire lock mode next =>
      by_cases hfree : Free s i lock mode
      · rw [lockStep_taken hrest hfree]
        apply legal_update hlegal
        apply Legal.advance
        rw [← hrest]
        exact hlegal i
      · rw [lockStep_blocked hrest hfree]
        exact hlegal j

def KeepsOrder (s : ι → LockTask JwtLock) : Prop :=
  match m with
  | .call _ _ => True
  | .advance i found =>
    match (s i).rest with
    | .done => True
    | .acquire lock mode next => Free s i lock mode → ∀ other, Between lock other ⟨(lock, mode) :: (s i).held, next found⟩ →
        ∀ j, ¬ Between other lock (s j)

theorem cycle_lockStep_iff (hlegal : ∀ i, Legal (s i)) (h : ¬ Cycle s) :
    ¬ Cycle (lockStep jwtProgram m s) ↔ KeepsOrder m s := by
  rw [cycle_iff_crossed hlegal] at h
  rw [cycle_iff_crossed (legal_lockStep m hlegal)]
  cases m with
  | call i op =>
    refine iff_of_true ?_ trivial
    rcases lockStep_call_cases jwtProgram i op s with hsame | hbegun
    · rw [hsame]
      exact h
    · rw [hbegun]
      intro hcrossed
      refine h (crossed_of_update ?_ hcrossed)
      rintro a b ⟨-, q, hq, -⟩
      cases hq
  | advance i found =>
    cases hrest : (s i).rest with
    | done =>
      rw [lockStep_done hrest]
      refine iff_of_true (fun hcrossed => h (crossed_of_update ?_ hcrossed)) (by simp only [KeepsOrder, hrest])
      rintro a b ⟨-, q, hq, -⟩
      cases hq
    | acquire lock mode next =>
      simp only [KeepsOrder, hrest]
      by_cases hfree : Free s i lock mode
      · rw [lockStep_taken hrest hfree]
        exact (crossed_taken_iff hrest hlegal h).trans ⟨fun horder _ => horder, fun horder => horder hfree⟩
      · rw [lockStep_blocked hrest hfree]
        exact iff_of_true h (fun htaken => absurd htaken hfree)

theorem no_cycle_throughout_iff {ι : Type} [DecidableEq ι] [Fintype ι] (l : List (LockMove ι JwtOperation)) :
    Throughout (lockStep jwtProgram) (fun s => ¬ Cycle s) l (fun _ => .idle) ↔
      EachStep (lockStep jwtProgram) KeepsOrder l (fun _ => .idle) := by
  have hidle : ∀ _ : ι, Legal .idle := fun _ => .ended []
  have hstart : ¬ Cycle (fun _ : ι => (LockTask.idle : LockTask JwtLock)) := by
    rw [cycle_iff_crossed hidle]
    rintro ⟨⟨i, -, q, hq, -⟩, -⟩
    cases hq
  have hkeep : ∀ (m : LockMove ι JwtOperation) (s : ι → LockTask JwtLock), True → (∀ i, Legal (s i)) →
      ∀ i, Legal (lockStep jwtProgram m s i) := fun m _ _ hlegal => legal_lockStep m hlegal
  exact throughout_iff hkeep (fun m _ _ hlegal h => cycle_lockStep_iff m hlegal h) (fun _ _ => trivial) hidle hstart

def crossingRun : List (LockMove Bool JwtOperation) :=
  [.call false .validateToken, .call true .revokeSession, .advance false false, .advance true true]

theorem validation_and_revocation_cycle : Cycle (last (lockStep jwtProgram) crossingRun (fun _ => .idle)) := by
  have hvalidating : Between .revokedTokens .sessions (last (lockStep jwtProgram) crossingRun (fun _ => .idle) false) :=
    ⟨⟨_, rfl⟩, (.revokedTokens, .read), mem_singleton_self _, rfl⟩
  have hrevoking : Between .sessions .revokedTokens (last (lockStep jwtProgram) crossingRun (fun _ => .idle) true) :=
    ⟨⟨_, rfl⟩, (.sessions, .write), mem_singleton_self _, rfl⟩
  exact cycle_of_between (by decide) hvalidating hrevoking

end Runs

end Basilica.Miner
