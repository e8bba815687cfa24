import Basilica.StepRuns

/-!
Tasks that take read-write locks one after the other and hold them to their end. A task waits for another if it wants
a lock that the other holds in a mode that excludes its own.
-/

namespace Basilica.RwLocks

variable {L ι O : Type}

inductive Mode
  | read
  | write
deriving DecidableEq

def Mode.Excludes (a b : Mode) : Prop := a = .write ∨ b = .write

instance (a b : Mode) : Decidable (a.Excludes b) := inferInstanceAs (Decidable (_ ∨ _))

/-- What a task still takes. What it finds under a lock decides how it goes on. -/
inductive Program (L : Type)
  | done
  | acquire (lock : L) (mode : Mode) (next : Bool → Program L)

structure LockTask (L : Type) where
  held : List (L × Mode)
  rest : Program L

namespace LockTask

def idle : LockTask L := ⟨[], .done⟩

def Wants (task : LockTask L) (lock : L) (mode : Mode) : Prop := ∃ next, task.rest = .acquire lock mode next

theorem Wants.unique {task : LockTask L} {a b : L} {m m' : Mode} (ha : task.Wants a m) (hb : task.Wants b m') : a = b := by
  obtain ⟨next, ha⟩ := ha
  obtain ⟨next', hb⟩ := hb
  rw [ha] at hb
  cases hb
  rfl

end LockTask

variable {s : ι → LockTask L}

section Waiting

def Waits (s : ι → LockTask L) (i j : ι) : Prop :=
  i ≠ j ∧ ∃ lock mode, (s i).Wants lock mode ∧ ∃ h ∈ (s j).held, h.1 = lock ∧ mode.Excludes h.2

def Cycle (s : ι → LockTask L) : Prop := ∃ i, Relation.TransGen (Waits s) i i

theorem Waits.wants {i j : ι} (h : Waits s i j) : ∃ lock mode, (s i).Wants lock mode := by
  obtain ⟨-, lock, mode, hwants, -⟩ := h
  exact ⟨lock, mode, hwants⟩

theorem rank_lt_of_transGen (rank : L → ℕ) (hrank : ∀ i lock mode, (s i).Wants lock mode → ∀ h ∈ (s i).held, rank h.1 < rank lock)
    {i j : ι} (h : Relation.TransGen (Waits s) i j) {a b : L} {m m' : Mode} (ha : (s i).Wants a m) (hb : (s j).Wants b m') :
    rank a < rank b := by
  have hone : ∀ {i j a b m m'}, Waits s i j → (s i).Wants a m → (s j).Wants b m' → rank a < rank b := by
    intro i j a b m m' hwaits ha hb
    obtain ⟨-, lock, mode, hwants, held, hheld, hlock, -⟩ := hwaits
    rw [ha.unique hwants, ← hlock]
    exact hrank j b m' hb held hheld
  induction h generalizing b m' with
  | single hwaits => exact hone hwaits ha hb
  | tail hpath hwaits ih =>
    obtain ⟨lock, mode, hwants⟩ := hwaits.wants
    exact (ih hwants).trans (hone hwaits hwants hb)

theorem not_cycle_of_rank (rank : L → ℕ)
    (hrank : ∀ i lock mode, (s i).Wants lock mode → ∀ h ∈ (s i).held, rank h.1 < rank lock) : ¬ Cycle s := by
  rintro ⟨i, hcycle⟩
  obtain ⟨j, hwaits, -⟩ := Relation.TransGen.head'_iff.mp hcycle
  obtain ⟨lock, mode, hwants⟩ := hwaits.wants
  exact lt_irrefl _ (rank_lt_of_transGen rank hrank hcycle hwants hwants)

/-- The task holds `a` while it wants to write `b`. -/
def Between (a b : L) (task : LockTask L) : Prop := task.Wants b .write ∧ ∃ h ∈ task.held, h.1 = a

theorem cycle_of_between {a b : L} (hab : a ≠ b) {i j : ι} (hi : Between a b (s i)) (hj : Between b a (s j)) : Cycle s := by
  have hij : i ≠ j := by
    rintro rfl
    exact hab (hj.1.unique hi.1)
  have hwaits : ∀ {i j a b}, i ≠ j → Between a b (s i) → Between b a (s j) → Waits s i j := by
    intro i j a b hij hi hj
    obtain ⟨h, hheld, hlock⟩ := hj.2
    exact ⟨hij, b, .write, hi.1, h, hheld, hlock, Or.inl rfl⟩
  exact ⟨i, Relation.TransGen.tail (.single (hwaits hij hi hj)) (hwaits hij.symm hj hi)⟩

end Waiting

section Steps

variable [DecidableEq ι] [Fintype ι] [DecidableEq L]

def Free (s : ι → LockTask L) (i : ι) (lock : L) (mode : Mode) : Prop :=
  ∀ j, j ≠ i → ∀ h ∈ (s j).held, h.1 = lock → ¬ mode.Excludes h.2

instance (s : ι → LockTask L) (i : ι) (lock : L) (mode : Mode) : Decidable (Free s i lock mode) :=
  inferInstanceAs (Decidable (∀ j, j ≠ i → ∀ h ∈ (s j).held, h.1 = lock → ¬ mode.Excludes h.2))

/-- A task begins an operation, or goes on with its own: it takes the lock it wants if it can, and a task that wants none ends. -/
inductive LockMove (ι O : Type)
  | call (i : ι) (op : O)
  | advance (i : ι) (found : Bool)

def lockStep (program : O → Program L) : LockMove ι O → (ι → LockTask L) → ι → LockTask L
  | .call i op, s =>
    match (s i).rest, (s i).held with
    | .done, [] => Function.update s i ⟨[], program op⟩
    | _, _ => s
  | .advance i found, s =>
    match (s i).rest with
    | .done => Function.update s i .idle
    | .acquire lock mode next =>
      if Free s i lock mode then Function.update s i ⟨(lock, mode) :: (s i).held, next found⟩ else s

variable {program : O → Program L} {i : ι} {found : Bool} {lock : L} {mode : Mode} {next : Bool → Program L}

theorem lockStep_call_cases (program : O → Program L) (i : ι) (op : O) (s : ι → LockTask L) :
    lockStep program (.call i op) s = s ∨ lockStep program (.call i op) s = Function.update s i ⟨[], program op⟩ := by
  cases hrest : (s i).rest with
  | acquire lock mode next =>
    left
    simp only [lockStep, hrest]
  | done =>
    cases hheld : (s i).held with
    | nil =>
      right
      simp only [lockStep, hrest, hheld]
    | cons h held =>
      left
      simp only [lockStep, hrest, hheld]

theorem lockStep_done (h : (s i).rest = .done) : lockStep program (.advance i found) s = Function.update s i .idle := by
  simp only [lockStep, h]

theorem lockStep_taken (h : (s i).rest = .acquire lock mode next) (hfree : Free s i lock mode) :
    lockStep program (.advance i found) s = Function.update s i ⟨(lock, mode) :: (s i).held, next found⟩ := by
  simp only [lockStep, h, hfree, ↓reduceIte]

theorem lockStep_blocked (h : (s i).rest = .acquire lock mode next) (hfree : ¬ Free s i lock mode) :
    lockStep program (.advance i found) s = s := by
  simp only [lockStep, h, hfree, ↓reduceIte]

end Steps

end Basilica.RwLocks
