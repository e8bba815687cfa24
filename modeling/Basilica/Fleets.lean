import Basilica.AtomicCalls
import Basilica.StepRuns

/-!
Several programs over one state, each repeated for ever, interleaved call by call. The scheduler says which program
has its next call answered and how the answer goes wrong, which program stops and starts anew, and what else happens
to the state.
-/

namespace Basilica.Fleets

open AtomicCalls Calls StepRuns

variable {C ε α σ ι F M : Type} {R : C → Type}

/-- A refused call has no effect, a lost one has its effect; both report an error. -/
inductive Fault
  | none
  | refused
  | lost
deriving DecidableEq

structure System (C : Type) (R : C → Type) (ε α σ ι F M : Type) where
  program : ι → Calls C R ε α
  again : ι → Except ε α → Calls C R ε α := fun i _ => program i
  desk : F → (c : C) → σ → Option (Except ε (R c) × σ)
  world : M → σ → σ

structure Fleet (C : Type) (R : C → Type) (ε α σ ι : Type) where
  db : σ
  rest : ι → Calls C R ε α

inductive Move (ι F M : Type)
  | answer (i : ι) (fault : F)
  | restart (i : ι)
  | world (m : M)

inductive Two
  | first
  | second
deriving DecidableEq

instance : Fintype Two where
  elems := {.first, .second}
  complete := by
    intro i
    cases i <;> decide

def answered (i : ι) (calls : ℕ) (l : List (Move ι Fault M)) : List (Move ι Fault M) :=
  List.replicate calls (.answer i .none) ++ l

variable [DecidableEq ι] (S : System C R ε α σ ι F M)

def start (db : σ) : Fleet C R ε α σ ι := ⟨db, S.program⟩

def startOver (i : ι) (s : Fleet C R ε α σ ι) : Fleet C R ε α σ ι := ⟨s.db, Function.update s.rest i (S.program i)⟩

def goOn (i : ι) (r : Except ε α) (s : Fleet C R ε α σ ι) : Fleet C R ε α σ ι :=
  ⟨s.db, Function.update s.rest i (S.again i r)⟩

def step : Move ι F M → Fleet C R ε α σ ι → Fleet C R ε α σ ι
  | .answer i fault, s =>
    match s.rest i with
    | .done r => goOn S i r s
    | .call c next =>
      match S.desk fault c s.db with
      | some (r, db) => ⟨db, Function.update s.rest i (next r)⟩
      | none => s
  | .restart i, s => startOver S i s
  | .world m, s => ⟨S.world m s.db, s.rest⟩

variable {s : Fleet C R ε α σ ι}

variable {S} {i : ι} {fault : F} {c : C} {next : Except ε (R c) → Calls C R ε α}

theorem step_done {r : Except ε α} (h : s.rest i = done r) : step S (.answer i fault) s = goOn S i r s := by
  rw [step, h]

theorem step_call {r : Except ε (R c)} {db : σ} (h : s.rest i = call c next) (hdesk : S.desk fault c s.db = some (r, db)) :
    step S (.answer i fault) s = ⟨db, Function.update s.rest i (next r)⟩ := by
  simp only [step, h, hdesk]

theorem step_waiting (h : s.rest i = call c next) (hdesk : S.desk fault c s.db = none) :
    step S (.answer i fault) s = s := by
  simp only [step, h, hdesk]

theorem eachCall_step {P : ι → C → Prop} (hprogram : ∀ i, EachCall (P i) (S.program i))
    (hagain : ∀ i r, EachCall (P i) (S.again i r)) (m : Move ι F M) (h : ∀ i, EachCall (P i) (s.rest i)) (i : ι) :
    EachCall (P i) ((step S m s).rest i) := by
  have hupdate : ∀ j p, EachCall (P j) p → EachCall (P i) (Function.update s.rest j p i) := by
    intro j p hp
    by_cases hi : i = j
    · subst hi
      rw [Function.update_self]
      exact hp
    · rw [Function.update_of_ne hi]
      exact h i
  cases m with
  | answer j fault =>
    have hj := h j
    cases hrest : s.rest j with
    | done r =>
      rw [step_done hrest]
      exact hupdate j _ (hagain j r)
    | call c next =>
      rw [hrest] at hj
      cases hdesk : S.desk fault c s.db with
      | none =>
        rw [step_waiting hrest hdesk]
        exact h i
      | some answer =>
        rw [step_call hrest hdesk]
        exact hupdate j _ (hj.2 _)
  | restart j => exact hupdate j _ (hprogram j)
  | world m => exact h i

structure Keeps (S : System C R ε α σ ι F M) (ok : Move ι F M → Fleet C R ε α σ ι → Prop)
    (I : Fleet C R ε α σ ι → Prop) : Prop where
  answer : ∀ (s : Fleet C R ε α σ ι) i fault c next r db, I s → ok (.answer i fault) s → s.rest i = call c next →
    S.desk fault c s.db = some (r, db) → I ⟨db, Function.update s.rest i (next r)⟩
  finished : ∀ (s : Fleet C R ε α σ ι) i r, I s → s.rest i = done r → I (goOn S i r s)
  restart : ∀ (s : Fleet C R ε α σ ι) i, I s → ok (.restart i) s → I (startOver S i s)
  world : ∀ (s : Fleet C R ε α σ ι) m, I s → ok (.world m) s → I ⟨S.world m s.db, s.rest⟩

variable {ok : Move ι F M → Fleet C R ε α σ ι → Prop} {I P : Fleet C R ε α σ ι → Prop}

theorem Keeps.after (h : Keeps S ok I) {m : Move ι F M} (hs : I s) (hok : ok m s) :
    I (step S m s) := by
  cases m with
  | answer i fault =>
    cases hrest : s.rest i with
    | done r =>
      rw [step_done hrest]
      exact h.finished s i r hs hrest
    | call c next =>
      cases hdesk : S.desk fault c s.db with
      | none =>
        rw [step_waiting hrest hdesk]
        exact hs
      | some answer =>
        rw [step_call hrest hdesk]
        exact h.answer s i fault c next _ _ hs hok hrest hdesk
  | restart i => exact h.restart s i hs hok
  | world m => exact h.world s m hs hok

theorem Keeps.throughout (h : Keeps S ok I) (hP : ∀ s, I s → P s) {l : List (Move ι F M)}
    (hs : I s) (hl : EachStep (step S) ok l s) : Throughout (step S) P l s :=
  throughout_of_step (fun _ _ hI hok => h.after hI hok) hP hs hl

end Basilica.Fleets
