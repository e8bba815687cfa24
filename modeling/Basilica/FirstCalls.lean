import Basilica.Fleets

/-!
A fleet that is watched: for each member it is noted what the first call of its current round found.
-/

namespace Basilica.FirstCalls

open AtomicCalls Calls Fleets StepRuns Function

variable {C ε α σ ι F M : Type} {R : C → Type}

def Opens (P : C → Prop) : Calls C R ε α → Prop
  | .done _ => True
  | .call c _ => P c

variable {p : Calls C R ε α}

theorem Opens.bind {β : Type} {P : C → Prop} {f : α → Calls C R ε β} (hp : Opens P p) (hf : ∀ a, Opens P (f a)) :
    Opens P (p >>= f) := by
  cases p with
  | done r =>
    cases r with
    | ok a => exact hf a
    | error e => trivial
  | call c next => exact hp

theorem opens_of_eachCall {P : C → Prop} (h : EachCall P p) : Opens P p := by
  cases p with
  | done r => trivial
  | call c next => exact h.1

theorem opens_ask {β δ : Type} {P : C → Prop} {c : C} (h : P c) (f : ε → δ) (g : R c → Calls C (fun c => Except ε (R c)) δ β) :
    Opens P ((ask c : Calls C R ε (R c)).mapError f >>= g) := by
  obtain ⟨next, hnext, -⟩ := ask_mapError_bind f c g
  rw [hnext]
  exact h

theorem Opens.mapError {δ : Type} {P : C → Prop} (h : Opens P p) (f : ε → δ) : Opens P (p.mapError f) := by
  cases p with
  | done r => trivial
  | call c next =>
    rw [Calls.mapError]
    exact h

structure Watched (C : Type) (R : C → Type) (ε α σ ι F : Type) where
  fleet : Fleet C R ε α σ ι
  first : ι → Option (F × σ)

section Watch

variable [DecidableEq ι] (S : System C R ε α σ ι F M)

def unwatched (db : σ) : Watched C R ε α σ ι F := ⟨start S db, fun _ => none⟩

def noted (i : ι) (fault : F) (w : Watched C R ε α σ ι F) : Option (F × σ) :=
  match w.fleet.rest i with
  | .done _ => none
  | .call c _ =>
    match S.desk fault c w.fleet.db with
    | some _ => (w.first i).or (some (fault, w.fleet.db))
    | none => w.first i

def watch (m : Move ι F M) (w : Watched C R ε α σ ι F) : Watched C R ε α σ ι F :=
  ⟨step S m w.fleet, match m with
    | .answer i fault => update w.first i (noted S i fault w)
    | .restart i => update w.first i none
    | .world _ => w.first⟩

end Watch

variable {S : System C R ε α σ ι F M} {P : ι → F × σ → C → Prop} {w : Watched C R ε α σ ι F}

def Kept (S : System C R ε α σ ι F M) (P : ι → F × σ → C → Prop) (i : ι) (first : Option (F × σ)) (rest : Calls C R ε α) : Prop :=
  match first with
  | none => rest = S.program i
  | some seen => EachCall (P i seen) rest

theorem Kept.answered {i : ι} {fault : F} {c : C} {next : Except ε (R c) → Calls C R ε α} {r : Except ε (R c)} {db : σ}
    (h : Kept S P i (w.first i) (w.fleet.rest i)) (hrest : w.fleet.rest i = call c next)
    (hdesk : S.desk fault c w.fleet.db = some (r, db))
    (hfirst : w.first i = none → S.program i = call c next → EachCall (P i (fault, w.fleet.db)) (next r)) :
    Kept S P i (noted S i fault w) (next r) := by
  have hnoted : noted S i fault w = (w.first i).or (some (fault, w.fleet.db)) := by
    simp only [noted, hrest, hdesk]
  rw [hnoted]
  rw [hrest] at h
  cases hseen : w.first i with
  | none =>
    rw [hseen] at h
    exact hfirst hseen h.symm
  | some seen =>
    rw [hseen] at h
    exact h.2 r

variable [DecidableEq ι] {ok : Move ι F M → Watched C R ε α σ ι F → Prop}

theorem kept_watch (hagain : ∀ i r, S.again i r = S.program i)
    (hfirst : ∀ w i fault c next r db, ok (.answer i fault) w → w.first i = none → S.program i = call c next →
      S.desk fault c w.fleet.db = some (r, db) → EachCall (P i (fault, w.fleet.db)) (next r))
    (m : Move ι F M) (h : ∀ i, Kept S P i (w.first i) (w.fleet.rest i)) (hok : ok m w) (i : ι) :
    Kept S P i ((watch S m w).first i) ((watch S m w).fleet.rest i) := by
  have hupdate : ∀ j first p, Kept S P j first p → Kept S P i (update w.first j first i) (update w.fleet.rest j p i) := by
    intro j first p hp
    by_cases hi : i = j
    · subst hi
      rw [update_self, update_self]
      exact hp
    · rw [update_of_ne hi, update_of_ne hi]
      exact h i
  cases m with
  | world m => exact h i
  | restart j => exact hupdate j none _ rfl
  | answer j fault =>
    change Kept S P i (update w.first j (noted S j fault w) i) ((step S (.answer j fault) w.fleet).rest i)
    cases hrest : w.fleet.rest j with
    | done r =>
      have hnoted : noted S j fault w = none := by
        simp only [noted, hrest]
      rw [step_done hrest, hnoted]
      exact hupdate j none _ (hagain j r)
    | call c next =>
      cases hdesk : S.desk fault c w.fleet.db with
      | none =>
        have hnoted : noted S j fault w = w.first j := by
          simp only [noted, hrest, hdesk]
        rw [step_waiting hrest hdesk, hnoted, update_eq_self]
        exact h i
      | some answer =>
        rw [step_call hrest hdesk]
        apply hupdate
        exact (h j).answered hrest hdesk (fun hseen hprogram => hfirst w j fault c next _ _ hok hseen hprogram hdesk)

theorem eachStep_watch (hagain : ∀ i r, S.again i r = S.program i)
    (hfirst : ∀ w i fault c next r db, ok (.answer i fault) w → w.first i = none → S.program i = call c next →
      S.desk fault c w.fleet.db = some (r, db) → EachCall (P i (fault, w.fleet.db)) (next r))
    {l : List (Move ι F M)} (db : σ) (hl : EachStep (watch S) ok l (unwatched S db)) :
    EachStep (watch S) (fun m w => ∀ i fault c next, m = .answer i fault → w.fleet.rest i = call c next →
      S.program i = call c next ∨ ∃ seen, w.first i = some seen ∧ P i seen c) l (unwatched S db) := by
  have hstart : ∀ i, Kept S P i ((unwatched S db).first i) ((unwatched S db).fleet.rest i) := fun _ => rfl
  refine eachStep_of_step (I := fun w => ∀ i, Kept S P i (w.first i) (w.fleet.rest i)) ?_ ?_ hstart hl
  · intro m w h hok
    exact kept_watch hagain hfirst m h hok
  · intro m w h hok i fault c next hm hrest
    have hi := h i
    rw [hrest] at hi
    cases hseen : w.first i with
    | none =>
      rw [hseen] at hi
      exact Or.inl hi.symm
    | some seen =>
      rw [hseen] at hi
      exact Or.inr ⟨seen, rfl, hi.1⟩

end Basilica.FirstCalls
