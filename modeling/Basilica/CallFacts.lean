import Basilica.Fleets

/-!
Facts that programs learn from the answers to their calls. A call may need some facts to hold; a program is justified
if it has learnt them by then.
-/

namespace Basilica.CallFacts

open AtomicCalls Calls Fleets Function

variable {Φ C ε α β σ ι F M : Type} {R : C → Type}

structure Rules (Φ C : Type) (R : C → Type) (ε : Type) where
  needs : C → Set Φ
  tells : (c : C) → Except ε (R c) → Set Φ

variable (rules : Rules Φ C R ε)

/-- From the facts `K` on, every call has what it needs, and `Q` holds of the result and of what is known then. -/
def Justified (K : Set Φ) : Calls C R ε α → (Except ε α → Set Φ → Prop) → Prop
  | done r, Q => Q r K
  | call c next, Q => rules.needs c ⊆ K ∧ ∀ r, Justified (K ∪ rules.tells c r) (next r) Q

abbrev Sound (K : Set Φ) (p : Calls C R ε α) : Prop := Justified rules K p (fun _ _ => True)

variable {rules} {K : Set Φ} {p : Calls C R ε α} {f : α → Calls C R ε β}

theorem Justified.mono {Q Q' : Except ε α → Set Φ → Prop} (h : Justified rules K p Q) (hQ : ∀ r K', Q r K' → Q' r K') :
    Justified rules K p Q' := by
  induction p generalizing K with
  | done r => exact hQ r K h
  | call c next ih => exact ⟨h.1, fun r => ih r (h.2 r)⟩

variable {P : Except ε α → Set Φ → Prop}

theorem Justified.bind {Q : Except ε β → Set Φ → Prop} (hp : Justified rules K p P)
    (hok : ∀ a K', P (.ok a) K' → Justified rules K' (f a) Q) (herror : ∀ e K', P (.error e) K' → Q (.error e) K') :
    Justified rules K (p >>= f) Q := by
  change Justified rules K (p.bind f) Q
  induction p generalizing K with
  | done r =>
    cases r with
    | ok a => exact hok a K hp
    | error e => exact herror e K hp
  | call c next ih => exact ⟨hp.1, fun r => ih r (hp.2 r)⟩

variable {c : C}

theorem justified_ask {Q : Except ε (R c) → Set Φ → Prop} (hneeds : rules.needs c ⊆ K)
    (hQ : ∀ r, Q r (K ∪ rules.tells c r)) : Justified rules K (ask c) Q := ⟨hneeds, hQ⟩

theorem Justified.catching (h : Justified rules K p P) :
    Justified rules K p.catching (fun r K' => ∃ r', r = .ok r' ∧ P r' K') := by
  induction p generalizing K with
  | done r => exact ⟨r, rfl, h⟩
  | call c next ih => exact ⟨h.1, fun r => ih r (h.2 r)⟩

def OnSuccess (φ : Φ) (r : Except ε α) (K : Set Φ) : Prop := ∀ a, r = .ok a → φ ∈ K

section Sequence

variable {φ : Φ}

theorem onSuccess_error {e : ε} : OnSuccess φ (.error e : Except ε α) K := fun _ h => by cases h

theorem Justified.sound {Q : Except ε α → Set Φ → Prop} (h : Justified rules K p Q) : Sound rules K p := h.mono (fun _ _ _ => trivial)

section

variable (hp : Sound rules K p)

include hp

theorem Sound.onSuccess_bind (hf : ∀ a K', Justified rules K' (f a) (OnSuccess φ)) :
    Justified rules K (p >>= f) (OnSuccess φ) :=
  hp.bind (fun a K' _ => hf a K') (fun _ _ _ => onSuccess_error)

theorem Sound.bind (hf : ∀ a K', Sound rules K' (f a)) : Sound rules K (p >>= f) :=
  Justified.bind hp (fun a K' _ => hf a K') (fun _ _ _ => trivial)

theorem Sound.grows : Justified rules K p (fun _ K' => K ⊆ K') := by
  induction p generalizing K with
  | done r => exact fun _ hφ => hφ
  | call c next ih =>
    exact ⟨hp.1, fun r => (ih r (hp.2 r)).mono (fun _ _ hgrows => Set.subset_union_left.trans hgrows)⟩

theorem Sound.bind_of_mem (hφ : φ ∈ K) (hf : ∀ a K', φ ∈ K' → Sound rules K' (f a)) : Sound rules K (p >>= f) :=
  hp.grows.bind (fun a K' hgrows => hf a K' (hgrows hφ)) (fun _ _ _ => trivial)

end

theorem Justified.sound_bind (hp : Justified rules K p (OnSuccess φ)) (hf : ∀ a K', φ ∈ K' → Sound rules K' (f a)) :
    Sound rules K (p >>= f) :=
  hp.bind (fun a K' hφ => hf a K' (hφ a rfl)) (fun _ _ _ => trivial)

theorem sound_ask (hneeds : rules.needs c = ∅) : Sound rules K (ask c) := by
  refine justified_ask ?_ (fun _ => trivial)
  rw [hneeds]
  exact Set.empty_subset K

end Sequence

section Fleet

variable {S : System C R ε α σ ι F M} (Holds : Φ → σ → Prop)

structure Truthful (rules : Rules Φ C R ε) (S : System C R ε α σ ι F M) : Prop where
  tells : ∀ {fault c db r db'}, S.desk fault c db = some (r, db') → ∀ φ ∈ rules.tells c r, Holds φ db'
  keeps : ∀ {fault c db r db'}, S.desk fault c db = some (r, db') → ∀ φ, Holds φ db → Holds φ db'
  world : ∀ m db φ, Holds φ db → Holds φ (S.world m db)

def Informed (rules : Rules Φ C R ε) (s : Fleet C R ε α σ ι) : Prop :=
  ∀ i, ∃ K : Set Φ, (∀ φ ∈ K, Holds φ s.db) ∧ Sound rules K (s.rest i)

variable {Holds} {s : Fleet C R ε α σ ι}

theorem Informed.needs (h : Informed Holds rules s) {i : ι} {next : Except ε (R c) → Calls C R ε α}
    (hcall : s.rest i = call c next) : ∀ φ ∈ rules.needs c, Holds φ s.db := by
  obtain ⟨K, hK, hsound⟩ := h i
  rw [hcall] at hsound
  exact fun φ hφ => hK φ (hsound.1 hφ)

theorem informed_start (hprogram : ∀ i, Sound rules ∅ (S.program i)) (db : σ) : Informed Holds rules (start S db) :=
  fun i => ⟨∅, fun φ hφ => absurd hφ (Set.notMem_empty φ), hprogram i⟩

variable [DecidableEq ι]

theorem Truthful.step (h : Truthful Holds rules S) (m : Move ι F M) {φ : Φ} (hφ : Holds φ s.db) : Holds φ (step S m s).db := by
  cases m with
  | restart i => exact hφ
  | world m => exact h.world m s.db φ hφ
  | answer i fault =>
    cases hrest : s.rest i with
    | done r =>
      rw [step_done hrest]
      exact hφ
    | call c next =>
      cases hdesk : S.desk fault c s.db with
      | none =>
        rw [step_waiting hrest hdesk]
        exact hφ
      | some answer =>
        rw [step_call hrest hdesk]
        exact h.keeps hdesk φ hφ

theorem Informed.step (htruthful : Truthful Holds rules S) (hprogram : ∀ i, Sound rules ∅ (S.program i))
    (hagain : ∀ i r, Sound rules ∅ (S.again i r)) (m : Move ι F M) (h : Informed Holds rules s) :
    Informed Holds rules (step S m s) := by
  have hnothing : ∀ {db : σ}, ∀ φ ∈ (∅ : Set Φ), Holds φ db := fun φ hφ => absurd hφ (Set.notMem_empty φ)
  -- the members that the step does not concern keep what they know
  have hupdate : ∀ {db : σ} {i p}, (∀ φ, Holds φ s.db → Holds φ db) → (∃ K : Set Φ, (∀ φ ∈ K, Holds φ db) ∧ Sound rules K p) →
      Informed Holds rules ⟨db, update s.rest i p⟩ := by
    intro db i p hdb hp j
    by_cases hj : j = i
    · subst hj
      change ∃ K : Set Φ, (∀ φ ∈ K, Holds φ db) ∧ Sound rules K (update s.rest j p j)
      rw [update_self]
      exact hp
    · obtain ⟨K, hK, hsound⟩ := h j
      refine ⟨K, fun φ hφ => hdb φ (hK φ hφ), ?_⟩
      change Sound rules K (update s.rest i p j)
      rw [update_of_ne hj]
      exact hsound
  cases m with
  | restart i => exact hupdate (fun _ hφ => hφ) ⟨∅, hnothing, hprogram i⟩
  | world m =>
    intro i
    obtain ⟨K, hK, hsound⟩ := h i
    exact ⟨K, fun φ hφ => htruthful.world m s.db φ (hK φ hφ), hsound⟩
  | answer i fault =>
    obtain ⟨K, hK, hsound⟩ := h i
    cases hrest : s.rest i with
    | done r =>
      rw [step_done hrest]
      exact hupdate (fun _ hφ => hφ) ⟨∅, hnothing, hagain i r⟩
    | call c next =>
      rw [hrest] at hsound
      cases hdesk : S.desk fault c s.db with
      | none =>
        rw [step_waiting hrest hdesk]
        exact h
      | some answer =>
        rw [step_call hrest hdesk]
        refine hupdate (htruthful.keeps hdesk) ⟨K ∪ rules.tells c answer.1, ?_, hsound.2 answer.1⟩
        rintro φ (hφ | hφ)
        · exact htruthful.keeps hdesk φ (hK φ hφ)
        · exact htruthful.tells hdesk φ hφ

end Fleet

end Basilica.CallFacts
