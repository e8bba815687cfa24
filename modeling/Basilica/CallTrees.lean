import Mathlib

namespace Basilica.CallTrees

open List

variable {β ι σ ε : Type}

/-- What an entry point does up to its first external call: it reverts, returns, or hands control to
the account it pays. In the last case its own frame fails when that account fails. -/
inductive Outcome (σ ε : Type)
  | revert (error : ε)
  | done (state : σ)
  | pay (state : σ)

def Outcome.next : Outcome σ ε → Option σ
  | .revert _ => none
  | .done s => some s
  | .pay s => some s

/-- The calls that one frame makes, in order. The payee of `c` behaves as `hook` if it gets control,
and `frame` opens a nested frame, whose writes are lost when it fails. -/
inductive Script (ι : Type)
  | stop (ok : Bool)
  | call (c : ι) (hook rest : Script ι)
  | frame (inner rest : Script ι)

def run (enter : ι → σ → Outcome σ ε) : Script ι → σ → Option σ
  | .stop ok, s => if ok then some s else none
  | .call c hook rest, s =>
    match enter c s with
    | .revert _ => run enter rest s
    | .done s' => run enter rest s'
    | .pay s' => run enter rest ((run enter hook s').getD s)
  | .frame inner rest, s => run enter rest ((run enter inner s).getD s)

/-- Every state that some account can read while the script runs. Frames that fail later are
included, since their code has seen the state before it was rolled back. -/
def observed (enter : ι → σ → Outcome σ ε) : Script ι → σ → List σ
  | .stop _, s => [s]
  | .call c hook rest, s =>
    s :: match enter c s with
      | .revert _ => observed enter rest s
      | .done s' => observed enter rest s'
      | .pay s' => observed enter hook s' ++ observed enter rest ((run enter hook s').getD s)
  | .frame inner rest, s =>
    observed enter inner s ++ observed enter rest ((run enter inner s).getD s)

def Guarded (enter : ι → σ → Outcome σ ε) (G : ι → σ → Prop) : Script ι → σ → Prop
  | .stop _, _ => True
  | .call c hook rest, s =>
    G c s ∧ match enter c s with
      | .revert _ => Guarded enter G rest s
      | .done s' => Guarded enter G rest s'
      | .pay s' => Guarded enter G hook s' ∧ Guarded enter G rest ((run enter hook s').getD s)
  | .frame inner rest, s =>
    Guarded enter G inner s ∧ Guarded enter G rest ((run enter inner s).getD s)

instance decidableGuarded (enter : ι → σ → Outcome σ ε) (G : ι → σ → Prop) [∀ c s, Decidable (G c s)] :
    (p : Script ι) → (s : σ) → Decidable (Guarded enter G p s)
  | .stop _, _ => .isTrue trivial
  | .call c hook rest, s =>
    have := decidableGuarded enter G hook
    have := decidableGuarded enter G rest
    match h : enter c s with
    | .revert _ => decidable_of_iff (G c s ∧ Guarded enter G rest s) (by simp [Guarded, h])
    | .done s' => decidable_of_iff (G c s ∧ Guarded enter G rest s') (by simp [Guarded, h])
    | .pay s' =>
      decidable_of_iff (G c s ∧ Guarded enter G hook s' ∧
        Guarded enter G rest ((run enter hook s').getD s)) (by simp [Guarded, h])
  | .frame inner rest, s =>
    have := decidableGuarded enter G inner
    have := decidableGuarded enter G rest
    inferInstanceAs (Decidable (_ ∧ _))

theorem guarded_of_forall (enter : ι → σ → Outcome σ ε) {G : ι → σ → Prop} (hG : ∀ c s, G c s)
    (p : Script ι) (s : σ) : Guarded enter G p s := by
  induction p generalizing s with
  | stop ok => trivial
  | call c hook rest ihhook ihrest =>
    refine ⟨hG c s, ?_⟩
    cases enter c s with
    | revert e => exact ihrest s
    | done s' => exact ihrest s'
    | pay s' => exact ⟨ihhook s', ihrest _⟩
  | frame inner rest ihinner ihrest => exact ⟨ihinner s, ihrest _⟩

theorem getD_invariant {Inv : σ → Prop} {o : Option σ} {s : σ} (hs : Inv s)
    (ho : ∀ t, o = some t → Inv t) : Inv (o.getD s) := by
  cases o with
  | none => exact hs
  | some t => exact ho t rfl

section Invariants

variable {enter : ι → σ → Outcome σ ε} {G : ι → σ → Prop} {Seen Inv : σ → Prop}

theorem script_invariant (hstep : ∀ c s s', Seen s → Inv s → G c s → (enter c s).next = some s' → Inv s')
    (p : Script ι) (s : σ) (hs : Inv s) (hg : Guarded enter G p s)
    (hseen : ∀ t ∈ observed enter p s, Seen t) :
    (∀ t ∈ observed enter p s, Inv t) ∧ ∀ t, run enter p s = some t → Inv t := by
  induction p generalizing s with
  | stop ok =>
    refine ⟨fun t ht => ?_, fun t ht => ?_⟩
    · rw [mem_singleton.mp ht]; exact hs
    · cases ok <;> simp only [run, Bool.false_eq_true, ↓reduceIte, reduceCtorEq, Option.some.injEq] at ht
      exact ht ▸ hs
  | call c hook rest ihhook ihrest =>
    obtain ⟨hc, hg⟩ := hg
    simp only [observed, run, forall_mem_cons] at hseen ⊢
    obtain ⟨hhere, hseen⟩ := hseen
    have hnext := hstep c s
    cases he : enter c s with
    | revert e =>
      simp only [he] at hg hseen
      have hrest := ihrest s hs hg hseen
      exact ⟨⟨hs, hrest.1⟩, hrest.2⟩
    | done s' =>
      simp only [he] at hg hseen
      have hs' : Inv s' := hnext s' hhere hs hc (by rw [he]; rfl)
      have hrest := ihrest s' hs' hg hseen
      exact ⟨⟨hs, hrest.1⟩, hrest.2⟩
    | pay s' =>
      -- The payee runs in the state after the payment. If it fails, the rest starts from `s` again.
      simp only [he] at hg hseen
      obtain ⟨hseenhook, hseenrest⟩ := forall_mem_append.mp hseen
      have hs' : Inv s' := hnext s' hhere hs hc (by rw [he]; rfl)
      have hhook := ihhook s' hs' hg.1 hseenhook
      have hrest := ihrest _ (getD_invariant hs hhook.2) hg.2 hseenrest
      exact ⟨⟨hs, forall_mem_append.mpr ⟨hhook.1, hrest.1⟩⟩, hrest.2⟩
  | frame inner rest ihinner ihrest =>
    obtain ⟨hseeninner, hseenrest⟩ := forall_mem_append.mp hseen
    have hinner := ihinner s hs hg.1 hseeninner
    have hrest := ihrest _ (getD_invariant hs hinner.2) hg.2 hseenrest
    exact ⟨forall_mem_append.mpr ⟨hinner.1, hrest.1⟩, hrest.2⟩

end Invariants

def commit (enter : β → ι → σ → Outcome σ ε) (tx : β × Script ι) (s : σ) : σ :=
  (run (enter tx.1) tx.2 s).getD s

def visited (enter : β → ι → σ → Outcome σ ε) : List (β × Script ι) → σ → List σ
  | [], s => [s]
  | tx :: txs, s => observed (enter tx.1) tx.2 s ++ visited enter txs (commit enter tx s)

def GuardedBy (enter : β → ι → σ → Outcome σ ε) (G : β → ι → σ → Prop) : List (β × Script ι) → σ → Prop
  | [], _ => True
  | tx :: txs, s => Guarded (enter tx.1) (G tx.1) tx.2 s ∧ GuardedBy enter G txs (commit enter tx s)

instance decidableGuardedBy (enter : β → ι → σ → Outcome σ ε) (G : β → ι → σ → Prop)
    [∀ b c s, Decidable (G b c s)] : (txs : List (β × Script ι)) → (s : σ) → Decidable (GuardedBy enter G txs s)
  | [], _ => .isTrue trivial
  | _ :: txs, _ =>
    have := decidableGuardedBy enter G txs
    inferInstanceAs (Decidable (_ ∧ _))

theorem guardedBy_of_forall (enter : β → ι → σ → Outcome σ ε) {G : β → ι → σ → Prop}
    (txs : List (β × Script ι)) (hG : ∀ tx ∈ txs, ∀ c s, G tx.1 c s) (s : σ) : GuardedBy enter G txs s := by
  induction txs generalizing s with
  | nil => trivial
  | cons tx txs ih =>
    exact ⟨guarded_of_forall _ (hG tx (by simp)) _ _, ih (fun t ht => hG t (by simp [ht])) _⟩

theorem visited_invariant {enter : β → ι → σ → Outcome σ ε} {G : β → ι → σ → Prop} {Seen Inv : σ → Prop}
    (hstep : ∀ b c s s', Seen s → Inv s → G b c s → (enter b c s).next = some s' → Inv s')
    (txs : List (β × Script ι)) (s : σ) (hs : Inv s) (hg : GuardedBy enter G txs s)
    (hseen : ∀ t ∈ visited enter txs s, Seen t) : ∀ t ∈ visited enter txs s, Inv t := by
  induction txs generalizing s with
  | nil => simpa [visited] using hs
  | cons tx txs ih =>
    obtain ⟨hseentx, hseentxs⟩ := forall_mem_append.mp hseen
    have htx := script_invariant (hstep tx.1) tx.2 s hs hg.1 hseentx
    have hcommit : Inv (commit enter tx s) := getD_invariant hs htx.2
    exact forall_mem_append.mpr ⟨htx.1, ih _ hcommit hg.2 hseentxs⟩

end Basilica.CallTrees
