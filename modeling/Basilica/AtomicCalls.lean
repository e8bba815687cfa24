import Mathlib

/-!
Programs that talk to a server by calls, each answered in one step. The program is a tree, so that it can be
run alone, run with calls that fail, stopped after some calls or interleaved with other programs.
-/

namespace Basilica.AtomicCalls

inductive Calls (C : Type) (R : C → Type) (ε α : Type)
  | done (result : Except ε α)
  | call (c : C) (next : Except ε (R c) → Calls C R ε α)

abbrev Server (C : Type) (R : C → Type) (ε σ : Type) := (c : C) → σ → Except ε (R c) × σ

namespace Calls

variable {C : Type} {R : C → Type} {ε α β σ : Type}

def bind (p : Calls C R ε α) (f : α → Calls C R ε β) : Calls C R ε β :=
  match p with
  | done (.ok a) => f a
  | done (.error e) => done (.error e)
  | call c next => call c (fun r => (next r).bind f)

instance : Monad (Calls C R ε) where
  pure a := done (.ok a)
  bind := bind

def fail (e : ε) : Calls C R ε α := done (.error e)

def ofExcept (x : Except ε α) : Calls C R ε α := done x

def ofOption (e : ε) : Option α → Calls C R ε α
  | some a => pure a
  | none => fail e

def ask (c : C) : Calls C R ε (R c) := call c done

def catching : Calls C R ε α → Calls C R ε (Except ε α)
  | done r => done (.ok r)
  | call c next => call c (fun r => (next r).catching)

def result? : Calls C R ε α → Option (Except ε α)
  | done r => some r
  | call _ _ => none

variable {p : Calls C R ε α} {r : Except ε α}

theorem result?_eq_some : p.result? = some r ↔ p = done r := by
  cases p <;> simp [result?]

def EachCall (P : C → Prop) : Calls C R ε α → Prop
  | done _ => True
  | call c next => P c ∧ ∀ r, EachCall P (next r)

variable {c : C} {P : C → Prop}

section EachCall

theorem eachCall_ask (h : P c) : EachCall P (ask c : Calls C R ε (R c)) := ⟨h, fun _ => trivial⟩

theorem EachCall.mono {Q : C → Prop} (hp : EachCall P p) (h : ∀ c, P c → Q c) : EachCall Q p := by
  induction p with
  | done r => trivial
  | call c next ih => exact ⟨h c hp.1, fun r => ih r (hp.2 r)⟩

theorem EachCall.bind {f : α → Calls C R ε β} (hp : EachCall P p) (hf : ∀ a, EachCall P (f a)) :
    EachCall P (p >>= f) := by
  change EachCall P (p.bind f)
  induction p with
  | done r =>
    cases r with
    | ok a => exact hf a
    | error e => trivial
  | call c next ih => exact ⟨hp.1, fun r => ih r (hp.2 r)⟩

theorem EachCall.catching (hp : EachCall P p) : EachCall P p.catching := by
  induction p with
  | done r => trivial
  | call c next ih => exact ⟨hp.1, fun r => ih r (hp.2 r)⟩

end EachCall

variable {τ : Type}

section Run

variable (serve : Server C R ε σ)

def run : Calls C R ε α → σ → Except ε α × σ
  | done r, s => (r, s)
  | call c next, s => run (next (serve c s).1) (serve c s).2

@[simp] theorem run_pure (a : α) (s : σ) : run serve (pure a) s = (.ok a, s) := rfl

@[simp] theorem run_ofExcept (x : Except ε α) (s : σ) : run serve (ofExcept x) s = (x, s) := rfl

@[simp] theorem run_ofOption_some (e : ε) (a : α) (s : σ) : run serve (ofOption e (some a)) s = (.ok a, s) := rfl

@[simp] theorem run_ofOption_none (e : ε) (s : σ) : run serve (ofOption e none : Calls C R ε α) s = (.error e, s) := rfl

@[simp] theorem run_ask (c : C) (s : σ) : run serve (ask c) s = serve c s := rfl

theorem run_bind (p : Calls C R ε α) (f : α → Calls C R ε β) (s : σ) :
    run serve (p >>= f) s = match run serve p s with
      | (.ok a, s') => run serve (f a) s'
      | (.error e, s') => (.error e, s') := by
  change run serve (p.bind f) s = _
  induction p generalizing s with
  | done r => cases r <;> rfl
  | call c next ih => exact ih _ _

variable {f : α → Calls C R ε β} {s s' : σ} {a : α}

theorem run_bind_ok (h : run serve p s = (.ok a, s')) : run serve (p >>= f) s = run serve (f a) s' := by
  rw [run_bind, h]

variable {e : ε}

theorem run_bind_error (h : run serve p s = (.error e, s')) : run serve (p >>= f) s = (.error e, s') := by
  rw [run_bind, h]

theorem run_bind_pure (p : Calls C R ε α) (f : α → β) (s : σ) :
    run serve (p >>= fun a => pure (f a)) s = ((run serve p s).1.map f, (run serve p s).2) := by
  rw [run_bind]
  cases run serve p s with
  | mk r s' => cases r <;> rfl

theorem run_bind_snd (g : σ → τ)
    (h : ∀ a s, g (run serve (f a) s).2 = g s) (s : σ) : g (run serve (p >>= f) s).2 = g (run serve p s).2 := by
  cases hp : run serve p s with
  | mk r s' =>
    cases r with
    | ok a =>
      rw [run_bind_ok serve hp]
      exact h a s'
    | error e => rw [run_bind_error serve hp]

@[simp] theorem run_ite (P : Prop) [Decidable P] (p q : Calls C R ε α) (s : σ) :
    run serve (if P then p else q) s = if P then run serve p s else run serve q s := by
  split_ifs <;> rfl

@[simp] theorem run_catching (p : Calls C R ε α) (s : σ) :
    run serve p.catching s = (.ok (run serve p s).1, (run serve p s).2) := by
  induction p generalizing s with
  | done r => rfl
  | call c next ih => exact ih _ _

/-- The program after its first `n` calls, and the state they leave. -/
def advance : ℕ → Calls C R ε α → σ → Calls C R ε α × σ
  | 0, p, s => (p, s)
  | _ + 1, done r, s => (done r, s)
  | n + 1, call c next, s => advance n (next (serve c s).1) (serve c s).2

variable {n : ℕ}

theorem advance_succ {next : Except ε (R c) → Calls C R ε α} (h : advance serve n p s = (call c next, s')) :
    advance serve (n + 1) p s = (next (serve c s').1, (serve c s').2) := by
  induction n generalizing p s with
  | zero =>
    cases h
    rfl
  | succ n ih =>
    cases p with
    | done r => cases h
    | call c₀ next₀ => exact ih h

theorem run_of_advance (h : advance serve n p s = (done r, s')) : run serve p s = (r, s') := by
  induction n generalizing p s with
  | zero =>
    cases h
    rfl
  | succ n ih =>
    cases p with
    | done r' =>
      cases h
      rfl
    | call c next =>
      rw [run]
      exact ih h

def trace : Calls C R ε α → σ → List σ
  | done _, _ => []
  | call c next, s => (serve c s).2 :: trace (next (serve c s).1) (serve c s).2

@[simp] theorem trace_pure (a : α) (s : σ) : trace serve (pure a) s = [] := rfl

@[simp] theorem trace_ofOption (e : ε) (a : Option α) (s : σ) : trace serve (ofOption e a) s = [] := by
  cases a <;> rfl

@[simp] theorem trace_ask (c : C) (s : σ) : trace serve (ask c) s = [(serve c s).2] := rfl

@[simp] theorem trace_catching (p : Calls C R ε α) (s : σ) : trace serve p.catching s = trace serve p s := by
  induction p generalizing s with
  | done r => rfl
  | call c next ih => exact congrArg _ (ih _ _)

theorem trace_bind_ok
    (h : run serve p s = (.ok a, s')) : trace serve (p >>= f) s = trace serve p s ++ trace serve (f a) s' := by
  change trace serve (p.bind f) s = _
  induction p generalizing s with
  | done r =>
    cases h
    rfl
  | call c next ih => exact congrArg _ (ih _ h)

theorem trace_bind_error (h : run serve p s = (.error e, s')) : trace serve (p >>= f) s = trace serve p s := by
  change trace serve (p.bind f) s = _
  induction p generalizing s with
  | done r =>
    cases h
    rfl
  | call c next ih => exact congrArg _ (ih _ h)

theorem run_snd (p : Calls C R ε α) (s : σ) : (run serve p s).2 = (trace serve p s).getLastD s := by
  induction p generalizing s with
  | done r => rfl
  | call c next ih =>
    rw [run, trace, List.getLastD_cons]
    exact ih _ _

theorem advance_snd (n : ℕ) (p : Calls C R ε α) (s : σ) :
    (advance serve n p s).2 = ((trace serve p s).take n).getLastD s := by
  induction n generalizing p s with
  | zero => rfl
  | succ n ih =>
    cases p with
    | done r => rfl
    | call c next =>
      rw [advance, trace, List.take_succ_cons, List.getLastD_cons]
      exact ih _ _

end Run

section Embed

variable {D : Type} {S : D → Type} (f : C → D) (back : ∀ c, S (f c) → R c)

def embed : Calls C R ε α → Calls D S ε α
  | done r => done r
  | call c next => call (f c) (fun r => embed (next (r.map (back c))))

/-- The larger server answers the calls that `f` embeds as the smaller one does, on its part of the state. -/
structure Embeds (serve : Server C R ε σ) (serve' : Server D S ε τ) (part : τ → σ) (put : τ → σ → τ) : Prop where
  put_part : ∀ t, put t (part t) = t
  part_put : ∀ t s, part (put t s) = s
  put_put : ∀ t s s', put (put t s) s' = put t s'
  answer : ∀ c t, (serve' (f c) t).1.map (back c) = (serve c (part t)).1
  state : ∀ c t, (serve' (f c) t).2 = put t (serve c (part t)).2

section

variable {f back} {serve : Server C R ε σ} {serve' : Server D S ε τ} {part : τ → σ} {put : τ → σ → τ}

theorem run_embed (h : Embeds f back serve serve' part put) (p : Calls C R ε α) (t : τ) :
    run serve' (p.embed f back) t = ((run serve p (part t)).1, put t (run serve p (part t)).2) := by
  induction p generalizing t with
  | done r =>
    change (r, t) = (r, put t (part t))
    rw [h.put_part]
  | call c next ih =>
    change run serve' ((next ((serve' (f c) t).1.map (back c))).embed f back) (serve' (f c) t).2 = _
    rw [h.answer, h.state, ih, h.part_put, h.put_put]
    rfl

theorem trace_embed (h : Embeds f back serve serve' part put) (p : Calls C R ε α) (t : τ) :
    trace serve' (p.embed f back) t = (trace serve p (part t)).map (put t) := by
  induction p generalizing t with
  | done r => rfl
  | call c next ih =>
    have hput : put (put t (serve c (part t)).2) = put t := by
      funext s
      exact h.put_put t _ s
    change (serve' (f c) t).2 :: trace serve' ((next ((serve' (f c) t).1.map (back c))).embed f back) (serve' (f c) t).2 = _
    rw [h.answer, h.state, ih, h.part_put, hput]
    rfl

end

theorem EachCall.embed {P : D → Prop} (h : EachCall (fun c => P (f c)) p) : EachCall P (p.embed f back) := by
  induction p with
  | done r => trivial
  | call c next ih => exact ⟨h.1, fun r => ih _ (h.2 _)⟩

end Embed

section Errors

variable {δ : Type}

def answering (serve : Server C R ε σ) : Server C (fun c => Except ε (R c)) δ σ := fun c s =>
  (.ok (serve c s).1, (serve c s).2)

def mapError (f : ε → δ) : Calls C R ε α → Calls C (fun c => Except ε (R c)) δ α
  | done r => done (r.mapError f)
  | call c next => call c (fun
    | .ok answer => (next answer).mapError f
    | .error d => done (.error d))

@[simp] theorem run_mapError (serve : Server C R ε σ) (f : ε → δ) (p : Calls C R ε α) (s : σ) :
    run (answering serve) (p.mapError f) s = ((run serve p s).1.mapError f, (run serve p s).2) := by
  induction p generalizing s with
  | done r => rfl
  | call c next ih =>
    rw [mapError, run, run]
    exact ih _ _

theorem ask_mapError_bind (f : ε → δ) (c : C) (g : R c → Calls C (fun c => Except ε (R c)) δ β) :
    ∃ next, (ask c : Calls C R ε (R c)).mapError f >>= g = call c next ∧ (∀ a, next (.ok (.ok a)) = g a) ∧
      ∀ e, next (.ok (.error e)) = done (.error (f e)) := by
  change ∃ next, ((call c done : Calls C R ε (R c)).mapError f).bind g = call c next ∧ (∀ a, next (.ok (.ok a)) = g a) ∧
    ∀ e, next (.ok (.error e)) = done (.error (f e))
  rw [mapError]
  exact ⟨_, rfl, fun _ => rfl, fun _ => rfl⟩

theorem EachCall.mapError (h : EachCall P p) (f : ε → δ) : EachCall P (p.mapError f) := by
  induction p with
  | done r => trivial
  | call c next ih =>
    rw [Calls.mapError]
    refine ⟨h.1, fun r => ?_⟩
    cases r with
    | ok answer => exact ih _ (h.2 answer)
    | error d => trivial

end Errors

section Faults

variable (serve : Server C R ε σ) (fault : C → ε)

/-- The call `n` of a program fails if `plan n` says so, and then has no effect. -/
def faulty : Server C R ε (σ × (ℕ → Bool)) := fun c s =>
  if s.2 0 then (.error (fault c), (s.1, fun n => s.2 (n + 1)))
  else ((serve c s.1).1, ((serve c s.1).2, fun n => s.2 (n + 1)))

/-- `Q` holds of the outcome whichever calls fail. -/
def Ensures : Calls C R ε α → σ → (Except ε α → σ → Prop) → Prop
  | done r, s, Q => Q r s
  | call c next, s, Q =>
    Ensures (next (.error (fault c))) s Q ∧ Ensures (next (serve c s).1) (serve c s).2 Q

variable {plan : ℕ → Bool}

theorem run_faulty_true (h : plan 0 = true) (c : C) (s : σ) :
    run (faulty serve fault) (ask c) (s, plan) = (.error (fault c), (s, fun n => plan (n + 1))) := by
  rw [run_ask, faulty, if_pos h]

variable {s : σ}

theorem run_faulty_false (h : plan 0 = false) {s' : σ} {r : Except ε (R c)} (hc : run serve (ask c) s = (r, s')) :
    run (faulty serve fault) (ask c) (s, plan) = (r, (s', fun n => plan (n + 1))) := by
  rw [run_ask] at hc
  rw [run_ask, faulty, if_neg (Bool.not_eq_true _ ▸ h), hc]

theorem run_faulty_never (p : Calls C R ε α) (s : σ) :
    run (faulty serve fault) p (s, fun _ => false) = ((run serve p s).1, (run serve p s).2, fun _ => false) := by
  induction p generalizing s with
  | done r => rfl
  | call c next ih => exact ih _ _

variable {serve fault}

theorem Ensures.run {Q : Except ε α → σ → Prop} (h : Ensures serve fault p s Q) (plan : ℕ → Bool) :
    Q (run (faulty serve fault) p (s, plan)).1 (run (faulty serve fault) p (s, plan)).2.1 := by
  induction p generalizing s plan with
  | done r => exact h
  | call c next ih =>
    rw [Calls.run, faulty]
    split_ifs
    · exact ih _ h.1 _
    · exact ih _ h.2 _

section Embed

variable {D : Type} {S : D → Type} {serve' : Server D S ε σ} {fault' : D → ε}

theorem ensures_embed (f : C → D) (back : ∀ c, S (f c) → R c) (hfault : ∀ c, fault' (f c) = fault c)
    (hserve : ∀ c s, (serve' (f c) s).1.map (back c) = (serve c s).1 ∧ (serve' (f c) s).2 = (serve c s).2)
    {s : σ} {Q : Except ε α → σ → Prop} (h : Ensures serve fault p s Q) :
    Ensures serve' fault' (p.embed f back) s Q := by
  induction p generalizing s with
  | done r => exact h
  | call c next ih =>
    obtain ⟨hanswer, hstate⟩ := hserve c s
    constructor
    · rw [hfault]
      exact ih _ h.1
    · beta_reduce
      rw [hanswer, hstate]
      exact ih _ h.2

end Embed

variable {Q : Except ε β → σ → Prop} {f : α → Calls C R ε β}

theorem ensures_bind :
    Ensures serve fault (p >>= f) s Q ↔ Ensures serve fault p s (fun r s' => match r with
      | .ok a => Ensures serve fault (f a) s' Q
      | .error e => Q (.error e) s') := by
  change Ensures serve fault (p.bind f) s Q ↔ _
  induction p generalizing s with
  | done r => cases r <;> rfl
  | call c next ih => exact and_congr (ih _) (ih _)

theorem ensures_ask {Q : Except ε (R c) → σ → Prop} :
    Ensures serve fault (ask c) s Q ↔ Q (.error (fault c)) s ∧ Q (serve c s).1 (serve c s).2 := Iff.rfl

theorem Ensures.mono {Q Q' : Except ε α → σ → Prop}
    (h : Ensures serve fault p s Q) (hQ : ∀ r s, Q r s → Q' r s) : Ensures serve fault p s Q' := by
  induction p generalizing s with
  | done r => exact hQ r s h
  | call c next ih => exact ⟨ih _ h.1, ih _ h.2⟩

theorem Ensures.bind {P : Except ε α → σ → Prop} (hp : Ensures serve fault p s P)
    (hok : ∀ a s', P (.ok a) s' → Ensures serve fault (f a) s' Q)
    (herror : ∀ e s', P (.error e) s' → Q (.error e) s') : Ensures serve fault (p >>= f) s Q := by
  apply ensures_bind.mpr
  apply hp.mono
  intro r s' h
  cases r with
  | ok a => exact hok a s' h
  | error e => exact herror e s' h

theorem Ensures.bind_pure {Q : σ → Prop} (h : Ensures serve fault p s (fun _ s' => Q s')) (f : α → β) :
    Ensures serve fault (p >>= fun a => pure (f a)) s (fun _ s' => Q s') := by
  apply h.bind
  · exact fun _ _ hs => hs
  · exact fun _ _ hs => hs

theorem Ensures.catching {Q : Except ε (Except ε α) → σ → Prop}
    (h : Ensures serve fault p s (fun r s' => Q (.ok r) s')) : Ensures serve fault p.catching s Q := by
  induction p generalizing s with
  | done r => exact h
  | call c next ih => exact ⟨ih _ h.1, ih _ h.2⟩

end Faults

end Calls

end Basilica.AtomicCalls
