import Mathlib

/-!
Runs of a step function over a list of inputs: what holds in every state of a run, and what every input of it
meets in the state it finds.
-/

namespace Basilica.StepRuns

open List

variable {α σ : Type} (step : α → σ → σ)

def Throughout (P : σ → Prop) : List α → σ → Prop
  | [], s => P s
  | a :: l, s => P s ∧ Throughout P l (step a s)

def EachStep (ok : α → σ → Prop) : List α → σ → Prop
  | [], _ => True
  | a :: l, s => ok a s ∧ EachStep ok l (step a s)

instance (ok : α → σ → Prop) [∀ a s, Decidable (ok a s)] (l : List α) (s : σ) : Decidable (EachStep step ok l s) := by
  induction l generalizing s with
  | nil => exact isTrue trivial
  | cons a l ih => exact @instDecidableAnd _ _ _ (ih _)

def last (l : List α) (s : σ) : σ := l.foldl (fun s a => step a s) s

theorem last_append (l l' : List α) (s : σ) : last step (l ++ l') s = last step l' (last step l s) := foldl_append

variable {step} {P I : σ → Prop} {ok : α → σ → Prop} {l : List α} {s : σ}

theorem Throughout.first (h : Throughout step P l s) : P s := by
  cases l with
  | nil => exact h
  | cons a l => exact h.1

theorem Throughout.last (h : Throughout step P l s) : P (last step l s) := by
  induction l generalizing s with
  | nil => exact h
  | cons a l ih => exact ih h.2

variable {ok' : α → σ → Prop}

theorem eachStep_congr (h : ∀ a s, ok a s ↔ ok' a s) (l : List α) (s : σ) :
    EachStep step ok l s ↔ EachStep step ok' l s := by
  induction l generalizing s with
  | nil => exact Iff.rfl
  | cons a l ih => exact and_congr (h a s) (ih _)

variable {allowed : α → Prop}

theorem eachStep_of_forall (h : ∀ a ∈ l, allowed a) (s : σ) : EachStep step (fun a _ => allowed a) l s := by
  induction l generalizing s with
  | nil => trivial
  | cons a l ih =>
    exact ⟨h a mem_cons_self, ih (fun b hb => h b (mem_cons_of_mem _ hb)) _⟩

theorem EachStep.concat {a : α} (h : EachStep step ok l s) (ha : ok a (last step l s)) : EachStep step ok (l ++ [a]) s := by
  induction l generalizing s with
  | nil => exact ⟨ha, trivial⟩
  | cons b l ih => exact ⟨h.1, ih h.2 ha⟩

theorem EachStep.and (h : EachStep step ok l s) (h' : EachStep step ok' l s) :
    EachStep step (fun a s => ok a s ∧ ok' a s) l s := by
  induction l generalizing s with
  | nil => trivial
  | cons a l ih => exact ⟨⟨h.1, h'.1⟩, ih h.2 h'.2⟩

theorem EachStep.mono (h : EachStep step ok l s) (hok : ∀ a s, ok a s → ok' a s) : EachStep step ok' l s := by
  induction l generalizing s with
  | nil => trivial
  | cons a l ih => exact ⟨hok a s h.1, ih h.2⟩

theorem eachStep_of_step (hI : ∀ a s, I s → ok a s → I (step a s)) (hok : ∀ a s, I s → ok a s → ok' a s)
    (hs : I s) (hl : EachStep step ok l s) : EachStep step ok' l s := by
  induction l generalizing s with
  | nil => trivial
  | cons a l ih => exact ⟨hok a s hs hl.1, ih (hI a s hs hl.1) hl.2⟩

theorem throughout_of_step (hI : ∀ a s, I s → ok a s → I (step a s)) (hP : ∀ s, I s → P s)
    (hs : I s) (hl : EachStep step ok l s) : Throughout step P l s := by
  induction l generalizing s with
  | nil => exact hP s hs
  | cons a l ih => exact ⟨hP s hs, ih (hI a s hs hl.1) hl.2⟩

theorem last_of_step (hI : ∀ a s, I s → I (step a s)) (l : List α) (hs : I s) : I (last step l s) := by
  induction l generalizing s with
  | nil => exact hs
  | cons a l ih => exact ih (hI a s hs)

theorem throughout_iff (hI : ∀ a s, allowed a → I s → I (step a s))
    (hstep : ∀ a s, allowed a → I s → P s → (P (step a s) ↔ ok a s)) (hl : ∀ a ∈ l, allowed a)
    (hs : I s) (hP : P s) : Throughout step P l s ↔ EachStep step ok l s := by
  induction l generalizing s with
  | nil => exact iff_of_true hP trivial
  | cons a l ih =>
    have ha := hl a mem_cons_self
    have hrest := fun hP' => ih (fun b hb => hl b (mem_cons_of_mem _ hb)) (hI a s ha hs) hP'
    constructor
    · rintro ⟨-, h⟩
      have hP' := h.first
      exact ⟨(hstep a s ha hs hP).mp hP', (hrest hP').mp h⟩
    · rintro ⟨hok, h⟩
      exact ⟨hP, (hrest ((hstep a s ha hs hP).mpr hok)).mpr h⟩

theorem view_last {ν : Type} {view : σ → ν} {act : α → ν → ν} {own : α → Prop} [DecidablePred own]
    (hown : ∀ a s, own a → ok a s → view (step a s) = act a (view s))
    (hother : ∀ a s, ¬ own a → ok a s → view (step a s) = view s) (h : EachStep step ok l s) :
    view (last step l s) = last act (l.filter own) (view s) := by
  induction l generalizing s with
  | nil => rfl
  | cons a l ih =>
    have hrest : view (last step l (step a s)) = last act (l.filter own) (view (step a s)) := ih h.2
    by_cases ha : own a
    · simp only [filter_cons, ha, decide_true, ↓reduceIte]
      exact hrest.trans (congrArg (last act (l.filter own)) (hown a s ha h.1))
    · simp only [filter_cons, ha, decide_false, Bool.false_eq_true, ↓reduceIte]
      exact hrest.trans (congrArg (last act (l.filter own)) (hother a s ha h.1))

end Basilica.StepRuns

namespace Basilica.LogRules

variable {α : Type}

def Always (P : List α → α → Prop) (log : List α) : Prop :=
  ∀ l x l', log = l ++ x :: l' → P l x

theorem always_nil (P : List α → α → Prop) : Always P [] := by
  intro l x l' h
  simp at h

theorem always_concat {P : List α → α → Prop} {log : List α} {x : α} :
    Always P (log ++ [x]) ↔ Always P log ∧ P log x := by
  constructor
  · intro h
    refine ⟨?_, h log x [] rfl⟩
    intro l y l' hl
    exact h l y (l' ++ [x]) (by simp [hl])
  · rintro ⟨hlog, hx⟩ l y l' hl
    rcases List.eq_nil_or_concat l' with rfl | ⟨m, z, rfl⟩
    · obtain ⟨rfl, hyx⟩ := List.append_inj' hl rfl
      cases hyx
      exact hx
    · have hsplit : log ++ [x] = (l ++ y :: m) ++ [z] := by simpa using hl
      exact hlog l y m (List.append_inj' hsplit rfl).1

end Basilica.LogRules
