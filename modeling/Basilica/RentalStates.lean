import Mathlib

/-!
The states of a rental, their texts, and which states can follow one another.
-/

namespace Basilica.Billing

inductive RentalState
  | pending
  | active
  | suspended
  | terminating
  | completed
  | failed
deriving DecidableEq

instance : Fintype RentalState where
  elems := {.pending, .active, .suspended, .terminating, .completed, .failed}
  complete state := by cases state <;> decide

namespace RentalState

def isTerminal : RentalState → Bool
  | .completed => true
  | .failed => true
  | _ => false

def canTransitionTo : RentalState → RentalState → Bool
  | .pending, .active => true
  | .pending, .failed => true
  | .active, .suspended => true
  | .active, .terminating => true
  | .suspended, .active => true
  | .suspended, .terminating => true
  | .terminating, .completed => true
  | .terminating, .failed => true
  | _, _ => false

def toText : RentalState → String
  | .pending => "pending"
  | .active => "active"
  | .suspended => "suspended"
  | .terminating => "terminating"
  | .completed => "completed"
  | .failed => "failed"

def parseRentalState (text : String) : RentalState :=
  if text = "pending" then .pending
  else if text = "active" then .active
  else if text = "suspended" then .suspended
  else if text = "terminating" then .terminating
  else if text = "completed" then .completed
  else .failed

@[simp] theorem parseRentalState_toText (state : RentalState) : parseRentalState state.toText = state := by
  cases state <;> rfl

def Reaches : RentalState → RentalState → Prop :=
  Relation.ReflTransGen (fun state next => state.canTransitionTo next = true)

def phase : RentalState → ℕ
  | .pending => 0
  | .active => 1
  | .suspended => 1
  | .terminating => 2
  | .completed => 3
  | .failed => 3

def NotBehind (old new : RentalState) : Prop := old = new ∨ old.phase < new.phase ∨ old.phase = 1 ∧ new.phase = 1

instance (old new : RentalState) : Decidable (NotBehind old new) := inferInstanceAs (Decidable (_ ∨ _))

theorem notBehind_step : ∀ {old mid new : RentalState}, NotBehind old mid → mid.canTransitionTo new = true →
    NotBehind old new := by
  decide

theorem exists_chain : ∀ {old new : RentalState}, NotBehind old new → ∃ a b : RentalState,
    (old = a ∨ old.canTransitionTo a = true) ∧ (a = b ∨ a.canTransitionTo b = true) ∧
      (b = new ∨ b.canTransitionTo new = true) := by
  decide

theorem Reaches.step {old mid new : RentalState} (h : Reaches old mid) (hstep : mid = new ∨ mid.canTransitionTo new = true) :
    Reaches old new := by
  rcases hstep with rfl | hstep
  · exact h
  · exact h.tail hstep

theorem reaches_iff {old new : RentalState} : Reaches old new ↔ NotBehind old new := by
  constructor
  · intro h
    induction h with
    | refl => exact Or.inl rfl
    | tail _ hstep ih => exact notBehind_step ih hstep
  · intro h
    obtain ⟨a, b, ha, hb, hnew⟩ := exists_chain h
    have hold : Reaches old old := .refl
    exact ((hold.step ha).step hb).step hnew

theorem Reaches.eq_of_isTerminal {old new : RentalState} (h : Reaches old new) (hterminal : old.isTerminal = true) :
    new = old := by
  have hall : ∀ old new : RentalState, NotBehind old new → old.isTerminal = true → new = old := by decide
  exact hall old new (reaches_iff.mp h) hterminal

end RentalState

end Basilica.Billing
