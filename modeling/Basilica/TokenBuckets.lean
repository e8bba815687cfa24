import Mathlib

/-!
Token buckets. A bucket holds up to `burst` tokens, gains `rate` of them in a unit of time, and gives one for each call that
it lets pass.
-/

namespace Basilica.TokenBuckets

variable {K : Type} [Field K] [LinearOrder K]

structure Quota (K : Type) where
  rate : K
  burst : K

structure Bucket (K : Type) where
  tokens : K
  updated : K

namespace Quota

variable (q : Quota K)

def full (now : K) : Bucket K := ⟨q.burst, now⟩

def level (now : K) (b : Bucket K) : K := min q.burst (b.tokens + q.rate * (now - b.updated))

def check (now : K) (b : Bucket K) : Bool × Bucket K :=
  if 1 ≤ q.level now b then (true, ⟨q.level now b - 1, now⟩) else (false, ⟨q.level now b, now⟩)

/-- How many calls can still pass between `a` and `c`, as it stands at `now`. -/
def allowance (a c now : K) (b : Bucket K) : K := max 0 (q.level (max a now) b + q.rate * (c - max a now))

variable {q} {b : Bucket K} {a c now t n x : K}

theorem level_le_burst (q : Quota K) (now : K) (b : Bucket K) : q.level now b ≤ q.burst := min_le_left _ _

theorem check_full_self (h : 1 ≤ q.burst) (now : K) : (q.check now (q.full now)).1 = true := by
  have hlevel : q.level now (q.full now) = q.burst := by
    unfold level full
    rw [sub_self, mul_zero, add_zero, min_self]
  rw [check, hlevel, if_pos h]

variable [IsStrictOrderedRing K] (hrate : 0 ≤ q.rate)

theorem level_taken_le (h : n ≤ q.level t b) (x : K) : q.level x ⟨n, t⟩ ≤ q.level x b := by
  have hn : n ≤ b.tokens + q.rate * (t - b.updated) := h.trans (min_le_right _ _)
  refine min_le_min_left _ ?_
  dsimp only
  linarith

include hrate

theorem gain_nonneg (h : t ≤ now) : 0 ≤ q.rate * (now - t) := mul_nonneg hrate (sub_nonneg.mpr h)

theorem level_le_add (h : t ≤ now) : q.level now b ≤ q.level t b + q.rate * (now - t) := by
  rw [level, level, ← min_add_add_right]
  apply min_le_min
  · exact le_add_of_nonneg_right (gain_nonneg hrate h)
  · linarith

theorem allowance_anti (h : t ≤ now) : q.allowance a c now b ≤ q.allowance a c t b := by
  have hlevel := level_le_add hrate (b := b) (max_le_max_left a h)
  apply max_le_max_left
  linarith

theorem allowance_le_full (h : t ≤ now) : q.allowance a c now b ≤ q.allowance a c t (q.full t) := by
  have hfull : q.level (max a t) (q.full t) = q.burst :=
    min_eq_left (le_add_of_nonneg_right (gain_nonneg hrate (le_max_right a t)))
  have hlevel := level_le_burst q (max a now) b
  have hgain := gain_nonneg hrate (max_le_max_left a h)
  apply max_le_max_left
  rw [hfull]
  linarith

theorem allowance_le (hburst : 0 ≤ q.burst) (h : a ≤ c) : q.allowance a c now b ≤ q.burst + q.rate * (c - a) := by
  have hlevel := level_le_burst q (max a now) b
  have hspan := gain_nonneg hrate h
  have hgain := gain_nonneg hrate (le_max_left a now)
  apply max_le <;> linarith

/-- A call that passes in the interval is paid for by the allowance. -/
theorem allowance_check (a c t : K) (b : Bucket K) :
    q.allowance a c t (q.check t b).2 + (if (q.check t b).1 = true ∧ a ≤ t ∧ t ≤ c then 1 else 0) ≤ q.allowance a c t b := by
  have hkept : ∀ n ≤ q.level t b, q.allowance a c t ⟨n, t⟩ ≤ q.allowance a c t b := by
    intro n hn
    apply max_le_max_left
    linarith [level_taken_le hn (max a t)]
  unfold check
  split_ifs with hpass hin hin
  · have ha : max a t = t := max_eq_right hin.2.1
    have htaken : q.level t ⟨q.level t b - 1, t⟩ ≤ q.level t b - 1 :=
      (min_le_right _ _).trans (by rw [sub_self, mul_zero, add_zero])
    have hgain := gain_nonneg hrate hin.2.2
    unfold allowance
    rw [ha, ← le_sub_iff_add_le]
    refine max_le ?_ ?_ <;> linarith [le_max_right 0 (q.level t b + q.rate * (c - t))]
  · rw [add_zero]
    exact hkept _ (by linarith)
  · exact hin.1.elim
  · rw [add_zero]
    exact hkept _ le_rfl

end Quota

end Basilica.TokenBuckets
