import Mathlib

namespace Basilica.Decimals

open List

def roundHalfEven (q : ℚ) : ℤ :=
  if q - ⌊q⌋ < 1 / 2 then ⌊q⌋
  else if 1 / 2 < q - ⌊q⌋ then ⌊q⌋ + 1
  else if ⌊q⌋ % 2 = 0 then ⌊q⌋ else ⌊q⌋ + 1

@[simp] theorem roundHalfEven_intCast (n : ℤ) : roundHalfEven n = n := by
  simp [roundHalfEven]

theorem roundHalfEven_eq_iff {q : ℚ} {n : ℤ} : roundHalfEven q = n ↔ |q - n| < 1 / 2 ∨ |q - n| = 1 / 2 ∧ n % 2 = 0 := by
  have hlow := Int.floor_le q
  have hhigh := Int.lt_floor_add_one q
  generalize hk : ⌊q⌋ = k at hlow hhigh
  have hself : roundHalfEven q = if q - k < 1 / 2 then k else if 1 / 2 < q - k then k + 1
      else if k % 2 = 0 then k else k + 1 := by rw [roundHalfEven, hk]
  -- Within a half of `q` there is only its floor, the next integer, or both.
  have hnear : |q - n| ≤ 1 / 2 → n = k ∨ n = k + 1 := by
    intro h
    obtain ⟨hl, hr⟩ := abs_le.mp h
    have hge : (k : ℚ) - 1 < n := by linarith
    have hle : (n : ℚ) < k + 2 := by linarith
    have hge' : k - 1 < n := by exact_mod_cast hge
    have hle' : n < k + 2 := by exact_mod_cast hle
    omega
  have hfloor : |q - k| = q - k := abs_of_nonneg (by linarith)
  have hnext : |q - ((k + 1 : ℤ) : ℚ)| = k + 1 - q := by
    push_cast
    rw [abs_sub_comm, abs_of_nonneg (by linarith)]
  rw [hself]
  constructor
  · intro h
    split_ifs at h with hlt hgt heven <;> subst h
    · left
      rwa [hfloor]
    · left
      rw [hnext]
      linarith
    · right
      refine ⟨?_, heven⟩
      rw [hfloor]
      linarith
    · right
      refine ⟨?_, by omega⟩
      rw [hnext]
      linarith
  · intro h
    have hle : |q - n| ≤ 1 / 2 := by
      rcases h with h | h
      · exact h.le
      · exact h.1.le
    rcases hnear hle with rfl | rfl
    · rw [hfloor] at h
      split_ifs with hlt hgt heven
      · rfl
      · rcases h with h | h <;> linarith [h]
      · rfl
      · rcases h with h | h
        · exact absurd h hlt
        · exact absurd h.2 heven
    · rw [hnext] at h
      split_ifs with hlt hgt heven
      · rcases h with h | h <;> linarith [h]
      · rfl
      · rcases h with h | h
        · linarith
        · omega
      · rfl

theorem abs_roundHalfEven_sub_le (q : ℚ) : |(roundHalfEven q : ℚ) - q| ≤ 1 / 2 := by
  rw [abs_sub_comm]
  rcases roundHalfEven_eq_iff.mp (rfl : roundHalfEven q = _) with h | h
  · exact h.le
  · exact h.1.le

theorem abs_sum_roundHalfEven_sub_le (l : List ℚ) : |((l.map roundHalfEven).sum : ℚ) - l.sum| ≤ l.length / 2 := by
  induction l with
  | nil => simp
  | cons q l ih =>
    have hround := abs_roundHalfEven_sub_le q
    have hsplit : (((q :: l).map roundHalfEven).sum : ℚ) - (q :: l).sum =
        ((roundHalfEven q : ℚ) - q) + (((l.map roundHalfEven).sum : ℚ) - l.sum) := by
      rw [map_cons, sum_cons, sum_cons, Int.cast_add]
      ring
    rw [hsplit, length_cons, Nat.cast_succ]
    linarith [abs_add_le ((roundHalfEven q : ℚ) - q) (((l.map roundHalfEven).sum : ℚ) - l.sum)]

def roundHalfAway (q : ℚ) : ℤ := if 0 ≤ q then ⌊q + 1 / 2⌋ else -⌊-q + 1 / 2⌋

theorem abs_roundHalfAway_sub_le (q : ℚ) : |(roundHalfAway q : ℚ) - q| ≤ 1 / 2 := by
  unfold roundHalfAway
  split_ifs
  · have hle := Int.floor_le (q + 1 / 2)
    have hlt := Int.lt_floor_add_one (q + 1 / 2)
    exact abs_le.mpr ⟨by linarith, by linarith⟩
  · have hle := Int.floor_le (-q + 1 / 2)
    have hlt := Int.lt_floor_add_one (-q + 1 / 2)
    rw [Int.cast_neg]
    exact abs_le.mpr ⟨by linarith, by linarith⟩

@[simp] theorem roundHalfAway_intCast (n : ℤ) : roundHalfAway n = n := by
  have hnear := abs_le.mp (abs_roundHalfAway_sub_le n)
  have hlow : (n : ℚ) - 1 < roundHalfAway n := by linarith
  have hhigh : (roundHalfAway n : ℚ) < n + 1 := by linarith
  have hlow' : n - 1 < roundHalfAway n := by exact_mod_cast hlow
  have hhigh' : roundHalfAway n < n + 1 := by exact_mod_cast hhigh
  omega

def readDigits (cs : List Char) : Option ℕ :=
  cs.foldlM (fun n c => if c.isDigit then some (10 * n + (c.toNat - '0'.toNat)) else none) 0

def readUnsigned (cs : List Char) : Option ℚ :=
  match cs.span (· ≠ '.') with
  | (whole, []) => if whole = [] then none else (readDigits whole).map (fun n => (n : ℚ))
  | (whole, _ :: fraction) =>
    if whole = [] ∧ fraction = [] then none
    else (readDigits (whole ++ fraction)).map (fun n => (n : ℚ) / 10 ^ fraction.length)

def readDecimal (text : String) : Option ℚ :=
  match text.toList with
  | '-' :: cs => (readUnsigned cs).map (fun q => -q)
  | '+' :: cs => readUnsigned cs
  | cs => readUnsigned cs

theorem sum_floor_le (l : List ℚ) : (l.map Int.floor).sum ≤ ⌊l.sum⌋ := by
  induction l with
  | nil => simp
  | cons q l ih =>
    rw [map_cons, sum_cons, sum_cons]
    exact (Int.add_le_add_left ih _).trans (Int.le_floor_add q l.sum)

theorem floor_sum_lt {l : List ℚ} (h : l ≠ []) : ⌊l.sum⌋ < (l.map Int.floor).sum + l.length := by
  induction l with
  | nil => exact absurd rfl h
  | cons q l ih =>
    rw [map_cons, sum_cons, sum_cons, length_cons]
    rcases eq_or_ne l [] with rfl | hl
    · simp
    · have hadd := Int.le_floor_add_floor q l.sum
      have hrest := ih hl
      push_cast
      omega

variable {cs : List Char}

theorem readDigits_of_digits (h : ∀ c ∈ cs, c.isDigit) : readDigits cs = some (Nat.ofDigitChars 10 cs 0) := by
  have hfold (n : ℕ) : cs.foldlM (fun n c => if c.isDigit then some (10 * n + (c.toNat - '0'.toNat)) else none) n =
      some (Nat.ofDigitChars 10 cs n) := by
    induction cs generalizing n with
    | nil => rfl
    | cons c cs ih =>
      rw [foldlM_cons, if_pos (h c mem_cons_self), Nat.ofDigitChars_cons]
      exact ih (fun c hc => h c (mem_cons_of_mem _ hc)) _
  exact hfold 0

theorem ofDigitChars_lt (h : ∀ c ∈ cs, c.isDigit) : Nat.ofDigitChars 10 cs 0 < 10 ^ cs.length := by
  induction cs using reverseRecOn with
  | nil => simp
  | append_singleton cs c ih =>
    have hlt := ih (fun c hc => h c (mem_append_left _ hc))
    have hc : c.toNat - '0'.toNat < 10 := by
      have hdigit := h c (by simp)
      simp only [Char.isDigit, Bool.and_eq_true, decide_eq_true_eq, UInt32.le_iff_toNat_le] at hdigit
      have hle : c.toNat ≤ 57 := hdigit.2
      change c.toNat - 48 < 10
      omega
    rw [Nat.ofDigitChars_append, Nat.ofDigitChars_cons, Nat.ofDigitChars_nil, length_append, length_singleton, pow_succ]
    omega

theorem ofDigitChars_append_div {l r : List Char} (h : ∀ c ∈ r, c.isDigit) :
    Nat.ofDigitChars 10 (l ++ r) 0 / 10 ^ r.length = Nat.ofDigitChars 10 l 0 := by
  rw [Nat.ofDigitChars_append, Nat.ofDigitChars_eq_ofDigitChars_zero, Nat.mul_add_div (by positivity),
    Nat.div_eq_of_lt (ofDigitChars_lt h), add_zero]

variable {c : Char}

theorem ne_of_isDigit {d : Char} (h : c.isDigit) (hd : d.isDigit = false) : c ≠ d := by
  rintro rfl
  exact Bool.false_ne_true (hd.symm.trans h)

variable {p : Char → Bool}

theorem span_of_forall (h : ∀ c ∈ cs, p c) : cs.span p = (cs, []) := by
  rw [span_eq_takeWhile_dropWhile, takeWhile_eq_self_iff.mpr h, dropWhile_eq_nil_iff.mpr h]

theorem span_append_cons (h : ∀ c ∈ cs, p c) (hc : p c = false)
    (rest : List Char) : (cs ++ c :: rest).span p = (cs, c :: rest) := by
  rw [span_eq_takeWhile_dropWhile, takeWhile_append_of_pos h, dropWhile_append_of_pos h]
  simp [hc]

theorem ne_point_of_digits (h : ∀ c ∈ cs, c.isDigit) : ∀ c ∈ cs, decide (c ≠ '.') = true :=
  fun c hc => decide_eq_true (ne_of_isDigit (h c hc) rfl)

theorem readUnsigned_digits (h : ∀ c ∈ cs, c.isDigit) (hne : cs ≠ []) :
    readUnsigned cs = some (Nat.ofDigitChars 10 cs 0 : ℚ) := by
  simp only [readUnsigned, span_of_forall (ne_point_of_digits h), hne, if_false, readDigits_of_digits h]
  rfl

theorem readUnsigned_point {whole fraction : List Char} (h : ∀ c ∈ whole ++ fraction, c.isDigit) (hne : whole ≠ []) :
    readUnsigned (whole ++ '.' :: fraction) =
      some ((Nat.ofDigitChars 10 (whole ++ fraction) 0 : ℚ) / 10 ^ fraction.length) := by
  have hdigits : ∀ c ∈ whole, c.isDigit := fun c hc => h c (mem_append_left _ hc)
  have hwhole := span_append_cons (ne_point_of_digits hdigits) (c := '.') rfl fraction
  simp only [readUnsigned, hwhole, hne, false_and, if_false, readDigits_of_digits h]
  rfl

theorem readDecimal_of_digit (h : c.isDigit) : readDecimal (String.ofList (c :: cs)) = readUnsigned (c :: cs) := by
  simp only [readDecimal, String.toList_ofList]
  split
  · rename_i heq
    exact absurd (List.cons.inj heq).1 (ne_of_isDigit h rfl)
  · rename_i heq
    exact absurd (List.cons.inj heq).1 (ne_of_isDigit h rfl)
  · rfl

end Basilica.Decimals
