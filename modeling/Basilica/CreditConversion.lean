import Basilica.ColumnText
import Basilica.Decimals

/-!
The conversion of a deposit to credits: the amount in plancks over a power of ten, times the price of the coin,
cut off after six decimals in the printed text.
-/

namespace Basilica.Payments

open ColumnText Decimals List

/-- A decimal of the `bigdecimal` crate, `intVal · 10 ^ (-scale)`. -/
structure BigDecimal where
  intVal : ℤ
  scale : ℤ
deriving DecidableEq

open BigDecimal

namespace BigDecimal

def value (x : BigDecimal) : ℚ := x.intVal * 10 ^ (-x.scale)

def readInteger : List Char → Option ℤ
  | '-' :: cs => if cs = [] then none else (readDigits cs).map (fun n => -(n : ℤ))
  | '+' :: cs => if cs = [] then none else (readDigits cs).map (fun n => (n : ℤ))
  | cs => if cs = [] then none else (readDigits cs).map (fun n => (n : ℤ))

def readExponent : List Char → Option ℤ
  | [] => some 0
  | _ :: exp =>
    (readInteger (if exp.head? = some '+' then exp.tail else exp)).filter (fun e => -2 ^ 63 ≤ e ∧ e < 2 ^ 63)

def fromStr (text : String) : Option BigDecimal := do
  let (base, exponent) := text.toList.span (fun c => c ≠ 'e' ∧ c ≠ 'E')
  let exponent ← readExponent exponent
  let (lead, trail) := base.span (· ≠ '.')
  let intVal ← readInteger (lead ++ trail.tail)
  return ⟨intVal, (trail.tail.length : ℤ) - exponent⟩

/-- The quotient where it is exact, as it is for a power of ten. -/
def div (x y : BigDecimal) : BigDecimal :=
  if x.intVal = 0 ∨ y.value = 1 then x else ⟨x.intVal / y.intVal, x.scale - y.scale⟩

/-- A factor of one leaves the other as it is written. -/
def mul (x y : BigDecimal) : BigDecimal :=
  if x.value = 1 then y else if y.value = 1 then x else ⟨x.intVal * y.intVal, x.scale + y.scale⟩

def parts (absInt : List Char) (scale : ℤ) : List Char × List Char :=
  if (absInt.length : ℤ) ≤ scale then (['0'], List.replicate (scale.toNat - absInt.length) '0' ++ absInt)
  else if scale < 0 then (absInt ++ List.replicate (-scale).toNat '0', [])
  else absInt.splitAt (absInt.length - scale.toNat)

def display (x : BigDecimal) : String :=
  let (before, after) := parts (toString x.intVal.natAbs).toList x.scale
  let unsigned := if after = [] then before else before ++ '.' :: after
  String.ofList (if x.intVal < 0 then '-' :: unsigned else unsigned)

end BigDecimal

namespace PriceConverter

def clampPrecision (s : String) (maxDecimals : ℕ) : String :=
  match s.toList.span (· ≠ '.') with
  | (_, []) => s
  | (whole, _ :: decimals) =>
    if maxDecimals < decimals.length then String.ofList (whole ++ '.' :: decimals.take maxDecimals) else s

def plancksToCreditsWithRate (decimals : ℕ) (plancksDec taoUsdRate : String) : Option String := do
  let amt ← BigDecimal.fromStr plancksDec
  let scale ← BigDecimal.fromStr ("1e" ++ toString decimals)
  let taoUsd ← BigDecimal.fromStr taoUsdRate
  return clampPrecision ((amt.div scale).mul taoUsd).display 6

/-- `price` is the answer of the oracle. -/
def taoToCredits (decimals : ℕ) (price : Option BigDecimal) (taoDec : String) : Option String := do
  let amt ← BigDecimal.fromStr taoDec
  let scale ← BigDecimal.fromStr ("1e" ++ toString decimals)
  let taoUsd ← price
  return clampPrecision ((amt.div scale).mul taoUsd).display 6

end PriceConverter

namespace BigDecimal

theorem readInteger_digits {cs : List Char} (h : ∀ c ∈ cs, c.isDigit) (hne : cs ≠ []) :
    readInteger cs = some (Nat.ofDigitChars 10 cs 0 : ℤ) := by
  cases cs with
  | nil => exact absurd rfl hne
  | cons c cs =>
    have hc := h c mem_cons_self
    simp only [readInteger]
    split
    · rename_i heq
      exact absurd (List.cons.inj heq).1 (ne_of_isDigit hc rfl)
    · rename_i heq
      exact absurd (List.cons.inj heq).1 (ne_of_isDigit hc rfl)
    · simp [readDigits_of_digits h]

theorem fromStr_toString (n : ℕ) : fromStr (toString n) = some ⟨n, 0⟩ := by
  have hexp : ∀ c ∈ (toString n).toList, decide (c ≠ 'e' ∧ c ≠ 'E') = true := fun c hc =>
    decide_eq_true ⟨ne_of_isDigit (digits_toString n c hc) rfl, ne_of_isDigit (digits_toString n c hc) rfl⟩
  simp only [fromStr, span_of_forall hexp, readExponent, span_of_forall (ne_point_of_digits (digits_toString n)),
    tail_nil, append_nil, readInteger_digits (digits_toString n) (toString_ne_nil n), ofDigitChars_toString]
  rfl

theorem fromStr_scale {decimals : ℕ} (h : decimals < 2 ^ 32) :
    fromStr ("1e" ++ toString decimals) = some ⟨1, -decimals⟩ := by
  have hspan : ("1e" ++ toString decimals).toList.span (fun c => c ≠ 'e' ∧ c ≠ 'E') =
      (['1'], 'e' :: (toString decimals).toList) := by
    have hone : ∀ c ∈ ['1'], decide (c ≠ 'e' ∧ c ≠ 'E') = true := by simp
    rw [String.toList_append]
    exact span_append_cons hone (c := 'e') (by simp) _
  have hplus : (toString decimals).toList.head? ≠ some '+' := fun hhead =>
    ne_of_isDigit (digits_toString decimals _ (mem_of_mem_head? hhead)) rfl rfl
  have hexp : readExponent ('e' :: (toString decimals).toList) = some (decimals : ℤ) := by
    rw [readExponent, if_neg hplus, readInteger_digits (digits_toString decimals) (toString_ne_nil decimals),
      ofDigitChars_toString, Option.filter_some, if_pos]
    simp only [decide_eq_true_eq]
    omega
  have hbase : ['1'].span (· ≠ '.') = (['1'], []) := rfl
  simp only [fromStr, hspan, hexp, hbase]
  simp [readInteger, readDigits]

theorem parts_spec {absInt before after : List Char} (h : ∀ c ∈ absInt, c.isDigit) (hne : absInt ≠ []) {scale : ℤ}
    (hparts : parts absInt scale = (before, after)) : (∀ c ∈ before ++ after, c.isDigit) ∧ before ≠ [] ∧
      (Nat.ofDigitChars 10 (before ++ after) 0 : ℚ) / 10 ^ after.length =
        Nat.ofDigitChars 10 absInt 0 * 10 ^ (-scale) := by
  have hlength : 0 < absInt.length := length_pos_of_ne_nil hne
  have hzero (c : Char) (k : ℕ) (hc : c ∈ replicate k '0') : c.isDigit := by
    rw [(mem_replicate.mp hc).2]
    rfl
  unfold parts at hparts
  split_ifs at hparts with hbehind hbefore
  · obtain ⟨rfl, rfl⟩ := Prod.mk.inj hparts
    obtain ⟨k, rfl⟩ : ∃ k : ℕ, scale = k + absInt.length := ⟨(scale - absInt.length).toNat, by omega⟩
    have hk : ((k : ℤ) + absInt.length).toNat - absInt.length = k := by omega
    rw [hk]
    refine ⟨?_, by simp, ?_⟩
    · simp only [mem_append, mem_singleton]
      rintro c (rfl | hc | hc)
      · rfl
      · exact hzero c _ hc
      · exact h c hc
    · rw [Nat.ofDigitChars_append, Nat.ofDigitChars_append, length_append, length_replicate, zpow_neg, ← div_eq_mul_inv]
      have hnone : Nat.ofDigitChars 10 (replicate k '0') (Nat.ofDigitChars 10 ['0'] 0) = 0 := by
        simp [Nat.ofDigitChars_replicate_zero, Nat.ofDigitChars_cons]
      rw [hnone]
      norm_cast
  · obtain ⟨rfl, rfl⟩ := Prod.mk.inj hparts
    obtain ⟨k, rfl⟩ : ∃ k : ℕ, scale = -k := ⟨(-scale).toNat, by omega⟩
    refine ⟨?_, by simp [hne], ?_⟩
    · simp only [append_nil, mem_append]
      rintro c (hc | hc)
      · exact h c hc
      · exact hzero c _ hc
    · rw [append_nil, Nat.ofDigitChars_append, Nat.ofDigitChars_replicate_zero]
      simp [mul_comm]
  · rw [splitAt_eq] at hparts
    obtain ⟨rfl, rfl⟩ := Prod.mk.inj hparts
    obtain ⟨k, rfl⟩ : ∃ k : ℕ, scale = k := ⟨scale.toNat, by omega⟩
    rw [take_append_drop]
    refine ⟨h, ?_, ?_⟩
    · apply ne_nil_of_length_pos
      rw [length_take]
      omega
    · have hafter : (absInt.drop (absInt.length - (k : ℤ).toNat)).length = k := by
        rw [length_drop]
        omega
      rw [hafter, zpow_neg, zpow_natCast, div_eq_mul_inv]

theorem floor_shift_of_le {n a k : ℕ} (h : a ≤ k) : ((⌊(n : ℚ) / 10 ^ a * 10 ^ k⌋ : ℤ) : ℚ) / 10 ^ k = n / 10 ^ a := by
  have hshift : (n : ℚ) / 10 ^ a * 10 ^ k = ((n * 10 ^ (k - a) : ℕ) : ℚ) := by
    obtain ⟨j, rfl⟩ := Nat.exists_eq_add_of_le h
    push_cast
    rw [Nat.add_sub_cancel_left, pow_add]
    field_simp
  rw [hshift, Int.floor_natCast, Int.cast_natCast, ← hshift]
  field_simp

theorem floor_shift_of_lt {n a k : ℕ} (h : k < a) : ⌊(n : ℚ) / 10 ^ a * 10 ^ k⌋ = ((n / 10 ^ (a - k) : ℕ) : ℤ) := by
  have hshift : (n : ℚ) / 10 ^ a * 10 ^ k = (n : ℚ) / ((10 ^ (a - k) : ℕ) : ℚ) := by
    obtain ⟨j, rfl⟩ := Nat.exists_eq_add_of_le h.le
    push_cast
    rw [Nat.add_sub_cancel_left, pow_add]
    field_simp
  rw [hshift, Rat.floor_natCast_div_natCast, Int.natCast_div]

theorem readDecimal_clampPrecision {before after : List Char} (h : ∀ c ∈ before ++ after, c.isDigit)
    (hne : before ≠ []) (k : ℕ) :
    readDecimal (PriceConverter.clampPrecision (String.ofList (if after = [] then before else before ++ '.' :: after)) k) =
      some ((⌊(Nat.ofDigitChars 10 (before ++ after) 0 : ℚ) / 10 ^ after.length * 10 ^ k⌋ : ℚ) / 10 ^ k) := by
  have hbefore : ∀ c ∈ before, c.isDigit := fun c hc => h c (mem_append_left _ hc)
  obtain ⟨c, rest, rfl⟩ := exists_cons_of_ne_nil hne
  have hc := hbefore c mem_cons_self
  have hspan := span_append_cons (ne_point_of_digits hbefore) (c := '.') rfl after
  by_cases hafter : after = []
  · subst hafter
    rw [append_nil] at h ⊢
    rw [if_pos rfl, PriceConverter.clampPrecision, String.toList_ofList, span_of_forall (ne_point_of_digits h)]
    rw [readDecimal_of_digit hc, readUnsigned_digits h hne, length_nil, floor_shift_of_le (Nat.zero_le k)]
    simp
  · rw [if_neg hafter]
    simp only [PriceConverter.clampPrecision, String.toList_ofList, hspan]
    split_ifs with hlong
    · have hdrop : ∀ c ∈ after.drop k, c.isDigit := fun c hc =>
        h c (mem_append_right _ (mem_of_mem_drop hc))
      have hsplit : (c :: rest) ++ after = ((c :: rest) ++ after.take k) ++ after.drop k := by
        rw [append_assoc, take_append_drop]
      have hvalue := ofDigitChars_append_div (l := (c :: rest) ++ after.take k) hdrop
      rw [← hsplit, length_drop] at hvalue
      rw [hsplit] at h
      rw [cons_append, readDecimal_of_digit hc, ← cons_append,
        readUnsigned_point (fun c hc => h c (mem_append_left _ hc)) hne, floor_shift_of_lt hlong, hvalue,
        length_take_of_le hlong.le, Int.cast_natCast]
    · rw [cons_append, readDecimal_of_digit hc, ← cons_append, readUnsigned_point h hne, floor_shift_of_le (by omega)]

theorem readDecimal_display {x : BigDecimal} (h : 0 ≤ x.intVal) (k : ℕ) :
    readDecimal (PriceConverter.clampPrecision x.display k) = some ((⌊x.value * 10 ^ k⌋ : ℚ) / 10 ^ k) := by
  rcases hparts : parts (toString x.intVal.natAbs).toList x.scale with ⟨before, after⟩
  obtain ⟨hdigits, hne, hvalue⟩ := parts_spec (digits_toString _) (toString_ne_nil _) hparts
  have hread := readDecimal_clampPrecision hdigits hne k
  have habs : (x.intVal.natAbs : ℚ) = x.intVal := by
    rw [← Int.cast_natCast, Int.natAbs_of_nonneg h]
  rw [hvalue, ofDigitChars_toString, habs] at hread
  simp only [display, hparts, if_neg (not_lt.mpr h)]
  exact hread

theorem value_div {x y : BigDecimal} (hy : y.intVal ≠ 0) (h : y.intVal ∣ x.intVal) :
    (x.div y).value = x.value / y.value := by
  unfold div
  split_ifs with hsame
  · rcases hsame with hzero | hone
    · simp [value, hzero]
    · rw [hone, div_one]
  · simp only [value]
    rw [Int.cast_div h (by exact_mod_cast hy), neg_sub', sub_eq_add_neg, zpow_add₀ (by norm_num)]
    simp only [neg_neg, zpow_neg]
    field_simp

theorem value_mul (x y : BigDecimal) : (x.mul y).value = x.value * y.value := by
  unfold mul
  split_ifs with hx hy
  · rw [hx, one_mul]
  · rw [hy, mul_one]
  · simp only [value]
    rw [neg_add, zpow_add₀ (by norm_num)]
    push_cast
    ring

end BigDecimal

namespace PriceConverter

variable {decimals : ℕ} {rateText : String} {rate : BigDecimal}

def credits (decimals : ℕ) (rate : BigDecimal) (plancks : ℕ) : ℚ :=
  ⌊(plancks : ℚ) * rate.value * 10 ^ (6 - decimals : ℤ)⌋ / 10 ^ 6

theorem credits_eq_floor (plancks : ℕ) : credits decimals rate plancks =
    ⌊(plancks : ℚ) * (rate.value * 10 ^ (6 - decimals : ℤ))⌋ / 10 ^ 6 := by
  rw [credits, mul_assoc]

/-- Splitting a deposit rounds each part down. -/
theorem credits_split (parts : List ℕ) : (parts.map (credits decimals rate)).sum ≤ credits decimals rate parts.sum ∧
    (parts ≠ [] →
      credits decimals rate parts.sum - (parts.map (credits decimals rate)).sum < parts.length / 10 ^ 6) := by
  set c := rate.value * 10 ^ (6 - decimals : ℤ) with hc
  set amounts := parts.map (fun plancks : ℕ => (plancks : ℚ) * c) with hamounts
  have hwhole : credits decimals rate parts.sum = (⌊amounts.sum⌋ : ℚ) / 10 ^ 6 := by
    rw [credits_eq_floor, hamounts, sum_map_mul_right, ← hc, Nat.cast_list_sum]
  have hparts : (parts.map (credits decimals rate)).sum = ((amounts.map Int.floor).sum : ℚ) / 10 ^ 6 := by
    rw [Int.cast_list_sum, hamounts, map_map, map_map, div_eq_mul_inv, ← sum_map_mul_right]
    refine congrArg sum (map_congr_left (fun plancks _ => ?_))
    rw [credits_eq_floor, ← hc, div_eq_mul_inv]
    rfl
  rw [hwhole, hparts]
  constructor
  · have hle : ((amounts.map Int.floor).sum : ℚ) ≤ ⌊amounts.sum⌋ := by exact_mod_cast sum_floor_le amounts
    gcongr
  · intro hne
    have hlt : (⌊amounts.sum⌋ : ℚ) < (amounts.map Int.floor).sum + parts.length := by
      have h := floor_sum_lt (l := amounts) (by simpa [hamounts] using hne)
      rw [hamounts, length_map, ← hamounts] at h
      exact_mod_cast h
    rw [← sub_div]
    gcongr
    linarith

theorem readDecimal_converted (hpos : 0 < rate.value) (plancks : ℕ) :
    readDecimal (clampPrecision (((⟨plancks, 0⟩ : BigDecimal).div ⟨1, -decimals⟩).mul rate).display 6) =
      some (credits decimals rate plancks) := by
  have hrate : 0 ≤ rate.intVal := by
    have hscale : (0 : ℚ) < 10 ^ (-rate.scale) := by positivity
    exact_mod_cast ((mul_pos_iff_of_pos_right hscale).mp hpos).le
  have hquotient : 0 ≤ ((⟨plancks, 0⟩ : BigDecimal).div ⟨1, -decimals⟩).intVal := by
    simp only [div]
    split_ifs <;> positivity
  have hint : 0 ≤ (((⟨plancks, 0⟩ : BigDecimal).div ⟨1, -decimals⟩).mul rate).intVal := by
    unfold mul
    split_ifs
    · exact hrate
    · exact hquotient
    · exact mul_nonneg hquotient hrate
  have hvalue : (((⟨plancks, 0⟩ : BigDecimal).div ⟨1, -decimals⟩).mul rate).value * 10 ^ 6 =
      plancks * rate.value * 10 ^ (6 - decimals : ℤ) := by
    rw [value_mul, value_div (by simp) (by simp), zpow_sub₀ (by norm_num)]
    simp [value]
    field_simp
  rw [readDecimal_display hint, hvalue]
  rfl

theorem conversion_truncates (hdecimals : decimals < 2 ^ 32) (hrate : BigDecimal.fromStr rateText = some rate)
    (hpos : 0 < rate.value) (plancks : ℕ) :
    (∃ text, plancksToCreditsWithRate decimals (toString plancks) rateText = some text ∧
      readDecimal text = some (credits decimals rate plancks)) ∧
    (∃ text, taoToCredits decimals (some rate) (toString plancks) = some text ∧
      readDecimal text = some (credits decimals rate plancks)) ∧
    ∀ parts : List ℕ, parts ≠ [] → parts.sum = plancks →
      (parts.map (credits decimals rate)).sum ≤ credits decimals rate plancks ∧
        credits decimals rate plancks - (parts.map (credits decimals rate)).sum < parts.length / 10 ^ 6 := by
  refine ⟨⟨_, ?_, readDecimal_converted hpos plancks⟩, ⟨_, ?_, readDecimal_converted hpos plancks⟩, ?_⟩
  · rw [plancksToCreditsWithRate, fromStr_toString, fromStr_scale hdecimals, hrate]
    rfl
  · rw [taoToCredits, fromStr_toString, fromStr_scale hdecimals]
    rfl
  · rintro parts hne rfl
    exact ⟨(credits_split parts).1, (credits_split parts).2 hne⟩

theorem conversion_truncates_half_cent : BigDecimal.fromStr "0.005" = some ⟨5, 3⟩ ∧
      ∃ text, plancksToCreditsWithRate 9 (toString 1300000) "0.005" = some text ∧ readDecimal text = some (3 / 500000) := by
  have hrate : fromStr "0.005" = some ⟨5, 3⟩ := by decide
  have h := conversion_truncates (show 9 < 2 ^ 32 by norm_num) hrate (by norm_num [value]) 1300000
  refine ⟨hrate, ?_⟩
  have hcredits : credits 9 ⟨5, 3⟩ 1300000 = 3 / 500000 := by
    norm_num [credits, value]
  rw [← hcredits]
  exact h.1

end PriceConverter

end Basilica.Payments
