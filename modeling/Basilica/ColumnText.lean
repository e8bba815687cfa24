import Mathlib

namespace Basilica.ColumnText

open List

def hexDigits : ℕ → ℕ → List Char
  | 0, _ => []
  | n + 1, x => hexDigits n (x / 16) ++ [Nat.digitChar (x % 16)]

theorem digitChar_inj {a b : ℕ} (ha : a < 16) (hb : b < 16) (h : a.digitChar = b.digitChar) : a = b := by
  have hall : ∀ i < 16, ∀ j < 16, i.digitChar = j.digitChar → i = j := by decide
  exact hall a ha b hb h

variable (n : ℕ)

theorem hexDigits_inj {x y : ℕ} (hx : x < 16 ^ n) (hy : y < 16 ^ n)
    (h : hexDigits n x = hexDigits n y) : x = y := by
  induction n generalizing x y with
  | zero => simp only [Nat.pow_zero] at hx hy; omega
  | succ n ih =>
    rw [Nat.pow_succ] at hx hy
    obtain ⟨hinit, hlast⟩ := append_inj' h rfl
    have hdiv := ih (Nat.div_lt_of_lt_mul (by omega)) (Nat.div_lt_of_lt_mul (by omega)) hinit
    have hmod := digitChar_inj (Nat.mod_lt x (by omega)) (Nat.mod_lt y (by omega)) (List.cons.inj hlast).1
    omega

def encodeHex {n : ℕ} (b : BitVec (4 * n)) : String := String.ofList (hexDigits n b.toNat)

theorem encodeHex_inj {n : ℕ} {a b : BitVec (4 * n)} : encodeHex a = encodeHex b ↔ a = b := by
  constructor
  · intro h
    have hlt (c : BitVec (4 * n)) : c.toNat < 16 ^ n := by
      have := c.isLt
      rwa [Nat.pow_mul] at this
    exact BitVec.eq_of_toNat_eq (hexDigits_inj n (hlt a) (hlt b) (String.ofList_injective h))
  · rintro rfl
    rfl

theorem length_hexDigits (n x : ℕ) : (hexDigits n x).length = n := by
  induction n generalizing x with
  | zero => rfl
  | succ n ih => rw [hexDigits, length_append, ih, length_singleton]

theorem append_encodeHex_inj {n : ℕ} {s t : String} {a b : BitVec (4 * n)} (h : s ++ encodeHex a = t ++ encodeHex b) :
    s = t ∧ a = b := by
  have hlength (c : BitVec (4 * n)) : (encodeHex c).toList.length = n := by
    rw [encodeHex, String.toList_ofList, length_hexDigits]
  have hchars := congrArg String.toList h
  rw [String.toList_append, String.toList_append] at hchars
  obtain ⟨hs, hhex⟩ := append_inj' hchars ((hlength a).trans (hlength b).symm)
  exact ⟨String.toList_inj.mp hs, encodeHex_inj.mp (String.toList_inj.mp hhex)⟩

def parseDecimal (bits : ℕ) (s : String) : Option ℕ :=
  let n := Nat.ofDigitChars 10 s.toList 0
  if s.toList.all Char.isDigit ∧ n < 2 ^ bits then some n else none

theorem digits_toString : ∀ c ∈ (toString n).toList, c.isDigit := by
  rw [Nat.toString_eq_repr, Nat.toList_repr]
  intro c hc
  exact Nat.isDigit_of_mem_toDigits (by omega) (by omega) hc

theorem toString_ne_nil : (toString n).toList ≠ [] := by
  rw [Nat.toString_eq_repr, Nat.toList_repr]
  exact Nat.toDigits_ne_nil

theorem ofDigitChars_toString : Nat.ofDigitChars 10 (toString n).toList 0 = n := by
  rw [Nat.toString_eq_repr, Nat.toList_repr, Nat.ofDigitChars_toDigits (by omega) (by omega)]

theorem parseDecimal_toString {bits n : ℕ} (h : n < 2 ^ bits) : parseDecimal bits (toString n) = some n := by
  simp only [parseDecimal, ofDigitChars_toString, all_eq_true.mpr (digits_toString n), h, and_self, ↓reduceIte]

theorem toString_injective : Function.Injective (fun n : ℕ => (toString n).toList) := by
  intro m n h
  have hvalue := congrArg (fun digits => Nat.ofDigitChars 10 digits 0) h
  simpa only [ofDigitChars_toString] using hvalue

theorem notMem_toString {c : Char} (hc : c.isDigit = false) : c ∉ (toString n).toList := by
  intro h
  exact Bool.false_ne_true (hc.symm.trans (digits_toString n c h))

theorem eq_of_append_cons {α : Type} {a : α} {x x' y y' : List α} (hx : a ∉ x) (hx' : a ∉ x')
    (h : x ++ a :: y = x' ++ a :: y') : x = x' ∧ y = y' := by
  induction x generalizing x' with
  | nil =>
    cases x' with
    | nil => exact ⟨rfl, (List.cons.inj h).2⟩
    | cons b x' => exact absurd ((List.cons.inj h).1 ▸ mem_cons_self) hx'
  | cons b x ih =>
    cases x' with
    | nil => exact absurd ((List.cons.inj h).1 ▸ mem_cons_self) hx
    | cons b' x' =>
      obtain ⟨rfl, htail⟩ := List.cons.inj h
      obtain ⟨rfl, hy⟩ := ih (not_mem_of_not_mem_cons hx) (not_mem_of_not_mem_cons hx') htail
      exact ⟨rfl, hy⟩

end Basilica.ColumnText

namespace Basilica.Words

def isWhitespace (c : Char) : Bool :=
  let n := c.toNat
  (9 ≤ n && n ≤ 13) || n = 32 || n = 0x85 || n = 0xa0 || n = 0x1680 || (0x2000 ≤ n && n ≤ 0x200a) || n = 0x2028 || n = 0x2029 ||
    n = 0x202f || n = 0x205f || n = 0x3000

def trim (text : List Char) : List Char := ((text.dropWhile isWhitespace).reverse.dropWhile isWhitespace).reverse

def words (text : List Char) : List (List Char) := (text.splitOnP isWhitespace).filter (fun word => word ≠ [])

def after? (needle : List Char) : List Char → Option (List Char)
  | [] => if needle = [] then some [] else none
  | c :: text => if needle.isPrefixOf (c :: text) then some ((c :: text).drop needle.length) else after? needle text

def until? (c : Char) (text : List Char) : Option (List Char) := if c ∈ text then some (text.takeWhile (· ≠ c)) else none

theorem after?_of_notMem {c : Char} {text : List Char} (word : List Char) (h : c ∉ text) : after? (c :: word) text = none := by
  induction text with
  | nil => rfl
  | cons d text ih =>
    rw [List.mem_cons, not_or] at h
    simp [after?, h.1, ih h.2]

theorem suffix_segment_iff {c : Char} {word segment : List Char} (start : List Char) (hword : c ∉ word) (h : c ∉ segment) :
    c :: word <:+ start ++ c :: segment ↔ segment = word := by
  have hlast : ∀ {l before : List Char}, c ∉ l → (before ++ c :: l).reverse.takeWhile (· ≠ c) = l.reverse := by
    intro l before hl
    rw [List.reverse_append, List.reverse_cons, List.append_assoc, List.takeWhile_append_of_pos]
    · simp
    · intro a ha
      exact decide_eq_true (fun heq => hl (heq ▸ List.mem_reverse.mp ha))
  constructor
  · rintro ⟨before, heq⟩
    apply List.reverse_injective
    rw [← hlast h, ← hlast hword, heq]
  · rintro rfl
    exact List.suffix_append _ _

end Basilica.Words
