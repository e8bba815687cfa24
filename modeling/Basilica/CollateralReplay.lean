import Basilica.CollateralPersistence

namespace Basilica.Collateral

open CheckedSteps ColumnText Statements List Option Function CollateralEvent

def handleAll : List CollateralEvent → Program Db Failure Unit
  | [] => pure ()
  | e :: es => do
    handle e
    handleAll es

def applyAll : List CollateralEvent → (Key → Option Entry) → Except Failure (Key → Option Entry)
  | [], t => .ok t
  | e :: es, t => do
    let x ← e.effect (t e.key)
    applyAll es (update t e.key (some x))

theorem applyAll_append (l l' : List CollateralEvent) (t : Key → Option Entry) :
    applyAll (l ++ l') t = applyAll l t >>= applyAll l' := by
  induction l generalizing t with
  | nil => rfl
  | cons e es ih =>
    rw [cons_append, applyAll, applyAll]
    cases e.effect (t e.key) with
    | error _ => rfl
    | ok x => exact ih _

variable {es : List CollateralEvent}

theorem handleAll_ok {c c' : Connection Db} (h : handleAll es c = .ok () c') :
    applyAll es c.db.status.entry = .ok c'.db.status.entry ∧
      c'.db.lastScannedBlockNumber = c.db.lastScannedBlockNumber ∧
      c'.left = c.left.map (· - 2 * es.length) := by
  induction es generalizing c with
  | nil =>
    obtain ⟨_, rfl⟩ := pure_ok_iff.mp h
    exact ⟨rfl, rfl, by simp⟩
  | cons e es ih =>
    obtain ⟨_, m, he, hes⟩ := seq_ok_iff.mp h
    obtain ⟨x, t, hx, ht, rfl⟩ := handle_ok he
    obtain ⟨happly, hlast, hleft⟩ := ih hes
    refine ⟨?_, hlast, ?_⟩
    · rw [applyAll, hx, ← happly]
      simp only [Connection.next_db, ht]
      rfl
    · rw [hleft, Connection.next_left, Connection.next_left, Option.map_map, Option.map_map]
      congr 1
      funext n
      simp only [comp_apply, length_cons]
      omega

theorem handleAll_succeeds {c : Connection Db} {t : Key → Option Entry}
    (hleft : Allows c.left (2 * es.length)) (ht : applyAll es c.db.status.entry = .ok t) :
    ∃ c', handleAll es c = .ok () c' := by
  induction es generalizing c with
  | nil => exact ⟨c, rfl⟩
  | cons e es ih =>
    obtain ⟨x, hx, ht⟩ := (bind_ok_iff _ _ _).mp ht
    rw [length_cons, Nat.mul_succ, Nat.add_comm] at hleft
    obtain ⟨m, hm⟩ := handle_succeeds (hleft.mono (Nat.le_add_right _ _)) hx
    obtain ⟨x', t', hx', ht', rfl⟩ := handle_ok hm
    cases hx.symm.trans hx'
    have hrest : applyAll es ((c.next c.db).next { c.db with status := t' }).db.status.entry = .ok t := by
      rw [Connection.next_db, ht']
      exact ht
    have hleft' : Allows ((c.next c.db).next { c.db with status := t' }).left (2 * es.length) := by
      rw [Connection.next_left, Connection.next_left, Option.map_map]
      exact hleft.sub
    obtain ⟨c', hc'⟩ := ih hleft' hrest
    exact ⟨c', seq_ok_iff.mpr ⟨(), _, hm, hc'⟩⟩

def collateralText : Option Entry → String
  | none => "0"
  | some x => x.collateral

def CollateralEvent.amountAfter (n : ℕ) : CollateralEvent → ℕ
  | .deposit e => saturatingAdd 256 n e.amount
  | .reclaimed e => saturatingSub n e.amount
  | .slashed _ => 0

def CollateralEvent.Word : CollateralEvent → Prop
  | .deposit e => e.amount < 2 ^ 256
  | _ => True

def CollateralEvent.Saturates (n : ℕ) : CollateralEvent → Prop
  | .deposit e => 2 ^ 256 ≤ n + e.amount
  | .reclaimed e => n < e.amount
  | .slashed _ => False

section Amounts

variable {e : CollateralEvent} {x : Option Entry} {y : Entry} {n : ℕ}

theorem parseCollateral_toString (hn : n < 2 ^ 256) : parseCollateral (toString n) = .ok n := by
  simp only [parseCollateral, parseDecimal_toString hn]

theorem toString_zero : toString 0 = "0" := by decide

theorem toString_inj {m n : ℕ} (hm : m < 2 ^ 256) (hn : n < 2 ^ 256) (h : toString m = toString n) : m = n := by
  have hp := parseDecimal_toString hm
  rw [h, parseDecimal_toString hn] at hp
  exact (some.inj hp).symm

theorem CollateralEvent.amountAfter_lt (hn : n < 2 ^ 256) : e.amountAfter n < 2 ^ 256 := by
  cases e with
  | deposit e =>
    simp only [amountAfter, saturatingAdd]
    omega
  | reclaimed e =>
    simp only [amountAfter, saturatingSub]
    omega
  | slashed e => exact Nat.two_pow_pos 256

theorem effect_text (he : e.Word) (hn : n < 2 ^ 256) (hx : collateralText x = toString n)
    (hy : e.effect x = .ok y) : y.collateral = toString (e.amountAfter n) := by
  cases x with
  | none =>
    cases e with
    | deposit e =>
      have h0 : n = 0 := (toString_inj (Nat.two_pow_pos 256) hn hx).symm
      have hword : 0 + e.amount < 2 ^ 256 := by
        rw [Nat.zero_add]
        exact he
      cases hy
      rw [amountAfter, h0, saturatingAdd_eq hword, Nat.zero_add]
    | reclaimed e | slashed e => cases hy
  | some z =>
    have hz : parseCollateral z.collateral = .ok n := by
      rw [show z.collateral = toString n from hx, parseCollateral_toString hn]
    cases e with
    | slashed e =>
      simp only [effect, hz] at hy
      cases hy
      exact toString_zero.symm
    | _ =>
      simp only [effect, hz] at hy
      cases hy
      rfl

theorem effect_succeeds (hn : n < 2 ^ 256) (hx : collateralText x = toString n)
    (hpos : n = 0 → ∃ d, e = .deposit d) : ∃ y, e.effect x = .ok y := by
  cases x with
  | none =>
    have h0 : n = 0 := (toString_inj (Nat.two_pow_pos 256) hn hx).symm
    obtain ⟨d, rfl⟩ := hpos h0
    exact ⟨_, rfl⟩
  | some z =>
    have hz : parseCollateral z.collateral = .ok n := by
      rw [show z.collateral = toString n from hx, parseCollateral_toString hn]
    cases e <;>
      · simp only [effect, hz]
        exact ⟨_, rfl⟩

end Amounts

section Keys

variable {α : Type}

def foldKey (k : Key) (g : CollateralEvent → α → α) (es : List CollateralEvent) (a : α) : α :=
  es.foldl (fun a e => if e.key = k then g e a else a) a

theorem applyAll_relates {R : α → Option Entry → Prop} {g : CollateralEvent → α → α} (k : Key)
    {t t' : Key → Option Entry} {a : α}
    (hstep : ∀ e ∈ es, ∀ a x y, R a x → e.effect x = .ok y → R (g e a) (some y))
    (h : applyAll es t = .ok t') (ha : R a (t k)) : R (foldKey k g es a) (t' k) := by
  induction es generalizing t a with
  | nil =>
    cases h
    exact ha
  | cons e es ih =>
    obtain ⟨y, hy, h⟩ := (bind_ok_iff _ _ _).mp h
    apply ih (fun e he => hstep e (mem_cons_of_mem _ he)) h
    by_cases hk : e.key = k
    · subst hk
      simp only [↓reduceIte, update_self]
      exact hstep e mem_cons_self _ _ _ ha hy
    · simp only [hk, ↓reduceIte, update_of_ne (Ne.symm hk)]
      exact ha

end Keys

end Basilica.Collateral
