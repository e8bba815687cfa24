import Mathlib

/-!
Tables that give each seat to at most one holder, and each holder at most one seat. The wishes of a list are met one
by one, and a wish is passed over as long as its seat is taken and its holder sits elsewhere.
-/

namespace Basilica.Seatings

open Classical List Option

variable {U H : Type}

def Unique (t : U → Option H) : Prop := ∀ u v h, t u = some h → t v = some h → u = v

def Blocked (t : U → Option H) (q : U × H) : Prop := (∃ h, t q.1 = some h ∧ h ≠ q.2) ∧ ∃ u, t u = some q.2

noncomputable def seat (t : U → Option H) (q : U × H) : U → Option H := fun u =>
  if u = q.1 then some q.2 else if t u = some q.2 then none else t u

noncomputable def register (t : U → Option H) (q : U × H) : U → Option H := if Blocked t q then t else seat t q

variable {q : U × H}

theorem eq_seat {t t' : U → Option H} (hself : t' q.1 = some q.2)
    (hmoved : ∀ u, u ≠ q.1 → t u = some q.2 → t' u = none) (hother : ∀ u, u ≠ q.1 → t u ≠ some q.2 → t' u = t u) :
    t' = seat t q := by
  funext u
  unfold seat
  split_ifs with hu htaken
  · rw [hu, hself]
  · exact hmoved u hu htaken
  · exact hother u hu htaken

theorem unique_seat {t : U → Option H} (ht : Unique t) (q : U × H) : Unique (seat t q) := by
  have hold : ∀ u h, seat t q u = some h → u = q.1 ∧ h = q.2 ∨ h ≠ q.2 ∧ t u = some h := by
    intro u h heq
    unfold seat at heq
    split_ifs at heq with hu hmoved
    · exact Or.inl ⟨hu, (some.inj heq).symm⟩
    · refine Or.inr ⟨?_, heq⟩
      rintro rfl
      exact hmoved heq
  intro u v h hu hv
  rcases hold u h hu with ⟨rfl, rfl⟩ | ⟨hne, hu⟩
  · rcases hold v _ hv with ⟨rfl, -⟩ | ⟨hne, -⟩
    · rfl
    · exact absurd rfl hne
  · rcases hold v h hv with ⟨-, rfl⟩ | ⟨-, hv⟩
    · exact absurd rfl hne
    · exact ht u v h hu hv

def Seats (t : U → Option H) (s : Set (U × H)) (t' : U → Option H) : Prop :=
  ∀ u h, t' u = some h ↔ (u, h) ∈ s ∨ t u = some h ∧ (∀ k, (u, k) ∉ s) ∧ ∀ v, (v, h) ∉ s

def Free (t : U → Option H) (q : U × H) : Prop := t q.1 = none ∨ t q.1 = some q.2 ∨ ∀ u, t u ≠ some q.2

def Linked (t : U → Option H) (q r : U × H) : Prop := t q.1 = some r.2 ∨ t r.1 = some q.2

def Ready (t : U → Option H) (s : Set (U × H)) (q : U × H) : Prop := q ∈ s ∨ Free t q ∨ ∃ r ∈ s, Linked t q r

structure Distinct (l : List (U × H)) : Prop where
  seats : (l.map Prod.fst).Nodup
  holders : (l.map Prod.snd).Nodup

variable {l : List (U × H)}

theorem Distinct.nodup (h : Distinct l) : l.Nodup := h.seats.of_map

variable {r : U × H}

theorem Distinct.eq_of_seat (h : Distinct l) (hq : q ∈ l) (hr : r ∈ l) (heq : q.1 = r.1) :
    q = r := inj_on_of_nodup_map h.seats hq hr heq

theorem Distinct.eq_of_holder (h : Distinct l) (hq : q ∈ l) (hr : r ∈ l) (heq : q.2 = r.2) :
    q = r := inj_on_of_nodup_map h.holders hq hr heq

variable {s : Set (U × H)} {t t' : U → Option H}

theorem seats_empty (t : U → Option H) : Seats t ∅ t := by
  intro u h
  simp only [Set.mem_empty_iff_false, not_false_eq_true, implies_true, and_self, and_true, false_or]

theorem blocked_of_not_ready (hseats : Seats t s t') (hl : Distinct l) (hs : s ⊆ {r | r ∈ l}) (hq : q ∈ l)
    (hready : ¬ Ready t s q) : Blocked t' q := by
  unfold Ready Free at hready
  push Not at hready
  obtain ⟨hnew, ⟨htaken, hother, u, hu⟩, hlinked⟩ := hready
  obtain ⟨h, hh⟩ := ne_none_iff_exists'.mp htaken
  have hseat : ∀ k, (q.1, k) ∉ s := by
    intro k hk
    exact hnew (hl.eq_of_seat (hs hk) hq rfl ▸ hk)
  have hholder : ∀ v, (v, q.2) ∉ s := by
    intro v hv
    exact hnew (hl.eq_of_holder (hs hv) hq rfl ▸ hv)
  refine ⟨⟨h, ?_, ?_⟩, u, ?_⟩
  · refine (hseats q.1 h).mpr (Or.inr ⟨hh, hseat, ?_⟩)
    intro v hv
    exact hlinked _ hv (Or.inl hh)
  · rintro rfl
    exact hother hh
  · refine (hseats u q.2).mpr (Or.inr ⟨hu, ?_, hholder⟩)
    intro k hk
    exact hlinked _ hk (Or.inr hu)

theorem not_blocked_of_ready (ht : Unique t) (hseats : Seats t s t') (hl : Distinct l) (hs : s ⊆ {r | r ∈ l}) (hq : q ∈ l)
    (hready : Ready t s q) : ¬ Blocked t' q := by
  rintro ⟨⟨h, hh, hne⟩, u, hu⟩
  rcases (hseats q.1 h).mp hh with hmem | ⟨hold, hseat, hwish⟩
  · exact hne (congrArg Prod.snd (hl.eq_of_seat (hs hmem) hq rfl))
  rcases (hseats u q.2).mp hu with hmem | ⟨hold', hseat', hwish'⟩
  · exact hseat q.2 (hl.eq_of_holder (hs hmem) hq rfl ▸ hmem)
  rcases hready with hmem | hfree | ⟨r, hr, hlink | hlink⟩
  · exact hseat q.2 hmem
  · rcases hfree with hnone | hself | hnobody
    · rw [hnone] at hold
      cases hold
    · rw [hself] at hold
      exact hne (some.inj hold).symm
    · exact hnobody u hold'
  · rw [hold] at hlink
    obtain rfl : h = r.2 := some.inj hlink
    exact hwish r.1 hr
  · obtain rfl := ht r.1 u q.2 hlink hold'
    exact hseat' r.2 hr

theorem seats_seat (hseats : Seats t s t') (hl : Distinct l) (hs : s ⊆ {r | r ∈ l}) (hq : q ∈ l) :
    Seats t (insert q s) (seat t' q) := by
  intro u h
  unfold seat
  by_cases hu : u = q.1
  · subst hu
    rw [if_pos rfl]
    constructor
    · intro heq
      exact Or.inl (Or.inl (Prod.ext rfl (some.inj heq).symm))
    · rintro ((hself | hmem) | ⟨-, hseat, -⟩)
      · rw [← hself]
      · rw [← hl.eq_of_seat (hs hmem) hq rfl]
      · exact absurd (Set.mem_insert q s) (hseat q.2)
  · rw [if_neg hu]
    have hne : ∀ k, (u, k) ≠ q := by
      rintro k rfl
      exact hu rfl
    have hinsert : ∀ k, (u, k) ∈ insert q s ↔ (u, k) ∈ s := fun k => Set.mem_insert_iff.trans (or_iff_right (hne k))
    simp only [hinsert]
    by_cases hmoved : t' u = some q.2
    · rw [if_pos hmoved]
      refine iff_of_false (some_ne_none h).symm ?_
      rintro (hmem | ⟨hold, hseat, hwish⟩)
      · have heq := (hseats u h).mpr (Or.inl hmem)
        rw [hmoved] at heq
        obtain rfl : q.2 = h := some.inj heq
        exact hne _ (hl.eq_of_holder (hs hmem) hq rfl)
      · have heq := (hseats u h).mpr (Or.inr ⟨hold, hseat, fun v hv => hwish v (Set.mem_insert_of_mem q hv)⟩)
        rw [hmoved] at heq
        obtain rfl : q.2 = h := some.inj heq
        exact hwish q.1 (Set.mem_insert q s)
    · rw [if_neg hmoved, hseats u h]
      refine or_congr Iff.rfl (and_congr_right (fun hold => and_congr_right (fun hseat => ?_)))
      refine ⟨fun hwish v hv => ?_, fun hwish v hv => hwish v (Set.mem_insert_of_mem q hv)⟩
      rcases Set.mem_insert_iff.mp hv with rfl | hv
      · exact hmoved ((hseats u h).mpr (Or.inr ⟨hold, hseat, hwish⟩))
      · exact hwish v hv

noncomputable def absorb (t : U → Option H) (s : Set (U × H)) (q : U × H) : Set (U × H) := if Ready t s q then insert q s else s

theorem absorb_subset (t : U → Option H) (s : Set (U × H)) (q : U × H) : s ⊆ absorb t s q := by
  unfold absorb
  split_ifs
  · exact Set.subset_insert q s
  · exact Set.Subset.refl s

theorem absorb_of_ready (h : Ready t s q) : q ∈ absorb t s q := by
  rw [absorb, if_pos h]
  exact Set.mem_insert q s

theorem mem_absorb (h : r ∈ absorb t s q) : r ∈ s ∨ r = q ∧ Ready t s q := by
  unfold absorb at h
  split_ifs at h with hready
  · exact (Set.mem_insert_iff.mp h).symm.imp_right (fun heq => ⟨heq, hready⟩)
  · exact Or.inl h

theorem subset_foldl_absorb (t : U → Option H) (l : List (U × H)) (s : Set (U × H)) : s ⊆ l.foldl (absorb t) s := by
  induction l generalizing s with
  | nil => exact Set.Subset.refl s
  | cons q l ih => exact Set.Subset.trans (absorb_subset t s q) (ih _)

theorem mem_foldl_absorb (h : r ∈ l.foldl (absorb t) s) : r ∈ s ∨ r ∈ l := by
  induction l generalizing s with
  | nil => exact Or.inl h
  | cons q l ih =>
    rcases ih h with hmem | hmem
    · rcases mem_absorb hmem with hold | ⟨rfl, -⟩
      · exact Or.inl hold
      · exact Or.inr mem_cons_self
    · exact Or.inr (mem_cons_of_mem q hmem)

theorem seats_foldl (ht : Unique t) (hl : Distinct l) {l' : List (U × H)} (hl' : l' ⊆ l)
    (hs : s ⊆ {r | r ∈ l}) {t' : U → Option H} (hseats : Seats t s t') :
    Seats t (l'.foldl (absorb t) s) (l'.foldl register t') := by
  induction l' generalizing s t' with
  | nil => exact hseats
  | cons q l' ih =>
    obtain ⟨hq, hl'⟩ := cons_subset.mp hl'
    apply ih hl'
    · intro r hr
      rcases mem_absorb hr with hr | ⟨rfl, -⟩
      · exact hs hr
      · exact hq
    · unfold absorb register
      by_cases hready : Ready t s q
      · rw [if_pos hready, if_neg (not_blocked_of_ready ht hseats hl hs hq hready)]
        exact seats_seat hseats hl hs hq
      · rw [if_neg hready, if_pos (blocked_of_not_ready hseats hl hs hq hready)]
        exact hseats

def Before (l : List (U × H)) (r q : U × H) : Prop := ∃ l₁ l₂, l = l₁ ++ q :: l₂ ∧ r ∈ l₁

inductive Chain (t : U → Option H) (l : List (U × H)) : ℕ → U × H → Prop
  | free {q : U × H} (hq : q ∈ l) (hfree : Free t q) : Chain t l 0 q
  | back {n : ℕ} {q r : U × H} (hlink : Linked t q r) (hbefore : Before l r q) (hchain : Chain t l n r) : Chain t l n q
  | ahead {n : ℕ} {q r : U × H} (hq : q ∈ l) (hlink : Linked t q r) (hchain : Chain t l n r) : Chain t l (n + 1) q

noncomputable def met (t : U → Option H) (l : List (U × H)) (passes : ℕ) : Set (U × H) := (l.foldl (absorb t))^[passes] ∅

theorem met_succ (t : U → Option H) (l : List (U × H)) (passes : ℕ) :
    met t l (passes + 1) = l.foldl (absorb t) (met t l passes) := Function.iterate_succ_apply' _ _ _

theorem met_subset (t : U → Option H) (l : List (U × H)) (passes : ℕ) : met t l passes ⊆ {r | r ∈ l} := by
  induction passes with
  | zero => exact Set.empty_subset _
  | succ n ih =>
    rw [met_succ]
    intro r hr
    exact (mem_foldl_absorb hr).elim (fun h => ih h) id

theorem met_split {l₁ l₂ : List (U × H)} (h : l = l₁ ++ l₂) (passes : ℕ) :
    met t l (passes + 1) = l₂.foldl (absorb t) (l₁.foldl (absorb t) (met t l passes)) := by
  rw [met_succ, ← foldl_append, ← h]

theorem mem_met_of_ready {l₁ l₂ : List (U × H)} {n : ℕ} (h : l = l₁ ++ q :: l₂)
    (hready : Ready t (l₁.foldl (absorb t) (met t l n)) q) : q ∈ met t l (n + 1) := by
  rw [met_split h, foldl_cons]
  exact subset_foldl_absorb t l₂ _ (absorb_of_ready hready)

variable {passes : ℕ}

theorem mem_met_of_chain (hl : Distinct l) {n : ℕ} (h : Chain t l n q) (hn : n ≤ passes) :
    q ∈ met t l (passes + 1) := by
  induction h generalizing passes with
  | free hq hfree =>
    obtain ⟨l₁, l₂, hsplit⟩ := append_of_mem hq
    exact mem_met_of_ready hsplit (Or.inr (Or.inl hfree))
  | @back n q r hlink hbefore _ ih =>
    obtain ⟨l₁, l₂, hsplit, hr⟩ := hbefore
    refine mem_met_of_ready hsplit (Or.inr (Or.inr ⟨r, ?_, hlink⟩))
    -- the rest of the list does not meet the other wish, whose turn was before
    have hmet := ih hn
    rw [met_split hsplit] at hmet
    have hnodup := hl.nodup
    rw [hsplit] at hnodup
    exact (mem_foldl_absorb hmet).resolve_right (disjoint_of_nodup_append hnodup hr)
  | @ahead n q r hq hlink _ ih =>
    obtain ⟨passes, rfl⟩ : ∃ m, passes = m + 1 := ⟨passes - 1, by omega⟩
    obtain ⟨l₁, l₂, hsplit⟩ := append_of_mem hq
    refine mem_met_of_ready hsplit (Or.inr (Or.inr ⟨r, ?_, hlink⟩))
    exact subset_foldl_absorb t l₁ _ (ih (by omega))

theorem chain_of_mem_met (h : q ∈ met t l (passes + 1)) : ∃ n ≤ passes, Chain t l n q := by
  induction passes using Nat.strong_induction_on generalizing q with
  | _ passes ih =>
    have hearlier : ∀ r ∈ met t l passes, ∃ n < passes, Chain t l n r := by
      intro r hr
      cases passes with
      | zero => exact absurd hr (Set.notMem_empty r)
      | succ n =>
        obtain ⟨m, hm, hchain⟩ := ih n (Nat.lt_succ_self n) hr
        exact ⟨m, by omega, hchain⟩
    -- along the list, whatever has been met has a chain
    have hprefix : ∀ l₂ l₁ : List (U × H), l = l₁ ++ l₂ →
        (∀ r ∈ l₁.foldl (absorb t) (met t l passes), ∃ n ≤ passes, Chain t l n r) →
          ∀ r ∈ l.foldl (absorb t) (met t l passes), ∃ n ≤ passes, Chain t l n r := by
      intro l₂
      induction l₂ with
      | nil =>
        intro l₁ hsplit hmet
        rw [append_nil] at hsplit
        subst hsplit
        exact hmet
      | cons q l₂ ihl =>
        intro l₁ hsplit hmet
        apply ihl (l₁ ++ [q]) (by rw [hsplit, append_assoc, singleton_append])
        intro r hr
        rw [foldl_append] at hr
        rcases mem_absorb hr with hr | ⟨rfl, hready⟩
        · exact hmet r hr
        have hq : r ∈ l := by
          rw [hsplit]
          exact mem_append_right l₁ mem_cons_self
        rcases hready with hmem | hfree | ⟨r', hr', hlink⟩
        · exact hmet r hmem
        · exact ⟨0, Nat.zero_le _, .free hq hfree⟩
        · rcases mem_foldl_absorb hr' with hold | hnew
          · obtain ⟨n, hn, hchain⟩ := hearlier r' hold
            exact ⟨n + 1, hn, .ahead hq hlink hchain⟩
          · obtain ⟨n, hn, hchain⟩ := hmet r' hr'
            exact ⟨n, hn, .back hlink ⟨l₁, l₂, hsplit, hnew⟩ hchain⟩
    rw [met_succ] at h
    refine hprefix l [] rfl ?_ q h
    intro r hr
    obtain ⟨n, hn, hchain⟩ := hearlier r hr
    exact ⟨n, hn.le, hchain⟩

theorem seats_passes (ht : Unique t) (hl : Distinct l) (passes : ℕ) :
    Seats t (met t l passes) ((l.foldl register)^[passes] t) := by
  induction passes with
  | zero => exact seats_empty t
  | succ n ih =>
    rw [met_succ, Function.iterate_succ_apply']
    exact seats_foldl ht hl (List.Subset.refl l) (met_subset t l n) ih

theorem passes_eq_iff (ht : Unique t) (hl : Distinct l) (hq : q ∈ l) (passes : ℕ) :
    (l.foldl register)^[passes + 1] t q.1 = some q.2 ↔ ∃ n ≤ passes, Chain t l n q := by
  rw [seats_passes ht hl (passes + 1) q.1 q.2]
  constructor
  · rintro (hmem | ⟨hold, -, -⟩)
    · exact chain_of_mem_met hmem
    · exact ⟨0, Nat.zero_le _, .free hq (Or.inr (Or.inl hold))⟩
  · rintro ⟨n, hn, hchain⟩
    exact Or.inl (mem_met_of_chain hl hchain hn)

end Basilica.Seatings
