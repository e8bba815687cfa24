import Basilica.AtomicCalls

/-!
Programs interleaved call by call over a state made of rows, and when the outcome is that of running them one after
another.
-/

namespace Basilica.RowLocks

open AtomicCalls Calls List Function

variable {C X V ε α σ ι : Type} {R : C → Type}

structure RowView (serve : Server C R ε σ) (X V : Type) where
  look : σ → X → V
  row : C → X
  answer_congr : ∀ c s s', look s (row c) = look s' (row c) → (serve c s).1 = (serve c s').1
  effect_congr : ∀ c s s', look s (row c) = look s' (row c) →
    look (serve c s).2 (row c) = look (serve c s').2 (row c)
  frame : ∀ c s x, x ≠ row c → look (serve c s).2 x = look s x

structure Thread (C : Type) (R : C → Type) (X ε α : Type) where
  rest : Calls C R ε α
  touched : List X
  changed : List X

structure Pool (C : Type) (R : C → Type) (X ε α σ ι : Type) where
  db : σ
  threads : ι → Thread C R X ε α

def begin (ops : ι → Calls C R ε α) (start : σ) : Pool C R X ε α σ ι := ⟨start, fun i => ⟨ops i, [], []⟩⟩

def Running (p : Pool C R X ε α σ ι) (i : ι) : Prop := ∀ r, (p.threads i).rest ≠ done r

instance (p : Pool C R X ε α σ ι) (i : ι) : Decidable (Running p i) :=
  decidable_of_iff ((p.threads i).rest.result? = none) (by
    rw [Option.eq_none_iff_forall_ne_some]
    exact forall_congr' (fun r => not_congr result?_eq_some))

variable {serve : Server C R ε σ}

section Steps

variable (v : RowView serve X V)

def Changes (c : C) (s : σ) : Prop := v.look (serve c s).2 (v.row c) ≠ v.look s (v.row c)

def Isolated (p : Pool C R X ε α σ ι) (i : ι) : Prop :=
  match (p.threads i).rest with
  | .done _ => True
  | .call c _ => ∀ j, j ≠ i → Running p j →
      v.row c ∉ (p.threads j).changed ∧ (Changes v c p.db → v.row c ∉ (p.threads j).touched)

variable [DecidableEq V]

instance (c : C) (s : σ) : Decidable (Changes v c s) := inferInstanceAs (Decidable (_ ≠ _))

instance [DecidableEq X] [DecidableEq ι] [Fintype ι] (p : Pool C R X ε α σ ι) (i : ι) : Decidable (Isolated v p i) := by
  unfold Isolated
  split <;> infer_instance

def answered (t : Thread C R X ε α) (c : C) (next : Except ε (R c) → Calls C R ε α) (s : σ) : Thread C R X ε α :=
  ⟨next (serve c s).1, v.row c :: t.touched, if Changes v c s then v.row c :: t.changed else t.changed⟩

variable [DecidableEq ι]

def step (p : Pool C R X ε α σ ι) (i : ι) : Pool C R X ε α σ ι :=
  match (p.threads i).rest with
  | .done _ => p
  | .call c next => ⟨(serve c p.db).2, update p.threads i (answered v (p.threads i) c next p.db)⟩

def runs (p : Pool C R X ε α σ ι) : List ι → Pool C R X ε α σ ι
  | [] => p
  | i :: schedule => runs (step v p i) schedule

def IsolatedRun (p : Pool C R X ε α σ ι) : List ι → Prop
  | [] => True
  | i :: schedule => Isolated v p i ∧ IsolatedRun (step v p i) schedule

instance [DecidableEq X] [Fintype ι] (p : Pool C R X ε α σ ι) (schedule : List ι) :
    Decidable (IsolatedRun v p schedule) := by
  induction schedule generalizing p with
  | nil => exact isTrue trivial
  | cons i schedule ih => exact @instDecidableAnd _ _ _ (ih _)

end Steps

def inOrder (serve : Server C R ε σ) (ops : ι → Calls C R ε α) : List ι → σ → List (ι × Except ε α) × σ
  | [], s => ([], s)
  | i :: order, s =>
    let after := run serve (ops i) s
    let others := inOrder serve ops order after.2
    ((i, after.1) :: others.1, others.2)

variable {order : List ι} {r : Except ε α}

theorem inOrder_concat {ops : ι → Calls C R ε α} {s base base' : σ}
    {results : List (ι × Except ε α)} (h : inOrder serve ops order s = (results, base)) {i : ι}
    (hi : run serve (ops i) base = (r, base')) :
    inOrder serve ops (order ++ [i]) s = (results ++ [(i, r)], base') := by
  induction order generalizing s results with
  | nil =>
    cases h
    simp [inOrder, hi]
  | cons j order ih =>
    cases h
    simp only [cons_append, inOrder, ih rfl]

theorem inOrder_fst (serve : Server C R ε σ) (ops : ι → Calls C R ε α) (order : List ι) (s : σ) :
    (inOrder serve ops order s).1.map Prod.fst = order := by
  induction order generalizing s with
  | nil => rfl
  | cons i order ih => simp [inOrder, ih]

section Serial

variable (v : RowView serve X V)
variable (ops : ι → Calls C R ε α) (start : σ)

/-- Replayed on `base`, or on any state with the same rows where it has been, the program is where it is now. -/
def Replays (p : Pool C R X ε α σ ι) (base : σ) (i : ι) : Prop :=
  ∃ n, ∀ s, (∀ x ∈ (p.threads i).touched, v.look s x = v.look base x) →
    ∃ s', advance serve n (ops i) s = ((p.threads i).rest, s') ∧
      (∀ x ∈ (p.threads i).touched, v.look s' x = v.look p.db x) ∧
      ∀ x ∉ (p.threads i).touched, v.look s' x = v.look s x

structure Serial (p : Pool C R X ε α σ ι) (order : List ι) (base : σ) : Prop where
  nodup : order.Nodup
  finished : ∃ results, inOrder serve ops order start = (results, base) ∧
    ∀ i r, (i, r) ∈ results ↔ (p.threads i).rest = done r
  changed_touched : ∀ i, ∀ x ∈ (p.threads i).changed, x ∈ (p.threads i).touched
  clean : ∀ x, (∀ i, Running p i → x ∉ (p.threads i).changed) → v.look p.db x = v.look base x
  exclusive : ∀ i j, i ≠ j → Running p i → Running p j → ∀ x ∈ (p.threads i).changed, x ∉ (p.threads j).touched
  replays : ∀ i, Running p i → Replays v ops p base i

variable {v ops start}

theorem serial_begin (hops : ∀ i r, ops i ≠ done r) : Serial v ops start (begin ops start) [] start where
  nodup := nodup_nil
  finished := by
    refine ⟨[], rfl, ?_⟩
    intro i r
    simp [begin, hops]
  changed_touched := by
    intro i x hx
    cases hx
  clean := fun _ _ => rfl
  exclusive := by
    intro i j _ _ _ x hx
    cases hx
  replays := by
    intro i _
    exact ⟨0, fun s _ => ⟨s, rfl, fun x hx => (nomatch hx), fun x _ => rfl⟩⟩

variable {p : Pool C R X ε α σ ι} {base : σ} {i : ι} {c : C}
variable {next : Except ε (R c) → Calls C R ε α}

theorem running_call (h : (p.threads i).rest = call c next) : Running p i := by
  intro r hr
  rw [h] at hr
  cases hr

variable {j : ι}

theorem isolated_call (h : (p.threads i).rest = call c next) (hi : Isolated v p i) (hj : j ≠ i)
    (hrun : Running p j) : v.row c ∉ (p.threads j).changed ∧ (Changes v c p.db → v.row c ∉ (p.threads j).touched) := by
  unfold Isolated at hi
  rw [h] at hi
  exact hi j hj hrun

theorem look_of_touched (hrest : (p.threads i).rest = call c next) (hi : Isolated v p i) (hj : j ≠ i)
    (hrun : Running p j) {x : X} (hx : x ∈ (p.threads j).touched) : v.look (serve c p.db).2 x = v.look p.db x := by
  by_cases hrow : x = v.row c
  · subst hrow
    by_contra hchanges
    exact (isolated_call hrest hi hj hrun).2 hchanges hx
  · exact v.frame c p.db x hrow

variable [DecidableEq V]

theorem mem_changed_answered {t : Thread C R X ε α} {s : σ} {x : X} :
    x ∈ (answered v t c next s).changed ↔ x ∈ t.changed ∨ (x = v.row c ∧ Changes v c s) := by
  unfold answered
  by_cases h : Changes v c s
  · simp only [h, ↓reduceIte, mem_cons, and_true]
    exact or_comm
  · simp [h]

variable [DecidableEq ι]

def after (v : RowView serve X V) (p : Pool C R X ε α σ ι) (i : ι) (c : C)
    (next : Except ε (R c) → Calls C R ε α) : Pool C R X ε α σ ι :=
  ⟨(serve c p.db).2, update p.threads i (answered v (p.threads i) c next p.db)⟩

theorem step_call (h : (p.threads i).rest = call c next) : step v p i = after v p i c next := by
  unfold step
  rw [h]
  rfl

@[simp] theorem after_self : (after v p i c next).threads i = answered v (p.threads i) c next p.db :=
  update_self _ _ _

theorem after_other (h : j ≠ i) : (after v p i c next).threads j = p.threads j :=
  update_of_ne h _ _

theorem running_other (h : j ≠ i) : Running (after v p i c next) j ↔ Running p j := by
  unfold Running
  rw [after_other h]

variable {schedule : List ι}

section

variable (hserial : Serial v ops start p order base)

include hserial

theorem replays_after (hrest : (p.threads i).rest = call c next)
    (hi : Isolated v p i) : Replays v ops (after v p i c next) base i := by
  obtain ⟨n, hn⟩ := hserial.replays i (running_call hrest)
  refine ⟨n + 1, ?_⟩
  intro s hs
  simp only [after_self] at hs ⊢
  obtain ⟨s₁, hadvance, htouched, hrest'⟩ := hn s (fun x hx => hs x (mem_cons_of_mem _ hx))
  rw [hrest] at hadvance
  have hrow : v.look s₁ (v.row c) = v.look p.db (v.row c) := by
    by_cases hmem : v.row c ∈ (p.threads i).touched
    · exact htouched _ hmem
    · rw [hrest' _ hmem, hs _ mem_cons_self]
      refine (hserial.clean _ ?_).symm
      intro j hj
      by_cases hji : j = i
      · subst hji
        exact fun h => hmem (hserial.changed_touched j _ h)
      · exact (isolated_call hrest hi hji hj).1
  refine ⟨(serve c s₁).2, ?_, ?_, ?_⟩
  · rw [advance_succ serve hadvance, v.answer_congr c s₁ p.db hrow]
    rfl
  · intro x hx
    change _ = v.look (serve c p.db).2 x
    by_cases hxc : x = v.row c
    · subst hxc
      exact v.effect_congr c s₁ p.db hrow
    · rw [v.frame c s₁ x hxc, v.frame c p.db x hxc]
      exact htouched x ((mem_cons.mp hx).resolve_left hxc)
  · intro x hx
    change x ∉ v.row c :: (p.threads i).touched at hx
    rw [mem_cons, not_or] at hx
    rw [v.frame c s₁ x hx.1, hrest' x hx.2]

theorem changed_touched_after (j : ι) :
    ∀ x ∈ ((after v p i c next).threads j).changed, x ∈ ((after v p i c next).threads j).touched := by
  intro x hx
  by_cases hj : j = i
  · subst hj
    rw [after_self] at hx ⊢
    rcases mem_changed_answered.mp hx with h | ⟨rfl, -⟩
    · exact mem_cons_of_mem _ (hserial.changed_touched j x h)
    · exact mem_cons_self
  · rw [after_other hj] at hx ⊢
    exact hserial.changed_touched j x hx

section

variable (hrest : (p.threads i).rest = call c next)

include hrest

variable (hi : Isolated v p i)

include hi

theorem exclusive_after (j k : ι) (hjk : j ≠ k) (hj : Running (after v p i c next) j)
    (hk : Running (after v p i c next) k) :
    ∀ x ∈ ((after v p i c next).threads j).changed, x ∉ ((after v p i c next).threads k).touched := by
  intro x hx
  have hrun := running_call hrest
  by_cases hji : j = i
  · subst hji
    have hk' := (running_other (Ne.symm hjk)).mp hk
    rw [after_self] at hx
    rw [after_other (Ne.symm hjk)]
    rcases mem_changed_answered.mp hx with h | ⟨rfl, hchanges⟩
    · exact hserial.exclusive j k hjk hrun hk' x h
    · exact (isolated_call hrest hi (Ne.symm hjk) hk').2 hchanges
  · have hj' := (running_other hji).mp hj
    rw [after_other hji] at hx
    by_cases hki : k = i
    · subst hki
      rw [after_self]
      change x ∉ v.row c :: (p.threads k).touched
      rw [mem_cons, not_or]
      refine ⟨?_, hserial.exclusive j k hjk hj' hrun x hx⟩
      rintro rfl
      exact (isolated_call hrest hi hjk hj').1 hx
    · rw [after_other hki]
      exact hserial.exclusive j k hjk hj' ((running_other hki).mp hk) x hx

theorem replays_other (hj : j ≠ i) (hrun : Running p j) {base' : σ}
    (hbase : ∀ x ∈ (p.threads j).touched, v.look base' x = v.look base x) :
    Replays v ops (after v p i c next) base' j := by
  obtain ⟨n, hn⟩ := hserial.replays j hrun
  refine ⟨n, ?_⟩
  rw [after_other hj]
  intro s hs
  obtain ⟨s', hadvance, htouched, hothers⟩ := hn s (fun x hx => (hs x hx).trans (hbase x hx))
  refine ⟨s', hadvance, ?_, hothers⟩
  intro x hx
  rw [htouched x hx]
  exact (look_of_touched hrest hi hj hrun hx).symm

theorem serial_continue
    (hrun : ∀ r, next (serve c p.db).1 ≠ done r) : Serial v ops start (after v p i c next) order base where
  nodup := hserial.nodup
  finished := by
    obtain ⟨results, horder, hresults⟩ := hserial.finished
    refine ⟨results, horder, ?_⟩
    intro j r
    by_cases hj : j = i
    · subst hj
      rw [hresults, after_self, hrest]
      constructor
      · intro h
        cases h
      · intro h
        exact absurd h (hrun r)
    · rw [hresults, after_other hj]
  changed_touched := changed_touched_after hserial
  clean := by
    intro x hx
    have hself := hx i (by
      intro r
      rw [after_self]
      exact hrun r)
    rw [after_self, mem_changed_answered, not_or] at hself
    have hclean : v.look p.db x = v.look base x := by
      apply hserial.clean
      intro j hj
      by_cases hji : j = i
      · subst hji
        exact hself.1
      · have := hx j ((running_other hji).mpr hj)
        rwa [after_other hji] at this
    rw [← hclean]
    change v.look (serve c p.db).2 x = v.look p.db x
    by_cases hrow : x = v.row c
    · subst hrow
      by_contra hchanges
      exact hself.2 ⟨rfl, hchanges⟩
    · exact v.frame c p.db x hrow
  exclusive := exclusive_after hserial hrest hi
  replays := by
    intro j hj
    by_cases hji : j = i
    · subst hji
      exact replays_after hserial hrest hi
    · exact replays_other hserial hrest hi hji ((running_other hji).mp hj) (fun _ _ => rfl)

theorem serial_finish
    (hdone : next (serve c p.db).1 = done r) :
    ∃ base', Serial v ops start (after v p i c next) (order ++ [i]) base' := by
  obtain ⟨n, hn⟩ := replays_after hserial hrest hi
  obtain ⟨base', hadvance, htouched, hothers⟩ := hn base (fun _ _ => rfl)
  rw [after_self] at hadvance htouched hothers
  change advance serve n (ops i) base = (next (serve c p.db).1, base') at hadvance
  rw [hdone] at hadvance
  have hfinished : ¬ Running (after v p i c next) i := by
    intro hrun
    exact hrun r (by rw [after_self]; exact hdone)
  have hother {j : ι} (hj : Running (after v p i c next) j) : j ≠ i := by
    rintro rfl
    exact hfinished hj
  refine ⟨base', ?_, ?_, changed_touched_after hserial, ?_, exclusive_after hserial hrest hi, ?_⟩
  · rw [← concat_eq_append, nodup_concat]
    refine ⟨?_, hserial.nodup⟩
    intro hmem
    obtain ⟨results, horder, hresults⟩ := hserial.finished
    have hfst := inOrder_fst serve ops order start
    rw [horder] at hfst
    rw [← hfst] at hmem
    obtain ⟨⟨j, r'⟩, hr', rfl⟩ := mem_map.mp hmem
    rw [hresults, hrest] at hr'
    cases hr'
  · obtain ⟨results, horder, hresults⟩ := hserial.finished
    refine ⟨results ++ [(i, r)], inOrder_concat horder (run_of_advance serve hadvance), ?_⟩
    intro j r'
    rw [mem_append, hresults, mem_singleton]
    by_cases hj : j = i
    · subst hj
      rw [hrest, after_self]
      change (_ ∨ _) ↔ next (serve c p.db).1 = done r'
      rw [hdone]
      simp [eq_comm]
    · rw [after_other hj]
      simp [hj]
  · intro x hx
    by_cases hmem : x ∈ v.row c :: (p.threads i).touched
    · exact (htouched x hmem).symm
    · rw [hothers x hmem]
      rw [mem_cons, not_or] at hmem
      change v.look (serve c p.db).2 x = _
      rw [v.frame c p.db x hmem.1]
      apply hserial.clean
      intro j hj
      by_cases hji : j = i
      · subst hji
        exact fun h => hmem.2 (hserial.changed_touched j x h)
      · have := hx j ((running_other hji).mpr hj)
        rwa [after_other hji] at this
  · intro j hj
    have hji := hother hj
    have hrun := (running_other hji).mp hj
    apply replays_other hserial hrest hi hji hrun
    intro x hx
    by_cases hmem : x ∈ v.row c :: (p.threads i).touched
    · -- The other program has used this row, so nobody unfinished has changed it.
      rw [htouched x hmem]
      change v.look (serve c p.db).2 x = _
      rw [look_of_touched hrest hi hji hrun hx]
      apply hserial.clean
      intro k hk hchanged
      by_cases hkj : k = j
      · subst hkj
        rcases mem_cons.mp hmem with rfl | hmem
        · exact (isolated_call hrest hi hji hrun).1 hchanged
        · exact hserial.exclusive k i hji hrun (running_call hrest) x hchanged hmem
      · exact hserial.exclusive k j hkj hk hrun x hchanged hx
    · exact hothers x hmem

end

theorem serial_step (hi : Isolated v p i) : ∃ order' base', Serial v ops start (step v p i) order' base' := by
  cases hrest : (p.threads i).rest with
  | done r =>
    have hstep : step v p i = p := by
      unfold step
      rw [hrest]
    rw [hstep]
    exact ⟨order, base, hserial⟩
  | call c next =>
    rw [step_call hrest]
    cases hnext : next (serve c p.db).1 with
    | done r =>
      obtain ⟨base', h⟩ := serial_finish hserial hrest hi hnext
      exact ⟨_, base', h⟩
    | call c' next' =>
      refine ⟨order, base, serial_continue hserial hrest hi ?_⟩
      intro r hr
      rw [hnext] at hr
      cases hr

theorem serial_runs
    (hiso : IsolatedRun v p schedule) : ∃ order' base', Serial v ops start (runs v p schedule) order' base' := by
  induction schedule generalizing p order base with
  | nil => exact ⟨order, base, hserial⟩
  | cons i schedule ih =>
    obtain ⟨order', base', h⟩ := serial_step hserial hiso.1
    exact ih h hiso.2

end

theorem isolated_runs_serial (hops : ∀ i r, ops i ≠ done r)
    (hiso : IsolatedRun v (begin ops start) schedule)
    (hdone : ∀ i, ∃ r, ((runs v (begin ops start) schedule).threads i).rest = done r) :
    ∃ order : List ι, order.Nodup ∧ (∀ i, i ∈ order) ∧
      (∀ x, v.look (runs v (begin ops start) schedule).db x = v.look (inOrder serve ops order start).2 x) ∧
      ∀ i r, (i, r) ∈ (inOrder serve ops order start).1 ↔
        ((runs v (begin ops start) schedule).threads i).rest = done r := by
  obtain ⟨order, base, hserial⟩ := serial_runs (serial_begin hops) hiso
  obtain ⟨results, horder, hresults⟩ := hserial.finished
  have hfst := inOrder_fst serve ops order start
  rw [horder] at hfst
  refine ⟨order, hserial.nodup, ?_, ?_, ?_⟩
  · intro i
    obtain ⟨r, hr⟩ := hdone i
    rw [← hfst]
    exact mem_map.mpr ⟨(i, r), (hresults i r).mpr hr, rfl⟩
  · intro x
    rw [horder]
    apply hserial.clean
    intro i hi
    obtain ⟨r, hr⟩ := hdone i
    exact absurd hr (hi r)
  · rw [horder]
    exact hresults

end Serial

end Basilica.RowLocks
