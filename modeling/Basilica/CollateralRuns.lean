import Basilica.CollateralSteps

namespace Basilica.Collateral

open CallTrees CheckedSteps

abbrev History := List (ℕ × Script Call)

def Deployed (s : Storage) : Prop :=
  ∃ netuid trustee minCollateralIncrease decisionTimeout admin,
    initializeStorage netuid trustee minCollateralIncrease decisionTimeout admin = .ok s

def World.deployed (s : Storage) : World := ⟨s, 0, [], []⟩

/-- The states that any account can see in some history, all calls of which meet `G` where they
are made. -/
def ReachableBy (G : ℕ → Call → World → Prop) (w : World) : Prop :=
  ∃ s txs, Deployed s ∧ GuardedBy enter G txs (World.deployed s) ∧
    w ∈ visited enter txs (World.deployed s)

def Reachable (w : World) : Prop :=
  ∃ s txs, Deployed s ∧ w ∈ visited enter txs (World.deployed s)

variable {w : World}

theorem Reachable.unguarded (h : Reachable w) : ReachableBy (fun _ _ _ => True) w := by
  obtain ⟨s, txs, hs, hw⟩ := h
  exact ⟨s, txs, hs, guardedBy_of_forall _ _ (fun _ _ _ _ => trivial) _, hw⟩

variable {G : ℕ → Call → World → Prop}

theorem ReachableBy.reachable (h : ReachableBy G w) : Reachable w := by
  obtain ⟨s, txs, hs, _, hw⟩ := h
  exact ⟨s, txs, hs, hw⟩

def Call.depositKey (c : Call) : Option Key :=
  match c.method with
  | .deposit hotkey executorId => some (hotkey, executorId)
  | _ => none

def Call.slashKey (c : Call) : Option Key :=
  match c.method with
  | .slashCollateral hotkey executorId _ _ => some (hotkey, executorId)
  | _ => none

def Call.finalizeId (c : Call) : Option ℕ :=
  match c.method with
  | .finalizeReclaim id => some id
  | _ => none

structure Storage.Blank (s : Storage) : Prop where
  owners : ∀ k, s.executorToMiner k = 0
  collaterals : ∀ k, s.collaterals k = 0
  pending : ∀ k, s.collateralUnderPendingReclaims k = 0
  reclaims : ∀ id, s.reclaims id = Reclaim.zero

theorem Deployed.blank {s : Storage} (h : Deployed s) : s.Blank := by
  obtain ⟨_, _, _, _, _, h⟩ := h
  simp only [initializeStorage, bind_ok_iff, revertIf_eq_ok, exists_const] at h
  obtain ⟨_, _, _, _, h⟩ := h
  rw [← Except.ok.inj h]
  exact ⟨fun _ => rfl, fun _ => rfl, fun _ => rfl, fun _ => rfl⟩

variable {I : World → Prop}

theorem reachableBy_invariant (hinit : ∀ s, s.Blank → I (World.deployed s))
    (hstep : ∀ now c w w', ReachableBy G w → I w → G now c w → Step now c w w' → I w')
    (h : ReachableBy G w) : I w := by
  obtain ⟨s, txs, hs, hg, hw⟩ := h
  exact visited_invariant
    (fun now c v v' hv hI hG hn => hstep now c v v' ⟨s, txs, hs, hg, hv⟩ hI hG (enter_step hn))
    txs _ (hinit s hs.blank) hg (fun _ hv => hv) w hw

theorem reachable_invariant (hinit : ∀ s, s.Blank → I (World.deployed s))
    (hstep : ∀ now c w w', Reachable w → I w → Step now c w w' → I w')
    (h : Reachable w) : I w :=
  reachableBy_invariant hinit (fun now c v v' hr hv _ hs => hstep now c v v' hr.reachable hv hs)
    h.unguarded

def final (txs : History) (w : World) : World := txs.foldl (fun w tx => commit enter tx w) w

theorem final_mem_visited (txs : History) (w : World) : final txs w ∈ visited enter txs w := by
  induction txs generalizing w with
  | nil => simp [final, visited]
  | cons tx txs ih => exact List.mem_append_right _ (ih (commit enter tx w))

def sampleStorage : Storage := ⟨39, 1, 10, 1, fun _ => 0, fun _ => 0, fun _ => Reclaim.zero, fun _ => 0, 0⟩

theorem sampleStorage_deployed : Deployed sampleStorage := ⟨39, 1, 1, 10, 1, rfl⟩

theorem reachable_final (txs : History) : Reachable (final txs (World.deployed sampleStorage)) :=
  ⟨_, txs, sampleStorage_deployed, final_mem_visited txs _⟩

structure Sender where
  address : Address
  ne_zero : address ≠ 0

def sampleTrustee : Sender := ⟨1, by decide⟩
def alice : Sender := ⟨7, by decide⟩
def bob : Sender := ⟨8, by decide⟩
def carol : Sender := ⟨9, by decide⟩

def sampleCall (sender : Sender) (value : ℕ) (m : Method) : Call :=
  ⟨⟨sender.address, sender.ne_zero, value, false⟩, m⟩

def adminCall (m : Method) : Call := ⟨⟨sampleTrustee.address, sampleTrustee.ne_zero, 0, true⟩, m⟩

def tx (now : ℕ) (sender : Sender) (value : ℕ) (m : Method) : ℕ × Script Call :=
  (now, .call (sampleCall sender value m) (.stop true) (.stop true))

end Basilica.Collateral
