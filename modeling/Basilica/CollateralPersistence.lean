import Basilica.CollateralTable
import Basilica.Statements

/-!
The handlers that replay the collateral events into the database. `effect` says what a handler does
to the entry of its key.
-/

namespace Basilica.Collateral

open CheckedSteps ColumnText Statements Function

inductive CollateralEvent
  | deposit (event : Deposit)
  | reclaimed (event : Reclaimed)
  | slashed (event : Slashed)
deriving DecidableEq

open CollateralEvent

def CollateralEvent.key : CollateralEvent → Key
  | .deposit e => (e.hotkey, e.executorId)
  | .reclaimed e => (e.hotkey, e.executorId)
  | .slashed e => (e.hotkey, e.executorId)

inductive Failure
  | database
  | message (text : String)

structure Db where
  status : Table
  lastScannedBlockNumber : ℕ

def contractDeployedBlockNumber : ℕ := 0

def createCollateralScannedBlocksTable : Db := ⟨Table.empty, contractDeployedBlockNumber⟩

def keyText (k : Key) : String × String := (encodeHex (n := 64) k.1, encodeHex (n := 32) k.2)

def minerText (a : Address) : String := "0x" ++ encodeHex (n := 40) a

variable {k : Key}

theorem keyText_inj {k' : Key} : keyText k = keyText k' ↔ k = k' := by
  simp only [keyText, encodeHex_inj, Prod.ext_iff]

def getLastScannedBlockNumber : Program Db Failure ℕ :=
  statement .database (fun db => .ok (db.lastScannedBlockNumber, db))

def updateLastScannedBlockNumber (block : ℕ) : Program Db Failure Unit :=
  statement .database (fun db => .ok ((), { db with lastScannedBlockNumber := block }))

def getCollateralStatusId (key : String × String) : Program Db Failure (Option (ℕ × ℕ)) := do
  let row ← statement .database (fun db => .ok (db.status.find key, db))
  match row with
  | some row =>
    match parseDecimal 256 row.collateral with
    | some collateral => return some (row.id, collateral)
    | none => throw (.message "Invalid collateral")
  | none => return none

def Row.setCollateral (collateral : String) (r : Row) : Row := { r with collateral := collateral }

def Row.setSlashed (url md5 : String) (r : Row) : Row :=
  { r with
    collateral := "0"
    miner := minerText 0
    url := some url
    urlContentMd5Checksum := some md5 }

def updateCollateral (id : ℕ) (collateral : ℕ) : Program Db Failure Unit :=
  statement .database (fun db => .ok ((), { db with
    status := db.status.update id (Row.setCollateral (toString collateral)) (fun _ => rfl) (fun _ => rfl) }))

def handleDeposit (e : Deposit) : Program Db Failure Unit := do
  let key := keyText (e.hotkey, e.executorId)
  match ← getCollateralStatusId key with
  | some (id, collateral) => updateCollateral id (saturatingAdd 256 collateral e.amount)
  | none =>
    statement .database (fun db =>
      if h : db.status.find key = none then
        .ok ((), { db with status := db.status.insert key (minerText e.miner) (toString e.amount) h })
      else .error .database)

def handleReclaimed (e : Reclaimed) : Program Db Failure Unit := do
  match ← getCollateralStatusId (keyText (e.hotkey, e.executorId)) with
  | some (id, collateral) => updateCollateral id (saturatingSub collateral e.amount)
  | none => throw (.message "Collateral status not found")

def handleSlashed (e : Slashed) : Program Db Failure Unit := do
  match ← getCollateralStatusId (keyText (e.hotkey, e.executorId)) with
  | some (id, _) =>
    let md5 := encodeHex (n := 32) e.urlContentMd5Checksum
    statement .database (fun db => .ok ((), { db with
      status := db.status.update id (Row.setSlashed e.url md5) (fun _ => rfl) (fun _ => rfl) }))
  | none => throw (.message "Collateral status not found")

def handle : CollateralEvent → Program Db Failure Unit
  | .deposit e => handleDeposit e
  | .reclaimed e => handleReclaimed e
  | .slashed e => handleSlashed e

structure Entry where
  miner : String
  collateral : String
  url : Option String
  urlContentMd5Checksum : Option String

def Row.entry (r : Row) : Entry := ⟨r.miner, r.collateral, r.url, r.urlContentMd5Checksum⟩

def Entry.setCollateral (n : ℕ) (x : Entry) : Entry := { x with collateral := toString n }

def Entry.slashed (e : Slashed) : Entry :=
  ⟨minerText 0, "0", some e.url, some (encodeHex (n := 32) e.urlContentMd5Checksum)⟩

def Table.entry (t : Table) (k : Key) : Option Entry := (t.find (keyText k)).map Row.entry

def parseCollateral (s : String) : Except Failure ℕ :=
  match parseDecimal 256 s with
  | some n => .ok n
  | none => .error (.message "Invalid collateral")

def CollateralEvent.effect : CollateralEvent → Option Entry → Except Failure Entry
  | .deposit e, none => .ok ⟨minerText e.miner, toString e.amount, none, none⟩
  | .deposit e, some x => do
    let n ← parseCollateral x.collateral
    return x.setCollateral (saturatingAdd 256 n e.amount)
  | .reclaimed e, some x => do
    let n ← parseCollateral x.collateral
    return x.setCollateral (saturatingSub n e.amount)
  | .slashed e, some x => do
    let _ ← parseCollateral x.collateral
    return Entry.slashed e
  | _, none => .error (.message "Collateral status not found")

variable {t : Table}

theorem Table.entry_update {r : Row} (hr : t.find (keyText k) = some r)
    (f : Row → Row) (hid : ∀ r, (f r).id = r.id) (hkey : ∀ r, (f r).key = r.key) :
    (t.update r.id f hid hkey).entry = Function.update t.entry k (some (f r).entry) := by
  funext k'
  rw [Table.entry, Table.find_update hr, update_apply]
  simp only [keyText_inj]
  split_ifs <;> rfl

theorem Table.entry_insert (h : t.find (keyText k) = none) (miner collateral : String) :
    (t.insert (keyText k) miner collateral h).entry =
      Function.update t.entry k (some ⟨miner, collateral, none, none⟩) := by
  funext k'
  rw [Table.entry, Table.find_insert, update_apply]
  simp only [keyText_inj]
  split_ifs <;> rfl

section Specification

variable {c c' : Connection Db} {k : Key}

def Found (t : Table) (k : Key) : Option (ℕ × ℕ) → Prop
  | none => t.find (keyText k) = none
  | some (id, n) => ∃ row, t.find (keyText k) = some row ∧ row.id = id ∧ parseCollateral row.collateral = .ok n

variable {r : Option (ℕ × ℕ)}

theorem getCollateralStatusId_ok (h : getCollateralStatusId (keyText k) c = .ok r c') :
    c.left ≠ some 0 ∧ c' = c.next c.db ∧ Found c.db.status k r := by
  obtain ⟨row, m, hrow, h⟩ := seq_ok_iff.mp h
  obtain ⟨hleft, hfind, rfl⟩ := statement_total_iff.mp hrow
  refine ⟨hleft, ?_⟩
  cases row with
  | none =>
    obtain ⟨rfl, rfl⟩ := pure_ok_iff.mp h
    exact ⟨rfl, hfind.symm⟩
  | some row =>
    cases hp : parseDecimal 256 row.collateral with
    | none =>
      simp only [hp] at h
      exact absurd h throw_not_ok
    | some n =>
      simp only [hp] at h
      obtain ⟨rfl, rfl⟩ := pure_ok_iff.mp h
      exact ⟨rfl, row, hfind.symm, rfl, by simp [parseCollateral, hp]⟩

theorem getCollateralStatusId_succeeds (hleft : c.left ≠ some 0)
    (hr : Found c.db.status k r) : getCollateralStatusId (keyText k) c = .ok r (c.next c.db) := by
  apply seq_ok_iff.mpr
  refine ⟨_, _, statement_total_iff.mpr ⟨hleft, rfl, rfl⟩, ?_⟩
  cases r with
  | none =>
    rw [show c.db.status.find (keyText k) = none from hr]
    rfl
  | some p =>
    obtain ⟨row, hfind, hid, hp⟩ := hr
    rw [hfind]
    cases hd : parseDecimal 256 row.collateral with
    | none => simp [parseCollateral, hd] at hp
    | some n =>
      simp only [parseCollateral, hd, Except.ok.injEq] at hp
      simp only [hd, hid, hp]
      rfl

theorem getCollateralStatusId_db (key : String × String) : finalDb (getCollateralStatusId key c) = c.db := by
  unfold getCollateralStatusId
  cases hrow : statement Failure.database (fun db : Db => .ok (db.status.find key, db)) c with
  | error e m => rw [seq_error hrow, finalDb, statement_error hrow]
  | ok row m =>
    rw [seq_ok hrow]
    obtain ⟨_, _, rfl⟩ := statement_total_iff.mp hrow
    cases row with
    | none => rfl
    | some row =>
      cases hp : parseDecimal 256 row.collateral with
      | none | some n =>
        simp only [hp]
        rfl

theorem found_none_iff : Found t k none ↔ t.entry k = none := by
  simp only [Found, Table.entry, Option.map_eq_none_iff]

variable {id n : ℕ}

theorem Found.entry_some (h : Found t k (some (id, n))) :
    ∃ x, t.entry k = some x ∧ parseCollateral x.collateral = .ok n ∧
      ∀ (f : Row → Row) (g : Entry → Entry) hid hkey, (∀ r, (f r).entry = g r.entry) →
        (t.update id f hid hkey).entry = update t.entry k (some (g x)) := by
  obtain ⟨row, hfind, rfl, hp⟩ := h
  refine ⟨row.entry, by simp [Table.entry, hfind], hp, ?_⟩
  intro f g hid hkey hfg
  rw [Table.entry_update hfind, hfg]

variable {x : Entry}

theorem lookup_ok {f : Option (ℕ × ℕ) → Program Db Failure Unit}
    (h : (getCollateralStatusId (keyText k) >>= f) c = .ok () c') :
    c.left ≠ some 0 ∧ ∃ r, Found c.db.status k r ∧ f r (c.next c.db) = .ok () c' := by
  obtain ⟨r, m, hget, h⟩ := seq_ok_iff.mp h
  obtain ⟨hleft, rfl, hfound⟩ := getCollateralStatusId_ok hget
  exact ⟨hleft, r, hfound, h⟩

theorem Found.update_ok {f : Row → Row} {g : Entry → Entry} {hid : ∀ r, (f r).id = r.id}
    {hkey : ∀ r, (f r).key = r.key} (hfound : Found c.db.status k (some (id, n)))
    (hfg : ∀ r, (f r).entry = g r.entry)
    (h : statement Failure.database (fun db : Db =>
      .ok ((), { db with status := db.status.update id f hid hkey })) (c.next c.db) = .ok () c') :
    ∃ x t, c.db.status.entry k = some x ∧ parseCollateral x.collateral = .ok n ∧
      t.entry = update c.db.status.entry k (some (g x)) ∧
      c' = (c.next c.db).next { c.db with status := t } := by
  obtain ⟨_, _, rfl⟩ := statement_total_iff.mp h
  obtain ⟨x, hx, hp, hstore⟩ := hfound.entry_some
  exact ⟨x, _, hx, hp, hstore f g hid hkey hfg, rfl⟩

variable {e : CollateralEvent}

theorem handle_ok (h : handle e c = .ok () c') : ∃ x t, e.effect (c.db.status.entry e.key) = .ok x ∧
      t.entry = update c.db.status.entry e.key (some x) ∧
      c' = (c.next c.db).next { c.db with status := t } := by
  cases e with
  | deposit e =>
    obtain ⟨_, r, hfound, h⟩ := lookup_ok h
    cases r with
    | none =>
      obtain ⟨_, db, hdb, rfl⟩ := statement_ok_iff.mp h
      have hnone : c.db.status.find (keyText (e.hotkey, e.executorId)) = none := hfound
      rw [Connection.next_db, dif_pos hnone] at hdb
      cases hdb
      refine ⟨_, _, ?_, Table.entry_insert hnone _ _, rfl⟩
      rw [key, found_none_iff.mp hfound]
      rfl
    | some p =>
      obtain ⟨x, t, hx, hp, ht, hc'⟩ := hfound.update_ok (g := Entry.setCollateral _) (fun _ => rfl) h
      refine ⟨_, t, ?_, ht, hc'⟩
      rw [key, hx, effect, hp]
      rfl
  | reclaimed e =>
    obtain ⟨_, r, hfound, h⟩ := lookup_ok h
    cases r with
    | none => exact absurd h throw_not_ok
    | some p =>
      obtain ⟨x, t, hx, hp, ht, hc'⟩ := hfound.update_ok (g := Entry.setCollateral _) (fun _ => rfl) h
      refine ⟨_, t, ?_, ht, hc'⟩
      rw [key, hx, effect, hp]
      rfl
  | slashed e =>
    obtain ⟨_, r, hfound, h⟩ := lookup_ok h
    cases r with
    | none => exact absurd h throw_not_ok
    | some p =>
      -- The amount is parsed and then thrown away, so a malformed one stops the slash as well.
      obtain ⟨x, t, hx, hp, ht, hc'⟩ := hfound.update_ok (g := fun _ => Entry.slashed e) (fun _ => rfl) h
      refine ⟨_, t, ?_, ht, hc'⟩
      rw [key, hx, effect, hp]
      rfl

theorem handle_allows (h : handle e c = .ok () c') : Allows c.left 2 := by
  -- One statement looks the key up, one writes.
  have htwo (h0 : c.left ≠ some 0) (h1 : (c.next c.db).left ≠ some 0) : Allows c.left 2 :=
    allows_succ_iff.mpr ⟨h0, allows_succ_iff.mpr ⟨h1, fun _ _ => Nat.zero_le _⟩⟩
  cases e with
  | deposit e =>
    obtain ⟨h0, r, _, h⟩ := lookup_ok h
    cases r with
    | none => exact htwo h0 (statement_ok_iff.mp h).1
    | some p => exact htwo h0 (statement_total_iff.mp h).1
  | reclaimed e | slashed e =>
    obtain ⟨h0, r, _, h⟩ := lookup_ok h
    cases r with
    | none => exact absurd h throw_not_ok
    | some p => exact htwo h0 (statement_total_iff.mp h).1

theorem handle_error {f : Failure} (h : handle e c = .error f c') : c'.db = c.db := by
  cases e with
  | deposit e =>
    apply seq_error_db (getCollateralStatusId_db _) _ h
    intro r m f c' h
    cases r with
    | none | some p => rw [statement_error h]
  | reclaimed e | slashed e =>
    apply seq_error_db (getCollateralStatusId_db _) _ h
    intro r m f c' h
    cases r with
    | none =>
      cases h
      rfl
    | some p => rw [statement_error h]

theorem handle_succeeds (hleft : Allows c.left 2)
    (hx : e.effect (c.db.status.entry e.key) = .ok x) : ∃ c', handle e c = .ok () c' := by
  obtain ⟨h0, hleft⟩ := allows_succ_iff.mp hleft
  have hnext : (c.next c.db).left ≠ some 0 := hleft.ne_zero
  have hget (r : Option (ℕ × ℕ)) (hr : Found c.db.status e.key r) :=
    getCollateralStatusId_succeeds h0 hr
  cases he : c.db.status.entry e.key with
  | none =>
    have hfound := found_none_iff.mpr he
    have hnone : c.db.status.find (keyText e.key) = none := hfound
    cases e with
    | deposit e =>
      exact ⟨_, seq_ok_iff.mpr ⟨_, _, hget none hfound, statement_ok_iff.mpr ⟨hnext, _, dif_pos hnone, rfl⟩⟩⟩
    | _ => simp [he, effect] at hx
  | some y =>
    have hparse : ∃ n, parseCollateral y.collateral = .ok n := by
      rw [he] at hx
      cases e <;> exact ((bind_ok_iff _ _ _).mp hx).imp (fun _ h => h.1)
    obtain ⟨n, hn⟩ := hparse
    obtain ⟨row, hfind, rfl⟩ := Option.map_eq_some_iff.mp he
    have hfound : Found c.db.status e.key (some (row.id, n)) := ⟨row, hfind, rfl, hn⟩
    cases e <;>
      exact ⟨_, seq_ok_iff.mpr ⟨_, _, hget _ hfound, statement_total_iff.mpr ⟨hnext, rfl, rfl⟩⟩⟩

end Specification

end Basilica.Collateral
