import Basilica.MinerAuth
import Basilica.ColumnText

/-!
The files of SSH keys on an executor's machine: the file of each validator's user, which is written key by key, and the file
of the executor's own user, whose lines carry the session they belong to.
-/

namespace Basilica.Executor

open Words List Option Function

/-- A line stands without its end, which is a line feed, or a carriage return and a line feed. -/
abbrev Line := List Char

def textLines (text : List Char) : List Line :=
  (text.splitOn '\n').map (fun line => if line.getLast? = some '\r' then line.dropLast else line)

abbrev Files := String → Option (List Line)

variable {files : Files} {path : String}

namespace Files

def lines (files : Files) (path : String) : List Line := (files path).getD []

def keys (files : Files) : Set (String × Line) := {q | q.2 ∈ files.lines q.1}

def write (files : Files) (path : String) (lines : List Line) : Files := update files path (some lines)

def remove (files : Files) (path : String) : Files := update files path none

variable {lines : List Line}

theorem lines_write_self : (files.write path lines).lines path = lines := by
  rw [Files.lines, write, update_self, getD_some]

theorem lines_write_of_ne {other : String} (h : other ≠ path) : (files.write path lines).lines other = files.lines other := by
  rw [Files.lines, write, update_of_ne h, Files.lines]

theorem keys_write_eq_iff : (files.write path lines).keys = files.keys ↔ ∀ line, line ∈ lines ↔ line ∈ files.lines path := by
  constructor
  · intro h line
    have hline : (path, line) ∈ (files.write path lines).keys ↔ (path, line) ∈ files.keys := by rw [h]
    change line ∈ (files.write path lines).lines path ↔ _ at hline
    rwa [lines_write_self] at hline
  · intro h
    ext ⟨other, line⟩
    change line ∈ (files.write path lines).lines other ↔ line ∈ files.lines other
    by_cases hother : other = path
    · subst hother
      rw [lines_write_self]
      exact h line
    · rw [lines_write_of_ne hother]

def Grows (files files' : Files) : Prop := ∀ path, files.lines path ⊆ files'.lines path

theorem grows_write (h : files.lines path ⊆ lines) : files.Grows (files.write path lines) := by
  intro other
  by_cases hother : other = path
  · subst hother
    rw [lines_write_self]
    exact h
  · rw [lines_write_of_ne hother]
    exact fun _ hline => hline

theorem lines_remove (other : String) : (files.remove path).lines other = (files.write path []).lines other := by
  by_cases hother : other = path
  · subst hother
    rw [lines_write_self, Files.lines, remove, update_self, getD_none]
  · rw [lines_write_of_ne hother, Files.lines, remove, update_of_ne hother, Files.lines]

theorem keys_remove_eq_iff : (files.remove path).keys = files.keys ↔ files.lines path = [] := by
  have hkeys : (files.remove path).keys = (files.write path []).keys := by
    ext ⟨other, line⟩
    change line ∈ (files.remove path).lines other ↔ _
    rw [lines_remove]
    rfl
  rw [hkeys, keys_write_eq_iff, eq_nil_iff_forall_not_mem]
  exact forall_congr' (fun line => by simp)

end Files

structure HostReply where
  now : Time
  error : String
  userReady : Bool
  groupAdded : Bool
  sshDirReady : Bool
  fileOpened : Bool
  fileRead : Bool
  written : Bool
  ownershipSet : Bool
  removed : Bool
  services : Except String String
  gpuFound : Bool

def HostReply.fine (now : Time) : HostReply := ⟨now, "", true, true, true, true, true, true, true, true, .ok "", true⟩

def authKeysPath (username : String) : String := s!"/home/{username}/.ssh/authorized_keys"

def keyTypeAndData (publicKey : List Char) : List Char :=
  match words publicKey with
  | keyType :: data :: _ => keyType ++ ' ' :: data
  | _ => trim publicKey

def isKeyType (word : List Char) : Bool := "ssh-".toList.isPrefixOf word || "ecdsa-".toList.isPrefixOf word

def lineKey (line : Line) : Option (List Char) :=
  match (words (trim line)).dropWhile (fun word => !isKeyType word) with
  | keyType :: data :: _ => some (keyType ++ ' ' :: data)
  | _ => none

def hasKey (file : List Line) (publicKey : List Char) : Bool :=
  file.any (fun line => lineKey line = some (keyTypeAndData publicKey))

def keyEntry (restrictions : List String) (publicKey : List Char) : List Line :=
  let key := trim publicKey
  textLines (if restrictions = [] then key else (",".intercalate restrictions).toList ++ ' ' :: key)

def addKeyIfMissing (reply : HostReply) (username publicKey : String) (restrictions : List String) (files : Files) :
    Except String Bool × Files :=
  let path := authKeysPath username
  let key := trim publicKey.toList
  if reply.sshDirReady = false then (.error reply.error, files)
  else if reply.fileOpened = false then (.error reply.error, files)
  else
    let opened := files.write path (files.lines path)
    -- a file that cannot be read counts as empty
    let existing := if reply.fileRead then files.lines path else []
    if hasKey existing key then (.ok false, opened)
    else if reply.written = false then (.error reply.error, opened)
    else
      let added := files.write path (files.lines path ++ keyEntry restrictions publicKey.toList)
      if reply.ownershipSet = false then (.error reply.error, added) else (.ok true, added)

def HoldsKey (file : List Line) (publicKey : String) : Prop :=
  hasKey file (trim publicKey.toList) ∨ keyEntry [] publicKey.toList ⊆ file

instance (file : List Line) (publicKey : String) : Decidable (HoldsKey file publicKey) :=
  inferInstanceAs (Decidable (_ ∨ _))

variable {publicKey : String}

theorem HoldsKey.mono {file file' : List Line} (h : HoldsKey file publicKey) (hsubset : file ⊆ file') :
    HoldsKey file' publicKey := by
  rcases h with hkey | hentry
  · obtain ⟨line, hline, hsame⟩ := any_eq_true.mp hkey
    exact Or.inl (any_eq_true.mpr ⟨line, hsubset hline, hsame⟩)
  · exact Or.inr (fun line hline => hsubset (hentry hline))

theorem grows_addKeyIfMissing (reply : HostReply) (username publicKey : String) (restrictions : List String) (files : Files) :
    files.Grows (addKeyIfMissing reply username publicKey restrictions files).2 := by
  have hnothing : files.Grows files := fun path line hline => hline
  have hopened : files.Grows (files.write (authKeysPath username) (files.lines (authKeysPath username))) :=
    Files.grows_write (List.Subset.refl _)
  unfold addKeyIfMissing
  dsimp only
  generalize (if reply.fileRead then files.lines (authKeysPath username) else []) = existing
  split_ifs
  · exact hnothing
  · exact hnothing
  · exact hopened
  · exact hopened
  all_goals exact Files.grows_write (subset_append_left _ _)

variable {reply : HostReply} {username : String}

theorem holdsKey_addKeyIfMissing {files' : Files} {added : Bool}
    (h : addKeyIfMissing reply username publicKey [] files = (.ok added, files')) :
    HoldsKey (files'.lines (authKeysPath username)) publicKey := by
  unfold addKeyIfMissing at h
  dsimp only at h
  generalize hread : (if reply.fileRead then files.lines (authKeysPath username) else []) = existing at h
  split_ifs at h with hdir hopened hkey hwritten hset
  · cases h
  · cases h
  · obtain ⟨-, rfl⟩ := Prod.mk.inj h
    rw [Files.lines_write_self]
    left
    split_ifs at hread
    · rw [hread]
      exact hkey
    · subst hread
      cases hkey
  · cases h
  · cases h
  · obtain ⟨-, rfl⟩ := Prod.mk.inj h
    rw [Files.lines_write_self]
    exact Or.inr (subset_append_right _ _)

def removeKey (reply : HostReply) (username : String) (files : Files) : Except String Unit × Files :=
  let path := authKeysPath username
  match files path with
  | none => (.ok (), files)
  | some _ => if reply.removed then (.ok (), files.remove path) else (.error reply.error, files)

theorem removeKey_ok (h : (removeKey reply username files).1.isOk) :
    (removeKey reply username files).2 = files.remove (authKeysPath username) := by
  unfold removeKey at h ⊢
  cases hfile : files (authKeysPath username) with
  | none =>
    have hsame : files.remove (authKeysPath username) = files := by rw [Files.remove, update_eq_self_iff, hfile]
    simp [hfile, hsame]
  | some lines =>
    cases hremoved : reply.removed with
    | false =>
      simp only [hfile, hremoved] at h
      cases h
    | true => simp [hfile]

theorem keys_removeKey_iff :
    (removeKey reply username files).2.keys ≠ files.keys ↔ reply.removed ∧ files.lines (authKeysPath username) ≠ [] := by
  unfold removeKey
  cases hfile : files (authKeysPath username) with
  | none =>
    have hempty : files.lines (authKeysPath username) = [] := by rw [Files.lines, hfile, getD_none]
    simp [hfile, hempty]
  | some lines =>
    cases hremoved : reply.removed with
    | false => simp [hfile]
    | true => simp [hfile, Files.keys_remove_eq_iff]

section SessionKeys

structure TimeText where
  parseRfc3339 : String → Option Time
  toRfc3339 : Time → String

variable (text : TimeText)

def sessionEntry (publicKey hotkey executorId : String) (sessionId : Option String) (expiresAt : Option Time) : List Line :=
  let key := String.ofList (trim publicKey.toList)
  match sessionId with
  | some sessionId =>
    let expires := (expiresAt.map text.toRfc3339).getD "never"
    textLines s!"{key} validator-session-{sessionId} validator={hotkey} executor={executorId} expires={expires} miner-managed".toList
  | none => textLines s!"{key} validator={hotkey} executor={executorId} legacy".toList

def addKeyWithSessionMetadata (reply : HostReply) (path publicKey hotkey executorId : String) (sessionId : Option String)
    (expiresAt : Option Time) (files : Files) : Except String Unit × Files :=
  if reply.sshDirReady = false then (.error reply.error, files)
  else if reply.fileOpened = false then (.error reply.error, files)
  else if reply.written = false then (.error reply.error, files.write path (files.lines path))
  else
    let added := files.write path (files.lines path ++ sessionEntry text publicKey hotkey executorId sessionId expiresAt)
    if reply.ownershipSet = false then (.error reply.error, added) else (.ok (), added)

def lineField (name : String) (line : Line) : Option String :=
  ((after? name.toList line).bind (until? ' ')).map String.ofList

def isExpired (now : Time) (line : Line) : Bool :=
  (after? "validator-session-".toList line).isSome &&
    match (lineField "expires=" line).bind text.parseRfc3339 with
    | some expiresAt => expiresAt < now
    | none => false

def cleanupExpiredKeys (reply : HostReply) (path : String) (files : Files) : Except String ℕ × Files :=
  match files path with
  | none => (.ok 0, files)
  | some lines =>
    if reply.fileRead = false then (.error reply.error, files)
    else
      let removed := (lines.filter (isExpired text reply.now)).length
      if removed = 0 then (.ok 0, files)
      else if reply.written = false then (.error reply.error, files)
      else (.ok removed, files.write path (lines.filter (fun line => !isExpired text reply.now line)))

variable {text}

theorem keys_addKeyWithSessionMetadata_iff {hotkey executorId : String} {sessionId : Option String} {expiresAt : Option Time} :
    (addKeyWithSessionMetadata text reply path publicKey hotkey executorId sessionId expiresAt files).2.keys ≠ files.keys ↔
      reply.sshDirReady ∧ reply.fileOpened ∧ reply.written ∧
        ∃ line ∈ sessionEntry text publicKey hotkey executorId sessionId expiresAt, line ∉ files.lines path := by
  unfold addKeyWithSessionMetadata
  generalize sessionEntry text publicKey hotkey executorId sessionId expiresAt = entry
  have hadded : (files.write path (files.lines path ++ entry)).keys ≠ files.keys ↔ ∃ line ∈ entry, line ∉ files.lines path := by
    rw [Ne, Files.keys_write_eq_iff, not_forall]
    refine exists_congr (fun line => ?_)
    rw [mem_append]
    tauto
  cases hdir : reply.sshDirReady with
  | false => simp
  | true =>
    cases hopened : reply.fileOpened with
    | false => simp
    | true =>
      cases hwritten : reply.written with
      | false => simp [Files.keys_write_eq_iff]
      | true => cases hset : reply.ownershipSet <;> simpa using hadded

theorem lines_cleanupExpiredKeys (h : (cleanupExpiredKeys text reply path files).1.isOk) : (cleanupExpiredKeys text reply path files).2.lines path =
    (files.lines path).filter (fun line => !isExpired text reply.now line) := by
  unfold cleanupExpiredKeys at h ⊢
  cases hfile : files path with
  | none => simp [Files.lines, hfile]
  | some lines =>
    have hlines : files.lines path = lines := by rw [Files.lines, hfile, getD_some]
    rw [hfile] at h
    dsimp only at h ⊢
    split_ifs at h ⊢ with hread hnone hwritten
    · cases h
    · rw [length_eq_zero_iff, filter_eq_nil_iff] at hnone
      rw [hlines, eq_comm, filter_eq_self]
      simpa using hnone
    · cases h
    · rw [Files.lines_write_self, hlines]

theorem keys_cleanupExpiredKeys_iff : (cleanupExpiredKeys text reply path files).2.keys ≠ files.keys ↔
    reply.fileRead ∧ reply.written ∧ ∃ line ∈ files.lines path, isExpired text reply.now line := by
  unfold cleanupExpiredKeys
  cases hfile : files path with
  | none =>
    have hempty : files.lines path = [] := by rw [Files.lines, hfile, getD_none]
    simp [hempty]
  | some lines =>
    have hlines : files.lines path = lines := by rw [Files.lines, hfile, getD_some]
    rw [hlines]
    cases hread : reply.fileRead with
    | false => simp
    | true =>
      by_cases hexpired : ∃ line ∈ lines, isExpired text reply.now line
      · have hsome : (lines.filter (isExpired text reply.now)).length ≠ 0 := by
          obtain ⟨line, hline, hold⟩ := hexpired
          exact (length_pos_of_mem (mem_filter.mpr ⟨hline, hold⟩)).ne'
        cases hwritten : reply.written with
        | false => simp [hsome]
        | true =>
          have hchanged : (files.write path (lines.filter (fun line => !isExpired text reply.now line))).keys ≠ files.keys := by
            rw [Ne, Files.keys_write_eq_iff, hlines]
            intro hall
            obtain ⟨line, hline, hold⟩ := hexpired
            have hstays := (mem_filter.mp ((hall line).mpr hline)).2
            rw [hold] at hstays
            cases hstays
          refine iff_of_true ?_ ⟨rfl, rfl, hexpired⟩
          simpa [hsome] using hchanged
      · have hnone : (lines.filter (isExpired text reply.now)).length = 0 := by
          rw [length_eq_zero_iff, filter_eq_nil_iff]
          exact fun line hline hold => hexpired ⟨line, hline, hold⟩
        simp only [hnone, ↓reduceIte, Bool.true_eq_false, ne_eq, not_true_eq_false, hexpired, and_false]

variable (text)

structure SshSessionInfo where
  validatorHotkey : String
  sessionId : Option String
  expiresAt : Option Time
  isActive : Bool

def sessionInfo (now : Time) (line : Line) : Option SshSessionInfo :=
  let hotkey := (lineField "validator=" line).getD ""
  let expiresAt := (lineField "expires=" line).bind (fun expires => if expires = "never" then none else text.parseRfc3339 expires)
  if hotkey = "" then none
  else some ⟨hotkey, lineField "validator-session-" line, expiresAt, (expiresAt.map (fun time => decide (now < time))).getD true⟩

def listActiveSshSessions (reply : HostReply) (path : String) (files : Files) : Except String (List SshSessionInfo) :=
  match files path with
  | none => .ok []
  | some lines => if reply.fileRead = false then .error reply.error else .ok (lines.filterMap (sessionInfo text reply.now))

end SessionKeys

end Basilica.Executor
