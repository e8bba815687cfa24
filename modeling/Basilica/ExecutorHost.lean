import Basilica.AuthorizedKeys

/-!
The two services of an executor. Every method of the control service that reaches the keys begins with the check of the
miner's signature; the management service compares the name of the miner only.
-/

namespace Basilica.Executor

open AssocMaps StepRuns

structure ProvisionAccess where
  validatorHotkey : String
  sshPublicKey : String
  accessToken : String
  durationSeconds : UInt64
  accessType : String
  config : List (String × String)

structure ContainerSpec where
  image : String
  command : List String

structure ContainerOp where
  operation : String
  containerSpec : Option ContainerSpec
  containerId : String
  sshPublicKey : String
  parameters : List (String × String)
  validatorHotkey : String

inductive ControlBody
  | provisionValidatorAccess (message : ProvisionAccess)
  | executeSystemProfile (validatorHotkey : String)
  | executeBenchmark (benchmarkType validatorHotkey : String)
  | manageContainer (message : ContainerOp)
  | healthCheck (requester : String)

structure SshKeyUpdate where
  operation : String
  validatorHotkey : String
  sshPublicKey : String
  minerHotkey : String
  signature : String

inductive ExecutorRequest
  | control (body : ControlBody) (auth : Option MinerAuthentication)
  | streamLogs (containerId : String)
  | managementHealthCheck (minerHotkey : String)
  | updateSshKeys (update : SshKeyUpdate)
  | getStatus (detailed : Bool)

inductive Code
  | unauthenticated
  | permissionDenied
  | invalidArgument
  | failedPrecondition
  | unavailable
  | internal
deriving DecidableEq

structure Status where
  code : Code
  message : String
deriving DecidableEq

structure SshCredentials where
  sshUsername : String
  sshHost : String
  sshPort : ℕ

structure ProvisionAccessResponse where
  success : Bool
  connectionEndpoint : String
  credentials : SshCredentials
  expiresAt : Time

inductive Response
  | provisioned (response : ProvisionAccessResponse)
  | done (details : String)

structure HostState where
  nonces : Nonces
  files : Files

/-- An executor with its settings and with what it takes from its libraries: `hash` numbers the users of validators,
`encode` writes a message as bytes, and `encodeUpdate` the one whose signature is a field. -/
structure ExecutorServer extends AuthLibrary, TimeText where
  id : String
  managingMinerHotkey : String
  validatorEnabled : Bool
  home : Option String
  hash : String → UInt64
  encode : ControlBody → Bytes
  encodeUpdate : SshKeyUpdate → String

open ExecutorServer

namespace ExecutorServer

variable (executor : ExecutorServer) (reply : HostReply)

def minerAuthService : MinerAuthService := ⟨executor.toAuthLibrary, .new executor.managingMinerHotkey⟩

def validatorUsername (hotkey : String) : String :=
  "val_" ++ String.ofList ((Nat.toDigits 16 (executor.hash hotkey).toNat).take 24)

def homeKeysPath : String := executor.home.getD "/home/executor" ++ "/.ssh" ++ "/authorized_keys"

def verifyMinerRequest (body : ControlBody) (auth : Option MinerAuthentication) (s : HostState) : Except Status Unit × HostState :=
  match auth with
  | none => (.error ⟨.unauthenticated, "Missing authentication"⟩, s)
  | some auth =>
    let (result, nonces) := executor.minerAuthService.verifyAuth reply.now auth (executor.encode body) s.nonces
    (result.mapError (fun e => ⟨.unauthenticated, s!"Authentication failed: {e.message}"⟩), { s with nonces := nonces })

def grantSshAccess (hotkey publicKey : String) (files : Files) : Except String Unit × Files :=
  let username := executor.validatorUsername hotkey
  if reply.userReady = false then (.error s!"Failed to create user {username}: {reply.error}", files)
  else if reply.groupAdded = false then (.error s!"Failed to add user to docker group: {reply.error}", files)
  else
    let (result, files) := addKeyIfMissing reply username publicKey [] files
    (result.map (fun _ => ()), files)

def revokeSshAccess (hotkey : String) (files : Files) : Except String Unit × Files :=
  removeKey reply (executor.validatorUsername hotkey) files

def provisionValidatorAccess (message : ProvisionAccess) (files : Files) : Except Status Response × Files :=
  if message.validatorHotkey = "" then (.error ⟨.invalidArgument, "Validator hotkey required"⟩, files)
  else if executor.validatorEnabled = false then (.error ⟨.unavailable, "Validation service not enabled"⟩, files)
  else if message.sshPublicKey = "" ∨ message.sshPublicKey.utf8ByteSize < 10 then
    (.error ⟨.invalidArgument, "SSH public key required"⟩, files)
  else
    -- the duration is not looked at
    let (result, files) := executor.grantSshAccess reply message.validatorHotkey message.sshPublicKey files
    match result with
    | .error _ => (.error ⟨.internal, "Failed to provision access"⟩, files)
    | .ok () => (.ok (.provisioned
        { success := true
          connectionEndpoint := "executor.local"
          credentials := ⟨executor.validatorUsername message.validatorHotkey, "executor.local", 22⟩
          expiresAt := reply.now + hour }), files)

def useServices (message : String → String) : Except Status Response :=
  match reply.services with
  | .ok details => .ok (.done details)
  | .error e => .error ⟨.internal, message e⟩

def executeBenchmark (benchmarkType : String) : Except Status Response := do
  let response ← useServices reply (fun e => s!"Failed to get system info: {e}")
  if benchmarkType = "gpu" ∧ reply.gpuFound = false then .error ⟨.failedPrecondition, "No GPU found"⟩
  else if benchmarkType ∈ ["gpu", "cpu", "memory", "network", "disk"] then .ok response
  else .error ⟨.invalidArgument, s!"Unknown benchmark type: {benchmarkType}"⟩

def manageContainer (message : ContainerOp) (files : Files) : Except Status Response × Files :=
  if message.operation = "create" then
    if message.containerSpec.isNone then (.error ⟨.invalidArgument, "Container spec required for create operation"⟩, files)
    else (useServices reply (fun e => s!"Failed to create container: {e}"), files)
  else if message.operation = "delete" ∨ message.operation = "destroy" then
    (useServices reply (fun e => s!"Failed to destroy container: {e}"), files)
  else if message.operation = "get_status" then (useServices reply (fun e => s!"Failed to get container status: {e}"), files)
  else if message.operation = "add_key" then
    let (result, files) := executor.grantSshAccess reply message.validatorHotkey message.sshPublicKey files
    match result with
    | .error e => (.error ⟨.internal, s!"Failed to add SSH key: {e}"⟩, files)
    | .ok () => (.ok (.done "SSH key added successfully"), files)
  else (.error ⟨.invalidArgument, s!"Unknown operation: {message.operation}"⟩, files)

def serveControl (body : ControlBody) (files : Files) : Except Status Response × Files :=
  match body with
  | .provisionValidatorAccess message => executor.provisionValidatorAccess reply message files
  | .executeSystemProfile hotkey =>
    if hotkey = "" then (.error ⟨.invalidArgument, "Validator hotkey required"⟩, files)
    else (useServices reply (fun _ => "Failed to collect system profile"), files)
  | .executeBenchmark benchmarkType _ => (executeBenchmark reply benchmarkType, files)
  | .manageContainer message => executor.manageContainer reply message files
  | .healthCheck _ => (useServices reply (fun e => e), files)

def handleControl (body : ControlBody) (auth : Option MinerAuthentication) (s : HostState) : Except Status Response × HostState :=
  match body, auth with
  | .healthCheck _, none => (useServices reply (fun e => e), s)
  | body, auth =>
    match executor.verifyMinerRequest reply body auth s with
    | (.error status, s) => (.error status, s)
    | (.ok (), s) =>
      let (result, files) := executor.serveControl reply body s.files
      (result, { s with files := files })

def responding {α : Type} (what : String) (message : α → String) (result : Except String α) : Except Status Response :=
  match result with
  | .error e => .error ⟨.internal, s!"{what}: {e}"⟩
  | .ok a => .ok (.done (message a))

def addValidatorSshKey (update : SshKeyUpdate) (files : Files) : Except Status Response × Files :=
  let (result, files) := addKeyWithSessionMetadata executor.toTimeText reply executor.homeKeysPath update.sshPublicKey
    update.validatorHotkey executor.id none (some (reply.now + 24 * hour)) files
  (responding "Failed to add SSH key" (fun _ => s!"SSH key added for validator {update.validatorHotkey}") result, files)

def removeValidatorSshKey (update : SshKeyUpdate) (files : Files) : Except Status Response × Files :=
  let (result, files) := executor.revokeSshAccess reply update.validatorHotkey files
  (responding "Failed to remove SSH key" (fun _ => s!"SSH key removed for validator {update.validatorHotkey}") result, files)

def cleanupExpiredSshKeys (files : Files) : Except Status Response × Files :=
  let (result, files) := cleanupExpiredKeys executor.toTimeText reply executor.homeKeysPath files
  (responding "Failed to cleanup expired keys" (fun count => s!"Cleaned up {count} expired SSH keys") result, files)

def listValidatorSshSessions (files : Files) : Except Status Response :=
  let info (session : SshSessionInfo) : String :=
    let sessionId := session.sessionId.getD "unknown"
    let expires := (session.expiresAt.map executor.toRfc3339).getD "never"
    s!"{session.validatorHotkey}:{sessionId}:{expires}"
  responding "Failed to list SSH sessions" (fun sessions => "Active SSH sessions: [" ++ ",".intercalate (sessions.map info) ++ "]")
    (listActiveSshSessions executor.toTimeText reply executor.homeKeysPath files)

def updateSshKeys (update : SshKeyUpdate) (files : Files) : Except Status Response × Files :=
  if update.minerHotkey ≠ executor.managingMinerHotkey then (.error ⟨.permissionDenied, "Not authorized miner"⟩, files)
  else if update.operation = "add" then executor.addValidatorSshKey reply update files
  else if update.operation = "remove" then executor.removeValidatorSshKey reply update files
  else if update.operation = "cleanup_expired" then executor.cleanupExpiredSshKeys reply files
  else if update.operation = "list_sessions" then (executor.listValidatorSshSessions reply files, files)
  else (.error ⟨.invalidArgument, s!"Unknown operation: {update.operation}"⟩, files)

def handle (request : ExecutorRequest) (s : HostState) : Except Status Response × HostState :=
  match request with
  | .control body auth => executor.handleControl reply body auth s
  | .streamLogs _ => (.ok (.done ""), s)
  | .managementHealthCheck minerHotkey =>
    if minerHotkey ≠ executor.managingMinerHotkey then (.error ⟨.permissionDenied, "Not authorized miner"⟩, s)
    else (useServices reply (fun e => s!"Failed to get system info: {e}"), s)
  | .updateSshKeys update =>
    let (result, files) := executor.updateSshKeys reply update s.files
    (result, { s with files := files })
  | .getStatus _ => (useServices reply (fun e => s!"Failed to get system info: {e}"), s)

end ExecutorServer

def hostStep (executor : ExecutorServer) (event : HostReply × ExecutorRequest) (s : HostState) : HostState :=
  (executor.handle event.1 event.2 s).2

section Provisioning

theorem files_verifyMinerRequest (executor : ExecutorServer) (reply : HostReply) (body : ControlBody)
    (auth : Option MinerAuthentication) (s : HostState) :
    (executor.verifyMinerRequest reply body auth s).2.files = s.files := by
  cases auth <;> rfl

structure Provides {ε α : Type} (files : Files) (username publicKey : String) (result : Except ε α × Files) : Prop where
  grows : files.Grows result.2
  holds : result.1.isOk → HoldsKey (result.2.lines (authKeysPath username)) publicKey

theorem Provides.error {ε α : Type} {files : Files} {username publicKey : String} (e : ε) :
    Provides (α := α) files username publicKey (.error e, files) := by
  refine ⟨fun _ _ hline => hline, fun hok => ?_⟩
  cases hok

variable (executor : ExecutorServer) (reply : HostReply)

theorem provides_grantSshAccess (hotkey publicKey : String) (files : Files) :
    Provides files (executor.validatorUsername hotkey) publicKey (executor.grantSshAccess reply hotkey publicKey files) := by
  unfold grantSshAccess
  dsimp only
  split_ifs
  · exact .error _
  · exact .error _
  · refine ⟨grows_addKeyIfMissing reply _ publicKey [] files, fun hok => ?_⟩
    cases hadd : addKeyIfMissing reply (executor.validatorUsername hotkey) publicKey [] files with
    | mk result added =>
      rw [hadd] at hok
      cases result with
      | error e => cases hok
      | ok b => exact holdsKey_addKeyIfMissing hadd

variable (message : ProvisionAccess)

theorem provides_provisionValidatorAccess (files : Files) : Provides files (executor.validatorUsername message.validatorHotkey)
    message.sshPublicKey (executor.provisionValidatorAccess reply message files) := by
  have hgrant := provides_grantSshAccess executor reply message.validatorHotkey message.sshPublicKey files
  unfold provisionValidatorAccess
  dsimp only
  split_ifs
  · exact .error _
  · exact .error _
  · exact .error _
  · split
    · refine ⟨hgrant.grows, fun hok => ?_⟩
      cases hok
    · rename_i hok
      exact ⟨hgrant.grows, fun _ => hgrant.holds (by rw [hok]; rfl)⟩

theorem provides_handleProvision (auth : Option MinerAuthentication) (s : HostState) :
    Provides s.files (executor.validatorUsername message.validatorHotkey) message.sshPublicKey
      ((executor.handleControl reply (.provisionValidatorAccess message) auth s).1,
        (executor.handleControl reply (.provisionValidatorAccess message) auth s).2.files) := by
  have hfiles := files_verifyMinerRequest executor reply (.provisionValidatorAccess message) auth s
  unfold handleControl
  dsimp only
  split
  all_goals
    rename_i hcheck
    rw [hcheck] at hfiles
    rw [← hfiles]
  · exact .error _
  · exact provides_provisionValidatorAccess executor reply message _

end Provisioning

section Authorship

variable (executor : ExecutorServer) (signed : (hotkey data signature : String) → Prop)

/-- The request carries a signature of the managing miner over itself; `signed` says which signatures the holder of a hotkey
has made. -/
def Signed : ExecutorRequest → Prop
  | .control body (some auth) => signed executor.managingMinerHotkey
      (executor.minerAuthService.createCanonicalData auth (executor.encode body)) (hexEncode auth.signature)
  | .updateSshKeys update => signed executor.managingMinerHotkey (executor.encodeUpdate update) update.signature
  | _ => False

def UpdatesKeys (reply : HostReply) (update : SshKeyUpdate) (files : Files) : Prop :=
  update.operation = "add" ∧ reply.sshDirReady ∧ reply.fileOpened ∧ reply.written ∧
      (∃ line ∈ sessionEntry executor.toTimeText update.sshPublicKey update.validatorHotkey executor.id none
        (some (reply.now + 24 * hour)), line ∉ files.lines executor.homeKeysPath) ∨
    update.operation = "remove" ∧ reply.removed ∧
      files.lines (authKeysPath (executor.validatorUsername update.validatorHotkey)) ≠ [] ∨
    update.operation = "cleanup_expired" ∧ reply.fileRead ∧ reply.written ∧
      ∃ line ∈ files.lines executor.homeKeysPath, isExpired executor.toTimeText reply.now line

def Exposed (event : HostReply × ExecutorRequest) (s : HostState) : Prop :=
  match event.2 with
  | .updateSshKeys update => update.minerHotkey = executor.managingMinerHotkey ∧ UpdatesKeys executor event.1 update s.files
  | _ => False

variable {executor signed} {reply : HostReply} {s : HostState} {body : ControlBody} {auth : Option MinerAuthentication}

theorem verifyMinerRequest_ok {s' : HostState} (h : executor.verifyMinerRequest reply body auth s = (.ok (), s')) :
    ∃ record, auth = some record ∧ executor.verifySignature executor.managingMinerHotkey (hexEncode record.signature)
      (executor.minerAuthService.createCanonicalData record (executor.encode body)) = true := by
  cases auth with
  | none => cases h
  | some auth =>
    refine ⟨auth, rfl, ?_⟩
    have hresult := congrArg Prod.fst h
    change (executor.minerAuthService.verifyAuth reply.now auth (executor.encode body) s.nonces).1.mapError _ = .ok () at hresult
    cases hverify : (executor.minerAuthService.verifyAuth reply.now auth (executor.encode body) s.nonces).1 with
    | error e =>
      rw [hverify] at hresult
      cases hresult
    | ok _ =>
      obtain ⟨nonce, -, -, hsignature⟩ := MinerAuthService.verifyAuth_ok hverify
      unfold MinerAuthService.checkSignature at hsignature
      split_ifs at hsignature with hrejected
      rw [← Bool.not_eq_false]
      exact fun hfalse => hrejected ⟨rfl, hfalse⟩

theorem signed_of_handleControl (hforge : ∀ hotkey data signature, executor.verifySignature hotkey signature data = true →
    signed hotkey data signature)
    (h : (executor.handleControl reply body auth s).2.files ≠ s.files) : Signed executor signed (.control body auth) := by
  have hverified : ∀ s', executor.verifyMinerRequest reply body auth s = (.ok (), s') → Signed executor signed (.control body auth) := by
    intro s' hok
    obtain ⟨record, rfl, hvalid⟩ := verifyMinerRequest_ok hok
    exact hforge _ _ _ hvalid
  have hfiles := files_verifyMinerRequest executor reply body auth s
  unfold handleControl at h
  split at h
  · exact absurd rfl h
  · split at h
    · rename_i hcheck
      rw [hcheck] at hfiles
      exact absurd hfiles h
    · rename_i hcheck
      exact hverified _ hcheck

theorem keys_updateSshKeys_iff {update : SshKeyUpdate} {files : Files} :
    (executor.updateSshKeys reply update files).2.keys ≠ files.keys ↔
      update.minerHotkey = executor.managingMinerHotkey ∧ UpdatesKeys executor reply update files := by
  unfold updateSshKeys UpdatesKeys
  by_cases hminer : update.minerHotkey = executor.managingMinerHotkey
  · rw [if_neg (not_not.mpr hminer)]
    by_cases hadd : update.operation = "add"
    · rw [if_pos hadd]
      refine keys_addKeyWithSessionMetadata_iff.trans ?_
      simp [hminer, hadd]
    rw [if_neg hadd]
    by_cases hremove : update.operation = "remove"
    · rw [if_pos hremove]
      refine keys_removeKey_iff.trans ?_
      simp [hminer, hremove]
    rw [if_neg hremove]
    by_cases hcleanup : update.operation = "cleanup_expired"
    · rw [if_pos hcleanup]
      refine keys_cleanupExpiredKeys_iff.trans ?_
      simp [hminer, hcleanup]
    rw [if_neg hcleanup]
    split_ifs <;> simp [hadd, hremove, hcleanup]
  · simp [hminer]

theorem keys_step_iff (hforge : ∀ hotkey data signature, executor.verifySignature hotkey signature data = true →
    signed hotkey data signature) (event : HostReply × ExecutorRequest) (s : HostState) :
    ((hostStep executor event s).files.keys ≠ s.files.keys → Signed executor signed event.2) ↔
      (Exposed executor event s → Signed executor signed event.2) := by
  obtain ⟨reply, request⟩ := event
  cases request with
  | control body auth =>
    refine iff_of_true (fun hkeys => ?_) False.elim
    apply signed_of_handleControl hforge
    intro hfiles
    exact hkeys (congrArg Files.keys hfiles)
  | updateSshKeys update => exact imp_congr_left keys_updateSshKeys_iff
  | streamLogs containerId | getStatus detailed => exact iff_of_true (fun hkeys => absurd rfl hkeys) False.elim
  | managementHealthCheck hotkey =>
    have hsame : (hostStep executor (reply, .managementHealthCheck hotkey) s).files = s.files := by
      unfold hostStep handle
      dsimp only
      split_ifs <;> rfl
    exact iff_of_true (fun hkeys => absurd (congrArg Files.keys hsame) hkeys) False.elim

theorem key_changes_signed_iff (executor : ExecutorServer) (signed : (hotkey data signature : String) → Prop)
    (hforge : ∀ hotkey data signature, executor.verifySignature hotkey signature data = true → signed hotkey data signature)
    (l : List (HostReply × ExecutorRequest)) (s : HostState) :
    EachStep (hostStep executor) (fun event s => (hostStep executor event s).files.keys ≠ s.files.keys →
        Signed executor signed event.2) l s ↔
      EachStep (hostStep executor) (fun event s => Exposed executor event s → Signed executor signed event.2) l s :=
  eachStep_congr (fun event s => keys_step_iff hforge event s) l s

def emptyHost : HostState := ⟨AssocMap.empty, fun _ => none⟩

def plainExecutor : ExecutorServer where
  toAuthLibrary := plainService.toAuthLibrary
  parseRfc3339 _ := none
  toRfc3339 _ := ""
  id := "e"
  managingMinerHotkey := "miner"
  validatorEnabled := true
  home := some "/root"
  hash _ := 7
  encode _ := []
  encodeUpdate _ := ""

def onlySigned (_ _ signature : String) : Prop := signature = "05"

theorem onlySigned_of_verifySignature (hotkey data signature : String)
    (h : plainExecutor.verifySignature hotkey signature data = true) : onlySigned hotkey data signature := by
  change decide (signature = "05") = true at h
  change signature = "05"
  exact of_decide_eq_true h

def addKey (minerHotkey : String) : SshKeyUpdate := ⟨"add", "v", "ssh-ed25519 key", minerHotkey, ""⟩

theorem unsigned_update_adds_key : (∀ hotkey data signature, plainExecutor.verifySignature hotkey signature data = true →
      onlySigned hotkey data signature) ∧ ¬ Signed plainExecutor onlySigned (.updateSshKeys (addKey "miner")) ∧
    ("/root/.ssh/authorized_keys", "ssh-ed25519 key validator=v executor=e legacy".toList) ∈
      (hostStep plainExecutor (.fine 0, .updateSshKeys (addKey "miner")) emptyHost).files.keys \ emptyHost.files.keys := by
  refine ⟨onlySigned_of_verifySignature, ?_, ?_⟩
  · change ¬ "" = "05"
    decide
  · constructor
    · change _ ∈ Files.lines _ _
      decide +kernel
    · exact List.not_mem_nil

def provisionV : ProvisionAccess := ⟨"v", "ssh-ed25519 key", "", 60, "ssh", []⟩

theorem provisioned_with_signature : EachStep (hostStep plainExecutor)
    (fun event s => (hostStep plainExecutor event s).files.keys ≠ s.files.keys → Signed plainExecutor onlySigned event.2)
    [(.fine 0, .control (.provisionValidatorAccess provisionV) (some plainAuth)), (.fine 0, .updateSshKeys (addKey "mallory"))]
    emptyHost := by
  refine (key_changes_signed_iff plainExecutor onlySigned onlySigned_of_verifySignature _ _).mpr ?_
  refine ⟨False.elim, ?_, trivial⟩
  rintro ⟨hminer, -⟩
  exact absurd hminer (by decide)

end Authorship

section Removal

structure KeyHistory where
  files : Files
  entries : List Line
  lastAdd : Option Time

variable (executor : ExecutorServer) (v : String) (event : HostReply × SshKeyUpdate) (s : KeyHistory)

def keyStep : KeyHistory :=
  let files := (executor.updateSshKeys event.1 event.2 s.files).2
  if event.2.operation = "add" ∧ event.2.validatorHotkey = v then
    ⟨files, s.entries ++ sessionEntry executor.toTimeText event.2.sshPublicKey v executor.id none
      (some (event.1.now + 24 * hour)), some event.1.now⟩
  else { s with files := files }

def KeyHistory.Gone : Prop := ∀ line ∈ s.files.lines executor.homeKeysPath, line ∉ s.entries

def Succeeds : Prop := (executor.updateSshKeys event.1 event.2 s.files).1.isOk

def Removes : Prop := event.2.operation = "remove" ∧ event.2.validatorHotkey = v

def CleansUp : Prop := event.2.operation = "cleanup_expired" ∧ ∀ time ∈ s.lastAdd, time + 24 * hour < event.1.now

variable {executor v event s}

theorem isOk_responding {α : Type} {what : String} {message : α → String} {result : Except String α}
    (h : (responding what message result).isOk) : result.isOk := by
  cases result <;> exact h

theorem Succeeds.miner (h : Succeeds executor event s) : event.2.minerHotkey = executor.managingMinerHotkey := by
  by_contra hminer
  rw [Succeeds, updateSshKeys, if_pos hminer] at h
  cases h

theorem gone_remove_iff (hok : Succeeds executor event s) (h : Removes v event) : (keyStep executor v event s).Gone executor ↔
    executor.homeKeysPath = authKeysPath (executor.validatorUsername v) ∨ s.Gone executor := by
  have hminer := hok.miner
  obtain ⟨hremove, rfl⟩ := h
  unfold keyStep KeyHistory.Gone
  unfold Succeeds at hok
  simp only [updateSshKeys, hminer, hremove, ne_eq, not_true_eq_false, ↓reduceIte, String.reduceEq, false_and,
    removeValidatorSshKey, revokeSshAccess] at hok ⊢
  rw [removeKey_ok (isOk_responding hok)]
  by_cases hpath : executor.homeKeysPath = authKeysPath (executor.validatorUsername event.2.validatorHotkey)
  · rw [hpath, Files.lines_remove, Files.lines_write_self]
    simp
  · rw [Files.lines_remove, Files.lines_write_of_ne hpath]
    simp [hpath]

theorem gone_cleanup_iff (hok : Succeeds executor event s) (h : CleansUp event s) :
    (keyStep executor v event s).Gone executor ↔ ∀ line ∈ s.files.lines executor.homeKeysPath, line ∈ s.entries →
      isExpired executor.toTimeText event.1.now line := by
  have hminer := hok.miner
  unfold keyStep KeyHistory.Gone
  unfold Succeeds at hok
  simp only [updateSshKeys, hminer, h.1, ne_eq, not_true_eq_false, ↓reduceIte, String.reduceEq, false_and,
    cleanupExpiredSshKeys] at hok ⊢
  rw [lines_cleanupExpiredKeys (isOk_responding hok)]
  simp only [List.mem_filter, Bool.not_eq_true', and_imp]
  refine forall₂_congr (fun line _ => ?_)
  cases isExpired executor.toTimeText event.1.now line <;> simp

theorem removed_keys_gone_iff (executor : ExecutorServer) (v : String) (l : List (HostReply × SshKeyUpdate)) (s : KeyHistory) :
    EachStep (keyStep executor v) (fun event s => Succeeds executor event s → Removes v event ∨ CleansUp event s →
        (keyStep executor v event s).Gone executor) l s ↔
      EachStep (keyStep executor v) (fun event s => Succeeds executor event s →
        (Removes v event → executor.homeKeysPath = authKeysPath (executor.validatorUsername v) ∨ s.Gone executor) ∧
        (CleansUp event s → ∀ line ∈ s.files.lines executor.homeKeysPath, line ∈ s.entries →
          isExpired executor.toTimeText event.1.now line)) l s := by
  refine eachStep_congr (fun event s => imp_congr_right (fun hok => ?_)) l s
  rw [or_imp]
  exact and_congr (imp_congr_right (gone_remove_iff hok)) (imp_congr_right (gone_cleanup_iff hok))

def addedOnce : KeyHistory := keyStep plainExecutor "v" (.fine 0, addKey "miner") ⟨fun _ => none, [], none⟩

def aDayLater (operation : String) : HostReply × SshKeyUpdate := (.fine (25 * hour), { addKey "miner" with operation := operation })

theorem added_key_stays : Succeeds plainExecutor (aDayLater "remove") addedOnce ∧ Removes "v" (aDayLater "remove") ∧
    Succeeds plainExecutor (aDayLater "cleanup_expired") addedOnce ∧ CleansUp (aDayLater "cleanup_expired") addedOnce ∧
    "ssh-ed25519 key validator=v executor=e legacy".toList ∈ addedOnce.entries ∧
    ∀ operation ∈ ["remove", "cleanup_expired"], "ssh-ed25519 key validator=v executor=e legacy".toList ∈
      (keyStep plainExecutor "v" (aDayLater operation) addedOnce).files.lines "/root/.ssh/authorized_keys" := by
  unfold Succeeds Removes CleansUp
  decide +kernel

end Removal

end Basilica.Executor
