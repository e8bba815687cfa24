import Basilica.ColumnText
import Basilica.ExecutorRentals
import Basilica.ShellWords

/-!
The command lines that start a rented container. A specification is checked, made safer, and written out as one line that the
shell of the executor's host reads.
-/

namespace Basilica.Validator.Deployment

open AssocMaps ColumnText ShellWords List AssocMap

structure PortMapping where
  containerPort : ℕ
  hostPort : ℕ
  protocol : String

structure ResourceRequirements (F : Type) where
  cpuCores : F
  memoryMb : ℤ
  storageMb : ℤ
  gpuCount : ℕ

structure VolumeMount where
  hostPath : String
  containerPath : String
  readOnly : Bool

structure NetworkConfig where
  mode : String
  dns : List String
  extraHosts : AssocMap String String

structure ContainerSpec (F : Type) where
  image : String
  environment : AssocMap String String
  ports : List PortMapping
  resources : ResourceRequirements F
  entrypoint : List String
  command : List String
  volumes : List VolumeMount
  labels : AssocMap String String
  capabilities : List String
  network : NetworkConfig

def isReferenceChar (c : Char) : Bool := c.isAlphanum || c ∈ ['.', '_', '-', '/', ':', '@', '+']

structure Runtime (F : Type) where
  display : F → String
  iterate : AssocMap String String → List (String × String)
  isAlphanumeric : Char → Bool
  parseReference : String → Except String Unit
  canonicalize : String → Option String
  display_ne : ∀ x, display x ≠ ""
  display_chars : ∀ x, ∀ c ∈ (display x).toList, c.isAlphanum = true ∨ c = '.' ∨ c = '-'
  iterate_perm : ∀ m, (iterate m).Perm m.entries
  isAlphanumeric_ascii : ∀ c, c.toNat < 128 → isAlphanumeric c = c.isAlphanum
  parse_chars : ∀ image, parseReference image = .ok () → ∀ c ∈ image.toList, isReferenceChar c = true

variable {F : Type}

section Checks

structure DefaultResourceLimits (F : Type) where
  maxCpuCores : F
  maxMemoryMb : ℤ
  maxStorageMb : ℤ
  maxGpuCount : ℕ

structure NetworkPolicies where
  allowedNetworkModes : List String
  blockedPorts : List ℕ
  requireNetworkIsolation : Bool

structure DeploymentConfig (F : Type) where
  allowedRegistries : List String
  blockedImages : List String
  defaultResourceLimits : DefaultResourceLimits F
  networkPolicies : NetworkPolicies

def DeploymentConfig.default {F : Type} [Zero F] : DeploymentConfig F where
  allowedRegistries := ["docker.io", "gcr.io", "ghcr.io"]
  blockedImages := ["alpine/socat", "nicolaka/netshoot"]
  defaultResourceLimits := ⟨0, 0, 0, 0⟩
  networkPolicies := ⟨["bridge", "none"], [22, 111, 2049], false⟩

variable [Zero F] [LT F] [DecidableLT F] (rt : Runtime F) (config : DeploymentConfig F)

def validateDockerImage (image : String) : Except String Unit :=
  if image = "" then .error "Docker image reference cannot be empty"
  else if 500 < image.utf8ByteSize then .error "Docker image reference is too long (max 500 characters)"
  else match rt.parseReference image with
    | .ok () => .ok ()
    | .error e => .error ("Invalid Docker image reference '" ++ image ++
        "'. Must match format: [registry[:port]/]namespace/name[:tag][@digest]. Error: " ++ e)

def containsText (text part : String) : Bool := (Words.after? part.toList text.toList).isSome

def registryOf (image : String) : String :=
  let firstPart := image.toList.takeWhile (· ≠ '/')
  if '/' ∈ image.toList ∧ ('.' ∈ firstPart ∨ ':' ∈ firstPart ∨ firstPart = "localhost".toList) then String.ofList firstPart
  else "docker.io"

def validateImage (image : String) : Except String Unit := do
  validateDockerImage rt image
  if config.blockedImages.any (containsText image) then .error ("Image " ++ image ++ " is blocked")
  else if config.allowedRegistries ≠ [] ∧ registryOf image ∉ config.allowedRegistries then
    .error ("Registry " ++ registryOf image ++ " is not allowed")
  else .ok ()

def overLimit {α : Type} [Zero α] [LT α] [DecidableLT α] (limit value : α) : Bool := 0 < limit && 0 < value && limit < value

variable (spec : ContainerSpec F)

def validateResources : Except String Unit :=
  let limits := config.defaultResourceLimits
  if overLimit limits.maxCpuCores spec.resources.cpuCores then
    .error ("CPU cores " ++ rt.display spec.resources.cpuCores ++ " exceeds limit " ++ rt.display limits.maxCpuCores)
  else if overLimit limits.maxMemoryMb spec.resources.memoryMb then
    .error ("Memory " ++ toString spec.resources.memoryMb ++ " MB exceeds limit " ++ toString limits.maxMemoryMb ++ " MB")
  else if overLimit limits.maxStorageMb spec.resources.storageMb then
    .error ("Storage " ++ toString spec.resources.storageMb ++ " MB exceeds limit " ++ toString limits.maxStorageMb ++ " MB")
  else if overLimit limits.maxGpuCount spec.resources.gpuCount then
    .error ("GPU count " ++ toString spec.resources.gpuCount ++ " exceeds limit " ++ toString limits.maxGpuCount)
  else .ok ()

def validateNetworkConfig : Except String Unit :=
  let policies := config.networkPolicies
  if spec.network.mode ∉ policies.allowedNetworkModes then .error ("Network mode " ++ spec.network.mode ++ " is not allowed")
  else if spec.network.mode = "host" ∧ policies.requireNetworkIsolation then .error "Host network mode is not allowed"
  else .ok ()

def sensitivePaths : List String := ["/etc", "/root", "/home", "/var/run/docker.sock", "/proc", "/sys", "/dev"]

def validateVolume (volume : VolumeMount) : Except String Unit :=
  let canonicalPath := (rt.canonicalize volume.hostPath).getD volume.hostPath
  match sensitivePaths.find? (fun path => path.toList.isPrefixOf canonicalPath.toList) with
  | some path => .error ("Mounting " ++ path ++ " is not allowed")
  | none =>
    if volume.hostPath.toList.head? ≠ some '/' ∨ volume.containerPath.toList.head? ≠ some '/' then
      .error "Volume paths must be absolute"
    else .ok ()

def validatePort (port : PortMapping) : Except String Unit :=
  if port.hostPort ∈ config.networkPolicies.blockedPorts then .error ("Port " ++ toString port.hostPort ++ " is blocked")
  else if 65535 < port.hostPort then .error ("Invalid host port " ++ toString port.hostPort)
  else if port.containerPort = 0 ∨ 65535 < port.containerPort then .error ("Invalid container port " ++ toString port.containerPort)
  else if port.protocol ≠ "tcp" ∧ port.protocol ≠ "udp" then .error ("Invalid protocol " ++ port.protocol)
  else .ok ()

def validateContainerSpec : Except String Unit := do
  validateImage rt config spec.image
  validateResources rt config spec
  validateNetworkConfig config spec
  spec.volumes.forM (validateVolume rt)
  spec.ports.forM (validatePort config)

def securityLabels : List String := ["io.kubernetes.cri-o.userns-mode", "basilica.security.isolated"]

def dangerousCaps : List String :=
  ["CAP_SYS_ADMIN", "CAP_SYS_MODULE", "CAP_SYS_RAWIO", "CAP_SYS_PTRACE", "CAP_SYS_NICE", "CAP_SYS_RESOURCE", "CAP_NET_ADMIN",
    "CAP_NET_RAW"]

def applySecurityPolicies : ContainerSpec F :=
  { spec with
    labels := (spec.labels.set "io.kubernetes.cri-o.userns-mode" "auto").set "basilica.security.isolated" "true"
    capabilities := spec.capabilities.filter (fun cap => cap ∉ dangerousCaps) }

end Checks

section Lines

variable [Zero F] [LT F] [DecidableLT F] (rt : Runtime F)

def sanitizeRentalId (rentalId : String) : String :=
  String.ofList ((rentalId.toList.filter (fun c => rt.isAlphanumeric c || c = '-')).take 32)

variable (spec : ContainerSpec F)

def dockerCmdParts (rentalId : String) : List String :=
  ["docker", "run", "-d"] ++ (if spec.command = ["/bin/bash"] then ["-it"] else []) ++
    ["--name", "basilica-rental-" ++ sanitizeRentalId rt rentalId] ++
    ["--label", "basilica.rental_id=" ++ sanitizeRentalId rt rentalId]

def labelStrings : List String :=
  (rt.iterate spec.labels).flatMap (fun p => ["--label", p.1 ++ "=" ++ p.2])

def envStrings : List String :=
  (rt.iterate spec.environment).flatMap (fun p => ["-e", p.1 ++ "=" ++ p.2])

def portText (port : PortMapping) : String :=
  if port.protocol.toLower = "udp" then toString port.hostPort ++ ":" ++ toString port.containerPort ++ "/udp"
  else toString port.hostPort ++ ":" ++ toString port.containerPort

def portStrings : List String := spec.ports.flatMap (fun port => ["-p", portText port])

def resourceStrings : List String :=
  (if 0 < spec.resources.cpuCores then ["--cpus", rt.display spec.resources.cpuCores] else []) ++
    (if 0 < spec.resources.memoryMb then ["-m", toString spec.resources.memoryMb ++ "m"] else []) ++
    ["--gpus", "all", "--runtime", "nvidia"]

def volumeSpec (volume : VolumeMount) : String :=
  if volume.readOnly then volume.hostPath ++ ":" ++ volume.containerPath ++ ":ro" else volume.hostPath ++ ":" ++ volume.containerPath

def volumeStrings : List String := spec.volumes.flatMap (fun volume => ["-v", volumeSpec volume])

def capStrings : List String := spec.capabilities.flatMap (fun cap => ["--cap-add", cap])

def networkStrings : List String :=
  if spec.network.mode ≠ "" then ["--network", spec.network.mode] else []

def dnsStrings : List String := spec.network.dns.flatMap (fun dns => ["--dns", dns])

def hostStrings : List String :=
  (rt.iterate spec.network.extraHosts).flatMap (fun p => ["--add-host", p.1 ++ ":" ++ p.2])

/-- `serde_json` on a character of a string. -/
def jsonChar (c : Char) : List Char :=
  if c = '\x22' ∨ c = '\x5c' then ['\x5c', c]
  else if c = '\x08' then ['\x5c', 'b']
  else if c = '\t' then ['\x5c', 't']
  else if c = '\n' then ['\x5c', 'n']
  else if c = '\x0c' then ['\x5c', 'f']
  else if c = '\r' then ['\x5c', 'r']
  else if c.toNat < 32 then ['\x5c', 'u'] ++ hexDigits 4 c.toNat
  else [c]

def jsonString (s : String) : List Char := ['\x22'] ++ s.toList.flatMap jsonChar ++ ['\x22']

def jsonStrings (l : List String) : String := String.ofList (['['] ++ [','].intercalate (l.map jsonString) ++ [']'])

def entrypointText : List String → String
  | [e] => e
  | l => jsonStrings l

def pushAll (cmd : String) (strings : List String) : String := strings.foldl (fun cmd s => cmd ++ " " ++ s) cmd

def runCommand (rentalId : String) : String :=
  let finalCmd := " ".intercalate (dockerCmdParts rt spec rentalId)
  let finalCmd := pushAll finalCmd (labelStrings rt spec)
  let finalCmd := pushAll finalCmd (envStrings rt spec)
  let finalCmd := pushAll finalCmd (portStrings spec)
  let finalCmd := pushAll finalCmd (resourceStrings rt spec)
  let finalCmd := pushAll finalCmd (volumeStrings spec)
  let finalCmd := pushAll finalCmd (capStrings spec)
  let finalCmd := pushAll finalCmd (networkStrings spec)
  let finalCmd := pushAll finalCmd (dnsStrings spec)
  let finalCmd := pushAll finalCmd (hostStrings rt spec)
  let finalCmd := if spec.entrypoint ≠ [] then finalCmd ++ " --entrypoint " ++ entrypointText spec.entrypoint else finalCmd
  let finalCmd := finalCmd ++ " " ++ spec.image
  pushAll finalCmd spec.command

def runWords (rentalId : String) : List String :=
  dockerCmdParts rt spec rentalId ++ labelStrings rt spec ++ envStrings rt spec ++ portStrings spec ++ resourceStrings rt spec ++
    volumeStrings spec ++ capStrings spec ++ networkStrings spec ++ dnsStrings spec ++ hostStrings rt spec ++
    (if spec.entrypoint ≠ [] then ["--entrypoint", entrypointText spec.entrypoint] else []) ++ [spec.image] ++ spec.command

def validateContainerId (containerId : String) : Except String Unit :=
  if containerId = "" then .error "Container ID cannot be empty"
  else if ¬ containerId.toList.all rt.isAlphanumeric then .error "Invalid container ID format"
  else if 64 < containerId.utf8ByteSize then .error "Container ID too long"
  else .ok ()

def isInteractive (texts : List String) : Bool :=
  texts = [] || texts.any (fun text => containsText text "bash" || containsText text "sh")

def shouldConfigureSsh : Bool :=
  (isInteractive spec.entrypoint && isInteractive spec.command) || spec.ports.any (fun port => port.containerPort = 22)

def keyScript (sshPublicKey : String) : String :=
  "echo \"" ++ sshPublicKey ++ "\" > /root/.ssh/authorized_keys && chmod 600 /root/.ssh/authorized_keys"

def addKeyCmd (shell containerId sshPublicKey : String) : String :=
  "docker exec " ++ containerId ++ " " ++ shell ++ " -c '" ++ keyScript sshPublicKey ++ "'"

end Lines

variable {α : Type}

section Words

variable (rt : Runtime F) (spec : ContainerSpec F) (rentalId : String)

theorem toList_pushAll (cmd : String) (strings : List String) : (pushAll cmd strings).toList = cmd.toList ++ spaced strings := by
  induction strings generalizing cmd with
  | nil => exact (append_nil _).symm
  | cons s strings ih =>
    rw [pushAll, foldl_cons, ← pushAll, ih, spaced_cons, String.toList_append, String.toList_append, append_assoc, append_assoc]
    rfl

theorem toList_entrypoint (cmd : String) : (if spec.entrypoint ≠ [] then cmd ++ " --entrypoint " ++ entrypointText spec.entrypoint
    else cmd).toList = cmd.toList ++ spaced (if spec.entrypoint ≠ [] then ["--entrypoint", entrypointText spec.entrypoint] else []) := by
  split_ifs
  · rw [spaced_cons, spaced_cons, String.toList_append, String.toList_append, append_assoc]
    simp [spaced]
  · exact (append_nil _).symm

theorem runCommand_toList [Zero F] [LT F] [DecidableLT F] : ∃ rest, runWords rt spec rentalId = "docker" :: rest ∧
    (runCommand rt spec rentalId).toList = "docker".toList ++ spaced rest := by
  obtain ⟨tail, htail⟩ : ∃ tail, dockerCmdParts rt spec rentalId = "docker" :: tail := ⟨_, rfl⟩
  refine ⟨_, by rw [runWords, htail]; rfl, ?_⟩
  unfold runCommand
  rw [htail, toList_pushAll, String.toList_append, String.toList_append, toList_entrypoint, toList_pushAll, toList_pushAll, toList_pushAll,
    toList_pushAll, toList_pushAll, toList_pushAll, toList_pushAll, toList_pushAll, toList_pushAll, toList_intercalate]
  simp only [spaced_append, append_assoc, append_eq, cons_append]
  rfl

theorem forall_plain_pairs {option : String} (hoption : isPlain option = true) (l : List α) (f : α → String) :
    (∀ q ∈ l.flatMap (fun x => [option, f x]), isPlain q = true) ↔ ∀ x ∈ l, isPlain (f x) = true := by
  constructor
  · intro h x hx
    exact h (f x) (mem_flatMap.mpr ⟨x, hx, mem_cons_of_mem _ mem_cons_self⟩)
  · intro h q hq
    obtain ⟨x, hx, hq⟩ := mem_flatMap.mp hq
    rcases mem_cons.mp hq with rfl | hq
    · exact hoption
    · rw [mem_singleton.mp hq]
      exact h x hx

theorem forall_iterate {P : String × String → Prop} (m : AssocMap String String) : (∀ p ∈ rt.iterate m, P p) ↔ ∀ p ∈ m.entries, P p := by
  constructor
  · intro h p hp
    exact h p ((rt.iterate_perm m).mem_iff.mpr hp)
  · intro h p hp
    exact h p ((rt.iterate_perm m).mem_iff.mp hp)

theorem not_special_of_isAlphanum {c : Char} (h : c.isAlphanum = true) : c ∉ specials := by
  have hall : specials.all (fun c => !c.isAlphanum) = true := by decide
  intro hc
  have hnot := all_eq_true.mp hall c hc
  rw [h] at hnot
  cases hnot

theorem not_special_of_isAlphanumeric {c : Char} (h : rt.isAlphanumeric c = true) : c ∉ specials := by
  have hall : specials.all (fun c => c.toNat < 128) = true := by decide
  intro hc
  rw [rt.isAlphanumeric_ascii c (of_decide_eq_true (all_eq_true.mp hall c hc))] at h
  exact not_special_of_isAlphanum h hc

theorem isSafe_toString (n : ℕ) : isSafe (toString n) = true := by
  have hall : specials.all (fun c => !c.isDigit) = true := by decide
  refine isSafe_iff.mpr ?_
  intro c hc hspecial
  have hdigit := all_eq_true.mp hall c hspecial
  exact notMem_toString n (by simpa using hdigit) hc

theorem append_ne_empty {s t : String} (h : t ≠ "") : s ++ t ≠ "" := by
  intro hempty
  rw [String.append_eq_empty_iff] at hempty
  exact h hempty.2

theorem plain_portText (port : PortMapping) : isPlain (portText port) = true := by
  have hpair : isSafe (toString port.hostPort ++ ":" ++ toString port.containerPort) = true :=
    isSafe_append (isSafe_append (isSafe_toString _) (by decide)) (isSafe_toString _)
  unfold portText
  split_ifs
  · exact isPlain_of_safe (append_ne_empty (by decide)) (isSafe_append hpair (by decide))
  · refine isPlain_of_safe ?_ hpair
    intro hempty
    rw [String.append_eq_empty_iff] at hempty
    exact append_ne_empty (by decide) hempty.1

theorem plain_display (x : F) : isPlain (rt.display x) = true := by
  refine isPlain_of_safe (rt.display_ne x) (isSafe_iff.mpr ?_)
  intro c hc
  rcases rt.display_chars x c hc with hletter | rfl | rfl
  · exact not_special_of_isAlphanum hletter
  all_goals decide

theorem isSafe_sanitized : isSafe (sanitizeRentalId rt rentalId) = true := by
  refine isSafe_iff.mpr ?_
  intro c hc
  rw [sanitizeRentalId, String.toList_ofList] at hc
  have hkept := (mem_filter.mp (mem_of_mem_take hc)).2
  rcases Bool.or_eq_true_iff.mp hkept with hletter | hdash
  · exact not_special_of_isAlphanumeric rt hletter
  · rw [of_decide_eq_true hdash]
    decide

theorem plain_sanitized (start : String) (hne : start ≠ "") (hstart : isSafe start = true) :
    isPlain (start ++ sanitizeRentalId rt rentalId) = true := by
  refine isPlain_of_safe ?_ (isSafe_append hstart (isSafe_sanitized rt rentalId))
  intro hempty
  rw [String.append_eq_empty_iff] at hempty
  exact hne hempty.1

theorem plain_image [Zero F] [LT F] [DecidableLT F] {config : DeploymentConfig F} {spec : ContainerSpec F}
    (h : validateContainerSpec rt config spec = .ok ()) : isPlain spec.image = true := by
  have himage : validateDockerImage rt spec.image = .ok () := by
    cases hcheck : validateDockerImage rt spec.image with
    | ok x => rfl
    | error e =>
      rw [validateContainerSpec, validateImage, hcheck] at h
      cases h
  unfold validateDockerImage at himage
  split_ifs at himage with hempty
  refine isPlain_of_safe hempty (isSafe_iff.mpr ?_)
  intro c hc
  have hparse : rt.parseReference spec.image = .ok () := by
    cases hcheck : rt.parseReference spec.image with
    | ok x => rfl
    | error e =>
      rw [hcheck] at himage
      cases himage
  have hreference := rt.parse_chars spec.image hparse c hc
  rcases Bool.or_eq_true_iff.mp hreference with hletter | hother
  · exact not_special_of_isAlphanum hletter
  · have hall : ['.', '_', '-', '/', ':', '@', '+'].all (fun c => c ∉ specials) = true := by decide
    exact of_decide_eq_true (all_eq_true.mp hall c (of_decide_eq_true hother))

structure PlainSpec (spec : ContainerSpec F) : Prop where
  labels : ∀ p ∈ spec.labels.entries, p.1 ∉ securityLabels → isPlain (p.1 ++ "=" ++ p.2) = true
  environment : ∀ p ∈ spec.environment.entries, isPlain (p.1 ++ "=" ++ p.2) = true
  volumes : ∀ volume ∈ spec.volumes, isPlain (volumeSpec volume) = true
  capabilities : ∀ cap ∈ spec.capabilities, cap ∉ dangerousCaps → isPlain cap = true
  mode : spec.network.mode ≠ "" → isPlain spec.network.mode = true
  dns : ∀ dns ∈ spec.network.dns, isPlain dns = true
  extraHosts : ∀ p ∈ spec.network.extraHosts.entries, isPlain (p.1 ++ ":" ++ p.2) = true
  entrypoint : spec.entrypoint.length ≤ 1 ∧ ∀ e ∈ spec.entrypoint, isPlain e = true
  command : ∀ word ∈ spec.command, isPlain word = true

theorem plain_securedLabels (spec : ContainerSpec F) :
    (∀ p ∈ (applySecurityPolicies spec).labels.entries, isPlain (p.1 ++ "=" ++ p.2) = true) ↔
      ∀ p ∈ spec.labels.entries, p.1 ∉ securityLabels → isPlain (p.1 ++ "=" ++ p.2) = true := by
  have hisolated : isPlain ("basilica.security.isolated" ++ "=" ++ "true") = true := by decide
  have hmode : isPlain ("io.kubernetes.cri-o.userns-mode" ++ "=" ++ "auto") = true := by decide
  constructor
  · rintro h ⟨k, v⟩ hp hk
    simp only [securityLabels, mem_cons, not_mem_nil, or_false, not_or] at hk
    refine h (k, v) (mem_entries_of_get? ?_)
    rw [applySecurityPolicies, get?_set, get?_set, if_neg (Ne.symm hk.2), if_neg (Ne.symm hk.1)]
    exact get?_of_mem hp
  · rintro h ⟨k, v⟩ hp
    have hget := get?_of_mem hp
    rw [applySecurityPolicies, get?_set, get?_set] at hget
    by_cases hk : "basilica.security.isolated" = k
    · rw [if_pos hk] at hget
      rw [← hk, ← Option.some.inj hget]
      exact hisolated
    rw [if_neg hk] at hget
    by_cases hk' : "io.kubernetes.cri-o.userns-mode" = k
    · rw [if_pos hk'] at hget
      rw [← hk', ← Option.some.inj hget]
      exact hmode
    rw [if_neg hk'] at hget
    refine h (k, v) (mem_entries_of_get? hget) ?_
    simp only [securityLabels, mem_cons, not_mem_nil, or_false, not_or]
    exact ⟨Ne.symm hk', Ne.symm hk⟩

theorem plain_capabilities (spec : ContainerSpec F) : (∀ cap ∈ (applySecurityPolicies spec).capabilities, isPlain cap = true) ↔
    ∀ cap ∈ spec.capabilities, cap ∉ dangerousCaps → isPlain cap = true := by
  simp only [applySecurityPolicies, mem_filter, decide_eq_true_eq, and_imp]

theorem jsonStrings_not_plain (l : List String) (h : l ≠ []) : isPlain (jsonStrings l) ≠ true := by
  refine not_isPlain_of_mem (c := doubleQuote) (by decide) ?_
  cases l with
  | nil => exact absurd rfl h
  | cons s l =>
    rw [jsonStrings, String.toList_ofList, map_cons]
    cases l with
    | nil =>
      rw [map_nil, intercalate_singleton]
      simp [jsonString, doubleQuote]
    | cons t l =>
      rw [map_cons, intercalate_cons_cons]
      simp [jsonString, doubleQuote]

theorem plain_entrypoint (entrypoint : List String) :
    (∀ q ∈ (if entrypoint ≠ [] then ["--entrypoint", entrypointText entrypoint] else []), isPlain q = true) ↔
      entrypoint.length ≤ 1 ∧ ∀ e ∈ entrypoint, isPlain e = true := by
  have hoption : isPlain "--entrypoint" = true := by decide
  match entrypoint with
  | [] => simp
  | [e] => simp [entrypointText, hoption]
  | e :: e' :: l =>
    have hnot : isPlain (entrypointText (e :: e' :: l)) ≠ true := jsonStrings_not_plain _ (cons_ne_nil _ _)
    simp [hnot]

end Words

section Intact

variable (rt : Runtime F)

theorem forall_plain_pair {a b : String} (ha : isPlain a = true) (hb : isPlain b = true) : ∀ q ∈ [a, b], isPlain q = true := by
  intro q hq
  rcases mem_cons.mp hq with rfl | hq
  · exact ha
  · rw [mem_singleton.mp hq]
    exact hb

variable (spec : ContainerSpec F)

theorem plain_dockerCmdParts (rentalId : String) : ∀ q ∈ dockerCmdParts rt spec rentalId, isPlain q = true := by
  have hname := plain_sanitized rt rentalId "basilica-rental-" (by decide) (by decide)
  have hlabel := plain_sanitized rt rentalId "basilica.rental_id=" (by decide) (by decide)
  have hfixed : ["docker", "run", "-d"].all isPlain = true := by decide
  intro q hq
  simp only [dockerCmdParts, mem_append] at hq
  rcases hq with ((hq | hq) | hq) | hq
  · exact all_eq_true.mp hfixed q hq
  · split_ifs at hq
    · rw [mem_singleton.mp hq]
      decide
    · cases hq
  · exact forall_plain_pair (by decide) hname q hq
  · exact forall_plain_pair (by decide) hlabel q hq

theorem plain_resourceStrings [Zero F] [LT F] [DecidableLT F] : ∀ q ∈ resourceStrings rt spec, isPlain q = true := by
  have hfixed : ["--gpus", "all", "--runtime", "nvidia"].all isPlain = true := by decide
  intro q hq
  simp only [resourceStrings, mem_append] at hq
  rcases hq with (hq | hq) | hq
  · split_ifs at hq
    · exact forall_plain_pair (by decide) (plain_display rt _) q hq
    · cases hq
  · split_ifs at hq with hmemory
    · obtain ⟨m, hm⟩ := Int.eq_ofNat_of_zero_le (le_of_lt hmemory)
      rw [hm] at hq
      have hsafe : isSafe (toString m ++ "m") = true := isSafe_append (isSafe_toString m) (by decide)
      exact forall_plain_pair (by decide) (isPlain_of_safe (append_ne_empty (by decide)) hsafe) q hq
    · cases hq
  · exact all_eq_true.mp hfixed q hq

theorem plain_networkStrings :
    (∀ q ∈ networkStrings spec, isPlain q = true) ↔ (spec.network.mode ≠ "" → isPlain spec.network.mode = true) := by
  have hoption : isPlain "--network" = true := by decide
  unfold networkStrings
  split_ifs with h
  · simp [h, hoption]
  · simp only [ne_eq, not_not] at h
    simp [h]

variable {containerId : String}

theorem plain_containerId (h : validateContainerId rt containerId = .ok ()) : isPlain containerId = true := by
  unfold validateContainerId at h
  split_ifs at h with hempty hletters
  refine isPlain_of_safe hempty (isSafe_iff.mpr ?_)
  intro c hc
  exact not_special_of_isAlphanumeric rt (all_eq_true.mp hletters c hc)

theorem keyScript_spec (c : Char) (hc : c = singleQuote ∨ c = nul) (key : String) : c ∉ (keyScript key).toList ↔ c ∉ key.toList := by
  have hbefore : c ∉ "echo \"".toList := by rcases hc with rfl | rfl <;> decide
  have hafter : c ∉ "\" > /root/.ssh/authorized_keys && chmod 600 /root/.ssh/authorized_keys".toList := by
    rcases hc with rfl | rfl <;> decide
  rw [keyScript, String.toList_append, String.toList_append, mem_append, mem_append, or_iff_left hafter, or_iff_right hbefore]

-- with literals in place of the pieces the simplifier would look into their characters
theorem arguments_addKeyCmd (hid : validateContainerId rt containerId = .ok ()) (shell : String)
    (hshell : isPlain shell = true) (key : String) :
    arguments (addKeyCmd shell containerId key) = some ["docker", "exec", containerId, shell, "-c", keyScript key] ↔
      singleQuote ∉ key.toList ∧ nul ∉ key.toList := by
  have hplain : ∀ q ∈ ["docker", "exec", containerId, shell, "-c"], isPlain q = true := by
    have hid := plain_containerId rt hid
    have hfixed : ["docker", "exec", "-c"].all isPlain = true := by decide
    simp only [all_cons, all_nil, Bool.and_eq_true] at hfixed
    simp [hid, hshell, hfixed]
  rw [← keyScript_spec singleQuote (Or.inl rfl), ← keyScript_spec nul (Or.inr rfl)]
  refine arguments_quoted hplain ?_
  rw [spaced_cons_append, spaced_cons_append, spaced_cons_append, spaced_cons_append]
  change ("docker exec " ++ containerId ++ " " ++ shell ++ " -c '" ++ keyScript key ++ "'").toList = _
  simp only [String.toList_append, append_assoc]
  rfl

variable [Zero F] [LT F] [DecidableLT F] {config : DeploymentConfig F} {spec : ContainerSpec F}

theorem plain_runWords (hspec : validateContainerSpec rt config spec = .ok ()) (rentalId : String) :
    (∀ q ∈ runWords rt (applySecurityPolicies spec) rentalId, isPlain q = true) ↔ PlainSpec spec := by
  have himage := plain_image rt hspec
  have hports : ∀ q ∈ portStrings (applySecurityPolicies spec), isPlain q = true :=
    (forall_plain_pairs (by decide) _ _).mpr (fun port _ => plain_portText port)
  simp only [runWords, forall_mem_append, forall_mem_singleton]
  rw [labelStrings, forall_plain_pairs (by decide), forall_iterate, plain_securedLabels, envStrings, forall_plain_pairs (by decide),
    forall_iterate, volumeStrings, forall_plain_pairs (by decide), capStrings, forall_plain_pairs (by decide), plain_capabilities,
    plain_networkStrings, dnsStrings, forall_plain_pairs (by decide), hostStrings, forall_plain_pairs (by decide), forall_iterate,
    plain_entrypoint]
  constructor
  · rintro ⟨⟨⟨⟨⟨⟨⟨⟨⟨⟨⟨⟨_, hlabels⟩, henv⟩, _⟩, _⟩, hvolumes⟩, hcaps⟩, hmode⟩, hdns⟩, hhosts⟩, hentry⟩, _⟩, hcommand⟩
    exact ⟨hlabels, henv, hvolumes, hcaps, hmode, hdns, hhosts, hentry, hcommand⟩
  · intro h
    exact ⟨⟨⟨⟨⟨⟨⟨⟨⟨⟨⟨⟨plain_dockerCmdParts rt _ rentalId, h.labels⟩, h.environment⟩, hports⟩, plain_resourceStrings rt _⟩, h.volumes⟩,
      h.capabilities⟩, h.mode⟩, h.dns⟩, h.extraHosts⟩, h.entrypoint⟩, himage⟩, h.command⟩

theorem arguments_runCommand (hspec : validateContainerSpec rt config spec = .ok ()) (rentalId : String) :
    arguments (runCommand rt (applySecurityPolicies spec) rentalId) = some (runWords rt (applySecurityPolicies spec) rentalId) ↔
      PlainSpec spec := by
  obtain ⟨rest, hwords, hline⟩ := runCommand_toList rt (applySecurityPolicies spec) rentalId
  rw [← plain_runWords rt hspec rentalId, hwords]
  exact arguments_line hline

theorem deployed_lines_intact_iff (rentalId : String) (hspec : validateContainerSpec rt config spec = .ok ()) {containerId : String}
    (hid : validateContainerId rt containerId = .ok ()) (key : String) :
    (arguments (runCommand rt (applySecurityPolicies spec) rentalId) = some (runWords rt (applySecurityPolicies spec) rentalId) ∧
      (shouldConfigureSsh (applySecurityPolicies spec) = true → ∀ shell ∈ ["bash", "sh"],
        arguments (addKeyCmd shell containerId key) = some ["docker", "exec", containerId, shell, "-c", keyScript key])) ↔
    PlainSpec spec ∧ (shouldConfigureSsh (applySecurityPolicies spec) = true → singleQuote ∉ key.toList ∧ nul ∉ key.toList) := by
  have hbash := arguments_addKeyCmd rt hid "bash" (by decide) key
  have hsh := arguments_addKeyCmd rt hid "sh" (by decide) key
  rw [arguments_runCommand rt hspec rentalId, forall_mem_cons, forall_mem_singleton, hbash, hsh, and_self_iff]

end Intact

def hostRuntime : Runtime ℕ where
  display n := toString n
  iterate m := m.entries
  isAlphanumeric := Char.isAlphanum
  parseReference image := if image.toList.all isReferenceChar then .ok () else .error "invalid reference format"
  canonicalize _ := none
  display_ne _ := Nat.repr_ne_empty
  display_chars n c hc := by
    left
    by_contra hletter
    refine notMem_toString n ?_ hc
    cases hdigit : c.isDigit with
    | false => rfl
    | true => exact absurd (by rw [Char.isAlphanum, hdigit, Bool.or_true]) hletter
  iterate_perm _ := List.Perm.refl _
  isAlphanumeric_ascii _ _ := rfl
  parse_chars image h := by
    split_ifs at h with hall
    exact List.all_eq_true.mp hall

def bareSpec : ContainerSpec ℕ where
  image := "nginx"
  environment := .empty
  ports := []
  resources := ⟨1, 512, 0, 1⟩
  entrypoint := []
  command := ["/bin/bash"]
  volumes := []
  labels := .empty
  capabilities := []
  network := ⟨"bridge", [], .empty⟩

theorem bareSpec_plain : PlainSpec bareSpec where
  labels _ h := absurd h not_mem_nil
  environment _ h := absurd h not_mem_nil
  volumes _ h := absurd h not_mem_nil
  capabilities _ h := absurd h not_mem_nil
  mode _ := by decide
  dns _ h := absurd h not_mem_nil
  extraHosts _ h := absurd h not_mem_nil
  entrypoint := ⟨Nat.zero_le _, fun _ h => absurd h not_mem_nil⟩
  command word h := by
    rw [mem_singleton.mp h]
    decide

theorem shell_container_lines_intact : validateContainerSpec hostRuntime .default bareSpec = .ok () ∧
    validateContainerId hostRuntime "4f2a" = .ok () ∧
    arguments (runCommand hostRuntime (applySecurityPolicies bareSpec) "rental-1") =
      some (runWords hostRuntime (applySecurityPolicies bareSpec) "rental-1") ∧
    (shouldConfigureSsh (applySecurityPolicies bareSpec) = true → ∀ shell ∈ ["bash", "sh"],
      arguments (addKeyCmd shell "4f2a" "ssh-ed25519 AAAA") =
        some ["docker", "exec", "4f2a", shell, "-c", keyScript "ssh-ed25519 AAAA"]) := by
  have hspec : validateContainerSpec hostRuntime .default bareSpec = .ok () := by rfl
  have hid : validateContainerId hostRuntime "4f2a" = .ok () := by rfl
  refine ⟨hspec, hid, (deployed_lines_intact_iff hostRuntime "rental-1" hspec hid "ssh-ed25519 AAAA").mpr ⟨bareSpec_plain, ?_⟩⟩
  intro _
  decide

def greetingSpec : ContainerSpec ℕ :=
  { bareSpec with environment := AssocMap.empty.insert "GREETING" "hello; shutdown" }

theorem environment_value_ends_command : validateContainerSpec hostRuntime .default greetingSpec = .ok () ∧
    isValidSshPublicKey "ssh-ed25519 AAAA" = true ∧
    ¬ (arguments (runCommand hostRuntime (applySecurityPolicies greetingSpec) "rental-1") =
      some (runWords hostRuntime (applySecurityPolicies greetingSpec) "rental-1")) := by
  have hspec : validateContainerSpec hostRuntime .default greetingSpec = .ok () := by rfl
  refine ⟨hspec, by decide +kernel, ?_⟩
  rw [arguments_runCommand hostRuntime hspec]
  intro hplain
  have hvalue := hplain.environment ("GREETING", "hello; shutdown") mem_cons_self
  exact absurd hvalue (by decide)

/-- The parts of a path, where `.` changes nothing and `..` takes the part before it back. -/
def normalise (path : String) : List (List Char) :=
  (path.toList.splitOn '/').foldl (fun parts part =>
    if part = [] ∨ part = ['.'] then parts else if part = ['.', '.'] then parts.dropLast else parts ++ [part]) []

def Reveals (path : String) : Prop :=
  ∃ sensitive ∈ sensitivePaths, normalise sensitive <+: normalise path ∨ normalise path <+: normalise sensitive

/-- The path with its parts as they are, each after one slash. -/
def written (parts : List (List Char)) : List Char := parts.flatMap (fun part => '/' :: part)

theorem written_sensitive : ∀ s ∈ sensitivePaths, written (normalise s) = s.toList := by decide +kernel

theorem above_sensitive : ∀ s ∈ sensitivePaths, ∀ above ∈ (normalise s).inits,
    above = normalise s ∨ above ∈ [[], ["var".toList], ["var".toList, "run".toList]] := by decide +kernel

theorem validateVolume_ok {rt : Runtime F} {volume : VolumeMount} (hhost : rt.canonicalize volume.hostPath = none)
    (h : validateVolume rt volume = .ok ()) : ∀ sensitive ∈ sensitivePaths, ¬ sensitive.toList <+: volume.hostPath.toList := by
  rw [validateVolume, hhost, Option.getD_none] at h
  cases hfind : sensitivePaths.find? (fun path => path.toList.isPrefixOf volume.hostPath.toList) with
  | some path =>
    rw [hfind] at h
    cases h
  | none => simpa using find?_eq_none.mp hfind

theorem forM_ok {f : α → Except String Unit} {l : List α} (h : l.forM f = .ok ()) : ∀ a ∈ l, f a = .ok () := by
  induction l with
  | nil => simp
  | cons a l ih =>
    cases ha : f a with
    | error e => simp [forM_cons, ha, Except.bind, bind] at h
    | ok u => exact forall_mem_cons.mpr ⟨ha, ih (by simpa [forM_cons, ha, Except.bind, bind] using h)⟩

/-- A mount that is let through shows a sensitive path exactly if it is above the socket, or in or at a sensitive path that
the check does not see because the path is not written in its normal form. -/
theorem volume_reveals_iff {F : Type} {rt : Runtime F} {spec : ContainerSpec F}
    (h : spec.volumes.forM (validateVolume rt) = .ok ()) {volume : VolumeMount} (hvolume : volume ∈ spec.volumes)
    (hhost : rt.canonicalize volume.hostPath = none) :
    let parts := normalise volume.hostPath
    Reveals volume.hostPath ↔ parts ∈ [[], ["var".toList], ["var".toList, "run".toList]] ∨
      written parts ≠ volume.hostPath.toList ∧ ∃ sensitive ∈ sensitivePaths, normalise sensitive <+: parts := by
  intro parts
  have hinside : ∀ s ∈ sensitivePaths, normalise s <+: parts → written parts ≠ volume.hostPath.toList := by
    intro s hs hin hwritten
    apply validateVolume_ok hhost (forM_ok h volume hvolume) s hs
    rw [← hwritten, ← written_sensitive s hs]
    exact hin.flatMap _
  constructor
  · rintro ⟨s, hs, hin | hup⟩
    · exact Or.inr ⟨hinside s hs hin, s, hs, hin⟩
    · rcases above_sensitive s hs parts ((mem_inits parts _).mpr hup) with heq | hmem
      · have hin : normalise s <+: parts := heq ▸ prefix_refl _
        exact Or.inr ⟨hinside s hs hin, s, hs, hin⟩
      · exact Or.inl hmem
  · rintro (hmem | ⟨-, s, hs, hin⟩)
    · have hsocket : ∀ above ∈ [[], ["var".toList], ["var".toList, "run".toList]],
          above <+: normalise "/var/run/docker.sock" := by decide +kernel
      exact ⟨"/var/run/docker.sock", by simp [sensitivePaths], Or.inr (hsocket parts hmem)⟩
    · exact ⟨s, hs, Or.inl hin⟩

def mounting (hostPath : String) : ContainerSpec ℕ := { bareSpec with volumes := [⟨hostPath, "/data", false⟩] }

theorem data_not_revealed : ¬ Reveals "/data//x/./y/" := by
  have haccepted : (mounting "/data//x/./y/").volumes.forM (validateVolume hostRuntime) = .ok () := rfl
  refine mt (volume_reveals_iff haccepted mem_cons_self rfl).mp ?_
  decide +kernel

theorem accepted_mounts_reveal :
    (validateContainerSpec hostRuntime .default (mounting "//etc") = .ok () ∧ Reveals "//etc") ∧
      validateContainerSpec hostRuntime .default (mounting "/var") = .ok () ∧ Reveals "/var" := by
  refine ⟨⟨by rfl, "/etc", by simp [sensitivePaths], Or.inl ?_⟩, by rfl, "/var/run/docker.sock", by simp [sensitivePaths],
    Or.inr ?_⟩
  · decide +kernel
  · decide +kernel

end Basilica.Validator.Deployment
