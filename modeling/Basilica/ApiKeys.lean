import Basilica.ColumnText
import Basilica.StepRuns
import Basilica.Tallies

/-!
The keys of the API. A user who has signed in makes a key with a list of scopes; a request with the key then passes where
its scopes cover the scope that the route requires.
-/

namespace Basilica.Api

open AssocMaps StepRuns Words List

inductive Method
  | get
  | post
  | put
  | delete
  | patch
  | other (name : String)
deriving DecidableEq

inductive AuthDetails
  | jwt (email : String) (emailVerified : Bool) (name : String)
  | apiKey
deriving DecidableEq

structure AuthContext where
  userId : String
  scopes : List String
  details : AuthDetails
deriving DecidableEq

/-- A scope covers itself, and one that ends in `:*` covers its group. -/
def covers (scope required : String) : Bool :=
  scope = required || ([':', '*'].isSuffixOf scope.toList && scope.toList.dropLast.isPrefixOf required.toList)

namespace AuthContext

def hasScope (context : AuthContext) (required : String) : Bool := context.scopes.any (fun scope => covers scope required)

def isJwt (context : AuthContext) : Bool :=
  match context.details with
  | .jwt _ _ _ => true
  | .apiKey => false

end AuthContext

def startsWith (start : String) (path : String) : Bool := start.toList.isPrefixOf path.toList

def endsWith (ending : String) (path : String) : Bool := ending.toList.isSuffixOf path.toList

def getRequiredScope (method : Method) (path : String) : Option String :=
  if method = .get ∧ path = "/rentals" then some "rentals:list"
  else if method = .post ∧ path = "/rentals" then some "rentals:create"
  else if method = .delete ∧ startsWith "/rentals/" path ∧ (after? "/logs".toList path.toList).isNone then some "rentals:stop"
  else if method = .get ∧ startsWith "/rentals/" path ∧ endsWith "/logs" path then some "rentals:logs"
  else if method = .get ∧ startsWith "/rentals/" path then some "rentals:view"
  else if method = .get ∧ path = "/executors" then some "executors:list"
  else if method = .post ∧ path = "/api-keys" then some "keys:create"
  else if method = .get ∧ path = "/api-keys" then some "keys:list"
  else if method = .delete ∧ startsWith "/api-keys/" path then some "keys:revoke"
  -- a user without any scope may ask for this one
  else if method = .get ∧ path = "/health" then some ""
  else none

inductive StatusCode
  | unauthorized
  | forbidden
deriving DecidableEq

def scopeValidationMiddleware (method : Method) (path : String) (context : Option AuthContext) : Except StatusCode Unit :=
  match getRequiredScope method path with
  | none => .error .forbidden
  | some required =>
    if required = "" then .ok ()
    else match context with
      | none => .error .unauthorized
      | some context => if context.hasScope required then .ok () else .error .forbidden

inductive ApiKeyNameError
  | empty
  | tooLong
  | invalidCharacters
deriving DecidableEq

def ApiKeyNameError.message : ApiKeyNameError → String
  | empty => "API key name cannot be empty"
  | tooLong => "API key name too long (max 100 characters)"
  | invalidCharacters => "Invalid API key name. Only alphanumeric characters, hyphens, and underscores are allowed"

def validateName (name : String) : Except ApiKeyNameError Unit :=
  if name = "" then .error .empty
  else if 100 < name.utf8ByteSize then .error .tooLong
  else if name.toList.all (fun c => c.isAlphanum || c = '-' || c = '_') = false then .error .invalidCharacters
  else .ok ()

structure ApiKeyName where
  text : String
  valid : validateName text = .ok ()

def ApiKeyName.new (name : String) : Except ApiKeyNameError ApiKeyName :=
  match h : validateName name with
  | .ok () => .ok ⟨name, h⟩
  | .error e => .error e

structure ApiKey where
  userId : String
  kid : String
  name : String
  hash : String
  scopes : List String
  createdAt : ℤ
deriving DecidableEq

abbrev ApiKeys := AssocMap String ApiKey

inductive ApiKeyError
  | invalidFormat
  | notFound
  | invalidSecret
  | uniqueViolation
  | database (e : String)
  | hashing (e : String)
deriving DecidableEq

def ApiKeyError.message : ApiKeyError → String
  | invalidFormat => "Invalid token format"
  | notFound => "API key not found"
  | invalidSecret => "Invalid API key secret"
  | uniqueViolation => "Database error: duplicate key value violates unique constraint"
  | database e => s!"Database error: {e}"
  | hashing e => s!"Hashing error: {e}"

inductive ApiError
  | authentication (message : String)
  | scope (status : StatusCode)
  | internal (message : String)
  | notFound (message : String)
  | badRequest (message : String)
  | conflict (message : String)

structure GeneratedApiKey where
  kid : BitVec (4 * 32)
  secret : BitVec 256
  salt : BitVec 128

def GeneratedApiKey.kidHex (generated : GeneratedApiKey) : String := ColumnText.encodeHex generated.kid

structure Claims where
  sub : String
  scope : Option String
  email : Option String
  emailVerified : Option Bool
  name : Option String

/-- What the API takes from its libraries: the hash of secrets, the text of a token, and the tokens of its identity
provider. -/
structure ApiLibrary where
  hashPassword : (secret : BitVec 256) → (salt : BitVec 128) → Except String String
  verifyPassword : (secret : BitVec 256) → (hash : String) → Except String Bool
  encodeToken : BitVec (4 * 32) × BitVec 256 → String
  decodeToken : String → Option (BitVec (4 * 32) × BitVec 256)
  validateJwt : String → Except ApiError Claims

structure DbReply where
  now : ℤ
  listError : Option String
  writeError : Option String

def listUserApiKeys (userId : String) (keys : ApiKeys) : List ApiKey := keys.values.filter (fun key => key.userId = userId)

def insertApiKey (key : ApiKey) (keys : ApiKeys) : Option ApiKeys :=
  if (keys.get? key.kid).isSome ∨ ∃ other ∈ keys.values, other.userId = key.userId ∧ other.name = key.name then none
  else some (keys.insert key.kid key)

def deleteApiKeyByName (userId name : String) (keys : ApiKeys) : Bool × ApiKeys :=
  (keys.values.any (fun key => key.userId = userId && key.name = name),
    keys.filterWith (fun _ key => !(key.userId = userId && key.name = name)))

def ApiKey.context (key : ApiKey) : AuthContext := ⟨key.userId, key.scopes, .apiKey⟩

structure CreateKeyRequest where
  name : ApiKeyName
  scopes : Option (List String)

structure CreateKeyResponse where
  name : String
  createdAt : ℤ
  token : String

/-- `created` lists the keys made so far, each with who made it; no code reads it. -/
structure KeyState where
  keys : ApiKeys
  created : List (AuthContext × ApiKey)

def KeyState.start (keys : ApiKeys) : KeyState := ⟨keys, []⟩

namespace ApiLibrary

variable (library : ApiLibrary)

def verifyApiKey (token : String) (keys : ApiKeys) : Except ApiKeyError AuthContext :=
  match library.decodeToken (String.ofList (token.toList.drop 9)) with
  | none => .error .invalidFormat
  | some (kid, secret) =>
    match keys.get? (ColumnText.encodeHex kid) with
    | none => .error .notFound
    | some key => match library.verifyPassword secret key.hash with
      | .error e => .error (.hashing e)
      | .ok false => .error .invalidSecret
      | .ok true => .ok key.context

def Claims.context (claims : Claims) : AuthContext where
  userId := claims.sub
  scopes := (claims.scope.map (fun text => (words text.toList).map String.ofList)).getD []
  details := .jwt (claims.email.getD s!"{claims.sub}@auth0.user") (claims.emailVerified.getD false) (claims.name.getD claims.sub)

def authMiddleware (header : Option String) (keys : ApiKeys) : Except ApiError AuthContext :=
  match header with
  | none => .error (.authentication "Missing Authorization header")
  | some header =>
    let token := if startsWith "Bearer " header then String.ofList (header.toList.drop 7) else header
    if startsWith "basilica_" token then
      match library.verifyApiKey token keys with
      | .ok context => .ok context
      | .error _ => .error (.authentication "Invalid API key")
    else match library.validateJwt token with
      | .error e => .error e
      | .ok claims => .ok (Claims.context claims)

def authorize (method : Method) (path : String) (header : Option String) (keys : ApiKeys) : Except ApiError AuthContext :=
  match library.authMiddleware header keys with
  | .error e => .error e
  | .ok context => match scopeValidationMiddleware method path (some context) with
    | .error status => .error (.scope status)
    | .ok () => .ok context

def needsJwt : ApiError := .authentication "API key management requires human authentication (JWT)"

def maxKeysPerUser : ℕ := 10

def newKey (db : DbReply) (generated : GeneratedApiKey) (context : AuthContext) (request : CreateKeyRequest) (hash : String) :
    ApiKey :=
  ⟨context.userId, generated.kidHex, request.name.text, hash, request.scopes.getD context.scopes, db.now⟩

/-- The scopes that are asked for are taken as they are. -/
def createKey (db : DbReply) (generated : GeneratedApiKey) (context : AuthContext) (request : CreateKeyRequest) (s : KeyState) :
    Except ApiError CreateKeyResponse × KeyState :=
  if context.isJwt = false then (.error needsJwt, s)
  else match db.listError with
  | some e => (.error (.internal s!"Failed to check existing keys: Database error: {e}"), s)
  | none =>
    if maxKeysPerUser ≤ (listUserApiKeys context.userId s.keys).length then
      (.error (.conflict
        s!"Maximum number of API keys ({maxKeysPerUser}) reached. Please delete an existing key first."), s)
    else match library.hashPassword generated.secret generated.salt with
    | .error e => (.error (.internal s!"Failed to generate API key hash: Hashing error: {e}"), s)
    | .ok hash =>
      let key := newKey db generated context request hash
      match db.writeError with
      | some e => (.error (.internal s!"Failed to store API key: Database error: {e}"), s)
      | none => match insertApiKey key s.keys with
        | none => (.error (.conflict s!"API key with name '{request.name.text}' already exists"), s)
        | some keys => (.ok ⟨key.name, key.createdAt, "basilica_" ++ library.encodeToken (generated.kid, generated.secret)⟩,
            ⟨keys, (context, key) :: s.created⟩)

def revokeKey (db : DbReply) (context : AuthContext) (name : String) (s : KeyState) : Except ApiError Unit × KeyState :=
  if context.isJwt = false then (.error needsJwt, s)
  else match ApiKeyName.new name with
  | .error e => (.error (.badRequest e.message), s)
  | .ok apiKeyName => match db.writeError with
    | some e => (.error (.internal s!"Failed to delete API key: Database error: {e}"), s)
    | none =>
      let (deleted, keys) := deleteApiKeyByName context.userId apiKeyName.text s.keys
      (if deleted then .ok () else .error (.notFound s!"API key with name '{name}' not found"), { s with keys := keys })

end ApiLibrary

inductive KeyEvent
  | create (db : DbReply) (generated : GeneratedApiKey) (header : Option String) (request : CreateKeyRequest)
  | revoke (db : DbReply) (header : Option String) (path name : String)

section Runs

variable (library : ApiLibrary)

def keyStep : KeyEvent → KeyState → KeyState
  | .create db generated header request, s =>
    match library.authorize .post "/api-keys" header s.keys with
    | .error _ => s
    | .ok context => (library.createKey db generated context request s).2
  | .revoke db header path name, s =>
    match library.authorize .delete path header s.keys with
    | .error _ => s
    | .ok context => (ApiLibrary.revokeKey db context name s).2

def Passes (context : AuthContext) (method : Method) (path : String) : Prop :=
  scopeValidationMiddleware method path (some context) = .ok ()

def Narrower (creator made : AuthContext) : Prop := ∀ method path, Passes made method path → Passes creator method path

def Makes (s : KeyState) (creator made : AuthContext) : Prop := ∃ key, (creator, key) ∈ s.created ∧ made = key.context

def NoChainWidens (s : KeyState) : Prop := ∀ creator made, Relation.TransGen (Makes s) creator made → Narrower creator made

def routeScopes : List String :=
  ["rentals:list", "rentals:create", "rentals:stop", "rentals:logs", "rentals:view", "executors:list", "keys:create",
    "keys:list", "keys:revoke"]

def groupOf (scope : String) : String := String.ofList (scope.toList.takeWhile (· ≠ ':') ++ [':', '*'])

def Within (creator : AuthContext) (requested : List String) : Prop :=
  ∀ scope ∈ requested, ∀ required ∈ routeScopes, scope = required ∨ scope = groupOf required → creator.hasScope required = true

structure Makeable (db : DbReply) (generated : GeneratedApiKey) (creator : AuthContext) (request : CreateKeyRequest)
    (s : KeyState) : Prop where
  jwt : creator.isJwt = true
  listed : db.listError = none
  room : (listUserApiKeys creator.userId s.keys).length < ApiLibrary.maxKeysPerUser
  hashed : ∃ hash, library.hashPassword generated.secret generated.salt = .ok hash
  written : db.writeError = none
  newKid : s.keys.get? generated.kidHex = none
  newName : ∀ other ∈ s.keys.values, ¬ (other.userId = creator.userId ∧ other.name = request.name.text)

structure Admitted (db : DbReply) (generated : GeneratedApiKey) (header : Option String) (request : CreateKeyRequest)
    (s : KeyState) (creator : AuthContext) : Prop where
  authorized : library.authorize .post "/api-keys" header s.keys = .ok creator
  makeable : Makeable library db generated creator request s

def AsksWithin (event : KeyEvent) (s : KeyState) : Prop :=
  match event with
  | .create db generated header request => ∀ creator, Admitted library db generated header request s creator →
      ∀ requested, request.scopes = some requested → Within creator requested
  | .revoke _ _ _ _ => True

/-- The event takes the key of this name from the user. -/
def Revokes (userId name : String) (event : KeyEvent) (s : KeyState) : Prop :=
  match event with
  | .create _ _ _ _ => False
  | .revoke db header path text => text = name ∧ db.writeError = none ∧
      ∃ context, library.authorize .delete path header s.keys = .ok context ∧ context.isJwt = true ∧ context.userId = userId

/-- The run has a request that made the key, which nothing later in the run revokes. -/
def MadeIn (keys : ApiKeys) (l : List KeyEvent) (kid : String) (key : ApiKey) : Prop :=
  ∃ earlier later db generated header request creator hash,
    l = earlier ++ .create db generated header request :: later ∧
    Admitted library db generated header request (last (keyStep library) earlier (.start keys)) creator ∧
    library.hashPassword generated.secret generated.salt = .ok hash ∧
    kid = generated.kidHex ∧ key = ApiLibrary.newKey db generated creator request hash ∧
    EachStep (keyStep library) (fun event s => ¬ Revokes library creator.userId request.name.text event s) later
      (keyStep library (.create db generated header request) (last (keyStep library) earlier (.start keys)))

end Runs

variable {context : AuthContext} {required : String}

section Routes

variable {creator made : AuthContext} {method : Method} {path : String}

theorem passes_iff : Passes context method path ↔
    ∃ required, getRequiredScope method path = some required ∧ (required = "" ∨ context.hasScope required = true) := by
  unfold Passes scopeValidationMiddleware
  cases getRequiredScope method path with
  | none => simp
  | some required =>
    by_cases hempty : required = ""
    all_goals simp [hempty]

theorem ite_mem {α : Type} {p : Prop} [Decidable p] {a b : α} {l : List α} (ha : a ∈ l) (hb : b ∈ l) :
    (if p then a else b) ∈ l := by
  split_ifs
  · exact ha
  · exact hb

theorem getRequiredScope_mem (h : getRequiredScope method path = some required) :
    required = "" ∨ required ∈ routeScopes := by
  have hall : getRequiredScope method path ∈ none :: ("" :: routeScopes).map some := by
    unfold getRequiredScope
    repeat refine ite_mem (by decide) ?_
    decide
  rw [h, mem_cons, mem_map_of_injective (Option.some_injective _), mem_cons] at hall
  exact hall.resolve_left (Option.some_ne_none _)

theorem exists_route (h : required ∈ routeScopes) : ∃ method path, getRequiredScope method path = some required := by
  simp only [routeScopes, mem_cons, not_mem_nil, or_false] at h
  rcases h with rfl | rfl | rfl | rfl | rfl | rfl | rfl | rfl | rfl
  · exact ⟨.get, "/rentals", by decide +kernel⟩
  · exact ⟨.post, "/rentals", by decide +kernel⟩
  · exact ⟨.delete, "/rentals/1", by decide +kernel⟩
  · exact ⟨.get, "/rentals/1/logs", by decide +kernel⟩
  · exact ⟨.get, "/rentals/1", by decide +kernel⟩
  · exact ⟨.get, "/executors", by decide +kernel⟩
  · exact ⟨.post, "/api-keys", by decide +kernel⟩
  · exact ⟨.get, "/api-keys", by decide +kernel⟩
  · exact ⟨.delete, "/api-keys/k", by decide +kernel⟩

theorem narrower_iff : Narrower creator made ↔
    ∀ required ∈ routeScopes, made.hasScope required = true → creator.hasScope required = true := by
  constructor
  · intro h required hmem hmade
    obtain ⟨method, path, hroute⟩ := exists_route hmem
    obtain ⟨required', hroute', hcase⟩ := passes_iff.mp (h method path (passes_iff.mpr ⟨required, hroute, Or.inr hmade⟩))
    obtain rfl : required = required' := Option.some.inj (hroute.symm.trans hroute')
    exact hcase.resolve_left (by rintro rfl; exact absurd hmem (by decide))
  · intro h method path hpass
    obtain ⟨required, hroute, hcase⟩ := passes_iff.mp hpass
    refine passes_iff.mpr ⟨required, hroute, ?_⟩
    rcases hcase with hempty | hmade
    · exact Or.inl hempty
    · rcases getRequiredScope_mem hroute with hempty | hmem
      · exact Or.inl hempty
      · exact Or.inr (h required hmem hmade)

theorem noChainWidens_iff (s : KeyState) : NoChainWidens s ↔ ∀ made ∈ s.created, Narrower made.1 made.2.context := by
  constructor
  · intro h made hmade
    exact h _ _ (.single ⟨made.2, hmade, rfl⟩)
  · intro h creator made hchain
    induction hchain with
    | single hmakes =>
      obtain ⟨key, hkey, rfl⟩ := hmakes
      exact h _ hkey
    | tail _ hmakes ih =>
      obtain ⟨key, hkey, rfl⟩ := hmakes
      exact fun method path hpass => ih method path (h _ hkey method path hpass)

end Routes

variable {key : ApiKey}

section Coverage

theorem takeWhile_of_colon_prefix {l start rest : List Char} (hcolon : l.count ':' = 1) (h : start ++ [':'] ++ rest = l) :
    l.takeWhile (· ≠ ':') = start := by
  have hstart : ':' ∉ start := by
    rw [← count_eq_zero]
    rw [← h] at hcolon
    simp only [count_append, count_singleton_self] at hcolon
    omega
  rw [← h, append_assoc, takeWhile_append_of_pos]
  · simp
  · intro c hc
    have hne : c ≠ ':' := by
      rintro rfl
      exact hstart hc
    simpa using hne

theorem covers_iff {scope : String} (h : required ∈ routeScopes) :
    covers scope required = true ↔ scope = required ∨ scope = groupOf required := by
  have hcolon : required.toList.count ':' = 1 := by
    revert required
    decide +kernel
  unfold covers
  rw [Bool.or_eq_true, Bool.and_eq_true, decide_eq_true_eq, isSuffixOf_iff_suffix, isPrefixOf_iff_prefix]
  refine or_congr_right ?_
  constructor
  · rintro ⟨⟨start, hstart⟩, hprefix⟩
    have hdrop : scope.toList.dropLast = start ++ [':'] := by
      rw [← hstart, dropLast_append_of_ne_nil (by simp)]
      rfl
    rw [hdrop] at hprefix
    obtain ⟨rest, hrest⟩ := hprefix
    rw [groupOf, takeWhile_of_colon_prefix hcolon hrest, hstart, String.ofList_toList]
  · rintro rfl
    rw [groupOf, String.toList_ofList]
    refine ⟨suffix_append _ _, ?_⟩
    rw [dropLast_append_of_ne_nil (by simp)]
    have hmem : ':' ∈ required.toList := count_pos_iff.mp (by omega)
    obtain ⟨start, rest, hsplit⟩ := append_of_mem hmem
    have hagain : start ++ [':'] ++ rest = required.toList := by
      rw [hsplit]
      simp
    have hstart : required.toList.takeWhile (· ≠ ':') = start := takeWhile_of_colon_prefix hcolon hagain
    refine ⟨rest, ?_⟩
    rw [hstart, hsplit]
    simp

theorem hasScope_iff (h : required ∈ routeScopes) :
    context.hasScope required = true ↔ ∃ scope ∈ context.scopes, scope = required ∨ scope = groupOf required := by
  unfold AuthContext.hasScope
  rw [any_eq_true]
  exact exists_congr (fun scope => and_congr_right (fun _ => covers_iff h))

theorem narrower_key_iff {creator : AuthContext} : Narrower creator key.context ↔ Within creator key.scopes := by
  rw [narrower_iff]
  constructor
  · intro h scope hscope required hmem hnames
    exact h required hmem ((hasScope_iff hmem).mpr ⟨scope, hscope, hnames⟩)
  · intro h required hmem hkey
    obtain ⟨scope, hscope, hnames⟩ := (hasScope_iff hmem).mp hkey
    exact h scope hscope required hmem hnames

end Coverage

section Safety

variable {library : ApiLibrary}

theorem createKey_cases (library : ApiLibrary) (db : DbReply) (generated : GeneratedApiKey) (context : AuthContext) (request : CreateKeyRequest)
    (s : KeyState) :
    (∃ hash, Makeable library db generated context request s ∧ library.hashPassword generated.secret generated.salt = .ok hash ∧
      (library.createKey db generated context request s).2 =
        ⟨s.keys.insert generated.kidHex (ApiLibrary.newKey db generated context request hash),
          (context, ApiLibrary.newKey db generated context request hash) :: s.created⟩) ∨
    ¬ Makeable library db generated context request s ∧ (library.createKey db generated context request s).2 = s := by
  unfold ApiLibrary.createKey
  by_cases hjwt : context.isJwt = true
  swap
  · rw [if_pos (by simpa using hjwt)]
    exact Or.inr ⟨fun h => hjwt h.jwt, rfl⟩
  rw [if_neg (by simp [hjwt])]
  cases hlisted : db.listError with
  | some e => exact Or.inr ⟨fun h => by simpa [hlisted] using h.listed, rfl⟩
  | none =>
  by_cases hroom : (listUserApiKeys context.userId s.keys).length < ApiLibrary.maxKeysPerUser
  swap
  · rw [if_pos (not_lt.mp hroom)]
    exact Or.inr ⟨fun h => hroom h.room, rfl⟩
  rw [if_neg (not_le.mpr hroom)]
  cases hhashed : library.hashPassword generated.secret generated.salt with
  | error e => exact Or.inr ⟨fun h => by simpa [hhashed] using h.hashed, rfl⟩
  | ok hash =>
  cases hwritten : db.writeError with
  | some e => exact Or.inr ⟨fun h => by simpa [hwritten] using h.written, rfl⟩
  | none =>
  dsimp only
  unfold insertApiKey ApiLibrary.newKey
  by_cases htaken : (s.keys.get? generated.kidHex).isSome ∨
      ∃ other ∈ s.keys.values, other.userId = context.userId ∧ other.name = request.name.text
  · rw [if_pos htaken]
    refine Or.inr ⟨fun h => ?_, rfl⟩
    rcases htaken with hkid | ⟨other, hother, hsame⟩
    · rw [h.newKid] at hkid
      cases hkid
    · exact h.newName other hother hsame
  · rw [if_neg htaken]
    obtain ⟨hkid, hname⟩ := not_or.mp htaken
    refine Or.inl ⟨hash, ⟨hjwt, hlisted, hroom, ⟨hash, hhashed⟩, hwritten, ?_, ?_⟩, rfl, rfl⟩
    · simpa using hkid
    · intro other hother hsame
      exact hname ⟨other, hother, hsame⟩

theorem create_cases (library : ApiLibrary) (db : DbReply) (generated : GeneratedApiKey) (header : Option String) (request : CreateKeyRequest)
    (s : KeyState) :
    (∃ creator hash, Admitted library db generated header request s creator ∧
      library.hashPassword generated.secret generated.salt = .ok hash ∧
      keyStep library (.create db generated header request) s =
        ⟨s.keys.insert generated.kidHex (ApiLibrary.newKey db generated creator request hash),
          (creator, ApiLibrary.newKey db generated creator request hash) :: s.created⟩) ∨
    (∀ creator, ¬ Admitted library db generated header request s creator) ∧
      keyStep library (.create db generated header request) s = s := by
  unfold keyStep
  dsimp only
  cases hauthorized : library.authorize .post "/api-keys" header s.keys with
  | error e =>
    refine Or.inr ⟨fun creator h => ?_, rfl⟩
    have hcreator := h.authorized
    rw [hauthorized] at hcreator
    cases hcreator
  | ok context =>
    rcases createKey_cases library db generated context request s with ⟨hash, hmakeable, hkey⟩ | ⟨hnot, hsame⟩
    · exact Or.inl ⟨context, hash, ⟨hauthorized, hmakeable⟩, hkey⟩
    · refine Or.inr ⟨fun creator h => ?_, hsame⟩
      obtain rfl : context = creator := Except.ok.inj (hauthorized.symm.trans h.authorized)
      exact hnot h.makeable

theorem ApiKeyName.new_text (name : ApiKeyName) : ApiKeyName.new name.text = .ok name := by
  unfold ApiKeyName.new
  split
  · rfl
  · rename_i e h
    rw [name.valid] at h
    cases h

theorem revoke_cases (library : ApiLibrary) (db : DbReply) (header : Option String) (path text : String) (s : KeyState) :
    (keyStep library (.revoke db header path text) s).created = s.created ∧
      ∀ entry ∈ (keyStep library (.revoke db header path text) s).keys.entries, entry ∈ s.keys.entries ∧
        ∀ name : ApiKeyName, entry.2.name = name.text →
          ¬ Revokes library entry.2.userId name.text (.revoke db header path text) s := by
  unfold keyStep Revokes
  dsimp only
  cases library.authorize .delete path header s.keys with
  | error e => exact ⟨rfl, fun entry hentry => ⟨hentry, fun _ _ ⟨_, _, _, hauthorized, _⟩ => nomatch hauthorized⟩⟩
  | ok context =>
    dsimp only
    unfold ApiLibrary.revokeKey
    by_cases hjwt : context.isJwt = true
    swap
    · rw [if_pos (by simpa using hjwt)]
      refine ⟨rfl, fun entry hentry => ⟨hentry, ?_⟩⟩
      rintro name - ⟨-, -, _, hauthorized, hcontext, -⟩
      cases hauthorized
      exact hjwt hcontext
    rw [if_neg (by simp [hjwt])]
    cases hname : ApiKeyName.new text with
    | error e =>
      refine ⟨rfl, fun entry hentry => ⟨hentry, ?_⟩⟩
      rintro name - ⟨rfl, -⟩
      rw [ApiKeyName.new_text] at hname
      cases hname
    | ok apiKeyName =>
      cases db.writeError with
      | some e => exact ⟨rfl, fun entry hentry => ⟨hentry, fun _ _ ⟨_, hwritten, _⟩ => nomatch hwritten⟩⟩
      | none =>
        refine ⟨rfl, fun entry hentry => ?_⟩
        obtain ⟨hold, hkept⟩ := mem_filter.mp hentry
        refine ⟨hold, ?_⟩
        rintro name hentryName ⟨rfl, -, _, hauthorized, -, huser⟩
        cases hauthorized
        rw [ApiKeyName.new_text] at hname
        cases hname
        simp [huser, hentryName] at hkept

variable {s : KeyState}

theorem noChainWidens_step_iff (event : KeyEvent) (hs : NoChainWidens s) :
    NoChainWidens (keyStep library event s) ↔ AsksWithin library event s := by
  rw [noChainWidens_iff] at hs
  rw [noChainWidens_iff]
  cases event with
  | revoke db header path name =>
    rw [(revoke_cases library db header path name s).1]
    exact iff_of_true hs trivial
  | create db generated header request =>
    rcases create_cases library db generated header request s with
        ⟨creator, hash, hadmitted, -, hstep⟩ | ⟨hnone, hstep⟩
    · rw [hstep, forall_mem_cons, and_iff_left hs, narrower_key_iff, ApiLibrary.newKey]
      constructor
      · intro h creator' hadmitted' requested hrequested
        obtain rfl : creator = creator' := Except.ok.inj (hadmitted.authorized.symm.trans hadmitted'.authorized)
        rw [hrequested, Option.getD_some] at h
        exact h
      · intro h
        cases hrequested : request.scopes with
        | none =>
          intro scope hscope required hmem hnames
          exact (hasScope_iff hmem).mpr ⟨scope, hscope, hnames⟩
        | some requested => exact h creator hadmitted requested hrequested
    · rw [hstep]
      exact iff_of_true hs (fun creator h => absurd h (hnone creator))

theorem keys_never_widen_iff (library : ApiLibrary) (keys : ApiKeys) (l : List KeyEvent) :
    Throughout (keyStep library) NoChainWidens l (.start keys) ↔ EachStep (keyStep library) (AsksWithin library) l (.start keys) := by
  have hstart : NoChainWidens (.start keys) := (noChainWidens_iff _).mpr (fun made hmade => absurd hmade not_mem_nil)
  exact throughout_iff (I := fun _ => True) (fun _ _ _ _ => trivial) (fun event _ _ _ hs => noChainWidens_step_iff event hs)
    (fun event (_ : event ∈ l) => trivial) trivial hstart

def openApi : ApiLibrary where
  hashPassword _ _ := .ok ""
  verifyPassword _ _ := .ok true
  encodeToken _ := ""
  decodeToken _ := some (0, 0)
  validateJwt token := .ok ⟨"u", some token, none, none, none⟩

def createWith (scopes : List String) : KeyEvent :=
  .create ⟨0, none, none⟩ ⟨0, 0, 0⟩ (some "Bearer keys:create") ⟨⟨"k", by decide +kernel⟩, some scopes⟩

theorem key_passes_where_creator_does_not :
    ¬ Throughout (keyStep openApi) NoChainWidens [createWith ["rentals:*"]] (.start AssocMap.empty) := by
  rintro ⟨-, h⟩
  rw [Throughout, noChainWidens_iff] at h
  have hlog : (keyStep openApi (createWith ["rentals:*"]) (.start AssocMap.empty)).created =
      [(⟨"u", ["keys:create"], .jwt "u@auth0.user" false "u"⟩, ⟨"u", "00000000000000000000000000000000", "k", "", ["rentals:*"], 0⟩)] := by
    decide +kernel
  rw [hlog] at h
  have hpass := h _ mem_cons_self .post "/rentals" (by unfold Passes; decide +kernel)
  unfold Passes at hpass
  exact absurd hpass (by decide +kernel)

variable {keys : ApiKeys}

theorem verifyApiKey_cases {token : String} (h : library.verifyApiKey token keys = .ok context) :
    ∃ kid secret key, library.decodeToken (String.ofList (token.toList.drop 9)) = some (kid, secret) ∧
      (ColumnText.encodeHex kid, key) ∈ keys.entries ∧ library.verifyPassword secret key.hash = .ok true ∧ context = key.context := by
  unfold ApiLibrary.verifyApiKey at h
  split at h
  · cases h
  case h_2 kid secret hdecoded =>
    split at h
    · cases h
    case h_2 key hkey =>
      refine ⟨kid, secret, key, hdecoded, AssocMap.mem_entries_of_get? hkey, ?_⟩
      split at h
      · cases h
      · cases h
      · rename_i hverified
        exact ⟨hverified, (Except.ok.inj h).symm⟩

theorem key_made (l : List KeyEvent) {kid : String}
    (h : (kid, key) ∈ (last (keyStep library) l (.start keys)).keys.entries) :
    (kid, key) ∈ keys.entries ∨ MadeIn library keys l kid key := by
  induction l using List.reverseRecOn with
  | nil => exact Or.inl h
  | append_singleton l event ih =>
    rw [last_append] at h
    -- a key of the tables before the event is still to be followed back, with the event last
    have hback (hold : (kid, key) ∈ (last (keyStep library) l (.start keys)).keys.entries)
        (hkept : ∀ name : ApiKeyName, key.name = name.text →
          ¬ Revokes library key.userId name.text event (last (keyStep library) l (.start keys))) :
        (kid, key) ∈ keys.entries ∨ MadeIn library keys (l ++ [event]) kid key := by
      refine (ih hold).imp_right ?_
      rintro ⟨earlier, later, db, generated, header, request, creator, hash, rfl, hadmitted, hhashed, hkid, rfl, hlater⟩
      rw [last_append] at hkept
      refine ⟨earlier, later ++ [event], db, generated, header, request, creator, hash, ?_, hadmitted, hhashed, hkid, rfl,
        hlater.concat (hkept request.name rfl)⟩
      rw [append_assoc, cons_append]
    cases event with
    | revoke db header path text =>
      obtain ⟨hold, hkept⟩ := (revoke_cases library db header path text _).2 _ h
      exact hback hold hkept
    | create db generated header request =>
      change (kid, key) ∈ (keyStep library (.create db generated header request) (last (keyStep library) l (.start keys))).keys.entries at h
      rcases create_cases library db generated header request (last (keyStep library) l (.start keys)) with
          ⟨creator, hash, hadmitted, hhashed, hstep⟩ | ⟨-, hstep⟩
      · rw [hstep, AssocMap.insert_entries hadmitted.makeable.newKid, mem_append, mem_singleton] at h
        rcases h with hold | hnew
        · exact hback hold (fun _ _ hrevokes => hrevokes)
        · obtain ⟨rfl, rfl⟩ := Prod.mk.inj hnew
          exact Or.inr ⟨l, [], db, generated, header, request, creator, hash, rfl, hadmitted, hhashed, rfl, rfl, trivial⟩
      · rw [hstep] at h
        exact hback h (fun _ _ hrevokes => hrevokes)

/-- A token is accepted for a key that was there at the start, or that a user who was signed in and admitted has made in the
run: it acts for that user, with the scopes of that request, and no later request of the user has revoked it. -/
theorem accepted_token_made (library : ApiLibrary) (keys : ApiKeys) (l : List KeyEvent) (token : String) (context : AuthContext)
    (h : library.verifyApiKey token (last (keyStep library) l (.start keys)).keys = .ok context) :
    (∃ key ∈ keys.values, context = key.context) ∨
    ∃ kid secret key, library.decodeToken (String.ofList (token.toList.drop 9)) = some (kid, secret) ∧
      MadeIn library keys l (ColumnText.encodeHex kid) key ∧ library.verifyPassword secret key.hash = .ok true ∧
      context = key.context := by
  obtain ⟨kid, secret, key, hdecoded, hkey, hverified, rfl⟩ := verifyApiKey_cases h
  rcases key_made l hkey with hfirst | hmade
  · exact Or.inl ⟨key, mem_map_of_mem hfirst, rfl⟩
  · exact Or.inr ⟨kid, secret, key, hdecoded, hmade, hverified, rfl⟩

def createThenRevoke : List KeyEvent :=
  [createWith ["rentals:*"], .revoke ⟨0, none, none⟩ (some "Bearer keys:revoke") "/api-keys/m" "m"]

theorem accepted_token_made_rentals :
    openApi.verifyApiKey "basilica_" (last (keyStep openApi) createThenRevoke (.start .empty)).keys =
        .ok ⟨"u", ["rentals:*"], .apiKey⟩ ∧
      ∃ key, MadeIn openApi .empty createThenRevoke (ColumnText.encodeHex (0 : BitVec (4 * 32))) key ∧
        key.context = ⟨"u", ["rentals:*"], .apiKey⟩ := by
  have haccepted : openApi.verifyApiKey "basilica_" (last (keyStep openApi) createThenRevoke (.start .empty)).keys =
      .ok ⟨"u", ["rentals:*"], .apiKey⟩ := by
    decide +kernel
  refine ⟨haccepted, ?_⟩
  rcases accepted_token_made _ _ _ _ _ haccepted with ⟨key, hkey, -⟩ | ⟨kid, secret, key, hdecoded, hmade, -, hcontext⟩
  · cases hkey
  · obtain ⟨rfl, -⟩ := Prod.mk.inj (Option.some.inj hdecoded)
    exact ⟨key, hmade, hcontext.symm⟩

end Safety

inductive Handler
  | listRentalsValidator
  | startRental
  | getRentalStatus
  | stopRental
  | streamRentalLogs
  | listAvailableExecutors
  | createKey
  | listKeys
  | revokeKey
deriving DecidableEq

namespace Handler

def method : Handler → Method
  | startRental | createKey => .post
  | stopRental | revokeKey => .delete
  | _ => .get

def path (id : String) : Handler → String
  | listRentalsValidator | startRental => "/rentals"
  | getRentalStatus | stopRental => "/rentals/" ++ id
  | streamRentalLogs => "/rentals/" ++ id ++ "/logs"
  | listAvailableExecutors => "/executors"
  | createKey | listKeys => "/api-keys"
  | revokeKey => "/api-keys/" ++ id

def scope : Handler → String
  | listRentalsValidator => "rentals:list"
  | startRental => "rentals:create"
  | getRentalStatus => "rentals:view"
  | stopRental => "rentals:stop"
  | streamRentalLogs => "rentals:logs"
  | listAvailableExecutors => "executors:list"
  | createKey => "keys:create"
  | listKeys => "keys:list"
  | revokeKey => "keys:revoke"

/-- A parameter is one segment of the path, and `HEAD` goes where `GET` goes. -/
def Serves (handler : Handler) (method : Method) (id : String) : Prop :=
  id ≠ "" ∧ '/' ∉ id.toList ∧ (method = handler.method ∨ method = .other "HEAD" ∧ handler.method = .get)

end Handler

theorem scope_of_handler_iff (handler : Handler) (method : Method) (id : String) (h : handler.Serves method id) :
    getRequiredScope method (handler.path id) = some handler.scope ↔ method = handler.method ∧
      (handler = .getRentalStatus → id ≠ "logs") ∧ (handler = .stopRental → ¬ startsWith "logs" id) := by
  obtain ⟨-, hslash, rfl | ⟨rfl, hget⟩⟩ := h
  · have hend := suffix_segment_iff "/rentals".toList (by decide : '/' ∉ "logs".toList) hslash
    have hlogs : "/logs".toList <:+ ("/rentals/" ++ id ++ "/logs").toList := by
      rw [String.toList_append]
      exact suffix_append _ _
    have hafter := after?_of_notMem "logs".toList hslash
    have hne (rest : String) : "/rentals/" ++ rest ≠ "/rentals" := by
      intro heq
      simpa using congrArg String.toList heq
    rw [String.toList_inj] at hend
    cases handler <;> simp [getRequiredScope, Handler.path, Handler.scope, Handler.method, startsWith, endsWith,
      String.append_assoc, hne] at hend hlogs hafter ⊢
    · simp [hend]
    · simp [after?, hafter]
    · simp [hlogs]
  · cases handler <;> simp [getRequiredScope, Handler.method] at hget ⊢

theorem scope_of_handler_status : Handler.Serves .getRentalStatus .get "r" ∧
    getRequiredScope .get "/rentals/r" = some "rentals:view" := by
  have hserves : Handler.Serves .getRentalStatus .get "r" := ⟨by decide, by decide, Or.inl rfl⟩
  exact ⟨hserves, (scope_of_handler_iff _ _ _ hserves).mpr ⟨rfl, by decide, by decide⟩⟩

theorem rental_named_logs : Handler.Serves .getRentalStatus .get "logs" ∧
    getRequiredScope .get (Handler.getRentalStatus.path "logs") = some "rentals:logs" := by
  exact ⟨⟨by decide, by decide, Or.inl rfl⟩, by decide +kernel⟩

end Basilica.Api
