import Basilica.ColumnText
import Basilica.ExecutorTables
import Basilica.SqlText

/-!
The executors that can be rented, as the validator asks its database for them. The query is put together as a text, and
the parts of a location go into it between apostrophes as they are.
-/

namespace Basilica.Validator

open AssocMaps ColumnText SqlText

structure LocationProfile where
  city : Option String
  region : Option String
  country : Option String

namespace LocationProfile

def component (part : List Char) : Option String :=
  let text := String.ofList part
  if text = "" ∨ text = "Unknown" then none else some text

def fromStr (s : String) : LocationProfile :=
  let parts := s.toList.splitOn '/'
  { city := parts.head?.bind component
    region := (parts[1]?).bind component
    country := (parts[2]?).bind component }

def toText (location : LocationProfile) : String :=
  let city := location.city.getD "Unknown"
  let region := location.region.getD "Unknown"
  let country := location.country.getD "Unknown"
  s!"{city}/{region}/{country}"

end LocationProfile

structure NetworkProfile where
  city : Option String
  region : Option String
  country : Option String

structure CapacityDb extends ValidatorDb where
  networkProfiles : AssocMap (MinerUid × ExecutorId) NetworkProfile

def ExecutorStatus.text : ExecutorStatus → String
  | online => "online"
  | verified => "verified"
  | offline => "offline"
  | failed => "failed"
  | stale => "stale"
  | unknown => "unknown"
  | other text => text

structure JoinedRow where
  executor : ExecutorRow
  rental : Option Rental
  gpu : Option (GpuUuid × GpuAssignment)
  network : Option NetworkProfile

/-- `LEFT JOIN`: one row of nulls where there is no partner. -/
def leftJoin {α : Type} (partners : List α) : List (Option α) :=
  match partners with
  | [] => [none]
  | partners => partners.map some

namespace CapacityDb

variable (db : CapacityDb)

def rentalsOf (minerId : MinerId) (executorId : ExecutorId) : List Rental :=
  db.rentals.filter (fun rental => rental.executorId = executorId ∧ rental.minerId = minerId ∧ rental.state.Rented)

def networkOf (minerId : MinerId) (executorId : ExecutorId) : List NetworkProfile :=
  (db.networkProfiles.entries.filter (fun q => q.1.2 = executorId ∧ minerIdOf q.1.1 = minerId)).map Prod.snd

def gpusOf (minerId : MinerId) (executorId : ExecutorId) : List (GpuUuid × GpuAssignment) :=
  db.gpus.entries.filter (fun q => q.2.Of minerId executorId)

def joinedRows : List JoinedRow :=
  (db.executors.values.filter (fun executor => executor.minerId ∈ db.miners.keys)).flatMap (fun executor =>
    (leftJoin (db.rentalsOf executor.minerId executor.executorId)).flatMap (fun rental =>
      (leftJoin (db.gpusOf executor.minerId executor.executorId)).flatMap (fun gpu =>
        (leftJoin (db.networkOf executor.minerId executor.executorId)).map (fun network => ⟨executor, rental, gpu, network⟩))))

end CapacityDb

inductive LocationColumn
  | country
  | region
  | city
deriving DecidableEq

inductive Column
  | status
  | location (column : LocationColumn)
deriving DecidableEq

inductive NullColumn
  | rentalId
  | status
deriving DecidableEq

def queryColumns : Columns Column NullColumn where
  compared table column :=
    if table = "ME" ∧ column = "STATUS" then some .status
    else if table = "ENP" ∧ column = "COUNTRY" then some (.location .country)
    else if table = "ENP" ∧ column = "REGION" then some (.location .region)
    else if table = "ENP" ∧ column = "CITY" then some (.location .city)
    else none
  tested table column :=
    if table = "R" ∧ column = "ID" then some .rentalId
    else if table = "ME" ∧ column = "STATUS" then some .status
    else none

def NetworkProfile.value (profile : NetworkProfile) : LocationColumn → Option String
  | .country => profile.country
  | .region => profile.region
  | .city => profile.city

def columnValue (column : Column) (row : JoinedRow) : Option (List Char) :=
  match column with
  | .status => some row.executor.status.text.toList
  | .location column => (row.network.bind (fun profile => profile.value column)).map String.toList

def columnNull (column : NullColumn) (row : JoinedRow) : Bool :=
  match column with
  | .rentalId => row.rental.isNone
  | .status => false

def selectLines : List String :=
  ["SELECT\n",
    "                me.executor_id,\n",
    "                me.miner_id,\n",
    "                me.location,\n",
    "                me.status,\n",
    "                me.gpu_count,\n",
    "                m.verification_score,\n",
    "                m.uptime_percentage,\n",
    "                GROUP_CONCAT(gua.gpu_name) as gpu_names,\n",
    "                ehp.cpu_model,\n",
    "                ehp.cpu_cores,\n",
    "                ehp.ram_gb,\n",
    "                enp.city,\n",
    "                enp.region,\n",
    "                enp.country,\n",
    "                esp.download_mbps,\n",
    "                esp.upload_mbps,\n",
    "                esp.test_timestamp\n",
    "            FROM miner_executors me\n",
    "            JOIN miners m ON me.miner_id = m.id\n",
    "            LEFT JOIN rentals r ON me.executor_id = r.executor_id\n",
    "                AND r.miner_id = me.miner_id\n",
    "                AND r.state IN ('Active', 'Provisioning', 'active', 'provisioning')\n",
    "            LEFT JOIN gpu_uuid_assignments gua ON me.executor_id = gua.executor_id AND gua.miner_id = me.miner_id\n",
    "            LEFT JOIN executor_hardware_profile ehp ON me.executor_id = ehp.executor_id AND me.miner_id = 'miner_' || ehp.miner_uid\n",
    "            LEFT JOIN executor_network_profile enp ON me.executor_id = enp.executor_id AND me.miner_id = 'miner_' || enp.miner_uid\n",
    "            LEFT JOIN executor_speedtest_profile esp ON me.executor_id = esp.executor_id AND me.miner_id = 'miner_' || esp.miner_uid\n",
    "            WHERE "]

def selectText : List Char := selectLines.flatMap String.toList

def baseCondition : String := "r.id IS NULL
                AND (me.status IS NULL OR me.status != 'offline')"

def LocationProfile.filters (location : LocationProfile) : List (LocationColumn × String) :=
  (location.country.map (fun country => (.country, country))).toList ++
    (location.region.map (fun region => (.region, region))).toList ++
    (location.city.map (fun city => (.city, city))).toList

def locationFilters (location : Option LocationProfile) : List (LocationColumn × String) :=
  (location.map LocationProfile.filters).getD []

def filterHead : LocationColumn → String
  | .country => " AND LOWER(enp.country) = LOWER('"
  | .region => " AND LOWER(enp.region) = LOWER('"
  | .city => " AND LOWER(enp.city) = LOWER('"

def filterText (filter : LocationColumn × String) : List Char :=
  (filterHead filter.1).toList ++ (filter.2.toList ++ "')".toList)

def groupText (minGpuCount : Option UInt32) : String :=
  match minGpuCount with
  | none => " GROUP BY me.executor_id"
  | some minCount =>
    let minCount := minCount.toNat
    s!" GROUP BY me.executor_id HAVING COUNT(gua.gpu_uuid) >= {minCount}"

def queryText (minGpuCount : Option UInt32) (location : Option LocationProfile) : List Char :=
  selectText ++ (baseCondition.toList ++ ((locationFilters location).flatMap filterText ++ (groupText minGpuCount).toList))

structure ResultRow where
  executorId : ExecutorId
  minerId : MinerId
  status : String
  gpuNames : Option (List Char)
  network : LocationProfile

structure Sqlite where
  bare : JoinedRow → List JoinedRow → JoinedRow
  bare_mem : ∀ first rest, bare first rest ∈ first :: rest
  other : List Char → CapacityDb → Option (List ResultRow)

structure Query where
  condition : Condition Column NullColumn
  minGpuCount : Option ℕ
deriving DecidableEq

def dropFront (front tokens : List Token) : Option (List Token) :=
  if front <+: tokens then some (tokens.drop front.length) else none

def parseGroup (tokens : List Token) : Option (Option ℕ) := do
  let rest ← dropFront (lex " GROUP BY me.executor_id".toList) tokens
  match rest with
  | [] => return none
  | rest =>
    match ← dropFront (lex " HAVING COUNT(gua.gpu_uuid) >=".toList) rest with
    | [.number digits] => if digits.all Char.isDigit then return some (Nat.ofDigitChars 10 digits 0) else none
    | _ => none

def parseQuery (tokens : List Token) : Option Query := do
  let rest ← dropFront (lex selectText) tokens
  let (condition, rest) ← parseCondition queryColumns rest.length .disjunction rest
  return ⟨condition, ← parseGroup rest⟩

/-- `GROUP_CONCAT` ignores null. -/
def concatNames (rows : List JoinedRow) : Option (List Char) :=
  match rows.filterMap (fun row => row.gpu.bind (fun q => q.2.gpuName)) with
  | [] => none
  | names => some ((names.map String.toList).intersperse [','] |>.flatten)

def resultRow (bare : JoinedRow) (rows : List JoinedRow) : ResultRow where
  executorId := bare.executor.executorId
  minerId := bare.executor.minerId
  status := bare.executor.status.text
  gpuNames := concatNames rows
  network := ⟨bare.network.bind NetworkProfile.city, bare.network.bind NetworkProfile.region,
    bare.network.bind NetworkProfile.country⟩

def selected (condition : Condition Column NullColumn) (db : CapacityDb) : List JoinedRow :=
  db.joinedRows.filter (fun row => condition.eval columnValue columnNull row = some true)

def groupRow (sqlite : Sqlite) (minGpuCount : Option ℕ) (rows : List JoinedRow) : Option ResultRow :=
  match rows with
  | [] => none
  | first :: rest =>
    if ∀ minCount ∈ minGpuCount, minCount ≤ (rows.filterMap JoinedRow.gpu).length then some (resultRow (sqlite.bare first rest) rows)
    else none

def runQuery (sqlite : Sqlite) (query : Query) (db : CapacityDb) : List ResultRow :=
  let rows := selected query.condition db
  ((rows.map (fun row => row.executor.executorId)).dedup).filterMap (fun executorId =>
    groupRow sqlite query.minGpuCount (rows.filter (fun row => row.executor.executorId = executorId)))

def fetchAll (sqlite : Sqlite) (text : List Char) (db : CapacityDb) : Option (List ResultRow) :=
  match parseQuery (lex text) with
  | some query => some (runQuery sqlite query db)
  | none => sqlite.other text db

section Available

structure UnicodeTables where
  isDigit : Char → Bool
  toLowercase : List Char → List Char

structure GpuSpec where
  name : List Char
  memoryGb : ℕ
deriving DecidableEq

structure AvailableExecutorData where
  executorId : ExecutorId
  minerId : MinerId
  gpuSpecs : List GpuSpec
  location : String
  status : String
deriving DecidableEq

/-- The first match of `(\d+)GB`. -/
def memoryDigits (unicode : UnicodeTables) : List Char → Option (List Char)
  | [] => none
  | c :: rest =>
    if unicode.isDigit c ∧ ['G', 'B'] <+: (c :: rest).dropWhile unicode.isDigit then some ((c :: rest).takeWhile unicode.isDigit)
    else memoryDigits unicode rest

variable (unicode : UnicodeTables)

def extractGpuMemoryGb (gpuName : List Char) : ℕ :=
  ((memoryDigits unicode gpuName).bind (fun digits => parseDecimal 32 (String.ofList digits))).getD 0

def gpuSpecs (gpuNames : Option (List Char)) : List GpuSpec :=
  match gpuNames with
  | none | some [] => []
  | some names => (names.splitOn ',').map (fun name => ⟨name, extractGpuMemoryGb unicode name⟩)

def passesMemory (minGpuMemory : Option UInt32) (specs : List GpuSpec) : Bool :=
  minGpuMemory.all (fun minMemory => specs.any (fun gpu => minMemory.toNat ≤ gpu.memoryGb) || specs.isEmpty)

def passesType (gpuType : Option (List Char)) (specs : List GpuSpec) : Bool :=
  gpuType.all (fun filter =>
    specs.any (fun gpu => unicode.toLowercase filter <:+: unicode.toLowercase gpu.name) || specs.isEmpty)

def availableExecutor (minGpuMemory : Option UInt32) (gpuType : Option (List Char)) (row : ResultRow) :
    Option AvailableExecutorData :=
  let specs := gpuSpecs unicode row.gpuNames
  if passesMemory minGpuMemory specs ∧ passesType unicode gpuType specs then
    some ⟨row.executorId, row.minerId, specs, row.network.toText, row.status⟩
  else none

def getAvailableExecutors (sqlite : Sqlite) (minGpuMemory : Option UInt32) (gpuType : Option (List Char))
    (minGpuCount : Option UInt32) (location : Option LocationProfile) (db : CapacityDb) : Option (List AvailableExecutorData) :=
  (fetchAll sqlite (queryText minGpuCount location) db).map
    (fun rows => rows.filterMap (availableExecutor unicode minGpuMemory gpuType))

end Available

end Basilica.Validator
