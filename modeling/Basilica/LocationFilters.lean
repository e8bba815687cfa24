import Basilica.AvailableExecutors

/-!
A location is a filter as long as its parts have no apostrophe: then the statement is the one that is meant, with the
parts as literals.
-/

namespace Basilica.Validator

open AssocMaps ColumnText SqlText Option
open List hiding lex

variable (filters : List (LocationColumn × String))

section Reading

def filterTokens (filter : LocationColumn × String) : List Token :=
  (read .start (filterHead filter.1).toList).1 ++ [.text filter.2.toList, .symbol [')']]

def queryTokens (minGpuCount : Option UInt32) (location : Option LocationProfile) : List Token :=
  lex selectText ++ (lex baseCondition.toList ++
    ((locationFilters location).flatMap filterTokens ++ lex (groupText minGpuCount).toList))

theorem read_filterHead (column : LocationColumn) : (read .start (filterHead column).toList).2 = .text [] := by
  cases column <;> (rw [filterHead, read_literal rfl]; decide +kernel)

set_option maxRecDepth 10000 in
theorem read_selectText : (read .start selectText).2 = .start := by
  apply read_lines
  intro line hline
  fin_cases hline <;> (rw [read_literal rfl]; decide +kernel)

theorem read_baseCondition : (read .start baseCondition.toList).2 = .start := by
  rw [baseCondition, read_literal rfl]
  decide +kernel

theorem lexFrom_filterText_iff (filter : LocationColumn × String) (rest : List Char) (tokens : List Token) :
    lexFrom .start (filterText filter ++ rest) = filterTokens filter ++ tokens ↔
      Plain filter.2.toList ∧ lexFrom .start rest = tokens := by
  have hclose : lexFrom .start (')' :: rest) = .symbol [')'] :: lexFrom .start rest := by
    rw [lexFrom_cons]
    rfl
  have hhead : (')' :: rest).head? ≠ some '\'' := by simp
  have hliteral := lexFrom_literal_iff filter.2.toList hhead (.symbol [')'] :: tokens)
  unfold filterText filterTokens
  rw [append_assoc, lexFrom_append, read_filterHead, append_assoc, append_assoc, append_cancel_left_eq]
  refine hliteral.trans (and_congr_right (fun _ => ?_))
  rw [hclose]
  exact ⟨fun h => (cons.inj h).2, fun h => congrArg _ h⟩

theorem lexFrom_filters_iff (rest : List Char) :
    lexFrom .start (filters.flatMap filterText ++ rest) = filters.flatMap filterTokens ++ lexFrom .start rest ↔
      ∀ filter ∈ filters, Plain filter.2.toList := by
  induction filters with
  | nil => simp
  | cons filter filters ih =>
    rw [flatMap_cons, flatMap_cons, append_assoc, append_assoc, lexFrom_filterText_iff, ih, forall_mem_cons]

theorem lex_queryText_iff (minGpuCount : Option UInt32) (location : Option LocationProfile) :
    lex (queryText minGpuCount location) = queryTokens minGpuCount location ↔
      ∀ filter ∈ locationFilters location, Plain filter.2.toList := by
  unfold queryText queryTokens lex
  rw [lexFrom_of_closed read_selectText, lexFrom_of_closed read_baseCondition, append_cancel_left_eq, append_cancel_left_eq]
  exact lexFrom_filters_iff _ _

end Reading

section Parsing

variable (filter : LocationColumn × String)

def filterCondition : Condition Column NullColumn :=
  .equal (.lower (.column (.location filter.1))) (.lower (.literal filter.2.toList))

def notOffline : Condition Column NullColumn :=
  .either (.isNull .status) (.unequal (.column .status) (.literal "offline".toList))

variable (minGpuCount : Option UInt32)

def intendedQuery (location : Option LocationProfile) : Query where
  condition := conjoin (.isNull .rentalId) (notOffline :: (locationFilters location).map filterCondition)
  minGpuCount := minGpuCount.map UInt32.toNat

def andToken : Token := .word ['A', 'N', 'D']

def rentalTokens : List Token := lex "r.id IS NULL".toList

def statusTokens : List Token := lex "(me.status IS NULL OR me.status != 'offline')".toList

theorem lex_baseCondition : lex baseCondition.toList = rentalTokens ++ andToken :: statusTokens := by
  rw [baseCondition, rentalTokens, statusTokens, lex_literal rfl, lex_literal rfl, lex_literal rfl]
  decide +kernel

theorem rentalTokens_eq : rentalTokens = [.word ['r'], .symbol ['.'], .word ['i', 'd'], .word ['I', 'S'], .word ['N', 'U', 'L', 'L']] := by
  rw [rentalTokens, lex_literal rfl]
  decide +kernel

theorem statusTokens_eq : statusTokens = [.symbol ['('], .word ['m', 'e'], .symbol ['.'], .word "status".toList, .word ['I', 'S'],
    .word ['N', 'U', 'L', 'L'], .word ['O', 'R'], .word ['m', 'e'], .symbol ['.'], .word "status".toList, .symbol ['!', '='],
    .text "offline".toList, .symbol [')']] := by
  rw [statusTokens, lex_literal rfl]
  decide +kernel

theorem readsAs_rental : ReadsAs queryColumns .atom 8 rentalTokens (.isNull .rentalId) := by
  intro extra rest
  rw [rentalTokens_eq]
  rfl

theorem readsAs_status : ReadsAs queryColumns .atom 8 statusTokens notOffline := by
  intro extra rest
  rw [statusTokens_eq]
  rfl

def atomTokens : List Token :=
  (read .start (filterHead filter.1).toList).1.tail ++ [.text filter.2.toList, .symbol [')']]

theorem filterTokens_eq : filterTokens filter = andToken :: atomTokens filter := by
  obtain ⟨column, value⟩ := filter
  unfold filterTokens atomTokens
  cases column <;> (rw [filterHead, read_literal rfl]; rfl)

theorem readsAs_filter : ReadsAs queryColumns .atom 8 (atomTokens filter) (filterCondition filter) := by
  obtain ⟨column, value⟩ := filter
  intro extra rest
  unfold atomTokens
  cases column <;> (rw [filterHead, read_literal rfl]; rfl)

theorem length_le_atoms :
    filters.length ≤ ((filters.map (fun filter => (atomTokens filter, filterCondition filter))).flatMap
      (fun atom => andToken :: atom.1)).length := by
  induction filters with
  | nil => exact Nat.zero_le _
  | cons filter filters ih =>
    rw [map_cons, flatMap_cons, length_append, length_cons, length_cons]
    omega

theorem dropFront_append (front rest : List Token) : dropFront front (front ++ rest) = some rest := by
  rw [dropFront, if_pos (prefix_append front rest), drop_left]

def groupTokens : List Token :=
  [.word ['G', 'R', 'O', 'U', 'P'], .word ['B', 'Y'], .word ['m', 'e'], .symbol ['.'], .word "executor_id".toList]

def havingTokens : List Token :=
  [.word "HAVING".toList, .word "COUNT".toList, .symbol ['('], .word "gua".toList, .symbol ['.'], .word "gpu_uuid".toList,
    .symbol [')'], .symbol ['>', '=']]

theorem lex_group : lex " GROUP BY me.executor_id".toList = groupTokens := by
  rw [lex_literal rfl]
  decide +kernel

theorem lex_having : lex " HAVING COUNT(gua.gpu_uuid) >=".toList = havingTokens := by
  rw [lex_literal rfl]
  decide +kernel

theorem lex_groupText_none : lex (groupText none).toList = groupTokens := lex_group

theorem lex_groupText_some (minCount : UInt32) :
    lex (groupText (some minCount)).toList = groupTokens ++ (havingTokens ++ [.number (toString minCount.toNat).toList]) := by
  have htext : (groupText (some minCount)).toList =
      " GROUP BY me.executor_id HAVING COUNT(gua.gpu_uuid) >= ".toList ++ (toString minCount.toNat).toList := by
    change (toString " GROUP BY me.executor_id HAVING COUNT(gua.gpu_uuid) >= " ++ toString minCount.toNat).toList = _
    rw [String.toList_append]
    rfl
  have hread : read .start " GROUP BY me.executor_id HAVING COUNT(gua.gpu_uuid) >= ".toList =
      (groupTokens ++ havingTokens, .start) := by
    rw [read_literal rfl]
    decide +kernel
  rw [htext, lex, lexFrom_append, hread, lex_digits (toString_ne_nil _) (digits_toString _), append_assoc]

theorem parseGroup_groupText :
    parseGroup (lex (groupText minGpuCount).toList) = some (minGpuCount.map UInt32.toNat) := by
  unfold parseGroup
  cases minGpuCount with
  | none =>
    have hself : dropFront groupTokens groupTokens = some [] := by
      conv_lhs => rw [← append_nil groupTokens]
      rfl
    rw [lex_groupText_none, lex_group, hself]
    rfl
  | some minCount =>
    rw [lex_group, lex_having, lex_groupText_some, dropFront_append, bind_eq_bind, bind_some]
    have hcons : ∃ token rest, havingTokens ++ [.number (toString minCount.toNat).toList] = token :: rest := ⟨_, _, rfl⟩
    obtain ⟨token, rest, hcons⟩ := hcons
    rw [hcons]
    dsimp only
    rw [← hcons, dropFront_append, bind_some]
    dsimp only
    rw [if_pos (all_eq_true.mpr (digits_toString _)), ofDigitChars_toString]
    rfl

theorem lex_groupText_head : ∃ rest, lex (groupText minGpuCount).toList = .word ['G', 'R', 'O', 'U', 'P'] :: rest := by
  cases minGpuCount with
  | none =>
    rw [lex_groupText_none]
    exact ⟨_, rfl⟩
  | some minCount =>
    rw [lex_groupText_some]
    exact ⟨_, rfl⟩

theorem parseQuery_queryTokens (location : Option LocationProfile) :
    parseQuery (queryTokens minGpuCount location) = some (intendedQuery minGpuCount location) := by
  obtain ⟨rest, hrest⟩ := lex_groupText_head minGpuCount
  let atoms := (statusTokens, notOffline) :: (locationFilters location).map (fun filter => (atomTokens filter, filterCondition filter))
  have htokens : lex baseCondition.toList ++ ((locationFilters location).flatMap filterTokens ++ lex (groupText minGpuCount).toList) =
      rentalTokens ++ (atoms.flatMap (fun atom => andToken :: atom.1) ++ .word ['G', 'R', 'O', 'U', 'P'] :: rest) := by
    have hfilters : (locationFilters location).flatMap filterTokens =
        ((locationFilters location).map (fun filter => (atomTokens filter, filterCondition filter))).flatMap
          (fun atom => andToken :: atom.1) := by
      rw [flatMap_map]
      exact flatMap_congr (fun filter _ => filterTokens_eq filter)
    rw [lex_baseCondition, hfilters, hrest, append_assoc, flatMap_cons, append_assoc]
  have hatoms : ∀ atom ∈ atoms, ReadsAs queryColumns .atom 8 atom.1 atom.2 := by
    intro atom hatom
    rcases mem_cons.mp hatom with rfl | hatom
    · exact readsAs_status
    · obtain ⟨filter, -, rfl⟩ := List.mem_map.mp hatom
      exact readsAs_filter filter
  have hlength : atoms.length + 10 ≤
      (rentalTokens ++ (atoms.flatMap (fun atom => andToken :: atom.1) ++ .word ['G', 'R', 'O', 'U', 'P'] :: rest)).length := by
    have hrental : rentalTokens.length = 5 := by rw [rentalTokens_eq]; rfl
    have hstatus : statusTokens.length = 13 := by rw [statusTokens_eq]; rfl
    have hlocation := length_le_atoms (locationFilters location)
    rw [flatMap_cons, length_append, length_append, length_append, length_cons, length_cons,
      length_cons, length_map, hrental, hstatus]
    omega
  obtain ⟨extra, hextra⟩ := Nat.exists_eq_add_of_le hlength
  have hfuel : atoms.length + 10 + extra = atoms.length + extra + 8 + 1 + 1 := by omega
  have hand : isWord "AND" andToken = true := by decide
  have hgroup : isWord "AND" (.word ['G', 'R', 'O', 'U', 'P']) = false ∧ isWord "OR" (.word ['G', 'R', 'O', 'U', 'P']) = false := by
    decide
  have hparse := parseCondition_disjunction hgroup.2 (parseCondition_conjoin hand hgroup.1 rest readsAs_rental hatoms extra)
  unfold parseQuery queryTokens
  rw [dropFront_append, htokens, bind_eq_bind, bind_some, hextra, hfuel, hparse, bind_eq_bind,
    bind_some]
  dsimp only
  rw [← hrest, parseGroup_groupText]
  have hconditions : atoms.map Prod.snd = notOffline :: (locationFilters location).map filterCondition := by
    rw [map_cons, List.map_map]
    rfl
  rw [hconditions]
  rfl

end Parsing

variable {row : JoinedRow} {query : Query} {sqlite : Sqlite} {db : CapacityDb} {location : Option LocationProfile}

section Results

variable {minGpuCount : Option UInt32} {α : Type}

theorem none_mem_leftJoin {partners : List α} : none ∈ leftJoin partners ↔ partners = [] := by
  cases partners with
  | nil | cons a partners => simp [leftJoin]

theorem some_mem_leftJoin {partners : List α} {a : α} : some a ∈ leftJoin partners ↔ a ∈ partners := by
  cases partners with
  | nil | cons b partners => simp [leftJoin]

theorem mem_joinedRows (h : row ∈ db.joinedRows) :
    row.rental ∈ leftJoin (db.rentalsOf row.executor.minerId row.executor.executorId) ∧
      row.network ∈ leftJoin (db.networkOf row.executor.minerId row.executor.executorId) := by
  unfold CapacityDb.joinedRows at h
  simp only [mem_flatMap, List.mem_map] at h
  obtain ⟨executor, -, rental, hrental, gpu, -, network, hnetwork, rfl⟩ := h
  exact ⟨hrental, hnetwork⟩

theorem eval_intended :
    (intendedQuery minGpuCount location).condition.eval columnValue columnNull row = some true ↔
      row.rental = none ∧ row.executor.status.text ≠ "offline" ∧ ∀ filter ∈ locationFilters location,
        ∃ value, row.network.bind (fun profile => profile.value filter.1) = some value ∧
          lowerChars value.toList = lowerChars filter.2.toList := by
  have hrental : (Condition.isNull NullColumn.rentalId : Condition Column NullColumn).eval columnValue columnNull row = some true ↔
      row.rental = none := by
    rw [Condition.eval, columnNull, some.injEq, isNone_iff_eq_none]
  have hstatus : notOffline.eval columnValue columnNull row = some true ↔ row.executor.status.text ≠ "offline" := by
    have hfalse : columnNull .status row = false := rfl
    simp only [notOffline, Condition.eval, Operand.value, orThree_eq_true, hfalse, columnValue, compareThree, map_some,
      some.injEq, Bool.false_eq_true, false_or, Bool.not_eq_true', decide_eq_false_iff_not, String.toList_inj, ne_eq]
  have hfilter : ∀ filter : LocationColumn × String, (filterCondition filter).eval columnValue columnNull row = some true ↔
      ∃ value, row.network.bind (fun profile => profile.value filter.1) = some value ∧
        lowerChars value.toList = lowerChars filter.2.toList := by
    intro filter
    simp only [filterCondition, Condition.eval, Operand.value, columnValue, compareThree_eq_true, Option.map_map,
      map_eq_some_iff, some.injEq, map_some, Function.comp_apply]
    constructor
    · rintro ⟨chars, ⟨value, hvalue, rfl⟩, hchars⟩
      exact ⟨value, hvalue, hchars.symm⟩
    · rintro ⟨value, hvalue, hchars⟩
      exact ⟨_, ⟨value, hvalue, rfl⟩, hchars.symm⟩
  rw [intendedQuery, eval_conjoin, forall_mem_cons, forall_mem_cons, List.forall_mem_map, hrental, hstatus]
  simp only [hfilter]

theorem mem_runQuery {result : ResultRow} (h : result ∈ runQuery sqlite query db) :
    ∃ row ∈ selected query.condition db, result.executorId = row.executor.executorId ∧ result.minerId = row.executor.minerId := by
  unfold runQuery at h
  obtain ⟨executorId, -, hgroup⟩ := mem_filterMap.mp h
  unfold groupRow at hgroup
  split at hgroup
  · cases hgroup
  · rename_i first rest hrows
    split_ifs at hgroup
    cases hgroup
    have hmem := sqlite.bare_mem first rest
    rw [← hrows] at hmem
    exact ⟨_, (mem_filter.mp hmem).1, rfl, rfl⟩

theorem exists_mem_runQuery (hcount : query.minGpuCount = none) (h : row ∈ selected query.condition db) :
    ∃ result ∈ runQuery sqlite query db, result.executorId = row.executor.executorId := by
  let rows := (selected query.condition db).filter (fun other => other.executor.executorId = row.executor.executorId)
  have hrow : row ∈ rows := mem_filter.mpr ⟨h, decide_eq_true rfl⟩
  obtain ⟨first, rest, hrows⟩ := exists_cons_of_ne_nil (ne_nil_of_mem hrow)
  have hbare : (sqlite.bare first rest).executor.executorId = row.executor.executorId := by
    have hmem := sqlite.bare_mem first rest
    rw [← hrows] at hmem
    exact of_decide_eq_true (mem_filter.mp hmem).2
  refine ⟨resultRow (sqlite.bare first rest) (first :: rest), ?_, hbare⟩
  unfold runQuery
  refine mem_filterMap.mpr ⟨row.executor.executorId, mem_dedup.mpr (mem_map_of_mem h), ?_⟩
  change groupRow sqlite query.minGpuCount rows = _
  rw [hrows, hcount]
  unfold groupRow
  refine if_pos ?_
  intro minCount hmin
  cases hmin

end Results

section Filters

def Unrented (db : CapacityDb) (executor : AvailableExecutorData) : Prop :=
  ∀ rental ∈ db.rentals, rental.executorId = executor.executorId → rental.minerId = executor.minerId → ¬ rental.state.Rented

def Located (db : CapacityDb) (location : Option LocationProfile) (executor : AvailableExecutorData) : Prop :=
  ∀ filter ∈ locationFilters location, ∃ profile ∈ db.networkOf executor.minerId executor.executorId,
    ∃ value, profile.value filter.1 = some value ∧ lowerChars value.toList = lowerChars filter.2.toList

def ActsAsData (unicode : UnicodeTables) (sqlite : Sqlite) (location : Option LocationProfile) : Prop :=
  (∀ minGpuCount, lex (queryText minGpuCount location) = queryTokens minGpuCount location) ∧
    ∀ minGpuMemory gpuType minGpuCount db executors,
      getAvailableExecutors unicode sqlite minGpuMemory gpuType minGpuCount location db = some executors →
        ∀ executor ∈ executors, Unrented db executor ∧ Located db location executor ∧
          ∃ all, getAvailableExecutors unicode sqlite none none none none db = some all ∧
            executor.executorId ∈ all.map AvailableExecutorData.executorId

theorem fetchAll_of_parseQuery {text : List Char} (h : parseQuery (lex text) = some query) :
    fetchAll sqlite text db = some (runQuery sqlite query db) := by
  rw [fetchAll, h]

theorem fetchAll_of_plain (h : ∀ filter ∈ locationFilters location, Plain filter.2.toList) (minGpuCount : Option UInt32) :
    fetchAll sqlite (queryText minGpuCount location) db = some (runQuery sqlite (intendedQuery minGpuCount location) db) := by
  apply fetchAll_of_parseQuery
  rw [(lex_queryText_iff minGpuCount location).mpr h]
  exact parseQuery_queryTokens minGpuCount location

theorem getAvailableExecutors_of_plain (unicode : UnicodeTables) (h : ∀ filter ∈ locationFilters location, Plain filter.2.toList)
    (minGpuMemory : Option UInt32) (gpuType : Option (List Char)) (minGpuCount : Option UInt32) :
    getAvailableExecutors unicode sqlite minGpuMemory gpuType minGpuCount location db =
      some ((runQuery sqlite (intendedQuery minGpuCount location) db).filterMap (availableExecutor unicode minGpuMemory gpuType)) := by
  rw [getAvailableExecutors, fetchAll_of_plain h, map_some]

theorem availableExecutor_none (unicode : UnicodeTables) (row : ResultRow) : availableExecutor unicode none none row =
      some ⟨row.executorId, row.minerId, gpuSpecs unicode row.gpuNames, row.network.toText, row.status⟩ := by
  unfold availableExecutor
  rw [if_pos ⟨rfl, rfl⟩]

theorem selected_spec {minGpuCount : Option UInt32}
    (h : row ∈ selected (intendedQuery minGpuCount location).condition db) :
    db.rentalsOf row.executor.minerId row.executor.executorId = [] ∧
      (∀ filter ∈ locationFilters location, ∃ profile ∈ db.networkOf row.executor.minerId row.executor.executorId,
        ∃ value, profile.value filter.1 = some value ∧ lowerChars value.toList = lowerChars filter.2.toList) ∧
      row ∈ selected (intendedQuery none none).condition db := by
  obtain ⟨hrow, heval⟩ := mem_filter.mp h
  obtain ⟨hrental, hstatus, hfilters⟩ := eval_intended.mp (of_decide_eq_true heval)
  obtain ⟨hjoined, hnetwork⟩ := mem_joinedRows hrow
  refine ⟨none_mem_leftJoin.mp (hrental ▸ hjoined), ?_, ?_⟩
  · intro filter hfilter
    obtain ⟨value, hvalue, hlower⟩ := hfilters filter hfilter
    obtain ⟨profile, hprofile, hvalue⟩ := bind_eq_some_iff.mp hvalue
    rw [hprofile] at hnetwork
    exact ⟨profile, some_mem_leftJoin.mp hnetwork, value, hvalue, hlower⟩
  · refine mem_filter.mpr ⟨hrow, decide_eq_true (eval_intended.mpr ⟨hrental, hstatus, ?_⟩)⟩
    intro filter hfilter
    cases hfilter

theorem executor_listed_iff (unicode : UnicodeTables) (sqlite : Sqlite) (db : CapacityDb) (executorId : ExecutorId) :
    (∃ all, getAvailableExecutors unicode sqlite none none none none db = some all ∧
      executorId ∈ all.map AvailableExecutorData.executorId) ↔
    ∃ executor ∈ db.executors.values, executor.executorId = executorId ∧ executor.minerId ∈ db.miners.keys ∧
      executor.status.text ≠ "offline" ∧ db.rentalsOf executor.minerId executorId = [] := by
  have hplain : ∀ filter ∈ locationFilters none, Plain filter.2.toList := fun _ hfilter => absurd hfilter not_mem_nil
  have hpartner {α : Type} (partners : List α) : ∃ partner, partner ∈ leftJoin partners := by
    cases partners <;> exact ⟨_, mem_cons_self⟩
  rw [getAvailableExecutors_of_plain unicode hplain]
  constructor
  · rintro ⟨_, ⟨⟩, hmem⟩
    obtain ⟨data, hdata, rfl⟩ := List.mem_map.mp hmem
    obtain ⟨result, hresult, hsome⟩ := mem_filterMap.mp hdata
    rw [availableExecutor_none] at hsome
    cases hsome
    obtain ⟨row, hrow, hid, -⟩ := mem_runQuery hresult
    obtain ⟨hjoined, heval⟩ := mem_filter.mp hrow
    have hstatus := (eval_intended.mp (of_decide_eq_true heval)).2.1
    have hfree := (selected_spec hrow).1
    simp only [CapacityDb.joinedRows, mem_flatMap, List.mem_map] at hjoined
    obtain ⟨executor, hexecutor, _, _, _, _, _, _, rfl⟩ := hjoined
    obtain ⟨hvalues, hminer⟩ := mem_filter.mp hexecutor
    exact ⟨executor, hvalues, hid.symm, of_decide_eq_true hminer, hstatus, hid ▸ hfree⟩
  · rintro ⟨executor, hvalues, rfl, hminer, hstatus, hfree⟩
    obtain ⟨gpu, hgpu⟩ := hpartner (db.gpusOf executor.minerId executor.executorId)
    obtain ⟨network, hnetwork⟩ := hpartner (db.networkOf executor.minerId executor.executorId)
    have hrow : ⟨executor, none, gpu, network⟩ ∈ selected (intendedQuery none none).condition db := by
      refine mem_filter.mpr ⟨?_, decide_eq_true (eval_intended.mpr ⟨rfl, hstatus, fun _ hfilter => absurd hfilter not_mem_nil⟩)⟩
      simp only [CapacityDb.joinedRows, mem_flatMap, List.mem_map]
      exact ⟨executor, mem_filter.mpr ⟨hvalues, decide_eq_true hminer⟩, none, none_mem_leftJoin.mpr hfree, gpu, hgpu, network, hnetwork, rfl⟩
    obtain ⟨result, hresult, hid⟩ := exists_mem_runQuery rfl hrow
    exact ⟨_, rfl, List.mem_map.mpr ⟨_, mem_filterMap.mpr ⟨result, hresult, availableExecutor_none unicode result⟩, hid⟩⟩

theorem actsAsData_iff (unicode : UnicodeTables) (sqlite : Sqlite) (location : Option LocationProfile) :
    ActsAsData unicode sqlite location ↔ ∀ filter ∈ locationFilters location, Plain filter.2.toList := by
  constructor
  · rintro ⟨hread, -⟩
    exact (lex_queryText_iff none location).mp (hread none)
  · intro hplain
    refine ⟨fun minGpuCount => (lex_queryText_iff minGpuCount location).mpr hplain, ?_⟩
    intro minGpuMemory gpuType minGpuCount db executors h executor hexecutor
    rw [getAvailableExecutors_of_plain unicode hplain] at h
    cases h
    obtain ⟨result, hresult, hdata⟩ := mem_filterMap.mp hexecutor
    unfold availableExecutor at hdata
    dsimp only at hdata
    split_ifs at hdata
    cases hdata
    obtain ⟨row, hrow, hid, hminer⟩ := mem_runQuery hresult
    obtain ⟨hrentals, hlocated, hall⟩ := selected_spec hrow
    refine ⟨?_, ?_, ?_⟩
    · intro rental hrental hexecutorId hminerId hrented
      have hmem : rental ∈ db.rentalsOf row.executor.minerId row.executor.executorId :=
        mem_filter.mpr ⟨hrental, decide_eq_true ⟨hexecutorId.trans hid, hminerId.trans hminer, hrented⟩⟩
      rw [hrentals] at hmem
      cases hmem
    · intro filter hfilter
      rw [hid, hminer]
      exact hlocated filter hfilter
    · obtain ⟨found, hfound, hfoundId⟩ : ∃ result ∈ runQuery sqlite (intendedQuery none none) db,
          result.executorId = row.executor.executorId := exists_mem_runQuery rfl hall
      have hplain : ∀ filter ∈ locationFilters none, Plain filter.2.toList := fun filter hfilter => absurd hfilter not_mem_nil
      refine ⟨_, getAvailableExecutors_of_plain unicode hplain none none none, ?_⟩
      refine List.mem_map.mpr ⟨_, mem_filterMap.mpr ⟨found, hfound, availableExecutor_none unicode found⟩, ?_⟩
      exact hfoundId.trans hid.symm

def asciiTables : UnicodeTables := ⟨Char.isDigit, List.map Char.toLower⟩

def firstRow : Sqlite := ⟨fun first _ => first, fun _ _ => List.mem_cons_self, fun _ _ => none⟩

def rentedDb : CapacityDb where
  miners := AssocMap.empty.insert "miner_1" ⟨"alice", "http://10.0.0.1:8080"⟩
  executors := AssocMap.empty.insert "miner_1_e" ⟨"miner_1", "e", "a:1", 0, .online, none, .dateTime 0⟩
  gpus := AssocMap.empty
  logs := []
  rentals := [⟨"e", "miner_1", .active⟩]
  networkProfiles := AssocMap.empty.insert (1, "e") ⟨some "Berlin", none, some "DE"⟩

def openingLocation : LocationProfile := .fromStr "x') OR ('1'='1"

def openedCondition : Condition Column NullColumn :=
  .either (conjoin (.isNull .rentalId) [notOffline, filterCondition (.city, "x")]) (.equal (.literal ['1']) (.literal ['1']))

theorem parse_openingLocation : parseQuery (lex (queryText none (some openingLocation))) = some ⟨openedCondition, none⟩ := by
  have hfilters : locationFilters (some openingLocation) = [(.city, "x') OR ('1'='1")] := by
    rw [openingLocation, LocationProfile.fromStr, toList_literal rfl]
    decide +kernel
  have hvalue : "x') OR ('1'='1".toList ++ "')".toList = "x') OR ('1'='1')".toList := by decide +kernel
  have htokens : lexFrom (.text []) ("x') OR ('1'='1')".toList ++ (groupText none).toList) =
      [.text ['x'], .symbol [')'], .word ['O', 'R'], .symbol ['('], .text ['1'], .symbol ['='], .text ['1'], .symbol [')']] ++
        groupTokens := by
    rw [lexFrom_of_closed (by rw [toList_literal rfl]; decide +kernel), toList_literal rfl]
    exact congrArg _ lex_groupText_none
  unfold parseQuery queryText lex
  rw [lexFrom_of_closed read_selectText, dropFront_append, bind_eq_bind, bind_some,
    lexFrom_of_closed read_baseCondition, hfilters, flatMap_singleton, filterText, append_assoc, lexFrom_append,
    read_filterHead, hvalue, htokens, filterHead, read_literal rfl]
  have hbase : lexFrom .start baseCondition.toList = rentalTokens ++ andToken :: statusTokens := lex_baseCondition
  rw [hbase, rentalTokens_eq, statusTokens_eq]
  decide +kernel

theorem rented_executor_listed : ¬ Unrented rentedDb ⟨"e", "miner_1", [], "Berlin/Unknown/DE", "online"⟩ ∧
    getAvailableExecutors asciiTables firstRow none none none (some openingLocation) rentedDb =
      some [⟨"e", "miner_1", [], "Berlin/Unknown/DE", "online"⟩] ∧
    getAvailableExecutors asciiTables firstRow none none none none rentedDb = some [] := by
  refine ⟨?_, ?_, ?_⟩
  · intro h
    exact h ⟨"e", "miner_1", .active⟩ mem_cons_self rfl rfl (Or.inl rfl)
  · unfold getAvailableExecutors
    rw [fetchAll_of_parseQuery parse_openingLocation]
    decide +kernel
  · have hplain : ∀ filter ∈ locationFilters none, Plain filter.2.toList := fun filter hfilter => absurd hfilter not_mem_nil
    rw [getAvailableExecutors_of_plain asciiTables hplain]
    decide +kernel

end Filters

end Basilica.Validator
