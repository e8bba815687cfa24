import Mathlib

/-!
The text of an SQL statement, as SQLite reads it: the tokens, and the conditions that are made of comparisons with AND
and OR, with their three-valued meaning.
-/

namespace Basilica.SqlText

open List Option

inductive Token
  | word (chars : List Char)
  | quotedWord (chars : List Char)
  | text (chars : List Char)
  | number (chars : List Char)
  | symbol (chars : List Char)
  | illegal
deriving DecidableEq

inductive Mode
  | start
  | word (chars : List Char)
  | number (chars : List Char)
  | text (chars : List Char)
  | textQuote (chars : List Char)
  | quotedWord (quote : Char) (chars : List Char)
  | quotedWordQuote (quote : Char) (chars : List Char)
  | bracket (chars : List Char)
  | operator (first : Char)
  | lineComment
  | blockComment
  | blockCommentStar
  | ended
deriving DecidableEq

namespace Mode

def isSpace (c : Char) : Bool := c ∈ [' ', '\t', '\n', '\x0c', '\r']

def isWordStart (c : Char) : Bool := c.isAlpha || c = '_' || 128 ≤ c.toNat

def isWordChar (c : Char) : Bool := isWordStart c || c.isDigit || c = '$'

def isOperatorStart (c : Char) : Bool := c ∈ ['-', '/', '=', '<', '>', '!', '|']

def enter (c : Char) : List Token × Mode :=
  if c = '\x00' then ([], ended)
  else if isSpace c then ([], start)
  else if isWordStart c then ([], word [c])
  else if c.isDigit then ([], number [c])
  else if c = '\'' then ([], text [])
  else if c = '\x22' ∨ c = '\x60' then ([], quotedWord c [])
  else if c = '[' then ([], bracket [])
  else if isOperatorStart c then ([], operator c)
  else ([.symbol [c]], start)

def finish : Mode → List Token
  | start | lineComment | blockComment | blockCommentStar | ended => []
  | word chars => [.word chars.reverse]
  | number chars => [.number chars.reverse]
  | textQuote chars => [.text chars.reverse]
  | quotedWordQuote _ chars => [.quotedWord chars.reverse]
  | text _ | quotedWord _ _ | bracket _ => [.illegal]
  | operator first => [.symbol [first]]

def leave (mode : Mode) (c : Char) : List Token × Mode := (mode.finish ++ (enter c).1, (enter c).2)

def second (first c : Char) : Option (List Token × Mode) :=
  match first, c with
  | '-', '-' => some ([], lineComment)
  | '/', '*' => some ([], blockComment)
  | '-', '>' | '=', '=' | '<', '=' | '<', '>' | '<', '<' | '>', '=' | '>', '>' | '!', '=' | '|', '|' =>
    some ([.symbol [first, c]], start)
  | _, _ => none

def step (mode : Mode) (c : Char) : List Token × Mode :=
  match mode with
  | start => enter c
  | word chars => if isWordChar c then ([], word (c :: chars)) else mode.leave c
  | number chars => if isWordChar c || c = '.' then ([], number (c :: chars)) else mode.leave c
  | text chars =>
    if c = '\'' then ([], textQuote chars) else if c = '\x00' then (mode.finish, ended) else ([], text (c :: chars))
  | textQuote chars => if c = '\'' then ([], text ('\'' :: chars)) else mode.leave c
  | quotedWord quote chars =>
    if c = quote then ([], quotedWordQuote quote chars)
    else if c = '\x00' then (mode.finish, ended)
    else ([], quotedWord quote (c :: chars))
  | quotedWordQuote quote chars => if c = quote then ([], quotedWord quote (quote :: chars)) else mode.leave c
  | bracket chars =>
    if c = ']' then ([.quotedWord chars.reverse], start)
    else if c = '\x00' then (mode.finish, ended)
    else ([], bracket (c :: chars))
  | operator first => (second first c).getD (mode.leave c)
  | lineComment => if c = '\n' then ([], start) else if c = '\x00' then ([], ended) else ([], lineComment)
  | blockComment => if c = '*' then ([], blockCommentStar) else if c = '\x00' then ([], ended) else ([], blockComment)
  | blockCommentStar =>
    if c = '/' then ([], start)
    else if c = '*' then ([], blockCommentStar)
    else if c = '\x00' then ([], ended)
    else ([], blockComment)
  | ended => ([], ended)

end Mode

def read : Mode → List Char → List Token × Mode
  | mode, [] => ([], mode)
  | mode, c :: chars =>
    let next := mode.step c
    let rest := read next.2 chars
    (next.1 ++ rest.1, rest.2)

def lexFrom (mode : Mode) (chars : List Char) : List Token := (read mode chars).1 ++ (read mode chars).2.finish

def lex (chars : List Char) : List Token := lexFrom .start chars

variable (mode : Mode)

theorem lexFrom_cons (c : Char) (chars : List Char) :
    lexFrom mode (c :: chars) = (mode.step c).1 ++ lexFrom (mode.step c).2 chars := by
  exact append_assoc _ _ _

variable {chars : List Char} {s : String}

section

variable (h : s = String.ofList chars)

include h

theorem toList_literal : s.toList = chars := by
  rw [h, String.toList_ofList]

theorem read_literal (mode : Mode) : read mode s.toList = read mode chars := by
  rw [toList_literal h]

theorem lex_literal : lex s.toList = lex chars := by
  rw [toList_literal h]

end

theorem read_append (chars rest : List Char) :
    (read mode (chars ++ rest)).2 = (read (read mode chars).2 rest).2 := by
  induction chars generalizing mode with
  | nil => rfl
  | cons c chars ih => exact ih _

theorem read_lines {lines : List String} (h : ∀ line ∈ lines, (read .start line.toList).2 = .start) :
    (read .start (lines.flatMap String.toList)).2 = .start := by
  induction lines with
  | nil => rfl
  | cons line lines ih =>
    rw [flatMap_cons, read_append, h line mem_cons_self]
    exact ih (fun other hother => h other (mem_cons_of_mem line hother))

theorem lexFrom_append (chars rest : List Char) :
    lexFrom mode (chars ++ rest) = (read mode chars).1 ++ lexFrom (read mode chars).2 rest := by
  induction chars generalizing mode with
  | nil => rfl
  | cons c chars ih =>
    rw [cons_append, lexFrom_cons, ih, ← append_assoc]
    rfl

theorem lexFrom_of_closed {mode : Mode} (h : (read mode chars).2 = .start) (rest : List Char) :
    lexFrom mode (chars ++ rest) = lexFrom mode chars ++ lexFrom .start rest := by
  have hlex : lexFrom mode chars = (read mode chars).1 := by
    rw [lexFrom, h]
    exact append_nil _
  rw [lexFrom_append, h, hlex]

section Literals

def Plain (chars : List Char) : Prop := ∀ c ∈ chars, c ≠ '\'' ∧ c ≠ '\x00'

instance : DecidablePred Plain := fun chars => inferInstanceAs (Decidable (∀ c ∈ chars, c ≠ '\'' ∧ c ≠ '\x00'))

theorem lexFrom_text_char {c : Char} (hquote : c ≠ '\'') (hend : c ≠ '\x00') (acc rest : List Char) :
    lexFrom (.text acc) (c :: rest) = lexFrom (.text (c :: acc)) rest := by
  rw [lexFrom_cons]
  unfold Mode.step
  dsimp only
  rw [if_neg hquote, if_neg hend]
  rfl

variable (acc rest : List Char)

theorem lexFrom_text_end : ∃ tokens, lexFrom (.text acc) ('\x00' :: rest) = .illegal :: tokens := by
  rw [lexFrom_cons]
  exact ⟨_, rfl⟩

theorem lexFrom_text_quote : lexFrom (.text acc) ('\'' :: rest) = lexFrom (.textQuote acc) rest := by
  rw [lexFrom_cons]
  rfl

theorem lexFrom_textQuote_quote :
    lexFrom (.textQuote acc) ('\'' :: rest) = lexFrom (.text ('\'' :: acc)) rest := by
  rw [lexFrom_cons]
  rfl

variable {rest : List Char}

theorem lexFrom_textQuote (h : rest.head? ≠ some '\'') (acc : List Char) :
    lexFrom (.textQuote acc) rest = .text acc.reverse :: lexFrom .start rest := by
  cases rest with
  | nil => rfl
  | cons c rest =>
    have hc : c ≠ '\'' := by
      rintro rfl
      exact h rfl
    rw [lexFrom_cons, lexFrom_cons]
    unfold Mode.step
    dsimp only
    rw [if_neg hc]
    rfl

theorem prefix_of_lexFrom_text (chars acc : List Char) {value : List Char} {tokens : List Token}
    (h : lexFrom (.text acc) chars = .text value :: tokens) : acc.reverse <+: value := by
  have hnext (c : Char) : acc.reverse <+: (c :: acc).reverse := by
    rw [reverse_cons]
    exact prefix_append _ _
  match chars with
  | [] => cases h
  | c :: rest =>
    by_cases hquote : c = '\''
    · subst hquote
      rw [lexFrom_text_quote] at h
      match rest with
      | [] =>
        cases h
        exact prefix_rfl
      | d :: rest =>
        by_cases hdouble : d = '\''
        · subst hdouble
          rw [lexFrom_textQuote_quote] at h
          exact (hnext _).trans (prefix_of_lexFrom_text rest _ h)
        · have hhead : (d :: rest).head? ≠ some '\'' := fun heq => hdouble (some.inj heq)
          rw [lexFrom_textQuote hhead] at h
          cases h
          exact prefix_rfl
    · by_cases hend : c = '\x00'
      · subst hend
        obtain ⟨others, hothers⟩ := lexFrom_text_end acc rest
        rw [hothers] at h
        cases h
      · rw [lexFrom_text_char hquote hend] at h
        exact (hnext c).trans (prefix_of_lexFrom_text rest _ h)

theorem lexFrom_text_ne (hrest : rest.head? ≠ some '\'') (n : ℕ) (s acc : List Char) (tokens : List Token)
    (h : 0 < n ∨ ¬ Plain s) :
    lexFrom (.text acc) (s ++ '\'' :: rest) ≠ .text (acc.reverse ++ (List.replicate n '\'' ++ s)) :: tokens := by
  match s with
  | [] =>
    have hn : 0 < n := h.resolve_right (fun hs => hs (fun c hc => absurd hc not_mem_nil))
    intro heq
    rw [nil_append, lexFrom_text_quote, lexFrom_textQuote hrest] at heq
    have hlength := congrArg length (Token.text.inj (List.cons.inj heq).1)
    simp only [length_append, length_replicate, length_nil] at hlength
    omega
  | c :: s =>
    by_cases hquote : c = '\''
    · subst hquote
      rw [cons_append, lexFrom_text_quote]
      match s with
      | [] =>
        -- the apostrophe and the closing one are read as one, and the literal goes on
        rw [nil_append, lexFrom_textQuote_quote]
        cases rest with
        | nil =>
          intro heq
          cases heq
        | cons d rest =>
          have hd : d ≠ '\'' := fun heq => hrest (congrArg some heq)
          by_cases hend : d = '\x00'
          · subst hend
            obtain ⟨others, hothers⟩ := lexFrom_text_end ('\'' :: acc) rest
            rw [hothers]
            intro heq
            cases heq
          · rw [lexFrom_text_char hd hend]
            intro heq
            have hchars := prefix_of_lexFrom_text _ _ heq
            rw [reverse_cons, reverse_cons, append_assoc, prefix_append_right_inj, ← replicate_succ'] at hchars
            have hmem : d ∈ replicate (n + 1) '\'' := hchars.subset (by simp)
            exact hd (eq_of_mem_replicate hmem)
      | d :: s =>
        by_cases hdouble : d = '\''
        · subst hdouble
          rw [cons_append, lexFrom_textQuote_quote]
          have hnext := lexFrom_text_ne hrest (n + 1) s ('\'' :: acc) tokens (Or.inl (Nat.succ_pos n))
          have htarget : ('\'' :: acc).reverse ++ (replicate (n + 1) '\'' ++ s) =
              acc.reverse ++ (replicate n '\'' ++ '\'' :: '\'' :: s) := by
            rw [reverse_cons, append_assoc, replicate_succ', append_assoc, ← append_assoc ['\''],
              singleton_append, ← replicate_succ, replicate_succ', append_assoc]
            rfl
          rw [htarget] at hnext
          exact hnext
        · have hhead : (d :: s ++ '\'' :: rest).head? ≠ some '\'' := fun heq => hdouble (some.inj heq)
          rw [lexFrom_textQuote hhead]
          intro heq
          have hlength := congrArg length (Token.text.inj (List.cons.inj heq).1)
          simp only [length_append, length_replicate, length_cons] at hlength
          omega
    · by_cases hend : c = '\x00'
      · subst hend
        obtain ⟨others, hothers⟩ := lexFrom_text_end acc (s ++ '\'' :: rest)
        rw [cons_append, hothers]
        intro heq
        cases heq
      · rw [cons_append, lexFrom_text_char hquote hend]
        rcases Nat.eq_zero_or_pos n with rfl | hn
        · have hs : ¬ Plain s := by
            intro hs
            refine (h.resolve_left (lt_irrefl 0)) ?_
            intro d hd
            rcases mem_cons.mp hd with rfl | hd
            · exact ⟨hquote, hend⟩
            · exact hs d hd
          have hnext := lexFrom_text_ne hrest 0 s (c :: acc) tokens (Or.inr hs)
          rw [reverse_cons, append_assoc] at hnext
          exact hnext
        · intro heq
          have hchars := prefix_of_lexFrom_text _ _ heq
          obtain ⟨m, rfl⟩ : ∃ m, n = m + 1 := ⟨n - 1, by omega⟩
          rw [reverse_cons, prefix_append_right_inj] at hchars
          exact hquote (cons_prefix_cons.mp hchars).1

theorem lexFrom_text_plain {s : List Char} (h : Plain s) (hrest : rest.head? ≠ some '\'') (acc : List Char) :
    lexFrom (.text acc) (s ++ '\'' :: rest) = .text (acc.reverse ++ s) :: lexFrom .start rest := by
  induction s generalizing acc with
  | nil => rw [nil_append, lexFrom_text_quote, lexFrom_textQuote hrest, append_nil]
  | cons c s ih =>
    obtain ⟨hquote, hend⟩ := h c mem_cons_self
    rw [cons_append, lexFrom_text_char hquote hend, ih (fun d hd => h d (mem_cons_of_mem c hd)), reverse_cons,
      append_assoc, singleton_append]

theorem lexFrom_literal_iff (s : List Char) (hrest : rest.head? ≠ some '\'') (tokens : List Token) :
    lexFrom (.text []) (s ++ '\'' :: rest) = .text s :: tokens ↔ Plain s ∧ lexFrom .start rest = tokens := by
  constructor
  · intro h
    have hplain : Plain s := by
      by_contra hs
      exact lexFrom_text_ne hrest 0 s [] tokens (Or.inr hs) h
    rw [lexFrom_text_plain hplain hrest] at h
    exact ⟨hplain, (List.cons.inj h).2⟩
  · rintro ⟨hplain, rfl⟩
    exact lexFrom_text_plain hplain hrest []

end Literals

section Numbers

theorem enter_digit {c : Char} (h : c.isDigit = true) : Mode.enter c = ([], .number [c]) := by
  have hbounds : 48 ≤ c.toNat ∧ c.toNat ≤ 57 := by
    simpa [Char.isDigit, UInt32.le_iff_toNat_le] using h
  have hspace : Mode.isSpace c = false := by
    apply decide_eq_false
    intro hmem
    fin_cases hmem <;> cases h
  have hword : Mode.isWordStart c = false := by
    have halpha : c.isAlpha = false := by
      by_contra halpha
      have hletter : (65 ≤ c.toNat → 90 < c.toNat) → 97 ≤ c.toNat ∧ c.toNat ≤ 122 := by
        simpa [Char.isAlpha, Char.isUpper, Char.isLower, UInt32.le_iff_toNat_le] using halpha
      omega
    have hunderscore : c ≠ '_' := by
      rintro rfl
      cases h
    simp [Mode.isWordStart, halpha, hunderscore]
    omega
  have hend : c ≠ '\x00' := by
    rintro rfl
    cases h
  unfold Mode.enter
  rw [if_neg hend, hspace, hword, h]
  rfl

theorem lexFrom_number (h : ∀ c ∈ chars, c.isDigit = true) (acc : List Char) :
    lexFrom (.number acc) chars = [.number (acc.reverse ++ chars)] := by
  induction chars generalizing acc with
  | nil => rw [append_nil]; rfl
  | cons c chars ih =>
    have hword : Mode.isWordChar c = true := by
      simp [Mode.isWordChar, h c mem_cons_self]
    rw [lexFrom_cons]
    unfold Mode.step
    dsimp only
    rw [hword, Bool.true_or, if_pos rfl, ih (fun d hd => h d (mem_cons_of_mem c hd)), reverse_cons, append_assoc]
    rfl

theorem lex_digits (hne : chars ≠ []) (h : ∀ c ∈ chars, c.isDigit = true) : lexFrom .start chars = [.number chars] := by
  obtain ⟨c, rest, rfl⟩ := exists_cons_of_ne_nil hne
  rw [lexFrom_cons]
  change (Mode.enter c).1 ++ lexFrom (Mode.enter c).2 rest = _
  rw [enter_digit (h c mem_cons_self)]
  exact lexFrom_number (fun d hd => h d (mem_cons_of_mem c hd)) [c]

end Numbers

section Conditions

variable {κ ν ρ : Type}

inductive Operand (κ : Type)
  | column (name : κ)
  | literal (chars : List Char)
  | lower (operand : Operand κ)
deriving DecidableEq

/-- `κ` are the columns that are compared, `ν` those that are tested for null. -/
inductive Condition (κ ν : Type)
  | isNull (column : ν)
  | equal (a b : Operand κ)
  | unequal (a b : Operand κ)
  | both (a b : Condition κ ν)
  | either (a b : Condition κ ν)
deriving DecidableEq

/-- `LOWER` changes ASCII letters only. -/
def lowerChars (chars : List Char) : List Char := chars.map Char.toLower

def Operand.value (value : κ → ρ → Option (List Char)) (row : ρ) : Operand κ → Option (List Char)
  | column name => value name row
  | literal chars => some chars
  | lower operand => (operand.value value row).map lowerChars

def andThree : Option Bool → Option Bool → Option Bool
  | some false, _ | _, some false => some false
  | some true, some true => some true
  | _, _ => none

def orThree : Option Bool → Option Bool → Option Bool
  | some true, _ | _, some true => some true
  | some false, some false => some false
  | _, _ => none

def compareThree (a b : Option (List Char)) : Option Bool :=
  match a, b with
  | some a, some b => some (a = b)
  | _, _ => none

def Condition.eval (value : κ → ρ → Option (List Char)) (null : ν → ρ → Bool) (row : ρ) : Condition κ ν → Option Bool
  | isNull column => some (null column row)
  | equal a b => compareThree (a.value value row) (b.value value row)
  | unequal a b => (compareThree (a.value value row) (b.value value row)).map Bool.not
  | both a b => andThree (a.eval value null row) (b.eval value null row)
  | either a b => orThree (a.eval value null row) (b.eval value null row)

variable {a b : Option Bool}

theorem andThree_eq_true : andThree a b = some true ↔ a = some true ∧ b = some true := by
  rcases a with _ | _ | _ <;> rcases b with _ | _ | _ <;> decide

theorem orThree_eq_true : orThree a b = some true ↔ a = some true ∨ b = some true := by
  rcases a with _ | _ | _ <;> rcases b with _ | _ | _ <;> decide

theorem compareThree_eq_true {a b : Option (List Char)} : compareThree a b = some true ↔ ∃ chars, a = some chars ∧ b = some chars := by
  unfold compareThree
  split
  · simp [eq_comm]
  · rename_i hnone
    refine iff_of_false (some_ne_none true).symm ?_
    rintro ⟨chars, ha, hb⟩
    exact hnone chars chars ha hb

def isWord (name : String) : Token → Bool
  | .word chars => chars.map Char.toUpper = name.toList
  | _ => false

structure Columns (κ ν : Type) where
  compared : String → String → Option κ
  tested : String → String → Option ν

def nameOf : Token → Option String
  | .word chars => some (String.ofList (chars.map Char.toUpper))
  | _ => none

def dotted (lookup : String → String → Option κ) : List Token → Option (κ × List Token)
  | table :: .symbol ['.'] :: column :: rest => do
    let table ← nameOf table
    let column ← nameOf column
    return (← lookup table column, rest)
  | _ => none

def parseOperand (columns : Columns κ ν) : ℕ → List Token → Option (Operand κ × List Token)
  | 0, _ => none
  | fuel + 1, tokens =>
    match tokens with
    | .text chars :: rest => some (.literal chars, rest)
    | first :: .symbol ['('] :: rest =>
      if isWord "LOWER" first then
        match parseOperand columns fuel rest with
        | some (operand, .symbol [')'] :: rest) => some (.lower operand, rest)
        | _ => none
      else none
    | _ => (dotted columns.compared tokens).map (fun q => (.column q.1, q.2))

def parseComparison (columns : Columns κ ν) (fuel : ℕ) (tokens : List Token) : Option (Condition κ ν × List Token) :=
  match parseOperand columns fuel tokens with
  | some (a, .symbol ['='] :: rest) => (parseOperand columns fuel rest).map (fun q => (.equal a q.1, q.2))
  | some (a, .symbol ['!', '='] :: rest) => (parseOperand columns fuel rest).map (fun q => (.unequal a q.1, q.2))
  | _ => none

inductive Level
  | atom
  | conjunction
  | disjunction

def parseCondition (columns : Columns κ ν) : ℕ → Level → List Token → Option (Condition κ ν × List Token)
  | 0, _, _ => none
  | fuel + 1, .atom, tokens =>
    match tokens with
    | .symbol ['('] :: rest =>
      match parseCondition columns fuel .disjunction rest with
      | some (condition, .symbol [')'] :: rest) => some (condition, rest)
      | _ => none
    | _ =>
      match dotted columns.tested tokens with
      | some (column, first :: second :: rest) =>
        if isWord "IS" first ∧ isWord "NULL" second then some (.isNull column, rest) else parseComparison columns fuel tokens
      | _ => parseComparison columns fuel tokens
  | fuel + 1, .conjunction, tokens =>
    match parseCondition columns fuel .atom tokens with
    | some (a, next :: rest) =>
      if isWord "AND" next then (parseCondition columns fuel .conjunction rest).map (fun q => (.both a q.1, q.2))
      else some (a, next :: rest)
    | result => result
  | fuel + 1, .disjunction, tokens =>
    match parseCondition columns fuel .conjunction tokens with
    | some (a, next :: rest) =>
      if isWord "OR" next then (parseCondition columns fuel .disjunction rest).map (fun q => (.either a q.1, q.2))
      else some (a, next :: rest)
    | result => result

def conjoin : Condition κ ν → List (Condition κ ν) → Condition κ ν
  | first, [] => first
  | first, second :: rest => .both first (conjoin second rest)

theorem eval_conjoin {value : κ → ρ → Option (List Char)} {null : ν → ρ → Bool} {row : ρ} (first : Condition κ ν)
    (rest : List (Condition κ ν)) :
    (conjoin first rest).eval value null row = some true ↔ ∀ condition ∈ first :: rest, condition.eval value null row = some true := by
  induction rest generalizing first with
  | nil => simp [conjoin]
  | cons second rest ih => rw [conjoin, Condition.eval, andThree_eq_true, ih second, forall_mem_cons (a := first)]

def ReadsAs (columns : Columns κ ν) (level : Level) (fuel : ℕ) (tokens : List Token) (condition : Condition κ ν) : Prop :=
  ∀ extra rest, parseCondition columns (extra + fuel) level (tokens ++ rest) = some (condition, rest)

variable {columns : Columns κ ν} {fuel : ℕ} {tokens rest : List Token} {condition : Condition κ ν} {next : Token}

theorem parseCondition_last (hnext : isWord "AND" next = false)
    (h : parseCondition columns fuel .atom tokens = some (condition, next :: rest)) :
    parseCondition columns (fuel + 1) .conjunction tokens = some (condition, next :: rest) := by
  rw [parseCondition, h]
  dsimp only
  rw [hnext]
  rfl

theorem parseCondition_both {rest' : List Token} {a b : Condition κ ν} (hnext : isWord "AND" next = true)
    (ha : parseCondition columns fuel .atom tokens = some (a, next :: rest))
    (hb : parseCondition columns fuel .conjunction rest = some (b, rest')) :
    parseCondition columns (fuel + 1) .conjunction tokens = some (.both a b, rest') := by
  rw [parseCondition, ha]
  dsimp only
  rw [if_pos hnext, hb]
  rfl

theorem parseCondition_conjoin {conjunction : Token} (hand : isWord "AND" conjunction = true)
    (hnext : isWord "AND" next = false) (rest : List Token) {first : Condition κ ν}
    (hfirst : ReadsAs columns .atom fuel tokens first) {atoms : List (List Token × Condition κ ν)}
    (hatoms : ∀ atom ∈ atoms, ReadsAs columns .atom fuel atom.1 atom.2) (extra : ℕ) :
    parseCondition columns (atoms.length + extra + fuel + 1) .conjunction
        (tokens ++ (atoms.flatMap (fun atom => conjunction :: atom.1) ++ next :: rest)) =
      some (conjoin first (atoms.map Prod.snd), next :: rest) := by
  induction atoms generalizing tokens first with
  | nil => exact parseCondition_last hnext (hfirst _ _)
  | cons atom atoms ih =>
    refine parseCondition_both hand (hfirst _ _) ?_
    have htail := ih (hatoms atom mem_cons_self) (fun a ha => hatoms a (mem_cons_of_mem atom ha))
    rw [← append_assoc] at htail
    have hfuel : (atom :: atoms).length + extra + fuel = atoms.length + extra + fuel + 1 := by
      rw [length_cons]
      omega
    rw [hfuel]
    exact htail

theorem parseCondition_disjunction (hnext : isWord "OR" next = false)
    (h : parseCondition columns fuel .conjunction tokens = some (condition, next :: rest)) :
    parseCondition columns (fuel + 1) .disjunction tokens = some (condition, next :: rest) := by
  rw [parseCondition, h]
  dsimp only
  rw [hnext]
  rfl

end Conditions

end Basilica.SqlText
