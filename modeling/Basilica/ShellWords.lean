import Mathlib

/-!
How a shell reads a command line: the words of a line that is one simple command, and which of them stand for their own text.
A line is read from left to right, and quotes, blanks, operators and comments act as POSIX has them.
-/

namespace Basilica.ShellWords

open List Option String

structure Piece where
  char : Char
  quoted : Bool
deriving DecidableEq

abbrev Word := List Piece

def singleQuote : Char := '\''

def doubleQuote : Char := '\x22'

def backslash : Char := '\x5c'

def backquote : Char := '\x60'

def nul : Char := '\x00'

def isBlank (c : Char) : Bool := c = ' ' || c = '\t'

def isOperator (c : Char) : Bool := c ∈ [';', '&', '|', '<', '>', '(', ')']

def isExpansion (c : Char) : Bool := c = '$' || c = backquote

inductive Quoting
  | bare
  | escaped
  | single
  | double
  | doubleEscaped
  | comment
deriving DecidableEq

structure Reader where
  done : List Word
  current : Option Word
  quoting : Quoting
  ended : Bool

namespace Reader

def start : Reader := ⟨[], none, .bare, false⟩

def add (r : Reader) (w : Word) : Option Reader :=
  if r.ended then none else some { r with current := some (r.current.getD [] ++ w) }

def close (r : Reader) : Reader :=
  match r.current with
  | none => r
  | some w => { r with done := r.done ++ [w], current := none }

def newline (r : Reader) : Reader := { r.close with ended := r.close.done ≠ [] }

def quote (r : Reader) (q : Quoting) : Reader := { r with quoting := q }

def bareStep (r : Reader) (c : Char) : Option Reader :=
  if isBlank c then some r.close
  else if c = '\n' then some r.newline
  else if isOperator c || isExpansion c then none
  else if c = singleQuote then (r.quote .single).add []
  else if c = doubleQuote then (r.quote .double).add []
  else if c = backslash then some (r.quote .escaped)
  else if c = '#' && r.current.isNone then some (r.quote .comment)
  else r.add [⟨c, false⟩]

def step (r : Reader) (c : Char) : Option Reader :=
  if c = nul then none
  else match r.quoting with
    | .bare => r.bareStep c
    | .escaped => if c = '\n' then some (r.quote .bare) else (r.quote .bare).add [⟨c, true⟩]
    | .single => if c = singleQuote then some (r.quote .bare) else r.add [⟨c, true⟩]
    | .double =>
      if c = doubleQuote then some (r.quote .bare)
      else if c = backslash then some (r.quote .doubleEscaped)
      else if isExpansion c then none
      else r.add [⟨c, true⟩]
    | .doubleEscaped =>
      if c = '\n' then some (r.quote .double)
      else if c = doubleQuote || c = backslash || isExpansion c then (r.quote .double).add [⟨c, true⟩]
      else (r.quote .double).add [⟨backslash, true⟩, ⟨c, true⟩]
    | .comment => if c = '\n' then some (r.quote .bare).newline else some r

def read (r : Reader) (l : List Char) : Option Reader := l.foldlM step r

def finish (r : Reader) : Option (List Word) :=
  match r.quoting with
  | .bare | .comment => some r.close.done
  | _ => none

end Reader

def words (line : List Char) : Option (List Word) := (Reader.start.read line).bind Reader.finish

def closes : Word → Bool
  | [] => false
  | p :: w => if p.char = '/' then false else p = ⟨']', false⟩ || closes w

def closesSet : Word → Bool
  | [] => false
  | p :: w => p.char ≠ '/' && closes w

def opensSet (w : Word) : Bool := closesSet (if w.head? = some ⟨'!', false⟩ then w.tail else w)

def hasSet : Word → Bool
  | [] => false
  | p :: w => (p = ⟨'[', false⟩ && opensSet w) || hasSet w

def isFixed (w : Word) : Bool :=
  w.head? ≠ some ⟨'~', false⟩ && !w.contains ⟨'*', false⟩ && !w.contains ⟨'?', false⟩ && !hasSet w

def text (w : Word) : String := String.ofList (w.map Piece.char)

def arguments (line : String) : Option (List String) :=
  (words line.toList).bind (fun ws => if ws.all isFixed then some (ws.map text) else none)

def isOrdinary (c : Char) : Bool :=
  c ≠ nul && !isBlank c && c ≠ '\n' && !isOperator c && !isExpansion c && c ≠ singleQuote && c ≠ doubleQuote && c ≠ backslash

def bareWord (l : List Char) : Word := l.map (fun c => ⟨c, false⟩)

def quotedWord (l : List Char) : Word := l.map (fun c => ⟨c, true⟩)

def isPlain (s : String) : Bool :=
  s.toList ≠ [] && s.toList.all isOrdinary && s.toList.head? ≠ some '#' && isFixed (bareWord s.toList)

variable {w : Word} {c : Char}

namespace Reader

variable {r r' : Reader} {l : List Char}

def size (r : Reader) : ℕ :=
  (r.done.map (fun w => w.length + 1)).sum + (r.current.getD []).length + if r.quoting = .doubleEscaped then 1 else 0

def Tidy (w : Word) : Prop := w ≠ [] ∧ (∀ p ∈ w, p.quoted = false ∧ isOrdinary p.char = true) ∧ w.head?.map Piece.char ≠ some '#'

structure Clean (r : Reader) : Prop where
  bare : r.quoting = .bare
  done : ∀ w ∈ r.done, Tidy w
  current : ∀ w, r.current = some w → Tidy w

theorem clean_start : Clean start := by
  refine ⟨rfl, ?_, ?_⟩
  · intro w h
    cases h
  · intro w h
    cases h

theorem add_eq_some (h : r.add w = some r') : r' = { r with current := some (r.current.getD [] ++ w) } := by
  unfold add at h
  split_ifs at h
  exact (some.inj h).symm

theorem size_close (r : Reader) : r.close.size ≤ r.size + 1 := by
  unfold close
  cases h : r.current with
  | none => exact Nat.le_succ _
  | some w =>
    simp only [size, map_append, map_cons, map_nil, sum_append, sum_cons, sum_nil, h,
      getD_some, getD_none, length_nil]
    omega

theorem size_newline (r : Reader) : r.newline.size = r.close.size := rfl

theorem sum_close_le (r : Reader) : (r.close.done.map (fun w => w.length + 1)).sum ≤ r.size + 1 := by
  have h := size_close r
  unfold size at h ⊢
  omega

variable {q : Quoting}

theorem size_quote_bare (hr : r.quoting ≠ .doubleEscaped) (hq : q ≠ .doubleEscaped) : (r.quote q).size = r.size := by
  unfold quote size
  rw [if_neg hr, if_neg hq]

theorem size_add (h : r.add w = some r') : r'.size = r.size + w.length := by
  rw [add_eq_some h]
  unfold size
  dsimp only
  rw [Option.getD_some, List.length_append]
  omega

theorem size_quote_of_doubleEscaped (hr : r.quoting = .doubleEscaped) (hq : q ≠ .doubleEscaped) :
    (r.quote q).size + 1 = r.size := by
  unfold quote size
  rw [if_neg hq, if_pos hr]

theorem size_quote_le (r : Reader) (q : Quoting) : (r.quote q).size ≤ r.size + 1 := by
  unfold quote size
  dsimp only
  split_ifs <;> omega

theorem quoting_close (r : Reader) : r.close.quoting = r.quoting := by
  unfold close
  cases r.current <;> rfl

theorem clean_close (h : Clean r) : Clean r.close := by
  refine ⟨by rw [quoting_close]; exact h.bare, ?_, ?_⟩
  · unfold close
    cases hr : r.current with
    | none => exact h.done
    | some w =>
      intro w' hw'
      rcases mem_append.mp hw' with hw' | hw'
      · exact h.done w' hw'
      · rw [mem_singleton.mp hw']
        exact h.current w hr
  · unfold close
    cases hr : r.current with
    | none =>
      intro w hw
      rw [hr] at hw
      cases hw
    | some w =>
      intro w hw
      cases hw

theorem clean_newline (h : Clean r) : Clean r.newline :=
  ⟨(clean_close h).bare, (clean_close h).done, (clean_close h).current⟩

theorem tidy_add (hc : isOrdinary c = true) (hhash : ¬ (c = '#' ∧ r.current = none)) (h : Clean r) :
    Tidy (r.current.getD [] ++ [⟨c, false⟩]) := by
  cases hr : r.current with
  | none =>
    refine ⟨cons_ne_nil _ _, ?_, ?_⟩
    · intro p hp
      rw [mem_singleton.mp hp]
      exact ⟨rfl, hc⟩
    · intro heq
      exact hhash ⟨some.inj heq, hr⟩
  | some w =>
    obtain ⟨hne, hpieces, hhead⟩ := h.current w hr
    refine ⟨append_ne_nil_of_left_ne_nil hne _, ?_, ?_⟩
    · intro p hp
      rcases mem_append.mp hp with hp | hp
      · exact hpieces p hp
      · rw [mem_singleton.mp hp]
        exact ⟨rfl, hc⟩
    · rw [getD_some, head?_append_of_ne_nil _ hne]
      exact hhead

theorem isOrdinary_of (hnul : c ≠ nul) (hblank : ¬ isBlank c = true) (hline : c ≠ '\n')
    (hoperator : ¬ (isOperator c || isExpansion c) = true) (hsingle : c ≠ singleQuote) (hdouble : c ≠ doubleQuote)
    (hback : c ≠ backslash) : isOrdinary c = true := by
  simp only [Bool.or_eq_true, not_or, Bool.not_eq_true] at hblank hoperator
  simp only [isOrdinary, hnul, hblank, hline, hoperator.1, hoperator.2, hsingle, hdouble, hback, ne_eq, not_false_eq_true,
    decide_true, Bool.not_false, Bool.and_self]

theorem kept_step (hr : r.quoting = .bare) (h : r.step c = some r') :
    r'.size ≤ r.size ∨ (r'.size ≤ r.size + 1 ∧ r'.quoting = .bare ∧ (Clean r → Clean r') ∧ c ≠ singleQuote) := by
  have hescaped : r.quoting ≠ .doubleEscaped := by rw [hr]; decide
  unfold step at h
  by_cases hnul : c = nul
  · rw [if_pos hnul] at h
    cases h
  rw [if_neg hnul, hr] at h
  dsimp only at h
  unfold bareStep at h
  split_ifs at h with hblank hline hoperator hsingle hdouble hback hhash
  · rw [← some.inj h]
    refine Or.inr ⟨size_close r, by rw [quoting_close, hr], clean_close, ?_⟩
    rintro rfl
    exact absurd hblank (by decide)
  · rw [← some.inj h]
    refine Or.inr ⟨size_close r, by rw [← hr]; exact quoting_close r, clean_newline, ?_⟩
    rw [hline]
    decide
  · rw [size_add h, size_quote_bare hescaped (by decide)]
    exact Or.inl (le_refl _)
  · rw [size_add h, size_quote_bare hescaped (by decide)]
    exact Or.inl (le_refl _)
  · rw [← some.inj h, size_quote_bare hescaped (by decide)]
    exact Or.inl (le_refl _)
  · rw [← some.inj h, size_quote_bare hescaped (by decide)]
    exact Or.inl (le_refl _)
  · refine Or.inr ⟨(size_add h).le, ?_⟩
    rw [add_eq_some h]
    refine ⟨hr, fun hclean => ⟨hr, hclean.done, ?_⟩, hsingle⟩
    intro w hw
    rw [← some.inj hw]
    refine tidy_add (isOrdinary_of hnul hblank hline hoperator hsingle hdouble hback) ?_ hclean
    rintro ⟨heq, hnone⟩
    rw [heq, hnone] at hhash
    exact hhash rfl

theorem size_step (h : r.step c = some r') : r'.size ≤ r.size + 1 := by
  by_cases hbare : r.quoting = .bare
  · rcases kept_step hbare h with hless | ⟨hless, -⟩
    · exact hless.trans (Nat.le_succ _)
    · exact hless
  unfold step at h
  by_cases hnul : c = nul
  · rw [if_pos hnul] at h
    cases h
  rw [if_neg hnul] at h
  cases hr : r.quoting <;> rw [hr] at h <;> dsimp only at h
  case bare => exact absurd hr hbare
  case escaped =>
    have hsame : (r.quote .bare).size = r.size := size_quote_bare (by rw [hr]; decide) (by decide)
    split_ifs at h
    · rw [← some.inj h]
      exact size_quote_le r _
    · rw [size_add h, hsame]
      rfl
  case single =>
    split_ifs at h
    · rw [← some.inj h]
      exact size_quote_le r _
    · rw [size_add h]
      rfl
  case double =>
    split_ifs at h
    · rw [← some.inj h]
      exact size_quote_le r _
    · rw [← some.inj h]
      exact size_quote_le r _
    · rw [size_add h]
      rfl
  case doubleEscaped =>
    have hless : (r.quote .double).size + 1 = r.size := size_quote_of_doubleEscaped hr (by decide)
    split_ifs at h
    · rw [← some.inj h]
      exact size_quote_le r _
    · rw [size_add h, List.length_singleton, hless]
      exact Nat.le_succ _
    · rw [size_add h, ← hless]
      rfl
  case comment =>
    split_ifs at h
    · have hsame : (r.quote .bare).size = r.size := size_quote_bare (by rw [hr]; decide) (by decide)
      rw [← some.inj h, size_newline, ← hsame]
      exact size_close _
    · rw [← some.inj h]
      exact Nat.le_succ _

theorem read_cons (r : Reader) (c : Char) (l : List Char) : r.read (c :: l) = (r.step c).bind (fun r => r.read l) := by
  rw [read, foldlM_cons]
  rfl

theorem read_cons_some {r r' : Reader} {l : List Char} (h : r.read (c :: l) = some r') :
    ∃ s, r.step c = some s ∧ s.read l = some r' := by
  rw [read_cons] at h
  exact bind_eq_some_iff.mp h

theorem read_append (r : Reader) (l₁ l₂ : List Char) : r.read (l₁ ++ l₂) = (r.read l₁).bind (fun r => r.read l₂) := by
  rw [read, foldlM_append]
  rfl

theorem size_read (h : r.read l = some r') : r'.size ≤ r.size + l.length := by
  induction l generalizing r with
  | nil =>
    cases h
    exact le_refl _
  | cons c l ih =>
    obtain ⟨s, hs, h⟩ := read_cons_some h
    have hstep := size_step hs
    have hrest := ih h
    rw [length_cons]
    omega

theorem clean_read (hr : Clean r) (h : r.read l = some r') : Clean r' ∨ r'.size < r.size + l.length := by
  induction l generalizing r with
  | nil =>
    cases h
    exact Or.inl hr
  | cons c l ih =>
    obtain ⟨s, hs, h⟩ := read_cons_some h
    have hrest := size_read h
    have hstep := size_step hs
    rw [length_cons]
    rcases kept_step hr.bare hs with hlost | ⟨_, _, hclean, _⟩
    · right
      omega
    · rcases ih (hclean hr) h with hclean | hless
      · exact Or.inl hclean
      · right
        omega

theorem size_read_of_quote (hr : r.quoting = .bare) (hquote : singleQuote ∈ l) (h : r.read l = some r') :
    r'.size < r.size + l.length := by
  induction l generalizing r with
  | nil => cases hquote
  | cons c l ih =>
    obtain ⟨s, hs, h⟩ := read_cons_some h
    have hrest := size_read h
    have hstep := size_step hs
    rw [length_cons]
    rcases kept_step hr hs with hlost | ⟨_, hbare, _, hc⟩
    · omega
    · have hmem : singleQuote ∈ l := by
        rcases mem_cons.mp hquote with heq | hmem
        · exact absurd heq.symm hc
        · exact hmem
      have hless := ih hbare hmem h
      omega

end Reader

section Lines

namespace Reader

variable {done : List Word} {l : List Char}

theorem ordinary_spec (h : isOrdinary c = true) : c ≠ nul ∧ isBlank c = false ∧ c ≠ '\n' ∧ isOperator c = false ∧
    isExpansion c = false ∧ c ≠ singleQuote ∧ c ≠ doubleQuote ∧ c ≠ backslash := by
  simp only [isOrdinary, Bool.and_eq_true, decide_eq_true_eq, Bool.not_eq_true', ne_eq] at h
  tauto

theorem step_ordinary (h : isOrdinary c = true) {current : Option Word} (hhash : ¬ (c = '#' ∧ current = none)) :
    step ⟨done, current, .bare, false⟩ c = some ⟨done, some (current.getD [] ++ [⟨c, false⟩]), .bare, false⟩ := by
  obtain ⟨hnul, hblank, hline, hoperator, hexpansion, hsingle, hdouble, hback⟩ := ordinary_spec h
  have hcomment : ¬ (c = '#' && current.isNone) = true := by
    simpa only [Bool.and_eq_true, decide_eq_true_eq, isNone_iff_eq_none] using hhash
  rw [step, if_neg hnul]
  rw [bareStep, if_neg (by rw [hblank]; exact Bool.false_ne_true), if_neg hline,
    if_neg (by rw [hoperator, hexpansion]; exact Bool.false_ne_true), if_neg hsingle, if_neg hdouble, if_neg hback,
    if_neg hcomment]
  rfl

theorem read_ordinary (h : l.all isOrdinary = true) :
    read ⟨done, some w, .bare, false⟩ l = some ⟨done, some (w ++ bareWord l), .bare, false⟩ := by
  induction l generalizing w with
  | nil =>
    rw [bareWord, map_nil, append_nil]
    rfl
  | cons c l ih =>
    simp only [all_cons, Bool.and_eq_true] at h
    rw [read_cons, step_ordinary h.1 (fun hnone => Option.noConfusion rfl (heq_of_eq hnone.2)), bind_some, getD_some, ih h.2,
      List.append_assoc]
    rfl

theorem plain_spec {q : String} (h : isPlain q = true) : q.toList ≠ [] ∧ q.toList.all isOrdinary = true ∧
    q.toList.head? ≠ some '#' ∧ isFixed (bareWord q.toList) = true := by
  simp only [isPlain, Bool.and_eq_true, decide_eq_true_eq, ne_eq] at h
  tauto

theorem read_plain {q : String} (h : isPlain q = true) :
    read ⟨done, none, .bare, false⟩ q.toList = some ⟨done, some (bareWord q.toList), .bare, false⟩ := by
  obtain ⟨hne, hall, hhead, _⟩ := plain_spec h
  cases hq : q.toList with
  | nil => exact absurd hq hne
  | cons c l =>
    rw [hq] at hall hhead
    simp only [all_cons, Bool.and_eq_true] at hall
    rw [read_cons, step_ordinary hall.1 (fun hhash => hhead (by rw [head?_cons, hhash.1])), bind_some, read_ordinary hall.2]
    rfl

theorem step_blank : step ⟨done, some w, .bare, false⟩ ' ' = some ⟨done ++ [w], none, .bare, false⟩ := rfl

end Reader

def spaced (parts : List String) : List Char := parts.flatMap (fun q => ' ' :: q.toList)

variable (q : String) (parts : List String)

theorem spaced_cons : spaced (q :: parts) = ' ' :: (q.toList ++ spaced parts) := by
  rw [spaced, flatMap_cons]
  rfl

variable (l : List Char)

theorem spaced_cons_append :
    spaced (q :: parts) ++ l = ' ' :: (q.toList ++ (spaced parts ++ l)) := by
  rw [spaced_cons, List.cons_append, List.append_assoc]

theorem spaced_append (l l' : List String) : spaced (l ++ l') = spaced l ++ spaced l' := flatMap_append

theorem length_spaced : (spaced parts).length = (parts.map (fun q => q.toList.length + 1)).sum := by
  rw [spaced, length_flatMap]
  rfl

variable {first : String} {parts : List String} {line : String}

namespace Reader

theorem read_spaced (h : ∀ q ∈ parts, isPlain q = true) (done : List Word) (w : Word) :
    ∃ done' w', read ⟨done, some w, .bare, false⟩ (spaced parts) = some ⟨done', some w', .bare, false⟩ ∧
      done' ++ [w'] = done ++ w :: parts.map (fun q => bareWord q.toList) := by
  induction parts generalizing done w with
  | nil => exact ⟨done, w, rfl, rfl⟩
  | cons q parts ih =>
    obtain ⟨done', w', hread, hwords⟩ := ih (fun q hq => h q (mem_cons_of_mem _ hq)) (done ++ [w]) (bareWord q.toList)
    refine ⟨done', w', ?_, ?_⟩
    · rw [spaced_cons, read_cons, step_blank, bind_some, read_append, read_plain (h q mem_cons_self), bind_some,
        hread]
    · rw [hwords, List.append_assoc]
      rfl

theorem read_line (h : ∀ q ∈ first :: parts, isPlain q = true) :
    ∃ done w, start.read (first.toList ++ spaced parts) = some ⟨done, some w, .bare, false⟩ ∧
      done ++ [w] = (first :: parts).map (fun q => bareWord q.toList) := by
  obtain ⟨done, w, hread, hwords⟩ := read_spaced (fun q hq => h q (mem_cons_of_mem _ hq)) [] (bareWord first.toList)
  refine ⟨done, w, ?_, hwords⟩
  have hfirst : start.read first.toList = some ⟨[], some (bareWord first.toList), .bare, false⟩ := read_plain (h first mem_cons_self)
  rw [read_append, hfirst, bind_some, hread]

end Reader

theorem text_bareWord : text (bareWord q.toList) = q := by
  rw [text, bareWord, List.map_map]
  exact (congrArg String.ofList (map_id q.toList)).trans (ofList_toList)

theorem map_text_bareWord : (parts.map (fun q => bareWord q.toList)).map text = parts := by
  rw [List.map_map]
  exact (map_congr_left (fun q _ => text_bareWord q)).trans (map_id _)

theorem isFixed_bareWord (h : ∀ q ∈ parts, isPlain q = true) : ∀ w ∈ parts.map (fun q => bareWord q.toList), isFixed w = true := by
  intro w hw
  obtain ⟨q, hq, rfl⟩ := mem_map.mp hw
  exact (Reader.plain_spec (h q hq)).2.2.2

variable {ws : List Word}

theorem arguments_of_words (hwords : words line.toList = some ws) (hfixed : ∀ w ∈ ws, isFixed w = true) :
    arguments line = some (ws.map text) := by
  rw [arguments, hwords, bind_some, if_pos (all_eq_true.mpr hfixed)]

variable {args : List String}

theorem words_of_arguments (h : arguments line = some args) :
    ∃ r ws, Reader.start.read line.toList = some r ∧ r.finish = some ws ∧ (∀ w ∈ ws, isFixed w = true) ∧ ws.map text = args := by
  obtain ⟨ws, hwords, h⟩ := bind_eq_some_iff.mp h
  obtain ⟨r, hread, hfinish⟩ := bind_eq_some_iff.mp hwords
  split_ifs at h with hfixed
  exact ⟨r, ws, hread, hfinish, all_eq_true.mp hfixed, some.inj h⟩

theorem finish_eq_some {r : Reader} (h : r.finish = some ws) : ws = r.close.done := by
  unfold Reader.finish at h
  cases hr : r.quoting <;> rw [hr] at h <;> dsimp only at h <;> first | cases h; done | exact (some.inj h).symm

theorem sum_lengths (h : ws.map text = args) :
    (ws.map (fun w => w.length + 1)).sum = (args.map (fun q => q.toList.length + 1)).sum := by
  subst h
  rw [List.map_map]
  refine congrArg List.sum (map_congr_left ?_)
  intro w _
  rw [Function.comp_apply, text, String.toList_ofList, List.length_map]

theorem isPlain_of_tidy (h : Reader.Tidy w) (hfixed : isFixed w = true) : isPlain (text w) = true := by
  obtain ⟨hne, hpieces, hhead⟩ := h
  have hbare : bareWord (w.map Piece.char) = w := by
    rw [bareWord, List.map_map]
    conv_rhs => rw [← map_id w]
    refine map_congr_left ?_
    intro p hp
    have hquoted := (hpieces p hp).1
    cases p
    subst hquoted
    rfl
  have hall : (w.map Piece.char).all isOrdinary = true := by
    refine all_eq_true.mpr ?_
    intro c hc
    obtain ⟨p, hp, rfl⟩ := mem_map.mp hc
    exact (hpieces p hp).2
  have hhead : (w.map Piece.char).head? ≠ some '#' := by
    rw [head?_map]
    exact hhead
  have hne : w.map Piece.char ≠ [] := fun h => hne (map_eq_nil_iff.mp h)
  unfold isPlain
  rw [text, toList_ofList, hbare, hall, hfixed, decide_eq_true hne, decide_eq_true hhead]
  rfl

theorem arguments_line (hline : line.toList = first.toList ++ spaced parts) :
    arguments line = some (first :: parts) ↔ ∀ q ∈ first :: parts, isPlain q = true := by
  constructor
  · intro h
    obtain ⟨r, ws, hread, hfinish, hfixed, htext⟩ := words_of_arguments h
    have hws := finish_eq_some hfinish
    have hsum := sum_lengths htext
    -- nothing of the line is lost: there are as many characters in the words and between them
    have hlength : line.toList.length + 1 = ((first :: parts).map (fun q => q.toList.length + 1)).sum := by
      rw [hline, List.length_append, length_spaced, List.map_cons, List.sum_cons]
      omega
    have hsize := Reader.sum_close_le r
    rw [← hws, hsum, ← hlength] at hsize
    have hclean : Reader.Clean r := by
      rcases Reader.clean_read Reader.clean_start hread with hclean | hless
      · exact hclean
      · have hstart : Reader.start.size = 0 := rfl
        omega
    intro q hq
    rw [← htext] at hq
    obtain ⟨w, hw, rfl⟩ := mem_map.mp hq
    exact isPlain_of_tidy ((Reader.clean_close hclean).done w (hws ▸ hw)) (hfixed w hw)
  · intro h
    obtain ⟨done, w, hread, hwords⟩ := Reader.read_line h
    have hws : words line.toList = some ((first :: parts).map (fun q => bareWord q.toList)) := by
      rw [words, hline, hread, bind_some, ← hwords]
      rfl
    rw [arguments_of_words hws (isFixed_bareWord h), map_text_bareWord]

namespace Reader

theorem step_nul (r : Reader) : r.step nul = none := by rw [step, if_pos rfl]

theorem read_of_nul {l : List Char} (h : nul ∈ l) (r : Reader) : r.read l = none := by
  induction l generalizing r with
  | nil => cases h
  | cons c l ih =>
    rw [read_cons]
    rcases mem_cons.mp h with rfl | h
    · rw [step_nul]
      rfl
    · cases hstep : r.step c with
      | none => rfl
      | some r' => exact ih h r'

theorem step_open (done : List Word) : step ⟨done, none, .bare, false⟩ singleQuote = some ⟨done, some [], .single, false⟩ := rfl

theorem step_shut (done : List Word) (w : Word) :
    step ⟨done, some w, .single, false⟩ singleQuote = some ⟨done, some w, .bare, false⟩ := rfl

theorem read_quoted {l : List Char} (hquote : singleQuote ∉ l) (hnul : nul ∉ l) (done : List Word) (w : Word) :
    read ⟨done, some w, .single, false⟩ l = some ⟨done, some (w ++ quotedWord l), .single, false⟩ := by
  induction l generalizing w with
  | nil =>
    rw [quotedWord, map_nil, append_nil]
    rfl
  | cons c l ih =>
    rw [mem_cons, not_or] at hquote hnul
    have hstep : step ⟨done, some w, .single, false⟩ c = some ⟨done, some (w ++ [⟨c, true⟩]), .single, false⟩ := by
      rw [step, if_neg (Ne.symm hnul.1)]
      rw [if_neg (Ne.symm hquote.1)]
      rfl
    rw [read_cons, hstep, Option.bind_some, ih hquote.2 hnul.2, List.append_assoc]
    rfl

end Reader

theorem hasSet_of_notMem (h : ⟨'[', false⟩ ∉ w) : hasSet w = false := by
  induction w with
  | nil => rfl
  | cons p w ih =>
    rw [mem_cons, not_or] at h
    rw [hasSet, decide_eq_false (Ne.symm h.1), Bool.false_and, Bool.false_or]
    exact ih h.2

theorem isFixed_of_notMem (h : ∀ c ∈ ['~', '*', '?', '['], ⟨c, false⟩ ∉ w) : isFixed w = true := by
  have hcontains : ∀ c ∈ ['~', '*', '?', '['], w.contains ⟨c, false⟩ = false := by
    intro c hc
    rw [contains_eq_mem, decide_eq_false (h c hc)]
  have hhead : w.head? ≠ some ⟨'~', false⟩ := fun heq => h '~' (by decide) (mem_of_head? heq)
  rw [isFixed, hcontains '*' (by decide), hcontains '?' (by decide), hasSet_of_notMem (h '[' (by decide)), decide_eq_true hhead]
  rfl

theorem isFixed_quotedWord : isFixed (quotedWord l) = true := by
  refine isFixed_of_notMem (fun c _ h => ?_)
  obtain ⟨c', _, heq⟩ := mem_map.mp h
  exact Bool.noConfusion (congrArg Piece.quoted heq)

theorem text_quotedWord : text (quotedWord q.toList) = q := by
  rw [text, quotedWord, List.map_map]
  exact (congrArg String.ofList (map_id q.toList)).trans (ofList_toList)

theorem arguments_quoted {script : String} (hplain : ∀ q ∈ first :: parts, isPlain q = true)
    (hline : line.toList = first.toList ++ (spaced parts ++ ' ' :: singleQuote :: (script.toList ++ [singleQuote]))) :
    arguments line = some ((first :: parts) ++ [script]) ↔ singleQuote ∉ script.toList ∧ nul ∉ script.toList := by
  obtain ⟨done, w, hread, hwords⟩ := Reader.read_line hplain
  have hopen : ∀ l, Reader.start.read (first.toList ++ (spaced parts ++ ' ' :: singleQuote :: l)) =
      Reader.read ⟨done ++ [w], some [], .single, false⟩ l := by
    intro l
    rw [← List.append_assoc, Reader.read_append, hread, Option.bind_some, Reader.read_cons, Reader.step_blank, Option.bind_some, Reader.read_cons,
      Reader.step_open, bind_some]
  constructor
  · intro h
    obtain ⟨r, ws, hrun, hfinish, _, htext⟩ := words_of_arguments h
    have hnul : nul ∉ script.toList := by
      intro hnul
      rw [Reader.read_of_nul (by rw [hline]; simp [hnul])] at hrun
      cases hrun
    refine ⟨?_, hnul⟩
    intro hquote
    obtain ⟨before, after, hsplit, hbefore⟩ := eq_append_cons_of_mem hquote
    rw [hline, hopen, hsplit, List.append_assoc, Reader.read_append,
      Reader.read_quoted hbefore (fun h => hnul (by rw [hsplit]; exact mem_append_left _ h)), bind_some, cons_append,
      Reader.read_cons, Reader.step_shut, bind_some] at hrun
    -- the quote ends the word, and the last one of the line is then lost as well
    have hless := Reader.size_read_of_quote rfl (mem_append_right _ mem_cons_self) hrun
    have hsize := Reader.sum_close_le r
    have hdone : (done ++ [w]).map text = first :: parts := by rw [hwords, map_text_bareWord]
    rw [← finish_eq_some hfinish, sum_lengths htext, map_append, sum_append, ← sum_lengths hdone] at hsize
    have hreader : Reader.size ⟨done ++ [w], some ([] ++ quotedWord before), .bare, false⟩ =
        ((done ++ [w]).map (fun w => w.length + 1)).sum + before.length := by
      rw [Reader.size, Option.getD_some, List.nil_append, quotedWord, List.length_map]
      rfl
    rw [hreader] at hless
    simp only [List.length_append, List.length_cons, List.length_nil, List.map_cons, List.map_nil, List.sum_cons, List.sum_nil,
      hsplit] at hless hsize
    omega
  · rintro ⟨hquote, hnul⟩
    have hws : words line.toList = some ((first :: parts).map (fun q => bareWord q.toList) ++ [quotedWord script.toList]) := by
      rw [words, hline, hopen, Reader.read_append, Reader.read_quoted hquote hnul, bind_some, Reader.read_cons, Reader.step_shut,
        bind_some, ← hwords]
      rfl
    rw [arguments_of_words hws, map_append, map_text_bareWord, map_singleton, text_quotedWord]
    intro w hw
    rcases mem_append.mp hw with hw | hw
    · exact isFixed_bareWord hplain w hw
    · rw [mem_singleton.mp hw]
      exact isFixed_quotedWord _

theorem intercalate_char (c : Char) (part : List Char) (parts : List (List Char)) :
    [c].intercalate (part :: parts) = part ++ parts.flatMap (fun p => c :: p) := by
  induction parts generalizing part with
  | nil => simp
  | cons p parts ih => rw [List.intercalate_cons_cons, ih, flatMap_cons, List.append_assoc, singleton_append, cons_append]

theorem toList_intercalate (first : String) (parts : List String) :
    (" ".intercalate (first :: parts)).toList = first.toList ++ spaced parts := by
  rw [String.toList_intercalate, List.map_cons, spaced, ← flatMap_map]
  exact intercalate_char ' ' _ _

end Lines

section Safe

def specials : List Char :=
  [nul, ' ', '\t', '\n', ';', '&', '|', '<', '>', '(', ')', '$', backquote, singleQuote, doubleQuote, backslash, '#', '~', '*', '?', '[']

variable {q : String}

theorem isOrdinary_of_safe (h : c ∉ specials) : isOrdinary c = true := by
  simp only [specials, mem_cons, not_mem_nil, or_false, not_or] at h
  simp only [isOrdinary, isBlank, isOperator, isExpansion, mem_cons, not_mem_nil, h, or_false, decide_false, Bool.or_self,
    Bool.not_false, ne_eq, not_false_eq_true, decide_true, Bool.and_self]

def isSafe (q : String) : Bool := q.toList.all (fun c => c ∉ specials)

theorem isSafe_iff : isSafe q = true ↔ ∀ c ∈ q.toList, c ∉ specials := by
  simp only [isSafe, List.all_eq_true, decide_eq_true_eq]

theorem isSafe_append {s t : String} (hs : isSafe s = true) (ht : isSafe t = true) : isSafe (s ++ t) = true := by
  rw [isSafe, toList_append, all_append, ← isSafe, ← isSafe, hs, ht]
  rfl

theorem isPlain_of_safe (hempty : q ≠ "") (h : isSafe q = true) : isPlain q = true := by
  rw [isSafe_iff] at h
  have hne : q.toList ≠ [] := fun hnil => hempty (toList_eq_nil_iff.mp hnil)
  have hnot : ∀ c ∈ specials, c ∉ q.toList := fun c hc hq => h c hq hc
  have hpiece : ∀ c ∈ specials, (⟨c, false⟩ : Piece) ∉ bareWord q.toList := by
    intro c hc hmem
    obtain ⟨c', hc', heq⟩ := mem_map.mp hmem
    have hsame : c' = c := congrArg Piece.char heq
    exact hnot c hc (hsame ▸ hc')
  have hordinary : q.toList.all isOrdinary = true := all_eq_true.mpr (fun c hc => isOrdinary_of_safe (h c hc))
  have hhash : q.toList.head? ≠ some '#' := fun heq => hnot '#' (by decide) (mem_of_head? heq)
  have hsub : ['~', '*', '?', '['] ⊆ specials := by decide
  rw [isPlain, hordinary, isFixed_of_notMem (fun c hc => hpiece c (hsub hc)), decide_eq_true hne, decide_eq_true hhash]
  rfl

theorem not_isPlain_of_mem (hc : isOrdinary c = false) (h : c ∈ q.toList) : isPlain q ≠ true := by
  intro hplain
  have hordinary := all_eq_true.mp (Reader.plain_spec hplain).2.1 c h
  rw [hc] at hordinary
  cases hordinary

end Safe

end Basilica.ShellWords
