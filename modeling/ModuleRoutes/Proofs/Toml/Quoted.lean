import Mathlib.Data.List.Basic
import ModuleRoutes.Toml.Quoted
import ModuleRoutes.Toml.Text

/-!
# Texts in quotes

Every text is read back from the form that it is written in, whatever its characters
(`ModuleRoutes.Toml.readString_quote`). Quotes that stand for themselves are the difficulty, since
a reader that meets one cannot tell yet whether it belongs to the closing quotes. A reader that
tells runs of quotes apart (`ModuleRoutes.Toml.TellsRuns`) reads back every text whose runs are
short enough (`ModuleRoutes.Toml.read_of_shown`).
-/

namespace ModuleRoutes

namespace Toml

open Text

/-- A text read from behind an opening quote, and what follows its closing quotes. -/
abbrev TextReader := List Char → Option (List Char × List Char)

/-- A reader that closes a text at `limit + 1` quotes in a row, and takes fewer for themselves. -/
structure TellsRuns (read : TextReader) (mark : Char) (limit : Nat) : Prop where
  closes : ∀ run ≤ limit, ∀ rest : List Char, rest.head? ≠ some mark →
    read (List.replicate run mark ++ List.replicate (limit + 1) mark ++ rest) =
      some (List.replicate run mark, rest)
  passes : ∀ run ≤ limit, ∀ rest : List Char, rest.head? ≠ some mark →
    read (List.replicate run mark ++ rest) =
      (read rest).map fun (text, after) => (List.replicate run mark ++ text, after)

/-- A text as a reader is shown it after a run of quotes: short runs of quotes as they are, and
every other character in a way that the reader takes for it. -/
inductive Shown (read : TextReader) (mark : Char) (limit : Nat) :
    Nat → List Char → List Char → Prop where
  | nil {run : Nat} : Shown read mark limit run [] []
  | quote {run : Nat} {text written : List Char} (short : run < limit)
      (later : Shown read mark limit (run + 1) text written) :
      Shown read mark limit run (mark :: text) (mark :: written)
  | other {run : Nat} {c first : Char} {piece text written : List Char} (apart : first ≠ mark)
      (taken : ∀ rest, read (first :: piece ++ rest) = push c (read rest))
      (later : Shown read mark limit 0 text written) :
      Shown read mark limit run (c :: text) (first :: piece ++ written)

variable {read : TextReader} {mark : Char} {limit run : Nat} {text written rest : List Char}

/-- A shown text is read back up to its closing quotes. The run of quotes before it has not been
taken yet, since only what follows tells whether it closes the text. -/
theorem read_run_of_shown (tells : TellsRuns read mark limit) (short : run ≤ limit)
    (shown : Shown read mark limit run text written) (ends : rest.head? ≠ some mark) :
    read (List.replicate run mark ++ (written ++ List.replicate (limit + 1) mark ++ rest)) =
      some (List.replicate run mark ++ text, rest) := by
  induction shown with
  | nil =>
      rw [List.nil_append, List.append_nil, ← List.append_assoc]
      exact tells.closes _ short rest ends
  | quote less later ih =>
      -- the quote joins the run that is still pending
      have longer := ih less
      simp only [List.replicate_succ', List.append_assoc, List.cons_append] at longer ⊢
      exact longer
  | @other run c first piece text written apart taken later ih =>
      have onward := ih (Nat.zero_le _)
      rw [List.replicate_zero, List.nil_append, List.nil_append] at onward
      rw [tells.passes _ short _ (by simpa using apart), List.append_assoc, List.append_assoc,
        ← List.append_assoc written, taken, onward]
      rfl

theorem read_of_shown (tells : TellsRuns read mark limit)
    (shown : Shown read mark limit 0 text written) (ends : rest.head? ≠ some mark) :
    read (written ++ List.replicate (limit + 1) mark ++ rest) = some (text, rest) :=
  read_run_of_shown tells (Nat.zero_le _) shown ends

/-- The number of quotes in a row that stand for themselves. -/
def freeQuotes (multi : Bool) : Nat := if multi then 2 else 0

/-! ## Runs of quotes -/

theorem tellsRuns_single (closes : ∀ rest, read (mark :: rest) = some ([], rest)) :
    TellsRuns read mark 0 where
  closes := by
    intro run short rest ends
    obtain rfl : run = 0 := Nat.le_zero.mp short
    exact closes rest
  passes := by
    intro run short rest ends
    obtain rfl : run = 0 := Nat.le_zero.mp short
    exact Option.map_id'.symm

theorem readQuoted_mark (multi : Bool) (rest : List Char) :
    readQuoted multi .off ('"' :: rest) =
      if multi = false then some ([], rest)
      else
        match rest with
        | '"' :: '"' :: '"' :: '"' :: after => some (['"', '"'], after)
        | '"' :: '"' :: '"' :: after => some (['"'], after)
        | '"' :: '"' :: after => some ([], after)
        | _ => push '"' (readQuoted multi .off rest) := by
  rw [readQuoted.eq_def]
  cases multi <;> rfl

theorem readLiteral_mark (multi : Bool) (rest : List Char) :
    readLiteral multi ('\'' :: rest) =
      if multi = false then some ([], rest)
      else
        match rest with
        | '\'' :: '\'' :: '\'' :: '\'' :: after => some (['\'', '\''], after)
        | '\'' :: '\'' :: '\'' :: after => some (['\''], after)
        | '\'' :: '\'' :: after => some ([], after)
        | _ => push '\'' (readLiteral multi rest) := by
  rw [readLiteral.eq_def]
  cases multi <;> rfl

theorem tellsRuns_quoted (multi : Bool) :
    TellsRuns (readQuoted multi .off) '"' (freeQuotes multi) := by
  cases multi with
  | false => exact tellsRuns_single (readQuoted_mark false)
  | true =>
      constructor
      all_goals
        intro run short rest ends
        match run, short with
        | 0, _ | 1, _ | 2, _ =>
          cases rest <;> simp_all [List.replicate, freeQuotes, readQuoted_mark, push,
            Function.comp_def]

theorem tellsRuns_literal (multi : Bool) :
    TellsRuns (readLiteral multi) '\'' (freeQuotes multi) := by
  cases multi with
  | false => exact tellsRuns_single (readLiteral_mark false)
  | true =>
      constructor
      all_goals
        intro run short rest ends
        match run, short with
        | 0, _ | 1, _ | 2, _ =>
          cases rest <;> simp_all [List.replicate, freeQuotes, readLiteral_mark, push,
            Function.comp_def]

/-! ## Escapes -/

/-- A character other than a double quote as it is written inside double quotes. -/
def escapeChar (lines : Bool) (c : Char) : List Char :=
  if c = '\\' then ['\\', '\\']
  else if c = '\t' then ['\\', 't']
  else if c = '\n' then if lines then ['\n'] else ['\\', 'n']
  else if c = '\r' then ['\\', 'r']
  else if c.toNat = 8 then ['\\', 'b']
  else if c.toNat = 12 then ['\\', 'f']
  else if needsEscape c then '\\' :: 'u' :: fourHexDigits c.toNat
  else [c]

theorem escapeText_cons {c : Char} (noQuote : c ≠ '"') (lines : Bool) (quotes : Nat)
    (text : List Char) :
    escapeText lines quotes (c :: text) = escapeChar lines c ++ escapeText lines 0 text := by
  rw [escapeText, if_neg noQuote]
  rfl

/-- The characters that are written as one letter after a backslash, with that letter. -/
def lettered : List (Char × Char) :=
  [('\\', '\\'), ('t', '\t'), ('n', '\n'), ('r', '\r'), ('b', Char.ofNat 8), ('f', Char.ofNat 12),
    ('"', '"')]

theorem readQuoted_lettered {letter c : Char} (member : (letter, c) ∈ lettered) (multi : Bool)
    (rest : List Char) :
    readQuoted multi .off ('\\' :: letter :: rest) = push c (readQuoted multi .off rest) := by
  simp only [lettered, List.mem_cons, Prod.mk.injEq, List.not_mem_nil, or_false] at member
  rcases member with ⟨rfl, rfl⟩ | ⟨rfl, rfl⟩ | ⟨rfl, rfl⟩ | ⟨rfl, rfl⟩ | ⟨rfl, rfl⟩ |
      ⟨rfl, rfl⟩ | ⟨rfl, rfl⟩ <;>
    rfl

/-- The digits of a control's number stand for it. -/
theorem exists_fourHexDigits : ∀ n < 128, ∃ d₁ d₂ d₃ d₄, fourHexDigits n = [d₁, d₂, d₃, d₄] ∧
    codePoint? [d₁, d₂, d₃, d₄] = some (Char.ofNat n) := by
  have four : ∀ n < 128, (fourHexDigits n).length = 4 ∧
      codePoint? (fourHexDigits n) = some (Char.ofNat n) := by decide
  intro n small
  obtain ⟨length, stands⟩ := four n small
  match digits : fourHexDigits n, length with
  | [d₁, d₂, d₃, d₄], _ => exact ⟨d₁, d₂, d₃, d₄, rfl, digits ▸ stands⟩

theorem readQuoted_numbered {c : Char} (small : c.toNat < 128) (multi : Bool) (rest : List Char) :
    readQuoted multi .off ('\\' :: 'u' :: fourHexDigits c.toNat ++ rest) =
      push c (readQuoted multi .off rest) := by
  obtain ⟨d₁, d₂, d₃, d₄, digits, stands⟩ := exists_fourHexDigits c.toNat small
  have read : readQuoted multi .off ('\\' :: 'u' :: d₁ :: d₂ :: d₃ :: d₄ :: rest) =
      (codePoint? [d₁, d₂, d₃, d₄]).bind fun value => push value (readQuoted multi .off rest) := rfl
  rw [digits]
  exact read.trans (by rw [stands, Char.ofNat_toNat, Option.bind_some])

theorem readQuoted_plain {c : Char} (noQuote : c ≠ '"') (noBackslash : c ≠ '\\')
    (plain : isPlain c = true) (multi : Bool) (rest : List Char) :
    readQuoted multi .off (c :: rest) = push c (readQuoted multi .off rest) := by
  have noReturn : c ≠ '\r' := by
    rintro rfl
    cases plain
  rw [readQuoted.eq_def]
  simp [noQuote, noBackslash, noReturn, plain]

theorem readQuoted_break (rest : List Char) :
    readQuoted true .off ('\n' :: rest) = push '\n' (readQuoted true .off rest) := by
  rw [readQuoted.eq_def]
  rfl

/-- A character is read as it is, or takes an escape. -/
theorem isPlain_or_needsEscape {c : Char} (noBreak : c ≠ '\n') :
    isPlain c = true ∨ needsEscape c = true := by
  by_cases tab : c = '\t'
  · exact .inl (by simp [isPlain, tab])
  by_cases low : c.toNat < 32
  · exact .inr (by simp [needsEscape, low, tab, noBreak])
  by_cases delete : c.toNat = 127
  · exact .inr (by simp [needsEscape, delete])
  · exact .inl (by simp [isPlain, Nat.le_of_not_lt low, delete])

theorem toNat_lt_of_needsEscape {c : Char} (escapes : needsEscape c = true) : c.toNat < 128 := by
  simp only [needsEscape, Bool.or_eq_true, Bool.and_eq_true, decide_eq_true_eq] at escapes
  omega

/-- A character is read back from the way that it is written inside double quotes. -/
theorem readQuoted_escapeChar {c : Char} (noQuote : c ≠ '"') (lines : Bool) (rest : List Char) :
    readQuoted lines .off (escapeChar lines c ++ rest) = push c (readQuoted lines .off rest) := by
  unfold escapeChar
  split
  · next backslash =>
    subst backslash
    exact readQuoted_lettered (by decide) lines rest
  split
  · next tab =>
    subst tab
    exact readQuoted_lettered (by decide) lines rest
  split
  · next lineBreak =>
    subst lineBreak
    cases lines with
    | false => exact readQuoted_lettered (by decide) false rest
    | true => exact readQuoted_break rest
  split
  · next lineReturn =>
    subst lineReturn
    exact readQuoted_lettered (by decide) lines rest
  split
  · next backspace =>
    obtain rfl : c = Char.ofNat 8 := by rw [← backspace, Char.ofNat_toNat]
    exact readQuoted_lettered (by decide) lines rest
  split
  · next feed =>
    obtain rfl : c = Char.ofNat 12 := by rw [← feed, Char.ofNat_toNat]
    exact readQuoted_lettered (by decide) lines rest
  split
  · next escapes => exact readQuoted_numbered (toNat_lt_of_needsEscape escapes) lines rest
  · next noBackslash _ noBreak _ _ _ shows =>
    have plain := (isPlain_or_needsEscape noBreak).resolve_right shows
    exact readQuoted_plain noQuote noBackslash plain lines rest

/-- What a character is written as begins with a backslash, unless it is the character itself. -/
theorem exists_escapeChar_eq_cons (lines : Bool) (c : Char) : ∃ first piece,
    escapeChar lines c = first :: piece ∧ (first = '\\' ∨ first = c ∧ c ≠ '\r') := by
  unfold escapeChar
  split
  · exact ⟨_, _, rfl, .inl rfl⟩
  split
  · exact ⟨_, _, rfl, .inl rfl⟩
  split
  · next lineBreak =>
    subst lineBreak
    cases lines with
    | false => exact ⟨_, _, rfl, .inl rfl⟩
    | true => exact ⟨_, _, rfl, .inr ⟨rfl, by decide⟩⟩
  split
  · exact ⟨_, _, rfl, .inl rfl⟩
  split
  · exact ⟨_, _, rfl, .inl rfl⟩
  split
  · exact ⟨_, _, rfl, .inl rfl⟩
  split
  · exact ⟨_, _, rfl, .inl rfl⟩
  · next noReturn _ _ _ => exact ⟨_, _, rfl, .inr ⟨rfl, noReturn⟩⟩

/-- Between double quotes a text is shown whatever its characters. -/
theorem shown_escapeText (lines : Bool) (quotes : Nat) (text : List Char) :
    Shown (readQuoted lines .off) '"' (freeQuotes lines) quotes text
      (escapeText lines quotes text) := by
  induction text generalizing quotes with
  | nil => exact .nil
  | cons c text ih =>
      by_cases quote : c = '"'
      · subst quote
        rw [escapeText, if_pos rfl]
        split
        · next free =>
          refine .quote ?_ (ih (quotes + 1))
          rw [freeQuotes, if_pos free.1]
          exact free.2
        · have taken : ∀ rest, readQuoted lines .off (['\\', '"'] ++ rest) =
              push '"' (readQuoted lines .off rest) := readQuoted_lettered (by decide) lines
          change Shown _ _ _ _ _ (['\\', '"'] ++ escapeText lines 0 text)
          exact .other (by decide) taken (ih 0)
      · obtain ⟨first, piece, written, head⟩ := exists_escapeChar_eq_cons lines c
        rw [escapeText_cons quote, written]
        refine .other ?_ (fun rest => written ▸ readQuoted_escapeChar quote lines rest) (ih 0)
        rcases head with rfl | ⟨rfl, _⟩
        · decide
        · exact quote

/-! ## Texts without escapes -/

theorem le_longestRun (c : Char) (current : Nat) (text : List Char) :
    current ≤ longestRun c current text := by
  induction text generalizing current with
  | nil => exact Nat.le_refl _
  | cons d text ih =>
      unfold longestRun
      split
      · exact Nat.le_of_succ_le (ih (current + 1))
      · exact Nat.le_max_left _ _

theorem longestRun_of_notMem {c : Char} (absent : c ∉ text) : longestRun c 0 text = 0 := by
  induction text with
  | nil => rfl
  | cons d text ih =>
      obtain ⟨other, absent⟩ := List.ne_and_not_mem_of_not_mem_cons absent
      rw [longestRun, if_neg (Ne.symm other), ih absent]
      rfl

theorem readLiteral_plain {c : Char} (noQuote : c ≠ '\'') {multi : Bool}
    (shows : needsEscape c = false) (breaks : c = '\n' → multi = true) (rest : List Char) :
    readLiteral multi (c :: rest) = push c (readLiteral multi rest) := by
  rw [readLiteral.eq_def]
  by_cases lineBreak : c = '\n'
  · simp [lineBreak, breaks lineBreak]
  · have plain := (isPlain_or_needsEscape lineBreak).resolve_right (by rw [shows]; decide)
    have noReturn : c ≠ '\r' := by
      rintro rfl
      cases plain
    simp [noQuote, lineBreak, noReturn, plain]

/-- Between single quotes a text is shown when its characters stand for themselves and its runs of
quotes are short. -/
theorem shown_literal {multi : Bool} (shows : ∀ c ∈ text, needsEscape c = false)
    (breaks : '\n' ∈ text → multi = true) (short : longestRun '\'' run text ≤ freeQuotes multi) :
    Shown (readLiteral multi) '\'' (freeQuotes multi) run text text := by
  induction text generalizing run with
  | nil => exact .nil
  | cons c text ih =>
      obtain ⟨showsFirst, showsLater⟩ := List.forall_mem_cons.mp shows
      have breaksLater : '\n' ∈ text → multi = true := fun member =>
        breaks (List.mem_cons_of_mem c member)
      rw [longestRun] at short
      by_cases quote : c = '\''
      · subst quote
        rw [if_pos rfl] at short
        have longer : run + 1 ≤ freeQuotes multi := Nat.le_trans (le_longestRun ..) short
        exact .quote longer (ih showsLater breaksLater short)
      · rw [if_neg quote] at short
        have breaksFirst : c = '\n' → multi = true := fun lineBreak =>
          breaks (lineBreak ▸ List.mem_cons_self)
        change Shown _ _ _ _ _ ([c] ++ text)
        exact .other quote (readLiteral_plain quote showsFirst breaksFirst)
          (ih showsLater breaksLater (Nat.le_trans (Nat.le_max_right _ _) short))

/-! ## Texts in any form -/

theorem dropBreak_of_head? (noBreak : text.head? ≠ some '\n') (noReturn : text.head? ≠ some '\r') :
    dropBreak text = text := by
  unfold dropBreak
  split <;> simp_all

/-- The break after an opening of three quotes does not count. -/
theorem dropBreak_openingBreak (noBreak : '\n' ∉ text → written.head? ≠ some '\n')
    (noReturn : written.head? ≠ some '\r') :
    dropBreak (openingBreak text ++ written) = written := by
  unfold openingBreak
  split
  · rfl
  · next absent =>
    exact dropBreak_of_head? (noBreak (by simpa using absent)) noReturn

/-- Only three quotes open a text over several lines. -/
theorem readString_quoted (noMark : written.head? ≠ some '"') (ends : rest.head? ≠ some '"') :
    readString ('"' :: (written ++ '"' :: rest)) =
      readQuoted false .off (written ++ '"' :: rest) := by
  unfold readString
  cases written <;> cases rest <;> simp_all

theorem readString_literal (noMark : written.head? ≠ some '\'') (ends : rest.head? ≠ some '\'') :
    readString ('\'' :: (written ++ '\'' :: rest)) =
      readLiteral false (written ++ '\'' :: rest) := by
  unfold readString
  cases written <;> cases rest <;> simp_all

/-- A reader that takes no quotes for themselves is shown none first. -/
theorem head?_of_shown (shown : Shown read mark 0 run text written) :
    written.head? ≠ some mark := by
  cases shown with
  | nil => simp
  | quote short later => cases short
  | other apart taken later => simpa using apart

/-- A written text begins neither with a return nor, unless it has line breaks, with one. -/
theorem head?_escapeText {c : Char} (hidden : c = '\r' ∨ c = '\n' ∧ '\n' ∉ text) (lines : Bool)
    (quotes : Nat) (rest : List Char) :
    (escapeText lines quotes text ++ '"' :: rest).head? ≠ some c := by
  have notMarks : '"' ≠ c ∧ '\\' ≠ c := by rcases hidden with rfl | ⟨rfl, _⟩ <;> decide
  cases text with
  | nil => simpa [escapeText] using notMarks.1
  | cons d text =>
      by_cases quote : d = '"'
      · rw [escapeText, if_pos quote, quote]
        split
        · simpa using notMarks.1
        · simpa using notMarks.2
      · obtain ⟨first, piece, written, head⟩ := exists_escapeChar_eq_cons lines d
        rw [escapeText_cons quote, written]
        rcases head with rfl | ⟨rfl, noReturn⟩
        · simpa using notMarks.2
        · have other : first ≠ c := by
            rcases hidden with rfl | ⟨rfl, noBreak⟩
            · exact noReturn
            · exact Ne.symm (List.ne_and_not_mem_of_not_mem_cons noBreak).1
          simpa using other

theorem head?_of_notMem {c first : Char} (absent : c ∉ text) (other : first ≠ c)
    (rest : List Char) : (text ++ first :: rest).head? ≠ some c := by
  cases text with
  | nil => simpa using other
  | cons d text => simpa using Ne.symm (List.ne_and_not_mem_of_not_mem_cons absent).1

theorem literal_of_formFor (form : formFor text = .literal) :
    (∀ c ∈ text, needsEscape c = false) ∧ '\'' ∉ text ∧ '\n' ∉ text := by
  simp only [formFor] at form
  split at form
  · cases form
  split at form
  · next shows => simpa [List.any_eq_false, and_assoc] using shows
  split at form
  · cases form
  split at form
  · cases form
  split at form <;> cases form

theorem literalLines_of_formFor (form : formFor text = .literalLines) :
    (∀ c ∈ text, needsEscape c = false) ∧ longestRun '\'' 0 text ≤ 2 := by
  simp only [formFor] at form
  split at form
  · cases form
  split at form
  · cases form
  split at form
  · cases form
  split at form
  · next shows => simpa [List.any_eq_false] using shows
  split at form <;> cases form

theorem readString_quotedLines (text : List Char) (noReturn : written.head? ≠ some '\r')
    (noBreak : '\n' ∉ text → written.head? ≠ some '\n') :
    readString ('"' :: '"' :: '"' :: (openingBreak text ++ written)) =
      readQuoted true .off written := by
  rw [readString, dropBreak_openingBreak noBreak noReturn]

theorem readString_literalLines (text : List Char) (noReturn : written.head? ≠ some '\r')
    (noBreak : '\n' ∉ text → written.head? ≠ some '\n') :
    readString ('\'' :: '\'' :: '\'' :: (openingBreak text ++ written)) =
      readLiteral true written := by
  rw [readString, dropBreak_openingBreak noBreak noReturn]

/-- **Every text is read back from the form that it is written in.** -/
theorem readString_quote (value : String) (rest : List Char) :
    readString (quote value ++ '\n' :: rest) = some (value.toList, '\n' :: rest) := by
  have endsQuoted : ('\n' :: rest).head? ≠ some '"' := by simp
  have endsLiteral : ('\n' :: rest).head? ≠ some '\'' := by simp
  cases form : formFor value.toList with
  | basic =>
      have shown := shown_escapeText false 0 value.toList
      have read : readQuoted false .off (escapeText false 0 value.toList ++ ['"'] ++ '\n' :: rest) =
          some (value.toList, '\n' :: rest) :=
        read_of_shown (tellsRuns_quoted false) shown endsQuoted
      rw [List.append_assoc, List.singleton_append] at read
      simp only [quote, form, List.cons_append, List.append_assoc, List.nil_append]
      rw [readString_quoted (head?_of_shown shown) endsQuoted, read]
  | literal =>
      obtain ⟨shows, noQuote, noBreak⟩ := literal_of_formFor form
      have shown : Shown (readLiteral false) '\'' 0 0 value.toList value.toList :=
        shown_literal shows (fun member => absurd member noBreak)
          (Nat.le_of_eq (longestRun_of_notMem noQuote))
      have read : readLiteral false (value.toList ++ ['\''] ++ '\n' :: rest) =
          some (value.toList, '\n' :: rest) :=
        read_of_shown (tellsRuns_literal false) shown endsLiteral
      rw [List.append_assoc, List.singleton_append] at read
      simp only [quote, form, List.cons_append, List.append_assoc, List.nil_append]
      rw [readString_literal (head?_of_shown shown) endsLiteral, read]
  | basicLines =>
      have read : readQuoted true .off
          (escapeText true 0 value.toList ++ ['"', '"', '"'] ++ '\n' :: rest) =
            some (value.toList, '\n' :: rest) :=
        read_of_shown (tellsRuns_quoted true) (shown_escapeText true 0 value.toList) endsQuoted
      simp only [quote, form, List.cons_append, List.append_assoc, List.nil_append] at read ⊢
      rw [readString_quotedLines value.toList (head?_escapeText (.inl rfl) true 0 _)
        (fun noBreak => head?_escapeText (.inr ⟨rfl, noBreak⟩) true 0 _), read]
  | literalLines =>
      obtain ⟨shows, short⟩ := literalLines_of_formFor form
      have shown : Shown (readLiteral true) '\'' 2 0 value.toList value.toList :=
        shown_literal shows (fun _ => rfl) short
      have read : readLiteral true (value.toList ++ ['\'', '\'', '\''] ++ '\n' :: rest) =
          some (value.toList, '\n' :: rest) :=
        read_of_shown (tellsRuns_literal true) shown endsLiteral
      simp only [quote, form, List.cons_append, List.append_assoc, List.nil_append] at read ⊢
      have noReturn : '\r' ∉ value.toList := fun member => absurd (shows _ member) (by decide)
      rw [readString_literalLines value.toList (head?_of_notMem noReturn (by decide) _)
        (fun noBreak => head?_of_notMem noBreak (by decide) _), read]

/-- Of the four quotes at the end the first stands for itself. -/
example : quote "it's \"so\"" = "\"\"\"it's \"so\"\"\"\"".toList := by decide +kernel

theorem exists_quote_eq_cons (value : String) :
    ∃ mark body, quote value = mark :: body ∧ (mark = '"' ∨ mark = '\'') := by
  cases form : formFor value.toList <;> simp [quote, form]

end Toml

end ModuleRoutes
