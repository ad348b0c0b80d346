import Mathlib.Data.List.TakeWhile
import ModuleRoutes.Http.Merge
import ModuleRoutes.Proofs.Name.Token
import ModuleRoutes.Proofs.Number.Overflow

/-!
# Numerals

The texts that are read as numbers (`ModuleRoutes.Http.Writes`): digits with perhaps a point among
or beside them and perhaps an exponent, and the names of what is no finite number, both behind a
sign or without one. Numerals whose magnitude is not below the bound of overflow stand for infinity.
Exactly these texts are read, each as the number that it writes
(`ModuleRoutes.Http.numberOf?_eq_some_iff`).
-/

namespace ModuleRoutes

namespace Http

open Number Text

/-! ## Grammar -/

/-- The sign of a number, and whether it makes the number negative. -/
inductive IsSign : List Char → Bool → Prop
  | absent : IsSign [] false
  | plus : IsSign ['+'] false
  | minus : IsSign ['-'] true

/-- A list of digits. -/
def AreDigits (digits : List Char) : Prop := ∀ c ∈ digits, c.isDigit = true

/-- The end of a number that gives its exponent. -/
inductive IsExponent : List Char → Int → Prop
  | absent : IsExponent [] 0
  | written {mark : Char} {sign digits : List Char} {negative : Bool}
      (isMark : mark = 'e' ∨ mark = 'E') (isSign : IsSign sign negative)
      (areDigits : AreDigits digits) (some : digits ≠ []) :
      IsExponent (mark :: (sign ++ digits))
        (if negative then -(numberOf digits : Int) else numberOf digits)

/-- Decimal notation without a sign: all its digits, and the power of ten that they count. -/
inductive IsDecimal : List Char → Nat → Int → Prop
  | whole {whole tail : List Char} {exponent : Int} (areDigits : AreDigits whole)
      (some : whole ≠ []) (isExponent : IsExponent tail exponent) :
      IsDecimal (whole ++ tail) (numberOf whole) exponent
  | pointed {whole fraction tail : List Char} {exponent : Int}
      (areDigits : AreDigits (whole ++ fraction)) (some : whole ++ fraction ≠ [])
      (isExponent : IsExponent tail exponent) :
      IsDecimal (whole ++ '.' :: (fraction ++ tail)) (numberOf (whole ++ fraction))
        (exponent - fraction.length)

/-- The names of infinity, whatever their case. -/
def NamesInfinity (name : List Char) : Prop :=
  lowerAscii name = "inf".toList ∨ lowerAscii name = "infinity".toList

instance : DecidablePred NamesInfinity := fun _ => inferInstanceAs (Decidable (_ ∨ _))

/-- A text that stands for a number. -/
inductive Writes : List Char → Extended → Prop
  | finite {sign text : List Char} {negative : Bool} {digits : Nat} {exponent : Int} {x : Binary64}
      (isSign : IsSign sign negative) (isDecimal : IsDecimal text digits exponent)
      (rounds : Binary64.ofDecimal negative digits exponent = some x) :
      Writes (sign ++ text) (.finite x)
  | beyond {sign text : List Char} {negative : Bool} {digits : Nat} {exponent : Int}
      (isSign : IsSign sign negative) (isDecimal : IsDecimal text digits exponent)
      (exceeds : overflow ≤ digits * (10 : ℚ) ^ exponent) :
      Writes (sign ++ text) (.infinite negative)
  | infinite {sign name : List Char} {negative : Bool} (isSign : IsSign sign negative)
      (isName : NamesInfinity name) :
      Writes (sign ++ name) (.infinite negative)
  | undefined {sign name : List Char} {negative : Bool} (isSign : IsSign sign negative)
      (isName : lowerAscii name = "nan".toList) :
      Writes (sign ++ name) .undefined

variable {text rest digits : List Char} {negative : Bool}

/-! ## Reading -/

theorem digitsOf_eq (text : List Char) :
    ∃ digits rest, digitsOf text = (digits, rest) ∧ text = digits ++ rest ∧ AreDigits digits := by
  exact ⟨_, _, rfl, List.takeWhile_append_dropWhile.symm, fun c => List.mem_takeWhile_imp⟩

/-- The digits at the front of a text are all that stand there if no digit follows. -/
theorem digitsOf_append (areDigits : AreDigits digits)
    (ends : ∀ c ∈ rest.head?, c.isDigit = false) : digitsOf (digits ++ rest) = (digits, rest) := by
  rw [digitsOf, List.takeWhile_append_of_pos areDigits, List.dropWhile_append_of_pos areDigits]
  cases rest with
  | nil => rw [List.takeWhile_nil, List.dropWhile_nil, List.append_nil]
  | cons c rest =>
      have ends : c.isDigit ≠ true := by rw [ends c rfl]; decide
      rw [List.takeWhile_cons_of_neg ends, List.dropWhile_cons_of_neg ends, List.append_nil]

theorem numberSign_eq (text : List Char) :
    ∃ sign negative rest, numberSign text = (negative, rest) ∧ text = sign ++ rest ∧
      IsSign sign negative := by
  unfold numberSign
  split
  · exact ⟨['-'], _, _, rfl, rfl, .minus⟩
  · exact ⟨['+'], _, _, rfl, rfl, .plus⟩
  · exact ⟨[], _, _, rfl, rfl, .absent⟩

theorem numberSign_append {sign : List Char} (isSign : IsSign sign negative)
    (free : ∀ c ∈ text.head?, c ≠ '-' ∧ c ≠ '+') :
    numberSign (sign ++ text) = (negative, text) := by
  cases isSign with
  | plus => rfl
  | minus => rfl
  | absent =>
      rw [List.nil_append]
      unfold numberSign
      split
      · exact absurd rfl (free _ rfl).1
      · exact absurd rfl (free _ rfl).2
      · rfl

theorem exponentOf?_eq_some_iff {exponent : Int} :
    exponentOf? text = some exponent ↔ IsExponent text exponent := by
  constructor
  · intro read
    cases text with
    | nil =>
        cases read
        exact .absent
    | cons mark rest =>
        rw [exponentOf?] at read
        split at read
        case isFalse => cases read
        case isTrue isMark =>
          obtain ⟨sign, negative, rest, signed, rfl, isSign⟩ := numberSign_eq rest
          obtain ⟨digits, after, taken, rfl, areDigits⟩ := digitsOf_eq rest
          rw [signed] at read
          dsimp only at read
          rw [taken] at read
          split at read
          case isTrue => cases read
          case isFalse whole =>
            simp only [not_or, List.isEmpty_iff, Bool.not_eq_true', Bool.not_eq_false] at whole
            obtain ⟨some, rfl⟩ := whole
            cases read
            rw [List.append_nil]
            exact .written isMark isSign areDigits some
  · rintro (_ | ⟨isMark, isSign, areDigits, some⟩)
    · rfl
    · rename_i mark sign digits negative
      have free : ∀ c ∈ digits.head?, c ≠ '-' ∧ c ≠ '+' := by
        intro c head
        have isDigit := areDigits c (List.mem_of_mem_head? head)
        constructor <;> rintro rfl <;> exact absurd isDigit (by decide)
      rw [exponentOf?, if_pos isMark, numberSign_append isSign free]
      have taken := @digitsOf_append [] digits areDigits nofun
      rw [List.append_nil] at taken
      simp [taken, some]

/-- The number nearest to one in decimal notation, infinity where there is none. -/
def nearest (negative : Bool) (digits : Nat) (exponent : Int) : Extended :=
  (Binary64.ofDecimal negative digits exponent).elim (.infinite negative) .finite

theorem decimalNumber?_of_whole {whole tail : List Char} (taken : digitsOf text = (whole, tail))
    (noPoint : '.' ∉ tail.head?) :
    decimalNumber? negative text =
      if whole = [] then none else (exponentOf? tail).map (nearest negative (numberOf whole)) := by
  rw [decimalNumber?, taken]
  dsimp only
  split
  · exact absurd rfl noPoint
  · simp only [List.isEmpty_nil, and_true, List.isEmpty_iff, List.append_nil, List.length_nil,
      Nat.cast_zero, sub_zero]
    congr 1
    cases exponentOf? tail with
    | none => rfl
    | some exponent =>
        rw [Option.map_some, nearest]
        dsimp only [bind, Option.bind]
        cases Binary64.ofDecimal negative (numberOf whole) exponent <;> rfl

theorem decimalNumber?_of_pointed {whole fraction after tail : List Char}
    (taken : digitsOf text = (whole, '.' :: after))
    (takenAfter : digitsOf after = (fraction, tail)) :
    decimalNumber? negative text =
      if whole ++ fraction = [] then none
      else (exponentOf? tail).map fun exponent =>
        nearest negative (numberOf (whole ++ fraction)) (exponent - fraction.length) := by
  simp only [decimalNumber?, taken, takenAfter, List.isEmpty_iff, List.append_eq_nil_iff]
  congr 1
  cases exponentOf? tail with
  | none => rfl
  | some exponent =>
      rw [Option.map_some, nearest]
      dsimp only [bind, Option.bind]
      cases Binary64.ofDecimal negative (numberOf (whole ++ fraction))
        (exponent - fraction.length) <;> rfl

theorem IsExponent.head {tail : List Char} {exponent : Int}
    (isExponent : IsExponent tail exponent) : ∀ c ∈ tail.head?, c.isDigit = false ∧ c ≠ '.' := by
  rcases isExponent with _ | ⟨rfl | rfl, -, -, -⟩
  · exact nofun
  · rintro c ⟨⟩
    decide
  · rintro c ⟨⟩
    decide

theorem decimalNumber?_eq_some_iff {number : Extended} :
    decimalNumber? negative text = some number ↔
      ∃ digits exponent, IsDecimal text digits exponent ∧
        nearest negative digits exponent = number := by
  constructor
  · intro read
    obtain ⟨whole, rest, taken, rfl, wholeDigits⟩ := digitsOf_eq text
    by_cases point : '.' ∈ rest.head?
    · obtain ⟨after, rfl⟩ := List.head?_eq_some_iff.mp point
      obtain ⟨fraction, tail, takenAfter, rfl, fractionDigits⟩ := digitsOf_eq after
      rw [decimalNumber?_of_pointed taken takenAfter, Option.ite_none_left_eq_some] at read
      obtain ⟨some, read⟩ := read
      obtain ⟨exponent, readExponent, rfl⟩ := Option.map_eq_some_iff.mp read
      exact ⟨_, _, .pointed (List.forall_mem_append.mpr ⟨wholeDigits, fractionDigits⟩) some
        (exponentOf?_eq_some_iff.mp readExponent), rfl⟩
    · rw [decimalNumber?_of_whole taken point, Option.ite_none_left_eq_some] at read
      obtain ⟨some, read⟩ := read
      obtain ⟨exponent, readExponent, rfl⟩ := Option.map_eq_some_iff.mp read
      exact ⟨_, _, .whole wholeDigits some (exponentOf?_eq_some_iff.mp readExponent), rfl⟩
  · rintro ⟨_, _, @⟨whole, tail, exponent, areDigits, some, isExponent⟩ |
      @⟨whole, fraction, tail, exponent, areDigits, some, isExponent⟩, rfl⟩
    · have taken := digitsOf_append areDigits fun c head => (isExponent.head c head).1
      rw [decimalNumber?_of_whole taken fun head => (isExponent.head _ head).2 rfl, if_neg some,
        exponentOf?_eq_some_iff.mpr isExponent, Option.map_some]
    · obtain ⟨wholeDigits, fractionDigits⟩ := List.forall_mem_append.mp areDigits
      have taken := @digitsOf_append ('.' :: (fraction ++ tail)) whole wholeDigits
        (by rintro c ⟨⟩; decide)
      have takenAfter := digitsOf_append fractionDigits fun c head => (isExponent.head c head).1
      rw [decimalNumber?_of_pointed taken takenAfter, if_neg some,
        exponentOf?_eq_some_iff.mpr isExponent, Option.map_some]

/-! ## Numbers with names -/

theorem not_namesInfinity {name : List Char} (isNan : lowerAscii name = "nan".toList) :
    ¬NamesInfinity name := by
  rintro (same | same) <;> exact absurd (isNan.symm.trans same) (by decide)

theorem numberOf?_eq (signed : numberSign text = (negative, rest)) :
    numberOf? text =
      if NamesInfinity rest then some (.infinite negative)
      else if lowerAscii rest = "nan".toList then some .undefined
      else decimalNumber? negative rest := by
  have spelled : ∀ name : String, String.ofList (lowerAscii rest) = name ↔
      lowerAscii rest = name.toList := by
    intro name
    rw [← String.toList_inj, String.toList_ofList]
  rw [numberOf?, signed]
  dsimp only
  split
  · next isInf => rw [if_pos (.inl ((spelled _).mp isInf))]
  · next isInfinity => rw [if_pos (.inr ((spelled _).mp isInfinity))]
  · next isNan =>
      rw [spelled] at isNan
      rw [if_neg (not_namesInfinity isNan), if_pos isNan]
  · next notInf notInfinity notNan =>
      rw [spelled] at notInf notInfinity notNan
      have unnamed : ¬NamesInfinity rest := not_or.mpr ⟨notInf, notInfinity⟩
      rw [if_neg unnamed, if_neg notNan]

/-- A character that decimal notation without a sign may begin with is no sign and no letter. -/
theorem not_isAlpha_of_isDigit_or_point {c : Char} (first : c.isDigit = true ∨ c = '.') :
    (c ≠ '-' ∧ c ≠ '+') ∧ c.toLower.isAlpha = false := by
  have ascii : c.toNat < 128 := by
    rcases first with digit | rfl
    · exact Name.isAscii_of_isAlphanum (by rw [Char.isAlphanum, digit, Bool.or_true])
    · decide
  revert first
  exact Name.of_all_ascii (P := fun c => c.isDigit = true ∨ c = '.' →
    (c ≠ '-' ∧ c ≠ '+') ∧ c.toLower.isAlpha = false) (by decide +kernel) ascii

theorem IsDecimal.head {digits : Nat} {exponent : Int}
    (isDecimal : IsDecimal text digits exponent) :
    ∃ c rest, text = c :: rest ∧ (c.isDigit = true ∨ c = '.') := by
  rcases isDecimal with @⟨whole, tail, exponent, areDigits, some, -⟩ |
    @⟨whole, fraction, tail, exponent, areDigits, -, -⟩
  · obtain ⟨c, rest, rfl⟩ := List.exists_cons_of_ne_nil some
    exact ⟨c, _, rfl, .inl (areDigits c List.mem_cons_self)⟩
  · cases whole with
    | nil => exact ⟨'.', _, rfl, .inr rfl⟩
    | cons c whole => exact ⟨c, _, rfl, .inl (areDigits c List.mem_cons_self)⟩

/-- A text with a letter in front, whatever its case. -/
def IsLettered (text : List Char) : Prop := ∃ c ∈ text.head?, c.toLower.isAlpha = true

theorem isLettered_of_lowerAscii {first : Char} {others : List Char}
    (spelled : lowerAscii text = first :: others) (letter : first.isAlpha = true) :
    IsLettered text := by
  cases text with
  | nil => cases spelled
  | cons c rest => exact ⟨c, rfl, (List.cons.inj spelled).1 ▸ letter⟩

theorem IsLettered.free (lettered : IsLettered text) : ∀ c ∈ text.head?, c ≠ '-' ∧ c ≠ '+' := by
  obtain ⟨c, head, letter⟩ := lettered
  intro other same
  obtain rfl := Option.mem_unique head same
  constructor <;> rintro rfl <;> exact absurd letter (by decide)

theorem IsLettered.not_isDecimal (lettered : IsLettered text) {digits : Nat} {exponent : Int} :
    ¬IsDecimal text digits exponent := by
  intro isDecimal
  obtain ⟨c, rest, rfl, first⟩ := isDecimal.head
  obtain ⟨other, ⟨⟩, letter⟩ := lettered
  rw [(not_isAlpha_of_isDigit_or_point first).2] at letter
  cases letter

theorem NamesInfinity.isLettered {name : List Char} (isName : NamesInfinity name) :
    IsLettered name :=
  isName.elim (isLettered_of_lowerAscii · (by decide)) (isLettered_of_lowerAscii · (by decide))

/-- A text with a letter in front that is no name of a number is not read as one. -/
theorem numberOf?_of_isLettered (lettered : IsLettered text) (unnamed : ¬NamesInfinity text)
    (notNan : lowerAscii text ≠ "nan".toList) : numberOf? text = none := by
  have signed : numberSign text = (false, text) := numberSign_append .absent lettered.free
  rw [numberOf?_eq signed, if_neg unnamed, if_neg notNan, Option.eq_none_iff_forall_ne_some]
  intro number read
  obtain ⟨digits, exponent, isDecimal, -⟩ := decimalNumber?_eq_some_iff.mp read
  exact lettered.not_isDecimal isDecimal

theorem numberOf?_of_isDecimal {sign : List Char} {digits : Nat} {exponent : Int}
    (isSign : IsSign sign negative) (isDecimal : IsDecimal text digits exponent) :
    numberOf? (sign ++ text) = some (nearest negative digits exponent) := by
  have free : ∀ c ∈ text.head?, c ≠ '-' ∧ c ≠ '+' := by
    obtain ⟨c, rest, rfl, first⟩ := isDecimal.head
    rintro _ ⟨⟩
    exact (not_isAlpha_of_isDigit_or_point first).1
  have unnamed : ¬NamesInfinity text := fun isName => isName.isLettered.not_isDecimal isDecimal
  have notNan : lowerAscii text ≠ "nan".toList := fun isNan =>
    (isLettered_of_lowerAscii isNan (by decide)).not_isDecimal isDecimal
  rw [numberOf?_eq (numberSign_append isSign free), if_neg unnamed, if_neg notNan]
  exact decimalNumber?_eq_some_iff.mpr ⟨_, _, isDecimal, rfl⟩

/-- **Numerals.** A text is read as a number exactly if it writes this number. -/
theorem numberOf?_eq_some_iff {number : Extended} :
    numberOf? text = some number ↔ Writes text number := by
  constructor
  · intro read
    obtain ⟨sign, negative, rest, signed, rfl, isSign⟩ := numberSign_eq text
    rw [numberOf?_eq signed] at read
    split at read
    case isTrue isName =>
      cases read
      exact .infinite isSign isName
    split at read
    case isTrue isName =>
      cases read
      exact .undefined isSign isName
    obtain ⟨digits, exponent, isDecimal, rfl⟩ := decimalNumber?_eq_some_iff.mp read
    rw [nearest]
    cases rounds : Binary64.ofDecimal negative digits exponent with
    | some x => exact .finite isSign isDecimal rounds
    | none => exact .beyond isSign isDecimal (Binary64.ofDecimal_eq_none_iff.mp rounds)
  · rintro (⟨isSign, isDecimal, rounds⟩ | ⟨isSign, isDecimal, exceeds⟩ | ⟨isSign, isName⟩ |
      ⟨isSign, isName⟩)
    · rw [numberOf?_of_isDecimal isSign isDecimal, nearest, rounds]
      rfl
    · rw [numberOf?_of_isDecimal isSign isDecimal, nearest,
        Binary64.ofDecimal_eq_none_iff.mpr exceeds]
      rfl
    · rw [numberOf?_eq (numberSign_append isSign isName.isLettered.free), if_pos isName]
    · have lettered := isLettered_of_lowerAscii isName (by decide)
      rw [numberOf?_eq (numberSign_append isSign lettered.free),
        if_neg (not_namesInfinity isName), if_pos isName]

end Http

end ModuleRoutes
