import Mathlib.Data.List.TakeWhile
import ModuleRoutes.Http.Form
import ModuleRoutes.Http.Target
import ModuleRoutes.Proofs.Name.Token
import ModuleRoutes.Proofs.Text.Utf8

/-!
# Plain texts in requests

A path without marks of its own is the whole target of a request line
(`ModuleRoutes.Http.Target.parse?_of_isPathChar`). Letters, digits and the four marks that are never
reserved stand for themselves there, so that a text of them is decoded to itself
(`ModuleRoutes.Http.decodePathPart?_of_isUnreserved`).
-/

namespace ModuleRoutes

namespace Http

/-- A character that is not reserved for the parts of a target: a letter, a digit, or one of four
marks. -/
def isUnreserved (c : Char) : Bool :=
  c.isAlphanum || c = '-' || c = '.' || c = '_' || c = '~'

theorem isAscii_of_isUnreserved {c : Char} (unreserved : isUnreserved c = true) :
    c.toNat < 128 := by
  simp only [isUnreserved, Bool.or_eq_true, decide_eq_true_eq] at unreserved
  rcases unreserved with (((alphanumeric | rfl) | rfl) | rfl) | rfl
  · exact Name.isAscii_of_isAlphanum alphanumeric
  all_goals decide

/-- A character that stands for itself in the path of a target and in its bytes. -/
structure IsPlainChar (c : Char) : Prop where
  noSlash : c ≠ '/'
  noColon : c ≠ ':'
  isPathChar : isPathChar c = true
  noPercent : 0x25 ∉ String.utf8EncodeChar c

theorem isPlainChar_of_isUnreserved {c : Char} (unreserved : isUnreserved c = true) :
    IsPlainChar c := by
  have each := Name.of_all_ascii (P := fun c => isUnreserved c = true → c ≠ '/' ∧ c ≠ ':' ∧
    isPathChar c = true ∧ 0x25 ∉ String.utf8EncodeChar c)
    (by decide +kernel) (isAscii_of_isUnreserved unreserved)
  obtain ⟨noSlash, noColon, isPathChar, noPercent⟩ := each unreserved
  exact ⟨noSlash, noColon, isPathChar, noPercent⟩

/-! ## Decoding -/

theorem percentDecode_eq_self {bytes : List UInt8} (plain : 0x25 ∉ bytes) :
    percentDecode bytes = bytes := by
  induction bytes with
  | nil => rfl
  | cons b bytes ih =>
    obtain ⟨first, rest⟩ := List.ne_and_not_mem_of_not_mem_cons plain
    unfold percentDecode
    split
    · next same => exact absurd (List.cons.inj same).1.symm first
    · next same =>
      obtain ⟨rfl, rfl⟩ := List.cons.inj same
      rw [ih rest]
    · next none => cases none

/-- A text without reserved characters stands for itself in a path. -/
theorem decodePathPart?_of_isUnreserved {text : List Char}
    (unreserved : ∀ c ∈ text, isUnreserved c = true) : decodePathPart? text = some text := by
  have plain : 0x25 ∉ Text.encodeUtf8 text := by
    intro percent
    obtain ⟨c, member, inBytes⟩ := List.mem_flatMap.mp percent
    exact (isPlainChar_of_isUnreserved (unreserved c member)).noPercent inBytes
  rw [decodePathPart?, percentDecode_eq_self plain, Text.decodeUtf8?_eq_some_iff]

/-! ## Targets -/

/-- A path of characters that may stand in paths is a target of its own, unless it is too long. -/
theorem Target.parse?_of_isPathChar {text : String} {rest : List Char}
    (rooted : text.toList = '/' :: rest) (chars : ∀ c ∈ text.toList, isPathChar c = true)
    (short : text.utf8ByteSize ≤ targetLimit) :
    Target.parse? text = some ⟨text.toList, none⟩ := by
  have noMark : ∀ c ∈ text.toList, (decide (c ≠ '?') && decide (c ≠ '#')) = true := by
    intro c member
    have isPathChar := chars c member
    rw [Bool.and_eq_true, decide_eq_true_iff, decide_eq_true_iff]
    constructor <;> rintro rfl <;> exact absurd isPathChar (by decide)
  have taken := List.takeWhile_eq_self_iff.mpr noMark
  have dropped := List.dropWhile_eq_nil_iff.mpr noMark
  have read : readPath? text.toList = some ⟨text.toList, none⟩ := by
    rw [readPath?]
    simp only [taken, dropped, List.all_eq_true.mpr chars, if_true]
  rw [Target.parse?, if_neg (Nat.not_lt.mpr short)]
  rw [rooted] at read ⊢
  exact read

end Http

end ModuleRoutes
