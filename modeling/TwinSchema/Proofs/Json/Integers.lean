import TwinSchema.Json.Reader
import TwinSchema.Proofs.Text.Literal

/-!
# Integer literals

An integer literal is a run of digits, perhaps after a minus, that stands apart
from words and from quoted literals and has neither a fraction nor an exponent.
A scan finds the literals of a text from left to right, with no look ahead.
-/

namespace TwinSchema.Json

open Text

/-- Blanks, and the signs of JSON that a value may follow. -/
def precedesValue (char : Char) : Bool :=
  isBlank char || char == '{' || char == '[' || char == ',' || char == ':'

/-- Whether a text goes on with more of a number: a digit, a fraction or an
exponent. -/
def continuesNumber : List Char → Bool
  | [] => false
  | char :: rest =>
      isDigit char || (char == '.' && rest.head?.any isDigit) ||
        ((char == 'e' || char == 'E') && (splitSign rest).2.head?.any isDigit)

/-- The minus of a negative number. -/
def minusSign (negative : Bool) : List Char := if negative then ['-'] else []

/-- An integer literal in a text, where the given quotes open literals that hold
no integers. -/
structure IntegerLiteral (quotes text : List Char) where
  before : List Char
  negative : Bool
  digits : List Char
  after : List Char
  whole : text = before ++ (minusSign negative ++ (digits ++ after))
  outside : Cursor.code.after quotes before = .code
  apart : before.getLast?.all precedesValue = true
  numeric : ∀ char ∈ digits, isDigit char = true
  ends : continuesNumber after = false

/-- Where a scan for integers stands outside literals: where a value may begin,
after its minus, in its digits, after its point, after the letter of its
exponent, after the sign of that, or in anything else. -/
inductive NumberScan where
  | apart
  | minus
  | whole (digits : Nat)
  | point (digits : Nat)
  | mark (digits : Nat)
  | power (digits : Nat)
  | word
  deriving DecidableEq, Repr

namespace NumberScan

/-- Where a scan stands after a character that is no part of a number. -/
def afterOther (char : Char) : NumberScan :=
  if precedesValue char then .apart else .word

/-- Where a scan stands after one more character. -/
def advance (char : Char) : NumberScan → NumberScan
  | .apart =>
      if isDigit char then .whole 1
      else if char = '-' then .minus
      else afterOther char
  | .minus => if isDigit char then .whole 1 else afterOther char
  | .whole digits =>
      if isDigit char then .whole (digits + 1)
      else if char = '.' then .point digits
      else if char = 'e' ∨ char = 'E' then .mark digits
      else afterOther char
  | .mark digits =>
      if char = '+' ∨ char = '-' then .power digits else afterOther char
  | .point _ | .power _ | .word => afterOther char

/-- The digits of the integer that ends here, unless the text goes on with more
of its number. -/
def integer? : NumberScan → Option Nat
  | .whole digits | .point digits | .mark digits | .power digits => some digits
  | _ => none

/-- Whether a character is more of the number that a scan stands in. -/
def goesOn (char : Char) : NumberScan → Bool
  | .whole _ => isDigit char || char == '.' || char == 'e' || char == 'E'
  | .mark _ => isDigit char || char == '+' || char == '-'
  | _ => isDigit char

/-- The digits of the integer that ends before what comes next. -/
def ended (scan : NumberScan) (next : Option Char) : List Nat :=
  if next.any fun char => scan.goesOn char then [] else scan.integer?.toList

end NumberScan

/-- The numbers of digits of the integers in a text, where a scan stands at its
beginning. -/
def integersFrom (quotes : List Char) : Cursor → NumberScan → List Char → List Nat
  | .code, scan, [] => scan.ended none
  | .code, scan, char :: rest =>
      scan.ended (some char) ++
        if char ∈ quotes then integersFrom quotes (.literal char) .word rest
        else integersFrom quotes .code (scan.advance char) rest
  | _, _, [] => []
  | cursor, _, char :: rest =>
      integersFrom quotes (cursor.advance quotes char) .word rest

section Steps

variable {quotes : List Char} {char : Char}

theorem integersFrom_code (code : char ∉ quotes) (scan : NumberScan)
    (rest : List Char) :
    integersFrom quotes .code scan (char :: rest) =
      scan.ended (some char) ++ integersFrom quotes .code (scan.advance char) rest := by
  rw [integersFrom, if_neg code]

theorem integersFrom_quote (quote : char ∈ quotes) (scan : NumberScan)
    (rest : List Char) :
    integersFrom quotes .code scan (char :: rest) =
      scan.ended (some char) ++ integersFrom quotes (.literal char) .word rest := by
  rw [integersFrom, if_pos quote]

section Literals

variable {quote : Char} (scan : NumberScan) (rest : List Char)

/-- Inside a literal it does not matter where a scan for integers stands. -/
theorem integersFrom_literal (other : NumberScan) :
    integersFrom quotes (.literal quote) scan rest =
      integersFrom quotes (.literal quote) other rest := by
  cases rest <;> rfl

theorem integersFrom_body (noEscape : char ≠ '\\') (different : char ≠ quote) :
    integersFrom quotes (.literal quote) scan (char :: rest) =
      integersFrom quotes (.literal quote) .word rest := by
  simp [integersFrom, Cursor.advance, noEscape, different]

theorem integersFrom_closing (noEscape : quote ≠ '\\') :
    integersFrom quotes (.literal quote) scan (quote :: rest) =
      integersFrom quotes .code .word rest := by
  simp [integersFrom, Cursor.advance, noEscape]

end Literals

/-- Behind code a scan goes on from its next place. -/
theorem integersFrom_advance (code : char ∉ quotes) (scan : NumberScan)
    (rest : List Char) :
    integersFrom quotes .code (scan.advance char) rest ⊆
      integersFrom quotes .code scan (char :: rest) := by
  rw [integersFrom_code code]
  exact List.subset_append_right _ _

/-- The characters of numbers. -/
def isNumberChar (char : Char) : Bool :=
  isDigit char || char == '.' || char == 'e' || char == 'E' || char == '+' ||
    char == '-'

theorem precedesValue_of_isDigit (digit : isDigit char = true) :
    precedesValue char = false := by
  have range : 48 ≤ char.toNat ∧ char.toNat ≤ 57 := by
    simpa [isDigit, Char.le_def, UInt32.le_iff_toNat_le] using digit
  have apart {other : Char} (outside : other.toNat < 48 ∨ 57 < other.toNat) :
      char ≠ other := by
    rintro rfl
    omega
  have noBlank : isBlank char = false := by
    simp only [isBlank, Bool.or_eq_false_iff, Bool.and_eq_false_iff,
      decide_eq_false_iff_not, beq_eq_false_iff_ne]
    omega
  simp only [precedesValue, noBlank, Bool.false_or, Bool.or_eq_false_iff,
    beq_eq_false_iff_ne]
  exact ⟨⟨⟨apart (by decide), apart (by decide)⟩, apart (by decide)⟩,
    apart (by decide)⟩

theorem isNumberChar_of_precedesValue (precedes : precedesValue char = true) :
    isNumberChar char = false := by
  rw [Bool.eq_false_iff]
  intro number
  simp only [isNumberChar, Bool.or_eq_true, beq_iff_eq] at number
  rcases number with ((((digit | rfl) | rfl) | rfl) | rfl) | rfl
  · rw [precedesValue_of_isDigit digit] at precedes
    cases precedes
  all_goals cases precedes

namespace NumberScan

variable (other : isNumberChar char = false) (scan : NumberScan)

include other

theorem advance_of_other : scan.advance char = afterOther char := by
  simp only [isNumberChar, Bool.or_eq_false_iff, beq_eq_false_iff_ne] at other
  cases scan <;> simp [advance, other]

theorem ended_of_other : scan.ended (some char) = scan.integer?.toList := by
  simp only [isNumberChar, Bool.or_eq_false_iff, beq_eq_false_iff_ne] at other
  cases scan <;> simp [ended, goesOn, other]

end NumberScan

end Steps

section Finding

variable {quotes before tail rest : List Char} {count : Nat}

/-- A text that ends with the beginning of a number: its digits, and a `tail`
that may turn out to be no part of it. -/
def Started (quotes before : List Char) (count : Nat) (tail : List Char) : Prop :=
  ∃ front negative digits, before = front ++ (minusSign negative ++ (digits ++ tail)) ∧
    Cursor.code.after quotes front = .code ∧
    front.getLast?.all precedesValue = true ∧ digits.length = count ∧
    ∀ char ∈ digits, isDigit char = true

/-- What a scan has behind it, by where it stands. -/
def NumberScan.Behind (quotes before : List Char) : NumberScan → Prop
  | .apart => before.getLast?.all precedesValue = true
  | .minus => Started quotes before 0 []
  | .whole digits => Started quotes before digits []
  | .point digits => Started quotes before digits ['.']
  | .mark digits =>
      ∃ letter, (letter = 'e' ∨ letter = 'E') ∧ Started quotes before digits [letter]
  | .power digits =>
      ∃ letter sign, (letter = 'e' ∨ letter = 'E') ∧ (sign = '+' ∨ sign = '-') ∧
        Started quotes before digits [letter, sign]
  | .word => True

theorem Started.digit (started : Started quotes before count []) {char : Char}
    (digit : isDigit char = true) : Started quotes (before ++ [char]) (count + 1) [] := by
  obtain ⟨front, negative, digits, rfl, outside, apart, rfl, numeric⟩ := started
  refine ⟨front, negative, digits ++ [char], by simp, outside, apart, by simp, ?_⟩
  intro other member
  rcases List.mem_append.mp member with inside | last
  · exact numeric other inside
  · rw [List.mem_singleton.mp last]
    exact digit

theorem Started.append (started : Started quotes before count tail)
    (more : List Char) : Started quotes (before ++ more) count (tail ++ more) := by
  obtain ⟨front, negative, digits, rfl, outside, apart, rfl, numeric⟩ := started
  exact ⟨front, negative, digits, by simp, outside, apart, rfl, numeric⟩

/-- The beginning of a number that does not go on is an integer. -/
theorem Started.literal (started : Started quotes before count tail)
    (ends : continuesNumber (tail ++ rest) = false) :
    ∃ literal : IntegerLiteral quotes (before ++ rest),
      literal.digits.length = count := by
  obtain ⟨front, negative, digits, rfl, outside, apart, rfl, numeric⟩ := started
  exact ⟨⟨front, negative, digits, tail ++ rest, by simp, outside, apart, numeric, ends⟩,
    rfl⟩

namespace NumberScan

theorem behind_afterOther (quotes before : List Char) (char : Char) :
    (afterOther char).Behind quotes (before ++ [char]) := by
  rw [afterOther]
  split
  next precedes => simpa [Behind] using precedes
  next => exact trivial

/-- A scan keeps track of what it has behind it. -/
theorem Behind.advance {scan : NumberScan} (behind : scan.Behind quotes before)
    (outside : Cursor.code.after quotes before = .code) (char : Char) :
    (scan.advance char).Behind quotes (before ++ [char]) := by
  have other := behind_afterOther quotes before char
  cases scan with
  | apart =>
      rw [NumberScan.advance]
      split
      next digit =>
        have started : Started quotes before 0 [] :=
          ⟨before, false, [], by simp [minusSign], outside, behind, rfl, by simp⟩
        exact started.digit digit
      next =>
        split
        next same =>
          rw [same]
          exact ⟨before, true, [], by simp [minusSign], outside, behind, rfl, by simp⟩
        next => exact other
  | minus =>
      rw [NumberScan.advance]
      split
      next digit => exact Started.digit behind digit
      next => exact other
  | whole digits =>
      rw [NumberScan.advance]
      split
      next digit => exact Started.digit behind digit
      next =>
        split
        next same =>
          rw [same]
          exact Started.append behind ['.']
        next =>
          split
          next letter => exact ⟨char, letter, Started.append behind [char]⟩
          next => exact other
  | mark digits =>
      obtain ⟨letter, marks, started⟩ := behind
      rw [NumberScan.advance]
      split
      next sign => exact ⟨letter, char, marks, sign, started.append [char]⟩
      next => exact other
  | point | power | word => exact other

/-- The integer that ends where a scan stands is a literal of the text. -/
theorem Behind.literal {scan : NumberScan} (behind : scan.Behind quotes before)
    (found : count ∈ scan.ended rest.head?) :
    ∃ literal : IntegerLiteral quotes (before ++ rest),
      literal.digits.length = count := by
  rw [ended] at found
  split at found
  next => cases found
  next ends =>
    cases scan with
    | whole digits =>
        obtain rfl : count = digits := by simpa [integer?] using found
        refine Started.literal behind ?_
        cases rest with
        | nil => rfl
        | cons char rest => simp_all [goesOn, continuesNumber]
    | point digits =>
        obtain rfl : count = digits := by simpa [integer?] using found
        refine Started.literal behind ?_
        cases rest <;> simp_all [goesOn, continuesNumber, isDigit]
    | mark digits =>
        obtain rfl : count = digits := by simpa [integer?] using found
        obtain ⟨letter, marks, started⟩ := behind
        refine started.literal ?_
        rcases marks with rfl | rfl <;> cases rest <;>
          simp_all [goesOn, continuesNumber, splitSign, isDigit]
    | power digits =>
        obtain rfl : count = digits := by simpa [integer?] using found
        obtain ⟨letter, sign, marks, signed, started⟩ := behind
        refine started.literal ?_
        rcases marks with rfl | rfl <;> rcases signed with rfl | rfl <;>
          cases rest <;> simp_all [goesOn, continuesNumber, splitSign, isDigit]
    | apart | minus | word => simp [integer?] at found

end NumberScan

/-- What a scan finds in a text is an integer literal of the text. -/
theorem exists_of_mem_integersFrom {cursor : Cursor} {scan : NumberScan}
    (stands : Cursor.code.after quotes before = cursor)
    (behind : scan.Behind quotes before)
    (found : count ∈ integersFrom quotes cursor scan rest) :
    ∃ literal : IntegerLiteral quotes (before ++ rest),
      literal.digits.length = count := by
  fun_induction integersFrom quotes cursor scan rest generalizing before with
  | case1 scan => exact behind.literal found
  | case2 scan char rest literalCase codeCase =>
      have next : Cursor.code.after quotes (before ++ [char]) =
          if char ∈ quotes then .literal char else .code := by
        rw [Cursor.after_append, stands]
        rfl
      rw [List.append_cons]
      rcases List.mem_append.mp found with here | later
      · rw [← List.append_cons]
        exact behind.literal here
      · split at later
        next quote =>
          rw [if_pos quote] at next
          exact literalCase next trivial later
        next code =>
          rw [if_neg code] at next
          exact codeCase next (behind.advance stands char) later
  | case3 => cases found
  | case4 cursor scan char rest noCode ih =>
      rw [List.append_cons]
      refine ih ?_ trivial found
      rw [Cursor.after_append, stands]
      rfl

/-- What a scan of a whole text finds is an integer literal of the text. -/
theorem exists_of_mem_integers {text : List Char}
    (found : count ∈ integersFrom quotes .code .apart text) :
    ∃ literal : IntegerLiteral quotes text, literal.digits.length = count := by
  have stands : Cursor.code.after quotes [] = .code := rfl
  have behind : NumberScan.apart.Behind quotes [] := rfl
  exact exists_of_mem_integersFrom stands behind found

end Finding

end TwinSchema.Json
