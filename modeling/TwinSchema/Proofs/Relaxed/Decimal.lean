import TwinSchema.Number.Notation
import TwinSchema.Proofs.Json.Proper
import TwinSchema.Proofs.Number.ReadBack
import TwinSchema.Proofs.Relaxed.Spelling

/-!
# Written numbers

A written number is one of the numbers that a document may spell, and it means
the number that was written.
-/

namespace TwinSchema.Relaxed

open Json Number

theorem isDigit_of_mem_toDigits {number : Nat} :
    ∀ char ∈ Nat.toDigits 10 number, Json.isDigit char = true := by
  intro char member
  have digit := Nat.isDigit_of_mem_toDigits (by decide) (by decide) member
  simp only [Char.isDigit, ge_iff_le, Bool.and_eq_true, decide_eq_true_eq]
    at digit
  simp only [Json.isDigit, Bool.and_eq_true, decide_eq_true_eq]
  exact digit

theorem isDigit_of_mem_zeros {count : Nat} :
    ∀ char ∈ List.replicate count '0', Json.isDigit char = true := by
  intro char member
  rw [List.eq_of_mem_replicate member]
  rfl

theorem digitsValue_toDigits (number : Nat) :
    digitsValue (Nat.toDigits 10 number) = number :=
  Nat.ofDigitChars_ten_toDigits

theorem digitsValue_zeros_append (count : Nat) (digits : List Char) :
    digitsValue (List.replicate count '0' ++ digits) = digitsValue digits := by
  have split := Nat.ofDigitChars_append (b := 10) (l := List.replicate count '0')
    (m := digits) 0
  rw [Nat.ofDigitChars_replicate_zero, Nat.mul_zero] at split
  exact split

theorem digitsValue_append_zeros (count : Nat) (digits : List Char) :
    digitsValue (digits ++ List.replicate count '0') =
      digitsValue digits * Nat.pow 10 count := by
  have split := Nat.ofDigitChars_append (b := 10) (l := digits)
    (m := List.replicate count '0') 0
  rw [Nat.ofDigitChars_replicate_zero, Nat.mul_comm] at split
  exact split

/-- Only zero has a zero in front. -/
theorem head?_toDigits {number : Nat} (positive : 0 < number) :
    (Nat.toDigits 10 number).head? ≠ some '0' := by
  induction number using Nat.strongRecOn with
  | ind number ih =>
      rw [Nat.toDigits_eq_if (by decide)]
      split
      next small =>
        intro zero
        have digit : number.digitChar = '0' := by simpa using zero
        rw [Nat.digitChar_eq_zero] at digit
        omega
      next large =>
        have shorter := ih (number / 10) (by omega) (by omega)
        obtain ⟨first, others, digits⟩ := List.exists_cons_of_ne_nil
          (Nat.toDigits_ne_nil (n := number / 10) (b := 10))
        rw [digits] at shorter ⊢
        exact shorter

theorem toDigits_canonical {number : Nat}
    (zero : (Nat.toDigits 10 number).head? = some '0') :
    Nat.toDigits 10 number = ['0'] := by
  rcases Nat.eq_zero_or_pos number with rfl | positive
  · exact Nat.toDigits_zero 10
  · exact absurd zero (head?_toDigits positive)

/-- An integer of few digits as a number of a document. -/
def Numeral.ofInteger (number : Int) (short : digitCount number ≤ integerDigitLimit) :
    Numeral where
  negative := decide (number < 0)
  whole := Nat.toDigits 10 number.natAbs
  fraction := []
  power := none
  nonempty := Nat.toDigits_ne_nil
  canonical := toDigits_canonical
  wholeDecimal := isDigit_of_mem_toDigits
  fractionDecimal := by simp
  limited := fun _ _ => short

theorem Numeral.text_ofInteger {number : Int}
    (short : digitCount number ≤ integerDigitLimit) :
    (Numeral.ofInteger number short).text = writeInteger number := by
  simp [ofInteger, text, unsigned, fractionText, powerText, writeInteger]

theorem Numeral.value_ofInteger {number : Int}
    (short : digitCount number ≤ integerDigitLimit) :
    (Numeral.ofInteger number short).value = .integer number := by
  simp only [ofInteger, value, digitsValue_toDigits, List.isEmpty_nil,
    Option.isNone_none, Bool.and_self, if_true]
  congr 1
  by_cases negative : number < 0
  · simp only [negative, decide_true, if_true]
    omega
  · simp only [negative, decide_false, Bool.false_eq_true, if_false]
    omega

/-- A number with a fraction and no exponent means its digits with the point
moved in front of the fraction. -/
theorem Numeral.value_fraction {numeral : Numeral} (nonempty : numeral.fraction ≠ [])
    (noPower : numeral.power = none) :
    numeral.value = .float (.ofDecimal numeral.negative
      (digitsValue (numeral.whole ++ numeral.fraction))
      (-numeral.fraction.length)) := by
  simp [value, nonempty, noPower]

theorem exists_positional_below (negative : Bool) {decimal : Decimal}
    (below : decimal.leadingPlace < 0) :
    ∃ numeral : Numeral, numeral.negative = negative ∧
      numeral.unsigned = writePositional (Nat.toDigits 10 decimal.digits)
        decimal.leadingPlace ∧
      numeral.value = .float (decimal.toBinary negative) := by
  have nonempty : List.replicate (-decimal.leadingPlace - 1).toNat '0' ++
      Nat.toDigits 10 decimal.digits ≠ [] := by simp
  let numeral : Numeral :=
    { negative := negative
      whole := ['0']
      fraction := List.replicate (-decimal.leadingPlace - 1).toNat '0' ++
        Nat.toDigits 10 decimal.digits
      power := none
      nonempty := by simp
      canonical := by simp
      wholeDecimal := by simp; rfl
      fractionDecimal := by
        intro char member
        rcases List.mem_append.mp member with inside | inside
        · exact isDigit_of_mem_zeros char inside
        · exact isDigit_of_mem_toDigits char inside
      limited := fun empty => absurd empty nonempty }
  refine ⟨numeral, rfl, ?_, ?_⟩
  · simp [numeral, Numeral.unsigned, Numeral.fractionText, Numeral.powerText,
      writePositional, below]
  · rw [Numeral.value_fraction nonempty rfl]
    have digits : digitsValue (numeral.whole ++ numeral.fraction) =
        decimal.digits := by
      have whole := digitsValue_zeros_append
        ((-decimal.leadingPlace - 1).toNat + 1) (Nat.toDigits 10 decimal.digits)
      rw [digitsValue_toDigits, List.replicate_succ, List.cons_append] at whole
      exact whole
    have places : (-numeral.fraction.length : Int) = decimal.exponent := by
      simp only [numeral, List.length_append, List.length_replicate]
      simp only [Decimal.leadingPlace, Decimal.digitCount] at below ⊢
      omega
    rw [digits, places]
    rfl

theorem writePositional_above {place : Int} (above : 0 ≤ place)
    (digits : List Char) :
    writePositional digits place =
      digits.take (place.toNat + 1) ++
        List.replicate (place.toNat + 1 - digits.length) '0' ++
        '.' :: (if (digits.drop (place.toNat + 1)).isEmpty then ['0']
          else digits.drop (place.toNat + 1)) := by
  rw [writePositional, if_neg (by omega)]

/-- A decimal form whose digits reach beyond its point. -/
theorem exists_positional_inside (negative : Bool) {decimal : Decimal}
    (above : 0 ≤ decimal.leadingPlace)
    (inside : decimal.leadingPlace.toNat + 1 < Decimal.digitCount decimal.digits) :
    ∃ numeral : Numeral, numeral.negative = negative ∧
      numeral.unsigned = writePositional (Nat.toDigits 10 decimal.digits)
        decimal.leadingPlace ∧
      numeral.value = .float (decimal.toBinary negative) := by
  have count : (Nat.toDigits 10 decimal.digits).length =
    Decimal.digitCount decimal.digits := rfl
  have nonempty : (Nat.toDigits 10 decimal.digits).drop
      (decimal.leadingPlace.toNat + 1) ≠ [] := by
    rw [ne_eq, List.drop_eq_nil_iff]
    omega
  let numeral : Numeral :=
    { negative := negative
      whole := (Nat.toDigits 10 decimal.digits).take
        (decimal.leadingPlace.toNat + 1)
      fraction := (Nat.toDigits 10 decimal.digits).drop
        (decimal.leadingPlace.toNat + 1)
      power := none
      nonempty := by simp
      canonical := by
        intro head
        rw [List.head?_take, if_neg (by omega)] at head
        rw [toDigits_canonical head, List.take_succ_cons, List.take_nil]
      wholeDecimal := fun char member =>
        isDigit_of_mem_toDigits char (List.mem_of_mem_take member)
      fractionDecimal := fun char member =>
        isDigit_of_mem_toDigits char (List.mem_of_mem_drop member)
      limited := fun empty => absurd empty nonempty }
  refine ⟨numeral, rfl, ?_, ?_⟩
  · have noZeros : decimal.leadingPlace.toNat + 1 -
        (Nat.toDigits 10 decimal.digits).length = 0 := by omega
    rw [writePositional_above above, noZeros]
    simp [numeral, Numeral.unsigned, Numeral.fractionText, Numeral.powerText,
      nonempty]
  · rw [Numeral.value_fraction nonempty rfl]
    have digits : digitsValue (numeral.whole ++ numeral.fraction) =
        decimal.digits := by
      simp only [numeral, List.take_append_drop, digitsValue_toDigits]
    have places : (-numeral.fraction.length : Int) = decimal.exponent := by
      simp only [numeral, List.length_drop]
      simp only [Decimal.leadingPlace] at above inside ⊢
      omega
    rw [digits, places]
    rfl

/-- The digits of an integer with zeros after them begin with a zero for zero
alone. -/
theorem canonical_padded {decimal : Decimal}
    (zero : decimal.digits = 0 → decimal.exponent = 0)
    (head : (Nat.toDigits 10 decimal.digits ++
      List.replicate (decimal.leadingPlace.toNat + 1 -
        Decimal.digitCount decimal.digits) '0').head? = some '0') :
    Nat.toDigits 10 decimal.digits ++
      List.replicate (decimal.leadingPlace.toNat + 1 -
        Decimal.digitCount decimal.digits) '0' = ['0'] := by
  rcases Nat.eq_zero_or_pos decimal.digits with none | positive
  · have place : decimal.leadingPlace = 0 := by
      simp [Decimal.leadingPlace, none, zero none, Decimal.digitCount]
    simp [none, place, Decimal.digitCount]
  · obtain ⟨first, others, digits⟩ := List.exists_cons_of_ne_nil
      (Nat.toDigits_ne_nil (n := decimal.digits) (b := 10))
    refine absurd ?_ (head?_toDigits positive)
    rw [digits] at head ⊢
    exact head

/-- A decimal form that is an integer. -/
theorem exists_positional_whole (negative : Bool) {decimal : Decimal}
    (zero : decimal.digits = 0 → decimal.exponent = 0)
    (above : 0 ≤ decimal.leadingPlace)
    (whole : Decimal.digitCount decimal.digits ≤ decimal.leadingPlace.toNat + 1) :
    ∃ numeral : Numeral, numeral.negative = negative ∧
      numeral.unsigned = writePositional (Nat.toDigits 10 decimal.digits)
        decimal.leadingPlace ∧
      numeral.value = .float (decimal.toBinary negative) := by
  have count : (Nat.toDigits 10 decimal.digits).length =
    Decimal.digitCount decimal.digits := rfl
  let numeral : Numeral :=
    { negative := negative
      whole := Nat.toDigits 10 decimal.digits ++
        List.replicate (decimal.leadingPlace.toNat + 1 -
          Decimal.digitCount decimal.digits) '0'
      fraction := ['0']
      power := none
      nonempty := by simp
      canonical := canonical_padded zero
      wholeDecimal := by
        intro char member
        rcases List.mem_append.mp member with inside | inside
        · exact isDigit_of_mem_toDigits char inside
        · exact isDigit_of_mem_zeros char inside
      fractionDecimal := by simp; rfl
      limited := by simp }
  refine ⟨numeral, rfl, ?_, ?_⟩
  · have noFraction : (Nat.toDigits 10 decimal.digits).drop
        (decimal.leadingPlace.toNat + 1) = [] := by
      rw [List.drop_eq_nil_iff]
      omega
    rw [writePositional_above above, noFraction,
      List.take_of_length_le (by omega), count]
    simp [numeral, Numeral.unsigned, Numeral.fractionText, Numeral.powerText]
  · rw [Numeral.value_fraction (by simp [numeral]) rfl]
    obtain ⟨more, zeros⟩ : ∃ more, decimal.leadingPlace.toNat + 1 -
      Decimal.digitCount decimal.digits = more := ⟨_, rfl⟩
    have digits : digitsValue (numeral.whole ++ numeral.fraction) =
        decimal.digits * Nat.pow 10 (more + 1) := by
      simp only [numeral, List.append_assoc, ← List.replicate_succ',
        digitsValue_append_zeros, digitsValue_toDigits, zeros]
    have places : (-numeral.fraction.length : Int) =
        decimal.exponent - ((more + 1 : Nat) : Int) := by
      simp only [numeral, List.length_singleton]
      simp only [Decimal.leadingPlace] at above whole zeros
      omega
    rw [digits, places, Binary64.ofDecimal_shift]
    rfl

/-- The digits of the exponent for a place. -/
def exponentDigits (place : Int) : List Char :=
  padLeft documentConvention.exponentWidth (Nat.toDigits 10 place.natAbs)

theorem isDigit_of_mem_exponentDigits (place : Int) :
    ∀ char ∈ exponentDigits place, Json.isDigit char = true := by
  intro char member
  rcases List.mem_append.mp member with inside | inside
  · exact isDigit_of_mem_zeros char inside
  · exact isDigit_of_mem_toDigits char inside

theorem exponentDigits_ne_nil (place : Int) : exponentDigits place ≠ [] := by
  simp [exponentDigits, padLeft]

theorem signed_place (place : Int) :
    ∀ char ∈ some (if place < 0 then '-' else '+'), char = '+' ∨ char = '-' := by
  intro char sign
  rw [← Option.mem_some.mp sign]
  split
  · exact .inr rfl
  · exact .inl rfl

/-- The exponent that documents write for a place. -/
def Power.ofPlace (place : Int) : Power where
  mark := 'e'
  sign := some (if place < 0 then '-' else '+')
  digits := exponentDigits place
  marked := .inl rfl
  signed := signed_place place
  nonempty := exponentDigits_ne_nil place
  decimal := isDigit_of_mem_exponentDigits place

theorem Power.value_ofPlace (place : Int) : (Power.ofPlace place).value = place := by
  have size : digitsValue (exponentDigits place) = place.natAbs := by
    simp only [exponentDigits, padLeft, digitsValue_zeros_append,
      digitsValue_toDigits]
  simp only [Power.value, Power.ofPlace, size]
  by_cases below : place < 0
  · simp only [below, if_true]
    omega
  · simp only [below, if_false]
    rw [if_neg (by decide)]
    omega

/-- A decimal form with an exponent as a number of a document. -/
theorem exists_scientific (negative : Bool) (decimal : Decimal) :
    ∃ numeral : Numeral, numeral.negative = negative ∧
      numeral.unsigned = writeScientific documentConvention
        (Nat.toDigits 10 decimal.digits) decimal.leadingPlace ∧
      numeral.value = .float (decimal.toBinary negative) := by
  have count : (Nat.toDigits 10 decimal.digits).length =
    Decimal.digitCount decimal.digits := rfl
  have decimalDigits : ∀ char ∈ Nat.toDigits 10 decimal.digits,
      Json.isDigit char = true := isDigit_of_mem_toDigits
  obtain ⟨first, others, digits⟩ := List.exists_cons_of_ne_nil
    (Nat.toDigits_ne_nil (n := decimal.digits) (b := 10))
  have meant := digitsValue_toDigits decimal.digits
  rw [digits] at count decimalDigits meant
  let numeral : Numeral :=
    { negative := negative
      whole := [first]
      fraction := others
      power := some (.ofPlace decimal.leadingPlace)
      nonempty := by simp
      canonical := by simp
      wholeDecimal := fun char member => decimalDigits char
        (by rw [List.mem_singleton.mp member]; exact List.mem_cons_self)
      fractionDecimal := fun char member => decimalDigits char
        (List.mem_cons_of_mem first member)
      limited := by simp }
  refine ⟨numeral, rfl, ?_, ?_⟩
  · rw [digits]
    cases others with
    | nil =>
        simp [numeral, Numeral.unsigned, Numeral.fractionText,
          Numeral.powerText, Power.text, Power.ofPlace, exponentDigits,
          writeScientific]
    | cons next others =>
        simp [numeral, Numeral.unsigned, Numeral.fractionText,
          Numeral.powerText, Power.text, Power.ofPlace, exponentDigits,
          writeScientific]
  · have places : (Power.ofPlace decimal.leadingPlace).value - others.length =
        decimal.exponent := by
      rw [Power.value_ofPlace, Decimal.leadingPlace]
      rw [List.length_cons] at count
      omega
    simp only [Numeral.value, numeral, Option.isNone_some, Bool.and_false,
      Bool.false_eq_true, if_false, List.singleton_append, Option.map_some,
      Option.getD_some]
    rw [meant, places]
    rfl

/-- A decimal form is written as a number that means it. -/
theorem exists_decimal (negative : Bool) {decimal : Decimal}
    (zero : decimal.digits = 0 → decimal.exponent = 0) :
    ∃ numeral : Numeral, numeral.negative = negative ∧
      numeral.unsigned = writeDecimal documentConvention decimal ∧
      numeral.value = .float (decimal.toBinary negative) := by
  simp only [writeDecimal]
  split
  next =>
    rcases Int.lt_or_le decimal.leadingPlace 0 with below | above
    · exact exists_positional_below negative below
    · rcases Nat.lt_or_ge (decimal.leadingPlace.toNat + 1)
        (Decimal.digitCount decimal.digits) with inside | whole
      · exact exists_positional_inside negative above inside
      · exact exists_positional_whole negative zero above whole
  next => exact exists_scientific negative decimal

/-- The decimal form of a number is zero just for zero. -/
theorem exponent_shortestDecimal (ordinal : Fin magnitudeCount)
    (zero : (shortestDecimal ordinal).digits = 0) :
    (shortestDecimal ordinal).exponent = 0 := by
  have read := toBinary_shortestDecimal false ordinal
  have least : ordinal.val = 0 := by
    have positive : 0 < magnitudeCount := Nat.lt_of_le_of_lt (Nat.zero_le _) ordinal.isLt
    rw [Decimal.toBinary, zero, Binary64.ofDecimal, if_pos (by simp),
      Binary64.ofOrdinal, dif_pos positive] at read
    simp only [Binary64.finite.injEq, true_and] at read
    rw [← read]
  simp [shortestDecimal, least]

/-- A finite number is written as a number that means it. -/
theorem exists_finite (negative : Bool) (ordinal : Fin magnitudeCount) :
    ∃ numeral : Numeral,
      numeral.text = writeFloat documentConvention (.finite negative ordinal) ∧
      numeral.value = .float (.finite negative ordinal) := by
  obtain ⟨numeral, sign, unsigned, value⟩ := exists_decimal negative
    (exponent_shortestDecimal ordinal)
  refine ⟨numeral, ?_, ?_⟩
  · rw [Numeral.text, sign, unsigned, writeFloat]
  · rw [value, toBinary_shortestDecimal]

end TwinSchema.Relaxed
