import TwinSchema.Proofs.Json.Proper
import TwinSchema.Proofs.Json.Steps

/-!
# What is read can be held again

The integers among the tokens of a text have few enough digits, and setting a
field keeps names distinct; so whatever the reader completes, a document can
hold.
-/

namespace TwinSchema.Json

/-- Whether the value that a token gives has few enough digits. -/
def Token.isShort : Token → Bool
  | .scalar value => value.isShort
  | _ => true

/-- Digits denote a number below the power of ten of their count. -/
theorem foldl_digits_lt {digits : List Char}
    (decimal : ∀ char ∈ digits, isDigit char = true) (value : Nat) :
    digits.foldl (fun value digit => 10 * value + (digit.toNat - '0'.toNat))
      value < (value + 1) * Nat.pow 10 digits.length := by
  induction digits generalizing value with
  | nil => simp
  | cons char digits ih =>
      obtain ⟨first, others⟩ := List.forall_mem_cons.mp decimal
      have small : char.toNat - '0'.toNat ≤ 9 := by
        simp only [isDigit, Bool.and_eq_true, decide_eq_true_eq] at first
        have high : char.toNat ≤ '9'.toNat := first.2
        have zero : '0'.toNat = 48 := rfl
        have nine : '9'.toNat = 57 := rfl
        omega
      have bound := ih others (10 * value + (char.toNat - '0'.toNat))
      have wider : (10 * value + (char.toNat - '0'.toNat) + 1) *
          Nat.pow 10 digits.length ≤
            (value + 1) * Nat.pow 10 (char :: digits).length := by
        have step : Nat.pow 10 (char :: digits).length =
            10 * Nat.pow 10 digits.length := by
          exact Nat.mul_comm _ _
        rw [step, ← Nat.mul_assoc]
        exact Nat.mul_le_mul_right _ (by omega)
      exact Nat.lt_of_lt_of_le bound wider

theorem digitCount_digitsValue {digits : List Char} (nonempty : digits ≠ [])
    (decimal : ∀ char ∈ digits, isDigit char = true) :
    digitCount (digitsValue digits) ≤ digits.length := by
  have bound := foldl_digits_lt decimal 0
  rw [Nat.zero_add, Nat.one_mul] at bound
  rw [digitCount, Int.natAbs_natCast]
  exact (Nat.length_toDigits_le_iff (by decide)
    (List.length_pos_iff.mpr nonempty)).mpr bound

theorem digitCount_neg (number : Int) : digitCount (-number) = digitCount number := by
  rw [digitCount, Int.natAbs_neg, digitCount]

theorem wholePart?_digits {text digits rest : List Char}
    (found : wholePart? text = some (digits, rest)) :
    digits ≠ [] ∧ ∀ char ∈ digits, isDigit char = true := by
  cases text with
  | nil => cases found
  | cons char text =>
      simp only [wholePart?] at found
      split at found
      · simp only [Option.some.injEq, Prod.mk.injEq] at found
        rw [← found.1]
        exact ⟨by simp, List.forall_mem_singleton.mpr (by decide)⟩
      · split at found
        next digit =>
          simp only [Option.some.injEq, Prod.mk.injEq] at found
          rw [← found.1]
          refine ⟨by simp, List.forall_mem_cons.mpr ⟨digit, ?_⟩⟩
          intro next member
          exact List.all_eq_true.mp List.all_takeWhile next member
        next => cases found

theorem isShort_numberToken? {negative : Bool} {text rest : List Char}
    {token : Token} (found : numberToken? negative text = some (token, rest)) :
    token.isShort = true := by
  rw [numberToken?] at found
  split at found
  next => cases found
  next whole afterWhole digits =>
    obtain ⟨nonempty, decimal⟩ := wholePart?_digits digits
    have count := digitCount_digitsValue nonempty decimal
    simp only at found
    split at found
    · split at found
      next =>
        simp only [Option.some.injEq, Prod.mk.injEq] at found
        rw [← found.1]
        rfl
      next few =>
        simp only [Option.some.injEq, Prod.mk.injEq] at found
        rw [← found.1, Token.isShort, Scalar.isShort, decide_eq_true_eq]
        cases negative with
        | true =>
            have same := digitCount_neg (digitsValue whole)
            simp only [if_true]
            omega
        | false =>
            simp only [Bool.false_eq_true, if_false]
            omega
    · simp only [Option.some.injEq, Prod.mk.injEq] at found
      rw [← found.1]
      rfl

theorem isShort_getD_numberToken? (negative : Bool) (text : List Char) :
    ((numberToken? negative text).getD (.unknown, [])).1.isShort = true := by
  cases found : numberToken? negative text with
  | none => rfl
  | some pair => exact isShort_numberToken? found

theorem isShort_nameToken (name : String) {scalar : Scalar}
    (short : scalar.isShort = true) (rest : List Char) :
    (nameToken name scalar rest).1.isShort = true := by
  rw [nameToken]
  split
  · exact short
  · rfl

/-- The value of a token is short, whatever character it begins with. -/
theorem isShort_nextToken (char : Char) (rest : List Char) :
    (nextToken char rest).1.isShort = true := by
  unfold nextToken
  split
  any_goals rfl
  any_goals exact isShort_nameToken _ rfl rest
  · split <;> rfl
  · split
    · rfl
    · exact isShort_getD_numberToken? true rest
  · exact isShort_getD_numberToken? false _

theorem isShort_lexemes (text : List Char) :
    ∀ lexeme ∈ lexemes text, lexeme.token.isShort = true := by
  fun_induction lexemes text with
  | case1 => simp
  | case2 char rest separates ih => exact ih
  | case3 char rest visible ih =>
      exact List.forall_mem_cons.mpr ⟨isShort_nextToken char rest, ih⟩

theorem areProper_iff {items : List Value} :
    areProper items = true ↔ ∀ item ∈ items, item.isProper = true := by
  induction items with
  | nil => simp [areProper]
  | cons item items ih => simp [areProper, ih]

theorem areProperFields_iff {fields : List (String × Value)} :
    areProperFields fields = true ↔ ∀ field ∈ fields, field.2.isProper = true := by
  induction fields with
  | nil => simp [areProperFields]
  | cons field fields ih => simp [areProperFields, ih]

theorem isProper_list {items : List Value} :
    (Value.list items).isProper = true ↔ ∀ item ∈ items, item.isProper = true := by
  rw [Value.isProper, areProper_iff]

theorem isProper_record {fields : List (String × Value)} :
    (Value.record fields).isProper = true ↔ (fields.map Prod.fst).Nodup ∧
      ∀ field ∈ fields, field.2.isProper = true := by
  rw [Value.isProper, Bool.and_eq_true, decide_eq_true_eq, areProperFields_iff]

theorem isProper_setField {fields : List (String × Value)}
    (record : (Value.record fields).isProper = true) {name : String}
    {value : Value} (proper : value.isProper = true) :
    (Value.record (setField name value fields)).isProper = true := by
  rw [isProper_record] at record ⊢
  refine ⟨nodup_setField name value record.1, ?_⟩
  intro field member
  rcases mem_setField member with rfl | old
  · exact proper
  · exact record.2 field old

/-- An open list or record with nothing improper in it. -/
def Frame.Proper : Frame → Prop
  | .list items => (Value.list items).isProper = true
  | .record fields _ => (Value.record fields).isProper = true

/-- A state with nothing improper read so far. -/
def State.Proper : State → Prop
  | .valueDue frames | .itemOrEnd frames | .nameOrEnd frames =>
      ∀ frame ∈ frames, frame.Proper
  | .nameDue fields frames | .colonDue fields _ frames =>
      (Value.record fields).isProper = true ∧ ∀ frame ∈ frames, frame.Proper
  | .complete value frames =>
      value.isProper = true ∧ ∀ frame ∈ frames, frame.Proper

theorem BeginsValue.proper {frames : List Frame} {token : Token} {next : State}
    (begins : BeginsValue frames token next) (proper : ∀ frame ∈ frames, frame.Proper)
    (short : token.isShort = true) : next.Proper := by
  cases begins with
  | record | list => exact proper
  | scalar value => exact ⟨short, proper⟩
  | text value => exact ⟨rfl, proper⟩

theorem Steps.proper {state next : State} {token : Token}
    (steps : Steps state token next) (proper : state.Proper)
    (short : token.isShort = true) : next.Proper := by
  cases steps with
  | value begins => exact begins.proper proper short
  | item begins =>
      exact begins.proper (List.forall_mem_cons.mpr ⟨rfl, proper⟩) short
  | noItem | noField | firstName => exact ⟨rfl, proper⟩
  | name => exact proper
  | colon => exact List.forall_mem_cons.mpr proper
  | nextItem value items frames =>
      obtain ⟨list, others⟩ := List.forall_mem_cons.mp proper.2
      refine List.forall_mem_cons.mpr ⟨?_, others⟩
      exact isProper_list.mpr
        (List.forall_mem_cons.mpr ⟨proper.1, isProper_list.mp list⟩)
  | lastItem value items frames =>
      obtain ⟨list, others⟩ := List.forall_mem_cons.mp proper.2
      refine ⟨isProper_list.mpr ?_, others⟩
      intro item member
      rcases List.mem_cons.mp (List.mem_reverse.mp member) with rfl | earlier
      · exact proper.1
      · exact isProper_list.mp list item earlier
  | nextField | lastField =>
      obtain ⟨record, others⟩ := List.forall_mem_cons.mp proper.2
      exact ⟨isProper_setField record proper.1, others⟩

theorem isProper_of_run {state : State} {lexemes : List Lexeme} {value : Value}
    (proper : state.Proper)
    (short : ∀ lexeme ∈ lexemes, lexeme.token.isShort = true)
    (ran : state.run lexemes = .ok value) : value.isProper = true := by
  induction lexemes generalizing state with
  | nil =>
      unfold State.run at ran
      split at ran
      next => cases ran; exact proper.1
      next => cases ran
      next same => cases same
  | cons lexeme rest ih =>
      obtain ⟨first, others⟩ := List.forall_mem_cons.mp short
      rw [State.run] at ran
      split at ran
      next next stepped =>
        exact ih ((steps_of_eq_ok stepped).proper proper first) others ran
      next => cases ran

/-- A document can hold what is read. -/
theorem isProper_of_read {text : List Char} {value : Value}
    (found : read text = .ok value) : value.isProper = true := by
  refine isProper_of_run ?_ (isShort_lexemes text) (run_of_read found)
  intro frame member
  cases member

end TwinSchema.Json
