import TwinSchema.Proofs.Relaxed.PaddedPass
import TwinSchema.Proofs.Relaxed.Quoting
import TwinSchema.Proofs.Relaxed.Refusal
import TwinSchema.Proofs.Relaxed.Token
import TwinSchema.Relaxed.Reader

/-!
# Reading padded documents

Padding comes between tokens, so the tokens of a padded document are those of the
document. It is decoded to the same value; where it is refused, it is refused for
an integer of as many digits or, as the document, for a mistake.
-/

namespace TwinSchema.Relaxed

open Json Text

variable {loose : Bool} {char : Char} {body tight padded : List Char}

/-- The same part of a token, with padded texts behind it. -/
def PaddedBehind {Part : Type} (first second : Part × List Char) : Prop :=
  first.1 = second.1 ∧ Padded false first.2 second.2

namespace Padded

/-- A padded text begins with a solid character where the text does. -/
theorem dropChar? (related : Padded loose tight padded) (tightly : loose = false)
    {expected : Char} (solid : isSolid expected = true) :
    Option.Rel (Padded false) (dropChar? expected tight) (dropChar? expected padded) := by
  have different : ∀ {char}, isSolid char = false → char ≠ expected := by
    rintro char notSolid rfl
    rw [solid] at notSolid
    cases notSolid
  have fails : ∀ {char : Char} {rest : List Char}, isSolid char = false →
      Text.dropChar? expected (char :: rest) = none :=
    fun notSolid => if_neg (different notSolid)
  cases related with
  | same => exact rel_of_forall (Padded.same false) _
  | stop =>
      rw [fails rfl, fails rfl]
      exact .none
  | @keep _ char tight padded code rest =>
      rw [Text.dropChar?, Text.dropChar?]
      split
      next same =>
        rw [same, loosens_solid solid] at rest
        exact .some rest
      next => exact .none
  | @pad _ char _ padded separates place =>
      have closing := place.resolve_left (by simp [tightly])
      have nothing : Text.dropChar? expected tight = none := by
        cases tight with
        | nil => rfl
        | cons first tight =>
            apply if_neg
            rintro rfl
            rw [beforeClosing_solid solid] at closing
            cases closing
      rw [nothing, fails (by simp [isSolid, isBlank_of_isSeparator separates])]
      exact .none
  | literal =>
      rw [fails rfl, fails rfl]
      exact .none

/-- A padded text begins with a solid word where the text does. -/
theorem dropWord? (related : Padded false tight padded) {word : List Char}
    (solid : ∀ char ∈ word, isSolid char = true) :
    Option.Rel (Padded false) (dropWord? word tight) (dropWord? word padded) := by
  induction word generalizing tight padded with
  | nil =>
      rw [Text.dropWord?, Text.dropWord?]
      exact .some related
  | cons expected word ih =>
      obtain ⟨first, others⟩ := List.forall_mem_cons.mp solid
      have step : ∀ text, Text.dropWord? (expected :: word) text =
          (Text.dropChar? expected text).bind (Text.dropWord? word) := by
        intro text
        cases text with
        | nil => rfl
        | cons char text =>
            rw [Text.dropWord?, Text.dropChar?]
            split <;> rfl
      rw [step, step]
      exact relBind (related.dropChar? rfl first) fun behind => ih behind others

end Padded

section Equations

variable (text : List Char)

theorem wholePart?_eq :
    wholePart? text =
      ((dropChar? '0' text).map fun rest => (['0'], rest)).or
        (if (text.takeWhile isDigit).isEmpty then none
          else some (text.takeWhile isDigit, text.dropWhile isDigit)) := by
  cases text with
  | nil => rfl
  | cons char rest =>
      rw [wholePart?, dropChar?]
      split
      next same => rfl
      next different =>
        cases digit : isDigit char <;> simp [digit]

theorem fractionPart_eq :
    fractionPart text =
      match dropChar? '.' text with
      | none => ([], text)
      | some rest =>
          if (rest.takeWhile isDigit).isEmpty then ([], text)
          else (rest.takeWhile isDigit, rest.dropWhile isDigit) := by
  cases text with
  | nil => rfl
  | cons char rest =>
      by_cases same : char = '.'
      · subst same
        rfl
      · rw [dropChar?, if_neg same, fractionPart.eq_2 _ (by simpa using same)]

theorem splitSign_eq :
    splitSign text =
      match dropChar? '-' text with
      | some rest => (true, rest)
      | none =>
          match dropChar? '+' text with
          | some rest => (false, rest)
          | none => (false, text) := by
  cases text with
  | nil => rfl
  | cons char rest =>
      by_cases minus : char = '-'
      · subst minus
        rfl
      · by_cases plus : char = '+'
        · subst plus
          rfl
        · rw [dropChar?, if_neg minus, dropChar?, if_neg plus,
            splitSign.eq_3 _ (by simpa using minus) (by simpa using plus)]

theorem exponentPart_eq :
    exponentPart text =
      match (dropChar? 'e' text).or (dropChar? 'E' text) with
      | none => (none, text)
      | some rest =>
          let digits := (splitSign rest).2.takeWhile isDigit
          if digits.isEmpty then (none, text)
          else
            (some (if (splitSign rest).1 then -(digitsValue digits : Int)
              else digitsValue digits), (splitSign rest).2.dropWhile isDigit) := by
  cases text with
  | nil => rfl
  | cons char rest =>
      rw [exponentPart, dropChar?, dropChar?]
      by_cases lower : char = 'e'
      · subst lower
        rfl
      · by_cases upper : char = 'E'
        · subst upper
          rfl
        · simp [lower, upper]

end Equations

namespace Padded

theorem isSolid_of_isDigit (digit : isDigit char = true) : isSolid char = true :=
  isSolid_of_isNamePart (isNamePart_of_isDigit digit)

theorem digits (related : Padded false tight padded) :
    tight.takeWhile isDigit = padded.takeWhile isDigit ∧
      Padded false (tight.dropWhile isDigit) (padded.dropWhile isDigit) :=
  related.run (fun _ => isSolid_of_isDigit) rfl

/-- The digits before the point. -/
theorem wholePart? (related : Padded false tight padded) :
    Option.Rel PaddedBehind (wholePart? tight) (wholePart? padded) := by
  obtain ⟨taken, dropped⟩ := related.digits
  have zero : Option.Rel (Padded false) (Text.dropChar? '0' tight)
    (Text.dropChar? '0' padded) := related.dropChar? rfl rfl
  rw [wholePart?_eq, wholePart?_eq, taken]
  apply relOr (relMap zero fun behind => ⟨rfl, behind⟩)
  split
  next => exact .none
  next => exact .some ⟨rfl, dropped⟩

/-- The digits after the point. -/
theorem fractionPart (related : Padded false tight padded) :
    PaddedBehind (fractionPart tight) (fractionPart padded) := by
  have point : Option.Rel (Padded false) (Text.dropChar? '.' tight)
    (Text.dropChar? '.' padded) := related.dropChar? rfl rfl
  rw [fractionPart_eq, fractionPart_eq]
  generalize Text.dropChar? '.' tight = first at *
  generalize Text.dropChar? '.' padded = second at *
  cases point with
  | none => exact ⟨rfl, related⟩
  | some behind =>
      obtain ⟨taken, dropped⟩ := behind.digits
      simp only [taken]
      split
      next => exact ⟨rfl, related⟩
      next => exact ⟨rfl, dropped⟩

theorem splitSign (related : Padded false tight padded) :
    PaddedBehind (splitSign tight) (splitSign padded) := by
  have minus : Option.Rel (Padded false) (Text.dropChar? '-' tight)
    (Text.dropChar? '-' padded) := related.dropChar? rfl rfl
  have plus : Option.Rel (Padded false) (Text.dropChar? '+' tight)
    (Text.dropChar? '+' padded) := related.dropChar? rfl rfl
  rw [splitSign_eq, splitSign_eq]
  generalize Text.dropChar? '-' tight = first at *
  generalize Text.dropChar? '-' padded = second at *
  generalize Text.dropChar? '+' tight = third at *
  generalize Text.dropChar? '+' padded = fourth at *
  cases minus with
  | some behind => exact ⟨rfl, behind⟩
  | none =>
      cases plus with
      | some behind => exact ⟨rfl, behind⟩
      | none => exact ⟨rfl, related⟩

theorem exponentPart (related : Padded false tight padded) :
    PaddedBehind (exponentPart tight) (exponentPart padded) := by
  have lower : Option.Rel (Padded false) (Text.dropChar? 'e' tight)
    (Text.dropChar? 'e' padded) := related.dropChar? rfl rfl
  have upper : Option.Rel (Padded false) (Text.dropChar? 'E' tight)
    (Text.dropChar? 'E' padded) := related.dropChar? rfl rfl
  have mark := relOr lower upper
  rw [exponentPart_eq, exponentPart_eq]
  generalize (Text.dropChar? 'e' tight).or (Text.dropChar? 'E' tight) = first at *
  generalize (Text.dropChar? 'e' padded).or (Text.dropChar? 'E' padded) = second at *
  cases mark with
  | none => exact ⟨rfl, related⟩
  | some behind =>
      obtain ⟨sign, unsigned⟩ := behind.splitSign
      obtain ⟨taken, dropped⟩ := unsigned.digits
      simp only [taken, sign]
      split
      next => exact ⟨rfl, related⟩
      next => exact ⟨rfl, dropped⟩

theorem numberToken? (related : Padded false tight padded) (negative : Bool) :
    Option.Rel PaddedBehind (numberToken? negative tight)
      (numberToken? negative padded) := by
  have whole := related.wholePart?
  rw [Json.numberToken?, Json.numberToken?]
  generalize Json.wholePart? tight = first at *
  generalize Json.wholePart? padded = second at *
  cases whole with
  | none => exact .none
  | @some one other same =>
      obtain ⟨digits, behindFirst⟩ := one
      obtain ⟨_, behindSecond⟩ := other
      obtain ⟨rfl, behind⟩ := same
      obtain ⟨fraction, fractionBehind⟩ := behind.fractionPart
      obtain ⟨power, powerBehind⟩ := fractionBehind.exponentPart
      simp only [fraction, power]
      split
      next =>
        split
        next => exact .some ⟨rfl, powerBehind⟩
        next => exact .some ⟨rfl, powerBehind⟩
      next => exact .some ⟨rfl, powerBehind⟩

end Padded

namespace Padded

/-- The same token, with padded texts behind it. -/
def AfterToken (first second : Token × List Char) : Prop :=
  first.1 = second.1 ∧ ∃ loose, Padded loose first.2 second.2

theorem AfterToken.of_number {first second : Option (Token × List Char)}
    (found : Option.Rel PaddedBehind first second) :
    AfterToken (first.getD (.unknown, [])) (second.getD (.unknown, [])) := by
  cases found with
  | none => exact ⟨rfl, false, .same false []⟩
  | some same => exact ⟨same.1, false, same.2⟩

theorem nameToken (related : Padded false tight padded) {name : String}
    (solid : ∀ char ∈ name.toList, isSolid char = true) (scalar : Scalar) :
    AfterToken (nameToken name scalar tight) (nameToken name scalar padded) := by
  have word := related.dropWord? solid
  rw [Json.nameToken, Json.nameToken]
  generalize Text.dropWord? name.toList tight = first at *
  generalize Text.dropWord? name.toList padded = second at *
  cases word with
  | none => exact ⟨rfl, false, .same false []⟩
  | some behind => exact ⟨rfl, false, behind⟩

theorem afterToken (code : char ≠ '"') (rest : Padded (loosens loose char) tight padded) :
    AfterToken (nextToken char tight) (nextToken char padded) := by
  have tightly : isSolid char = true → Padded false tight padded := by
    intro solid
    rwa [loosens_solid solid] at rest
  unfold nextToken
  split
  next => exact ⟨rfl, _, rest⟩
  next => exact ⟨rfl, _, rest⟩
  next => exact ⟨rfl, _, rest⟩
  next => exact ⟨rfl, _, rest⟩
  next => exact ⟨rfl, _, rest⟩
  next => exact ⟨rfl, _, rest⟩
  next => exact absurd rfl code
  next => exact (tightly rfl).nameToken (List.all_eq_true.mp rfl) .null
  next => exact (tightly rfl).nameToken (List.all_eq_true.mp rfl) (.bool true)
  next => exact (tightly rfl).nameToken (List.all_eq_true.mp rfl) (.bool false)
  next => exact (tightly rfl).nameToken (List.all_eq_true.mp rfl) (.float .nan)
  next =>
    exact (tightly rfl).nameToken (List.all_eq_true.mp rfl) (.float (.infinite false))
  next =>
    have word := (tightly rfl).dropWord?
      (show ∀ char ∈ "Infinity".toList, isSolid char = true from List.all_eq_true.mp rfl)
    generalize Text.dropWord? "Infinity".toList tight = first at *
    generalize Text.dropWord? "Infinity".toList padded = second at *
    cases word with
    | some behind => exact ⟨rfl, false, behind⟩
    | none => exact .of_number ((tightly rfl).numberToken? true)
  next =>
    cases solid : isSolid char with
    | true => exact .of_number ((Padded.keep code ((loosens_solid solid false).symm ▸
        tightly solid)).numberToken? false)
    | false =>
        have noNumber : ∀ rest, Json.numberToken? false (char :: rest) = none := by
          intro rest
          have noDigit : isDigit char = false := by
            rw [Bool.eq_false_iff]
            intro digit
            rw [isSolid_of_isDigit digit] at solid
            cases solid
          have noZero : char ≠ '0' := by
            rintro rfl
            cases noDigit
          simp [Json.numberToken?, Json.wholePart?, noDigit, noZero]
        rw [noNumber, noNumber]
        exact ⟨rfl, false, .same false []⟩

end Padded

/-! ## Texts -/

section ReadUnits

variable (whole rest : List Char)

theorem readUnits_close : readUnits whole ('"' :: rest) = .ok ([], rest) := by
  rw [readUnits.eq_def]
  rfl

theorem readUnits_plain (notEscape : char ≠ '\\') (notQuote : char ≠ '"') :
    readUnits whole (char :: rest) =
      if char.toNat < 0x20 then .error ⟨.controlCharacter, char :: rest⟩
      else consUnit char.toNat (readUnits whole rest) := by
  rw [readUnits.eq_def]
  simp only [if_neg notEscape, if_neg notQuote]

theorem readUnits_short {letter : Char} (notUnit : letter ≠ 'u') :
    readUnits whole ('\\' :: letter :: rest) =
      match shortEscape? letter with
      | some meant => consUnit meant.toNat (readUnits whole rest)
      | none => .error ⟨.unknownEscape, '\\' :: letter :: rest⟩ := by
  rw [readUnits.eq_def]
  cases short : shortEscape? letter <;> simp [short]

theorem readUnits_unit {first second third fourth : Char} {unit : Nat}
    (read : codeUnit? first second third fourth = some unit) (nonempty : rest ≠ []) :
    readUnits whole ('\\' :: 'u' :: first :: second :: third :: fourth :: rest) =
      consUnit unit (readUnits whole rest) := by
  rw [readUnits.eq_def]
  simp [read, nonempty]

end ReadUnits

/-- An escape of four digits that stand in front of the closing quote. -/
def BeginsUnit (body : List Char) : Prop :=
  ∃ first second third fourth more unit,
    body = first :: second :: third :: fourth :: more ∧
      codeUnit? first second third fourth = some unit

/-- A closing quote is no digit of an escape. -/
theorem codeUnit?_eq_none (noUnit : ¬ BeginsUnit body)
    {first second third fourth : Char} {more rest : List Char}
    (same : body ++ '"' :: rest = first :: second :: third :: fourth :: more) :
    codeUnit? first second third fourth = none := by
  cases read : codeUnit? first second third fourth with
  | none => rfl
  | some unit =>
      have noQuote : '"' ∉ [first, second, third, fourth] :=
        fun member => (Letter.passed_of_codeUnit read '"' member).2.1 rfl
      match body, same with
      | [], same => simp_all
      | [_], same => simp_all
      | [_, _], same => simp_all
      | [_, _, _], same => simp_all
      | _ :: _ :: _ :: _ :: body, same =>
          simp only [List.cons_append, List.cons.injEq] at same
          obtain ⟨rfl, rfl, rfl, rfl, rfl⟩ := same
          exact absurd ⟨_, _, _, _, _, _, rfl, read⟩ noUnit

theorem readUnits_noUnit (noUnit : ¬ BeginsUnit body) (whole rest : List Char) :
    ∃ mistake, readUnits whole ('\\' :: 'u' :: (body ++ '"' :: rest)) =
      .error mistake := by
  have broken : ∀ {first second third fourth : Char} {more : List Char},
      body ++ '"' :: rest = first :: second :: third :: fourth :: more →
        codeUnit? first second third fourth = none :=
    codeUnit?_eq_none noUnit
  generalize body ++ '"' :: rest = digits at *
  rw [readUnits.eq_def]
  cases digits with
  | nil => exact ⟨_, rfl⟩
  | cons first digits =>
  cases digits with
  | nil => exact ⟨_, rfl⟩
  | cons second digits =>
  cases digits with
  | nil => exact ⟨_, rfl⟩
  | cons third digits =>
  cases digits with
  | nil => exact ⟨_, rfl⟩
  | cons fourth more =>
      simp only [broken rfl]
      exact ⟨_, rfl⟩

/-- Closed text that is read to the same units, whatever follows it. -/
def Readable (body : List Char) : Prop :=
  ∃ units, ∀ whole rest, readUnits whole (body ++ '"' :: rest) = .ok (units, rest)

/-- Closed text that is no text of JSON, whatever follows it. -/
def Unreadable (body : List Char) : Prop :=
  ∀ whole rest, ∃ mistake, readUnits whole (body ++ '"' :: rest) = .error mistake

/-- A unit in front of a closed text. -/
theorem readable_consUnit {first second : List Char} {unit : Nat}
    (step : ∀ whole rest, readUnits whole (first ++ '"' :: rest) =
      consUnit unit (readUnits whole (second ++ '"' :: rest)))
    (behind : Readable second ∨ Unreadable second) :
    Readable first ∨ Unreadable first := by
  rcases behind with ⟨units, read⟩ | unread
  · left
    exact ⟨unit :: units, fun whole rest => by rw [step, read]; rfl⟩
  · right
    intro whole rest
    obtain ⟨mistake, failed⟩ := unread whole rest
    exact ⟨mistake, by rw [step, failed]; rfl⟩

/-- Whether a closed text can be read is seen without what follows it. -/
theorem readable_or_unreadable (inside : LiteralBody '"' body) :
    Readable body ∨ Unreadable body := by
  induction length : body.length using Nat.strongRecOn generalizing body with
  | _ size ih =>
  cases inside with
  | nil => exact .inl ⟨[], readUnits_close⟩
  | @plain char rest notEscape notQuote others =>
      rw [List.length_cons] at length
      have read := fun whole after =>
        readUnits_plain whole (rest ++ '"' :: after) notEscape notQuote
      by_cases control : char.toNat < 0x20
      · right
        intro whole after
        exact ⟨_, (read whole after).trans (if_pos control)⟩
      · exact readable_consUnit (fun whole after => (read whole after).trans
          (if_neg control)) (ih _ (by omega) others rfl)
  | @escaped char rest others =>
      simp only [List.length_cons] at length
      by_cases unicode : char = 'u'
      · subst unicode
        by_cases digits : BeginsUnit rest
        · obtain ⟨first, second, third, fourth, more, unit, rfl, read⟩ := digits
          have inside : LiteralBody '"' more := by
            have passed := Letter.passed_of_codeUnit read
            simp only [List.forall_mem_cons] at passed
            obtain ⟨one, two, three, four, -⟩ := passed
            exact (((others.tail one.1).tail two.1).tail three.1).tail four.1
          have goesOn : ∀ after, more ++ '"' :: after ≠ [] := by simp
          simp only [List.length_cons] at length
          exact readable_consUnit (fun whole after =>
            readUnits_unit whole _ read (goesOn after)) (ih _ (by omega) inside rfl)
        · exact .inr fun whole after => readUnits_noUnit digits whole after
      · have read := fun whole after =>
          readUnits_short whole (rest ++ '"' :: after) unicode
        cases known : shortEscape? char with
        | none =>
            rw [known] at read
            exact .inr fun whole after => ⟨_, read whole after⟩
        | some meant =>
            rw [known] at read
            exact readable_consUnit read (ih _ (by omega) others rfl)

/-- The digits of the integer at which reading stops; at a mistake there are
none. -/
def digitsOf : Obstacle → Option Nat
  | .mistake _ => none
  | .longInteger digits => some digits

section Step

variable (state : State) (token : Token)

/-- Where a token stands does not matter for what is due next. -/
theorem step_digitsOf (first second : List Char) :
    (state.step ⟨token, first⟩).mapError digitsOf =
      (state.step ⟨token, second⟩).mapError digitsOf := by
  cases state with
  | complete value frames =>
      cases frames with
      | nil => cases token <;> rfl
      | cons frame frames => cases frame <;> cases token <;> rfl
  | _ => cases token <;> rfl

/-- No text that cannot be read is ever due. -/
theorem step_brokenText (mistake : Mistake) (remaining : List Char) :
    (state.step ⟨.brokenText mistake, remaining⟩).mapError digitsOf = .error none := by
  cases state with
  | complete value frames =>
      cases frames with
      | nil => rfl
      | cons frame frames => cases frame <;> rfl
  | _ => rfl

theorem step_unknown (remaining : List Char) :
    (state.step ⟨.unknown, remaining⟩).mapError digitsOf = .error none := by
  cases state with
  | complete value frames =>
      cases frames with
      | nil => rfl
      | cons frame frames => cases frame <;> rfl
  | _ => rfl

end Step

/-- Runs that take alike steps come to the same. -/
theorem run_digitsOf {state : State} {first second : Lexeme} {rest others : List Lexeme}
    (same : (state.step first).mapError digitsOf = (state.step second).mapError digitsOf)
    (later : ∀ next, (state.step first).mapError digitsOf = .ok next →
      (next.run rest).mapError digitsOf = (next.run others).mapError digitsOf) :
    (state.run (first :: rest)).mapError digitsOf =
      (state.run (second :: others)).mapError digitsOf := by
  cases one : state.step first with
  | ok next =>
      cases two : state.step second with
      | ok other =>
          rw [one, two] at same
          cases same
          simpa only [State.run, one, two] using later next (by rw [one]; rfl)
      | error obstacle => rw [one, two] at same; cases same
  | error obstacle =>
      cases two : state.step second with
      | ok other => rw [one, two] at same; cases same
      | error other =>
          rw [one, two] at same
          simp only [Except.mapError, Except.error.injEq] at same
          simp only [State.run, one, two, Except.mapError, same]

namespace Padded

/-- Padding leaves the tokens and what is read from them. -/
theorem run_lexemes (related : Padded loose tight padded) (state : State) :
    (state.run (lexemes tight)).mapError digitsOf =
      (state.run (lexemes padded)).mapError digitsOf := by
  induction length : padded.length using Nat.strongRecOn
    generalizing loose tight padded state with
  | _ size ih =>
  cases related with
  | same => rfl
  | stop _ first second =>
      rw [lexemes_cons rfl, lexemes_cons rfl]
      refine run_digitsOf (step_digitsOf state _ _ _) fun next stepped => ?_
      rw [show (nextToken '\x60' first).1 = .unknown from rfl, step_unknown] at stepped
      cases stepped
  | @keep _ char tight padded code rest =>
      rw [List.length_cons] at length
      cases separates : isSeparator char with
      | true =>
          rw [lexemes, lexemes, if_pos separates, if_pos separates]
          exact ih _ (by omega) rest state rfl
      | false =>
          obtain ⟨token, other, behind⟩ := rest.afterToken code
          have shorter := length_nextToken char padded
          rw [lexemes_cons separates, lexemes_cons separates, token]
          exact run_digitsOf (step_digitsOf state _ _ _) fun next _ =>
            ih _ (by omega) behind next rfl
  | @pad _ char tight padded separates place rest =>
      rw [List.length_cons] at length
      rw [lexemes.eq_2 char padded, if_pos separates]
      exact ih _ (by omega) rest state rfl
  | @literal _ body tight padded inside rest =>
      simp only [List.length_cons, List.length_append] at length
      rw [lexemes_cons rfl, lexemes_cons rfl]
      rcases readable_or_unreadable inside with ⟨units, read⟩ | unread
      · have text : ∀ rest, nextToken '"' (body ++ '"' :: rest) =
            (.text (String.ofList (joinUnits units)), rest) := by
          intro rest
          rw [nextToken, read]
        rw [text, text]
        exact run_digitsOf (step_digitsOf state _ _ _) fun next _ =>
          ih _ (by omega) rest next rfl
      · have broken : ∀ rest, ∃ mistake, nextToken '"' (body ++ '"' :: rest) =
            (.brokenText mistake, []) := by
          intro rest
          obtain ⟨mistake, failed⟩ := unread ('"' :: (body ++ '"' :: rest)) rest
          exact ⟨mistake, by rw [nextToken, failed]⟩
        obtain ⟨one, first⟩ := broken tight
        obtain ⟨other, second⟩ := broken padded
        rw [first, second]
        refine run_digitsOf (by rw [step_brokenText, step_brokenText])
          fun next stepped => ?_
        simp [step_brokenText] at stepped

/-- A padded document is read to the same value. -/
theorem read (related : Padded loose tight padded) :
    (read tight).mapError digitsOf = (read padded).mapError digitsOf := by
  have run : ∀ text : List Char, (Json.read text).mapError digitsOf =
      ((State.valueDue []).run (lexemes text)).mapError digitsOf := by
    intro text
    unfold Json.read
    split
    next rest =>
      rw [lexemes_cons rfl, State.run.eq_def]
      rfl
    next => rfl
  rw [run, run]
  exact related.run_lexemes _

end Padded

/-! ## Decoding -/

/-- The digits of the integer for which a document is refused; for a mistake there
are none. -/
def refusedDigits : Refusal → Option Nat
  | .malformed _ => none
  | .longInteger digits => some digits

/-- A document is read once more where the first reading met a mistake. -/
theorem decodeClean_mapError (cleaned : List Char) :
    (decodeClean cleaned).mapError refusedDigits =
      match (read (normalize cleaned)).mapError digitsOf with
      | .error none => (read (normalizeBoldly cleaned)).mapError digitsOf
      | outcome => outcome := by
  rw [decodeClean]
  cases first : read (normalize cleaned) with
  | ok value => rfl
  | error obstacle =>
      cases obstacle with
      | longInteger digits => rfl
      | mistake mistake =>
          cases second : read (normalizeBoldly cleaned) with
          | ok value => rfl
          | error obstacle => cases obstacle <;> rfl

/-- Two padded forms of one document are decoded to the same value. -/
theorem decodeClean_padded {tight first second : List Char}
    (one : Padded loose tight (convertSingleQuotes first))
    (other : Padded loose tight (convertSingleQuotes second)) :
    (decodeClean first).mapError refusedDigits =
      (decodeClean second).mapError refusedDigits := by
  have regular : (Json.read (normalize first)).mapError digitsOf =
      (Json.read (normalize second)).mapError digitsOf :=
    one.repairCode.read.symm.trans other.repairCode.read
  have boldly : (Json.read (normalizeBoldly first)).mapError digitsOf =
      (Json.read (normalizeBoldly second)).mapError digitsOf :=
    one.repairCode.repairBoldly.read.symm.trans other.repairCode.repairBoldly.read
  rw [decodeClean_mapError, decodeClean_mapError, regular, boldly]

end TwinSchema.Relaxed
