import TwinSchema.Proofs.Relaxed.Refusal
import TwinSchema.Proofs.Source.Part

/-!
# Breakdowns of source text

Reading source text comes from one expression to the ones inside it. It breaks
down only at an expression of which a property key is no readable text, or of
which an argument holds an integer of too many digits.
-/

namespace TwinSchema.Source

open Text

/-- What breaks down at an expression: one of its keys is no readable text, or
one of its arguments holds an integer of too many digits. -/
inductive BreaksDown (breakdown : Breakdown) (expression : List Char) : Prop where
  | key (property : Key × List Char) (inside : property ∈ propertiesOf expression)
      (unreadable : property.1.read = .error breakdown)
  | argument (argument : List Char) (inside : argument ∈ dataArguments expression)
      (overlong : decodeArgument argument = .error (.breakdown breakdown))

/-- How the reading of an expression comes to break down: at the expression
itself, in the reading of one directly inside it, or at what stands in for
that. -/
inductive Origin (breakdown : Breakdown) (expression : List Char) : Prop where
  | here (cause : BreaksDown breakdown expression)
  | reading (inner : List Char) (inside : inner ∈ innerExpressions expression)
      (stopped : readExpression inner = .error (.breakdown breakdown))
  | fallback (inner : List Char) (inside : inner ∈ innerExpressions expression)
      (cause : BreaksDown breakdown inner)

variable {breakdown : Breakdown}

/-- An argument without overlong integers is decoded, or it is none that can be
read. -/
theorem decodeArgument_ne_breakdown {argument : List Char}
    (short : Relaxed.ShortIntegers (dropConstAssertion argument))
    (breakdown : Breakdown) :
    decodeArgument argument ≠ .error (.breakdown breakdown) := by
  intro stopped
  rw [decodeArgument] at stopped
  split at stopped
  next => cases stopped
  next => cases stopped
  next digits refused => exact short.decode_ne digits refused

theorem readDescription_breakdown {arguments : List Char}
    (stopped : readDescription arguments = .error breakdown) :
    templateText? (trim arguments) = none ∧
      decodeArgument (trim arguments) = .error (.breakdown breakdown) := by
  rw [readDescription] at stopped
  split at stopped
  next => cases stopped
  next plain =>
    split at stopped
    next => cases stopped
    next => cases stopped
    next found => cases stopped; exact ⟨plain, found⟩

theorem applyLink_breakdown {node : Node} {link : Link}
    (stopped : applyLink node link = .error breakdown) :
    ∃ argument, describing? link = some argument ∧
      decodeArgument argument = .error (.breakdown breakdown) := by
  rw [applyLink] at stopped
  split at stopped
  case h_4 named | h_5 named =>
    split at stopped
    next => cases stopped
    next found =>
      cases stopped
      obtain ⟨plain, overlong⟩ := readDescription_breakdown found
      exact ⟨trim link.arguments, by simp [describing?, named, plain], overlong⟩
  all_goals cases stopped

theorem applyLinks_breakdown {node : Node} {links : List Link}
    (stopped : applyLinks node links = .error breakdown) :
    ∃ argument ∈ links.filterMap describing?,
      decodeArgument argument = .error (.breakdown breakdown) := by
  induction links generalizing node with
  | nil => cases stopped
  | cons link links ih =>
      rw [applyLinks] at stopped
      split at stopped
      next =>
        obtain ⟨argument, member, overlong⟩ := ih stopped
        obtain ⟨found, inside, described⟩ := List.mem_filterMap.mp member
        exact ⟨argument,
          List.mem_filterMap.mpr ⟨found, List.mem_cons_of_mem _ inside, described⟩,
          overlong⟩
      next found =>
        cases stopped
        obtain ⟨argument, described, overlong⟩ := applyLink_breakdown found
        exact ⟨argument,
          List.mem_filterMap.mpr ⟨link, List.mem_cons_self, described⟩, overlong⟩

/-- Links at the end of an expression break down at one of its arguments. -/
theorem breaksDown_of_applyLinks {node : Node} {expression : List Char}
    (stopped : applyLinks node (trailingLinks expression) = .error breakdown) :
    BreaksDown breakdown expression := by
  obtain ⟨argument, member, overlong⟩ := applyLinks_breakdown stopped
  exact .argument argument (List.mem_append_right _ member) overlong

theorem readLiteralCall_breakdown {arguments : List Char}
    (stopped : readLiteralCall arguments = .error (.breakdown breakdown)) :
    decodeArgument arguments = .error (.breakdown breakdown) := by
  rw [readLiteralCall] at stopped
  cases decoded : decodeArgument arguments with
  | error setback => rw [decoded] at stopped; cases stopped; rfl
  | ok value =>
      rw [decoded] at stopped
      cases value <;> cases stopped

theorem readEnumerationCall_breakdown {arguments : List Char}
    (stopped : readEnumerationCall arguments = .error (.breakdown breakdown)) :
    decodeArgument arguments = .error (.breakdown breakdown) := by
  rw [readEnumerationCall] at stopped
  cases decoded : decodeArgument arguments with
  | error setback => rw [decoded] at stopped; cases stopped; rfl
  | ok value =>
      rw [decoded] at stopped
      cases value with
      | list values =>
          cases found : choices? values <;>
            simp only [Bind.bind, Except.bind, found] at stopped <;> cases stopped
      | _ => cases stopped

theorem readMembers_breakdown {pieces : List (List Char)}
    (stopped : readMembers pieces = .error (.breakdown breakdown)) :
    ∃ piece ∈ pieces, readExpression piece = .error (.breakdown breakdown) := by
  induction pieces with
  | nil => rw [readMembers] at stopped; cases stopped
  | cons piece rest ih =>
      rw [readMembers.eq_def] at stopped
      simp only at stopped
      split at stopped
      next found =>
        cases stopped
        exact ⟨piece, List.mem_cons_self, found⟩
      next =>
        split at stopped
        next => cases stopped
        next found =>
          cases stopped
          obtain ⟨piece, inside, failed⟩ := ih found
          exact ⟨piece, List.mem_cons_of_mem _ inside, failed⟩

theorem readProperties_breakdown {before : List (String × Node)}
    {entries : List (List Char)}
    (stopped : readProperties before entries = .error breakdown) :
    ∃ property ∈ entries.filterMap property?,
      property.1.read = .error breakdown ∨
        ∃ name, readProperty name property.2 = .error breakdown := by
  induction entries generalizing before with
  | nil => rw [readProperties] at stopped; cases stopped
  | cons entry rest ih =>
      rw [readProperties.eq_def] at stopped
      simp only at stopped
      split at stopped
      next absent => rw [List.filterMap_cons_none absent]; exact ih stopped
      next key expression found =>
        rw [List.filterMap_cons_some found]
        split at stopped
        next unreadable =>
          cases stopped
          exact ⟨(key, expression), List.mem_cons_self, .inl unreadable⟩
        next name _ =>
          split at stopped
          next =>
            obtain ⟨property, inside, cause⟩ := ih stopped
            exact ⟨property, List.mem_cons_of_mem _ inside, cause⟩
          next failed =>
            cases stopped
            exact ⟨(key, expression), List.mem_cons_self, .inr ⟨name, failed⟩⟩

theorem readProperty_breakdown {name : String} {expression : List Char}
    (stopped : readProperty name expression = .error breakdown) :
    readExpression expression = .error (.breakdown breakdown) ∨
      BreaksDown breakdown expression := by
  rw [readProperty.eq_def] at stopped
  split at stopped
  next => cases stopped
  next found => cases stopped; exact .inl found
  next => exact .inr (breaksDown_of_applyLinks stopped)

/-- The properties of an object break down at one of its keys, or at the schema of
one of them. -/
theorem origin_of_readProperties {expression : List Char} {call : Call}
    {body : List Char} (begun : call? expression = some call)
    (kind : constructorKind? call.constructor = some .object)
    (wrapped : unwrap? '{' '}' (trim call.arguments) = some body)
    (stopped : readProperties [] (splitTopLevel body) = .error breakdown) :
    Origin breakdown expression := by
  obtain ⟨property, member, cause⟩ := readProperties_breakdown stopped
  have inside : property ∈ propertiesOf expression := by
    simpa only [propertiesOf, begun, kind, piecesWithin, wrapped, if_true] using member
  have schema : property.2 ∈ innerExpressions expression := by
    simp only [innerExpressions, begun, kind]
    exact List.mem_map_of_mem inside
  obtain unreadable | ⟨name, failed⟩ := cause
  · exact .here (.key property inside unreadable)
  · rcases readProperty_breakdown failed with reading | standing
    · exact .reading property.2 schema reading
    · exact .fallback property.2 schema standing

/-- A constructor call breaks down at its own arguments and keys, or at an
expression directly inside it. -/
theorem origin_of_readCall {expression : List Char} {call : Call}
    (begun : call? expression = some call)
    (stopped : readCall call.constructor call.arguments =
      .error (.breakdown breakdown)) :
    Origin breakdown expression := by
  rw [readCall.eq_def] at stopped
  split at stopped
  next => cases stopped
  next => cases stopped
  next kind =>
    refine .here (.argument call.arguments ?_ (readLiteralCall_breakdown stopped))
    simp [dataArguments, dataArgument?, begun, kind]
  next kind =>
    refine .here (.argument call.arguments ?_ (readEnumerationCall_breakdown stopped))
    simp [dataArguments, dataArgument?, begun, kind]
  next kind =>
    split at stopped
    next => cases stopped
    next =>
      split at stopped
      next => cases stopped
      next failed =>
        cases stopped
        refine .reading call.arguments ?_ failed
        simp [innerExpressions, begun, kind]
  next kind =>
    split at stopped
    next => cases stopped
    next =>
      split at stopped
      next => cases stopped
      next body wrapped =>
        split at stopped
        next => cases stopped
        next failed =>
          cases stopped
          exact origin_of_readProperties begun kind wrapped failed
  next kind =>
    split at stopped
    next => cases stopped
    next body wrapped =>
      split at stopped
      next => cases stopped
      next failed =>
        cases stopped
        obtain ⟨piece, inside, failed⟩ := readMembers_breakdown failed
        refine .reading piece ?_ failed
        simpa only [innerExpressions, begun, kind, piecesWithin, wrapped] using inside

/-- Reading an expression breaks down at what stands in it, or at an expression
directly inside it. -/
theorem origin_of_readExpression {expression : List Char}
    (stopped : readExpression expression = .error (.breakdown breakdown)) :
    Origin breakdown expression := by
  rw [readExpression.eq_def] at stopped
  split at stopped
  next => cases stopped
  next chain found =>
    split at stopped
    next => cases stopped
    next call called =>
      split at stopped
      next base made =>
        have links : trailingLinks expression = chain.links := by
          rw [trailingLinks, found]
        cases applied : applyLinks base chain.links with
        | ok node => rw [applied] at stopped; cases stopped
        | error reason =>
            rw [applied] at stopped
            cases stopped
            exact .here (breaksDown_of_applyLinks (links ▸ applied))
      next failed =>
        cases stopped
        have begun : call? expression = some call := by
          rw [call?, found]
          exact called
        exact origin_of_readCall begun failed

/-- When the reading of an expression breaks down, it does so at one of the
expressions that it comes to. -/
theorem exists_part_of_readExpression {text expression : List Char}
    (part : Part text expression)
    (stopped : readExpression expression = .error (.breakdown breakdown)) :
    ∃ inner, Part text inner ∧ BreaksDown breakdown inner := by
  cases origin_of_readExpression stopped with
  | here cause => exact ⟨expression, part, cause⟩
  | reading inner inside failed =>
      have shorter := length_of_mem_innerExpressions inside
      exact exists_part_of_readExpression (part.inner inside) failed
  | fallback inner inside cause => exact ⟨inner, part.inner inside, cause⟩
termination_by expression.length

theorem exists_part_of_readTopLevel {text expression : List Char}
    (part : Part text expression)
    (stopped : readTopLevel text expression = .error breakdown) :
    ∃ inner, Part text inner ∧ BreaksDown breakdown inner := by
  rw [readTopLevel] at stopped
  split at stopped
  next => cases stopped
  next failed => cases stopped; exact exists_part_of_readExpression part failed
  next =>
    split at stopped
    next => cases stopped
    next => cases stopped
    next kind _ =>
      cases applied : applyLinks (if kind = .object then
          .object {} (namedProperties text) else .ofKind kind)
          (trailingLinks expression) with
      | ok node => simp only [applied] at stopped; cases stopped
      | error reason =>
          simp only [applied] at stopped
          cases stopped
          exact ⟨expression, part, breaksDown_of_applyLinks applied⟩

theorem exists_part_of_firstReadable {text : List Char}
    {candidates : List (Option (List Char))}
    (parts : ∀ expression, some expression ∈ candidates → Part text expression)
    (stopped : firstReadable text candidates = .error breakdown) :
    ∃ inner, Part text inner ∧ BreaksDown breakdown inner := by
  induction candidates with
  | nil => cases stopped
  | cons candidate rest ih =>
      have later (expression : List Char) (inside : some expression ∈ rest) :=
        parts expression (List.mem_cons_of_mem _ inside)
      cases candidate with
      | none => exact ih later stopped
      | some expression =>
          rw [firstReadable] at stopped
          split at stopped
          next => exact ih later stopped
          next =>
            exact exists_part_of_readTopLevel (parts expression List.mem_cons_self)
              stopped

/-- When the reading of a text breaks down, it does so at a key or an argument
of an expression that it comes to. -/
theorem exists_part_of_breakdown {text : List Char}
    (stopped : read text = .error (.breakdown breakdown)) :
    ∃ expression, Part (clean text) expression ∧ BreaksDown breakdown expression := by
  rw [read, readClean] at stopped
  split at stopped
  next => cases stopped
  next =>
    split at stopped
    next failed =>
      cases stopped
      exact exists_part_of_firstReadable (fun _ found => .whole found) failed
    next => cases stopped
    next => split at stopped <;> cases stopped

end TwinSchema.Source
