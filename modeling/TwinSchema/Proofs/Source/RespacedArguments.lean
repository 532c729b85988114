import TwinSchema.Proofs.Source.RespacedDocument

/-!
# Respaced arguments

The arguments of a call and the same arguments spaced anew are read as the same
data, also behind a constness assertion, and describe a node alike. So links do
the same to a node.
-/

namespace TwinSchema.Source

open Json Text

variable {place : Place} {first second : List Char}

/-- Whether a text is an assertion with the blanks in front of it. -/
def isAssertion (text : List Char) : Bool :=
  ((((blanks? text).bind (dropWord? "as".toList)).bind blanks?).bind
    (dropWord? "const".toList)).any allBlank

/-- An argument without an assertion at its end, if it has one. -/
def assertedBody? (text : List Char) : Option (List Char) :=
  ((dropEndingWord? "const" (trimLeft text.reverse)).bind (dropEndingWord? "as")).map
    List.reverse

theorem dropConstAssertion_eq (text : List Char) :
    dropConstAssertion text = (assertedBody? text).getD text := by
  rw [dropConstAssertion, assertedBody?]
  cases (dropEndingWord? "const" (trimLeft text.reverse)).bind (dropEndingWord? "as") <;> rfl

theorem blanks?_eq_some {text rest : List Char} (found : blanks? text = some rest) :
    ∃ gap, gap ≠ [] ∧ (∀ char ∈ gap, isBlank char = true) ∧ text = gap ++ rest ∧
      Stops isBlank rest := by
  cases text with
  | nil => cases found
  | cons char text =>
      rw [blanks?] at found
      split at found
      next blank =>
        cases found
        refine ⟨char :: text.takeWhile isBlank, List.cons_ne_nil _ _, ?_, ?_,
          stops_trimLeft text⟩
        · rw [List.forall_mem_cons]
          exact ⟨blank, fun _ member => List.mem_takeWhile_imp member⟩
        · rw [List.cons_append, trimLeft, List.takeWhile_append_dropWhile]
      next => cases found

theorem blanks?_append {gap : List Char} (nonempty : gap ≠ [])
    (blank : ∀ char ∈ gap, isBlank char = true) (rest : List Char) :
    blanks? (gap ++ rest) = some (trimLeft rest) := by
  cases gap with
  | nil => exact absurd rfl nonempty
  | cons char gap =>
      rw [List.forall_mem_cons] at blank
      rw [List.cons_append, blanks?, if_pos blank.1, trimLeft_blanks blank.2]

/-- An assertion stands behind what is left of an argument. -/
theorem isAssertion_iff (text : List Char) :
    isAssertion text = true ↔ ∃ gap space tail, gap ≠ [] ∧ space ≠ [] ∧
      (∀ char ∈ gap, isBlank char = true) ∧ (∀ char ∈ space, isBlank char = true) ∧
      (∀ char ∈ tail, isBlank char = true) ∧
      text = gap ++ ("as".toList ++ (space ++ ("const".toList ++ tail))) := by
  constructor
  · intro asserts
    rw [isAssertion, Option.any_eq_true] at asserts
    obtain ⟨tail, found, blank⟩ := asserts
    simp only [Option.bind_eq_some_iff] at found
    obtain ⟨afterSpace, ⟨afterWord, ⟨afterGap, skipped, word⟩, between⟩, last⟩ := found
    obtain ⟨gap, gapSome, gapBlank, rfl, -⟩ := blanks?_eq_some skipped
    obtain ⟨space, spaceSome, spaceBlank, rfl, -⟩ := blanks?_eq_some between
    refine ⟨gap, space, tail, gapSome, spaceSome, gapBlank, spaceBlank, ?_, ?_⟩
    · rwa [allBlank, List.all_eq_true] at blank
    · rw [dropWord?_eq_some word, dropWord?_eq_some last]
  · rintro ⟨gap, space, tail, gapSome, spaceSome, gapBlank, spaceBlank, blank, rfl⟩
    have first : trimLeft ("as".toList ++ (space ++ ("const".toList ++ tail))) =
        "as".toList ++ (space ++ ("const".toList ++ tail)) :=
      trimLeft_of_stops (stops_cons (by decide))
    have second : trimLeft ("const".toList ++ tail) = "const".toList ++ tail :=
      trimLeft_of_stops (stops_cons (by decide))
    rw [isAssertion, blanks?_append gapSome gapBlank, first, Option.bind_some,
      Relaxed.dropWord?_append, Option.bind_some, blanks?_append spaceSome spaceBlank, second,
      Option.bind_some, Relaxed.dropWord?_append, Option.any_some]
    rwa [allBlank, List.all_eq_true]

/-- What is left of an argument in front of its assertion. -/
theorem assertedBody?_append {assertion : List Char} (asserts : isAssertion assertion = true)
    (body : List Char) : assertedBody? (body ++ assertion) = some (trimRight body) := by
  obtain ⟨gap, space, tail, gapSome, spaceSome, gapBlank, spaceBlank, blank, rfl⟩ :=
    (isAssertion_iff assertion).mp asserts
  have reversed : (body ++ (gap ++ ("as".toList ++ (space ++ ("const".toList ++ tail))))).reverse =
      tail.reverse ++ ("const".toList.reverse ++ (space.reverse ++
        ("as".toList.reverse ++ (gap.reverse ++ body.reverse)))) := by
    simp
  have trimmed : trimLeft ("const".toList.reverse ++ (space.reverse ++
        ("as".toList.reverse ++ (gap.reverse ++ body.reverse)))) = _ :=
    trimLeft_of_stops (stops_cons (by decide))
  have between : trimLeft ("as".toList.reverse ++ (gap.reverse ++ body.reverse)) = _ :=
    trimLeft_of_stops (stops_cons (by decide))
  rw [assertedBody?, reversed, trimLeft_blanks (by simpa using blank), trimmed,
    dropEndingWord?, Relaxed.dropWord?_append, Option.bind_some,
    blanks?_append (by simpa using spaceSome) (by simpa using spaceBlank), between,
    Option.bind_some, dropEndingWord?, Relaxed.dropWord?_append, Option.bind_some,
    blanks?_append (by simpa using gapSome) (by simpa using gapBlank), Option.map_some]
  rfl

/-- An assertion that is taken off stands at the end. -/
theorem exists_assertion {text body : List Char} (found : assertedBody? text = some body) :
    ∃ assertion, isAssertion assertion = true ∧ text = body ++ assertion := by
  rw [assertedBody?, Option.map_eq_some_iff] at found
  obtain ⟨reversed, found, rfl⟩ := found
  obtain ⟨between, last, front⟩ := Option.bind_eq_some_iff.mp found
  obtain ⟨afterLast, lastWord, lastBlanks⟩ := Option.bind_eq_some_iff.mp last
  obtain ⟨afterFront, frontWord, frontBlanks⟩ := Option.bind_eq_some_iff.mp front
  obtain ⟨space, spaceSome, spaceBlank, rfl, -⟩ := blanks?_eq_some lastBlanks
  obtain ⟨gap, gapSome, gapBlank, rfl, -⟩ := blanks?_eq_some frontBlanks
  obtain ⟨tail, tailBlank, whole⟩ : ∃ tail, (∀ char ∈ tail, isBlank char = true) ∧
      text.reverse = tail ++ ("const".toList.reverse ++ (space ++
        ("as".toList.reverse ++ (gap ++ reversed)))) := by
    refine ⟨text.reverse.takeWhile isBlank, fun _ => List.mem_takeWhile_imp, ?_⟩
    rw [← dropWord?_eq_some frontWord, ← dropWord?_eq_some lastWord, trimLeft,
      List.takeWhile_append_dropWhile]
  refine ⟨gap.reverse ++ ("as".toList ++ (space.reverse ++ ("const".toList ++ tail.reverse))),
    ?_, ?_⟩
  · rw [isAssertion_iff]
    exact ⟨_, _, _, by simpa using gapSome, by simpa using spaceSome, by simpa using gapBlank,
      by simpa using spaceBlank, by simpa using tailBlank, rfl⟩
  · rw [← List.reverse_inj, whole]
    simp

theorem isPrefix_dropConstAssertion (text : List Char) : dropConstAssertion text <+: text := by
  rw [dropConstAssertion_eq]
  cases found : assertedBody? text with
  | none => exact List.prefix_rfl
  | some body =>
      obtain ⟨assertion, -, whole⟩ := exists_assertion found
      exact ⟨assertion, whole.symm⟩

/-- The words of an assertion that a text begins with, as what follows them. -/
def assertionWords? (text : List Char) : Option (List Char) :=
  ((dropWord? "as".toList text).bind blanks?).bind (dropWord? "const".toList)

theorem beginsAssertion_eq (text : List Char) :
    beginsAssertion text = (assertionWords? (trimLeft text)).isSome := rfl

theorem isAssertion_eq_any (text : List Char) :
    isAssertion text = ((blanks? text).bind assertionWords?).any allBlank := by
  rw [isAssertion, Option.bind_assoc, Option.bind_assoc]
  cases blanks? text with
  | none => rfl
  | some rest =>
      simp only [Option.bind_some, assertionWords?]
      rw [Option.bind_assoc]

theorem beginsAssertion_of_isAssertion {text : List Char} (asserts : isAssertion text = true) :
    beginsAssertion text = true := by
  rw [isAssertion_eq_any, Option.any_eq_true] at asserts
  obtain ⟨rest, found, -⟩ := asserts
  obtain ⟨words, skipped, begins⟩ := Option.bind_eq_some_iff.mp found
  obtain ⟨gap, -, blank, rfl, stops⟩ := blanks?_eq_some skipped
  rw [beginsAssertion_eq, trimLeft_blanks blank, trimLeft_of_stops stops, begins]
  rfl

/-- Where the layout sets the blanks no assertion begins. -/
theorem not_beginsAssertion (code : place.cursor = .code) (loose : place.loose = true)
    (fitting : isFitting place first = true) : beginsAssertion first = false := by
  have inner := isFitting_trimLeft code fitting
  rw [beginsAssertion_eq]
  have stops := stops_trimLeft first
  generalize trimLeft first = text at inner stops
  cases text with
  | nil => rfl
  | cons char rest =>
      have suit := suits_of_isFitting inner code
      simp only [suits, loose, Bool.and_eq_true, Bool.not_true, Bool.false_or] at suit
      have apart := suit.2
      rwa [beginsAssertion_eq, trimLeft_of_stops stops, Bool.not_eq_true'] at apart

namespace Respaced

theorem assertionWords? (related : Respaced false place first second) :
    Option.Rel (fun one other => ∃ place, Respaced false place one other)
      (Source.assertionWords? (Text.trimLeft first))
      (Source.assertionWords? (Text.trimLeft second)) := by
  have word := related.trimLeft.dropWord?
    (List.all_eq_true.mp (by decide : "as".toList.all isSolid = true))
    (.inr ⟨stops_trimLeft _, stops_trimLeft _⟩)
  rw [Source.assertionWords?, Source.assertionWords?, Option.bind_assoc, Option.bind_assoc]
  refine relBind word fun {one other} behind => ?_
  have missing (text : List Char) (closing : beforeClosing text = true) :
      Text.dropWord? "const".toList text = none :=
    dropWord?_beforeClosing (by decide) _ closing
  refine behind.blanks?_bind (Place.steady_advance (by decide : isSolid 's' = true) _)
    missing missing ?_
  have last := behind.trimLeft.dropWord?
    (List.all_eq_true.mp (by decide : "const".toList.all isSolid = true))
    (.inr ⟨stops_trimLeft _, stops_trimLeft _⟩)
  generalize Text.dropWord? "const".toList (Text.trimLeft one) = left at last ⊢
  generalize Text.dropWord? "const".toList (Text.trimLeft other) = right at last ⊢
  cases last with
  | none => exact .none
  | some rest => exact .some ⟨_, rest⟩

/-- Where code means the same in any spacing, both texts are assertions or neither
is. -/
theorem isAssertion_eq (related : Respaced false place first second)
    (fitting : isFitting place first = true) :
    isAssertion first = isAssertion second := by
  by_cases steady : place.Steady
  · have missing (text : List Char) (closing : beforeClosing text = true) :
        Source.assertionWords? text = none := by
      rw [Source.assertionWords?, show "as".toList = 'a' :: ['s'] from rfl,
        dropWord?_beforeClosing (by decide) _ closing]
      rfl
    have found := related.blanks?_bind steady missing missing related.assertionWords?
    rw [isAssertion_eq_any, isAssertion_eq_any]
    generalize (blanks? first).bind Source.assertionWords? = left at found ⊢
    generalize (blanks? second).bind Source.assertionWords? = right at found ⊢
    cases found with
    | none => rfl
    | some rest =>
        obtain ⟨place, rest⟩ := rest
        rw [Option.any_some, Option.any_some, rest.allBlank_eq]
  · -- no assertion begins here, so neither text is one
    rw [Place.Steady, Classical.not_imp, Bool.not_eq_false] at steady
    have noneFirst := not_beginsAssertion steady.1 steady.2 fitting
    have noneSecond : beginsAssertion second = false := by
      rwa [beginsAssertion_eq, ← isSome_eq_of_rel related.assertionWords?,
        ← beginsAssertion_eq]
    have not {text : List Char} (none : beginsAssertion text = false) :
        isAssertion text = false := by
      rw [Bool.eq_false_iff]
      intro asserts
      rw [beginsAssertion_of_isAssertion asserts] at none
      cases none
    rw [not noneFirst, not noneSecond]

/-- Without the assertions at their ends. -/
theorem dropConstAssertion (related : Respaced false place first second)
    (fitting : isFitting place first = true) :
    Respaced false place (Source.dropConstAssertion first) (Source.dropConstAssertion second) := by
  rw [dropConstAssertion_eq, dropConstAssertion_eq]
  cases found : assertedBody? first with
  | some body =>
      obtain ⟨assertion, asserts, rfl⟩ := exists_assertion found
      obtain ⟨start, rest, rfl, front, back⟩ := related.cut_first
      rw [assertedBody?_append asserts, Option.some.injEq] at found
      rw [back.isAssertion_eq (isFitting_suffix fitting)] at asserts
      rw [assertedBody?_append asserts, Option.getD_some, Option.getD_some, ← found]
      exact front.trimRight
  | none =>
      cases foundSecond : assertedBody? second with
      | none => exact related
      | some body =>
          obtain ⟨assertion, asserts, rfl⟩ := exists_assertion foundSecond
          obtain ⟨start, rest, rfl, front, back⟩ := related.cut_second
          rw [← back.isAssertion_eq (isFitting_suffix fitting)] at asserts
          rw [assertedBody?_append asserts] at found
          cases found

end Respaced

/-- What is read of an argument is told by how it is decoded. -/
theorem decodeArgument_eq (text : List Char) :
    decodeArgument text =
      match (Relaxed.decode (dropConstAssertion text)).mapError Relaxed.refusedDigits with
      | .ok value => .ok value
      | .error none => .error .unsupported
      | .error (some digits) => .error (.breakdown (.longInteger digits)) := by
  rw [decodeArgument]
  cases Relaxed.decode (dropConstAssertion text) with
  | ok value => rfl
  | error refusal => cases refusal <;> rfl

theorem stops_front {test : Char → Bool} {text other : List Char}
    (stops : Stops test text) (isPrefix : other <+: text) : Stops test other := by
  cases other with
  | nil => exact stops_nil
  | cons char other =>
      obtain ⟨rest, rfl⟩ := isPrefix
      exact stops_cons (stops char rfl)

theorem getLast?_eq_visible {text : List Char} (trimmed : trimRight text = text) :
    text.getLast? = (text.filter fun char => !isBlank char).getLast? := by
  rcases text.eq_nil_or_concat with rfl | ⟨front, last, rfl⟩
  · rfl
  · have visible : isBlank last = false := by
      rw [Bool.eq_false_iff]
      intro blank
      have shorter := (isPrefix_trimRight front).length_le
      rw [List.concat_eq_append,
        trimRight_append_blanks (List.forall_mem_singleton.mpr blank)] at trimmed
      rw [trimmed, List.length_append, List.length_singleton] at shorter
      omega
    simp [List.filter_append, visible]

theorem templateText?_eq {rest : List Char} (ends : rest.getLast? = some '\x60') :
    templateText? ('\x60' :: rest) = some rest.dropLast := by
  rw [templateText?, if_pos ⟨rfl, ends⟩]

/-- What is closed by the only backquote in it has no other spacing. -/
theorem Respaced.eq_of_template (inside : place.cursor = .literal '\x60')
    (related : Respaced false place first second) (trimmed : Text.trimRight second = second)
    (ends : first.getLast? = some '\x60') (single : isOneTemplate first.dropLast = true) :
    first = second := by
  obtain ⟨front, rfl⟩ := List.getLast?_eq_some_iff.mp ends
  rw [List.dropLast_concat, isOneTemplate, beq_iff_eq] at single
  obtain ⟨body, within, same, split⟩ := quotedRest?_eq_some single
  rcases related.literal (by decide) inside with
    same | ⟨other, tail, rest, otherWithin, whole, rfl, -, -, behind⟩
  · exact same
  obtain ⟨rfl, rfl⟩ := otherWithin.unique (by decide) within (whole.symm.trans split)
  have blank : ∀ char ∈ rest, isBlank char = true := by
    have none := behind.allBlank_eq
    rw [allBlank, List.all_nil, allBlank, eq_comm, List.all_eq_true] at none
    exact none
  have visible : Text.trimRight (other ++ ['\x60']) = other ++ ['\x60'] := by
    simp [Text.trimRight, show isBlank '\x60' = false from rfl]
  rw [List.append_cons, trimRight_append_blanks blank, visible] at trimmed
  rw [whole, List.append_cons other '\x60' rest, ← trimmed]

namespace Alike

theorem of_front {one other : List Char}
    (related : Respaced false place one other) (code : place.cursor = .code)
    (fitting : isFitting place first = true) (isPrefix : one <+: first) : Alike one other := by
  obtain ⟨rest, rfl⟩ := isPrefix
  exact ⟨place, code, isFitting_front fitting, related⟩

theorem trim (alike : Alike first second) : Alike (Text.trim first) (Text.trim second) := by
  obtain ⟨place, code, fitting, related⟩ := alike.trimLeft
  exact .of_front related.trimRight code fitting (isPrefix_trimRight _)

theorem decodeArgument_eq (alike : Alike first second) :
    decodeArgument first = decodeArgument second := by
  obtain ⟨place, code, fitting, related⟩ := alike
  obtain ⟨rest, split⟩ := isPrefix_dropConstAssertion first
  have fits : isFitting place (dropConstAssertion first) = true := by
    rw [← split] at fitting
    exact isFitting_front fitting
  rw [Source.decodeArgument_eq, Source.decodeArgument_eq,
    (related.dropConstAssertion fitting).decode_eq code fits]

/-- What both texts are without the blanks at their ends. -/
theorem trim_cases (alike : Alike first second) :
    (Text.trim first = [] ∧ Text.trim second = []) ∨
      ∃ (place : Place) (char : Char) (tail other : List Char),
        Text.trim first = char :: tail ∧ Text.trim second = char :: other ∧
        place.cursor = .code ∧ isFitting place (char :: tail) = true ∧
        Respaced false (place.advance char) tail other ∧ tail.getLast? = other.getLast? ∧
        trimRight other = other := by
  obtain ⟨place, code, fitting, related⟩ := alike.trim
  have stops (text : List Char) : Stops isBlank (Text.trim text) :=
    stops_front (stops_trimLeft text) (isPrefix_trimRight _)
  rcases related.cases_visible (stops first) (stops second) with
    nil | ⟨char, tail, other, firstCons, secondCons, rest⟩
  · exact .inl nil
  have visible : isBlank char = false := stops first char (by rw [firstCons]; rfl)
  have inner {text rest : List Char} (cons : Text.trim text = char :: rest) :
      trimRight rest = rest := by
    have trimmed : trimRight (Text.trim text) = Text.trim text := by
      rw [Text.trim, trimRight, trimRight, List.reverse_reverse,
        dropWhile_of_stops (stops_dropWhile _ _)]
    have shown : allBlank (char :: rest) = false := by simp [allBlank, visible]
    rw [cons, trimRight_cons shown] at trimmed
    exact (List.cons.inj trimmed).2
  refine .inr ⟨place, char, tail, other, firstCons, secondCons, code, firstCons ▸ fitting, rest,
    ?_, inner secondCons⟩
  rw [getLast?_eq_visible (inner firstCons), getLast?_eq_visible (inner secondCons),
    rest.visible_eq]

/-- Arguments that are one template at most are one template or not, whatever their
spacing. -/
theorem templateText?_eq (alike : Alike first second) (single : areOneTemplate first = true) :
    templateText? (Text.trim first) = templateText? (Text.trim second) := by
  rw [areOneTemplate] at single
  rcases alike.trim_cases with
    ⟨firstNil, secondNil⟩ |
      ⟨place, char, tail, other, firstCons, secondCons, code, -, rest, last, trimmed⟩
  · rw [firstNil, secondNil]
  rw [firstCons] at single
  rw [firstCons, secondCons]
  by_cases template : char = '\x60'
  · subst template
    by_cases ends : tail.getLast? = some '\x60'
    · rw [Source.templateText?_eq ends, Option.all_some] at single
      have inside : (place.advance '\x60').cursor = .literal '\x60' := by
        rw [Place.cursor_advance, code]
        rfl
      rw [rest.eq_of_template inside trimmed ends single]
    · rw [templateText?, templateText?, if_neg (by simp [ends]),
        if_neg (by simp [← last, ends])]
  · simp [templateText?, template]

/-- What both texts hold between brackets at their ends. -/
theorem unwrap? {opening closing : Char} (code : opening ∉ sourceQuotes)
    (visible : isBlank closing = false) (alike : Alike first second) :
    Option.Rel Alike (unwrap? opening closing (Text.trim first))
      (unwrap? opening closing (Text.trim second)) := by
  rcases alike.trim_cases with
    ⟨firstNil, secondNil⟩ |
      ⟨place, char, tail, other, firstCons, secondCons, inCode, fitting, rest, last, -⟩
  · rw [firstNil, secondNil]
    exact .none
  rw [firstCons, secondCons, Source.unwrap?, Source.unwrap?, ← last]
  split
  next both =>
    obtain ⟨rfl, ends⟩ := both
    obtain ⟨body, rfl⟩ := List.getLast?_eq_some_iff.mp ends
    obtain ⟨inside, rfl⟩ := List.getLast?_eq_some_iff.mp (last ▸ ends)
    rw [List.dropLast_concat, List.dropLast_concat]
    refine .some ⟨place.advance char, ?_, isFitting_front (isFitting_tail fitting),
      rest.dropLast visible⟩
    rw [Place.cursor_advance, inCode, Cursor.advance, if_neg code]
  next => exact .none

theorem readDescription_eq (alike : Alike first second) (single : areOneTemplate first = true) :
    readDescription first = readDescription second := by
  rw [readDescription, readDescription, alike.templateText?_eq single,
    alike.trim.decodeArgument_eq]

end Alike

structure Link.Alike (first second : Link) : Prop where
  name : first.name = second.name
  arguments : Source.Alike first.arguments second.arguments
  single : areOneTemplate first.arguments = true

theorem Link.Alike.applyLink_eq {first second : Link} (alike : first.Alike second)
    (node : Node) : applyLink node first = applyLink node second := by
  rw [applyLink, applyLink, alike.name, alike.arguments.readDescription_eq alike.single]

theorem applyLinks_alike {first second : List Link}
    (alike : List.Forall₂ Link.Alike first second) (node : Node) :
    applyLinks node first = applyLinks node second := by
  induction alike generalizing node with
  | nil => rfl
  | cons link _ ih =>
      rw [applyLinks, applyLinks, link.applyLink_eq]
      cases applyLink node _ with
      | ok next => exact ih next
      | error breakdown => rfl

end TwinSchema.Source
