import Mathlib.Data.List.Find
import Mathlib.Data.List.Forall2
import TwinSchema.Proofs.Source.Links
import TwinSchema.Proofs.Source.RespacedArguments

/-!
# Reading respaced expressions

An expression and the same expression spaced anew are split into the same calls,
with arguments that are spaced anew, and these into the same pieces and
properties. So both are read as the same node.
-/

namespace TwinSchema.Source

open Json Text

variable {first second : List Char}

theorem callName?_eq (text : List Char) :
    callName? text = (name? (trimLeft text)).bind fun named =>
      (dropChar? '(' (trimLeft named.2)).map fun arguments => (named.1, arguments) := by
  rw [callName?]
  cases name? (trimLeft text) with
  | none => rfl
  | some named =>
      simp only [Option.bind_some]
      cases dropChar? '(' (trimLeft named.2) <;> rfl

theorem linkHead?_eq (text : List Char) :
    linkHead? text = (dropChar? '.' (trimLeft text)).bind callName? := by
  rw [linkHead?]
  cases dropChar? '.' (trimLeft text) <;> rfl

theorem constructorHead?_eq (text : List Char) :
    constructorHead? text = (dropChar? 'z' (trimLeft text)).bind linkHead? := by
  rw [constructorHead?]
  cases dropChar? 'z' (trimLeft text) <;> rfl

theorem segment?_eq (text : List Char) :
    segment? text =
      (dropChar? '.' (trimLeft text)).bind fun rest => (name? (trimLeft rest)).map Prod.snd := by
  rw [segment?]
  cases dropChar? '.' (trimLeft text) <;> rfl

theorem reference?_eq (text : List Char) :
    reference? text = (name? (trimLeft text)).bind fun named => pathEnd? none named.2 := by
  rw [reference?]
  cases name? (trimLeft text) <;> rfl

theorem property?_eq (entry : List Char) :
    property? entry = (key? (trimLeft entry)).bind fun keyed =>
      (dropChar? ':' (trimLeft keyed.2)).map fun expression =>
        (keyed.1, trimLeft expression) := by
  rw [property?]
  cases key? (trimLeft entry) with
  | none => rfl
  | some keyed =>
      simp only [Option.bind_some]
      cases dropChar? ':' (trimLeft keyed.2) <;> rfl

/-- What follows a name that both texts go on with, and whether the arguments there
are one template at most. -/
def NamedAlike (one other : List Char × List Char) : Prop :=
  one.1 = other.1 ∧ Alike one.2 other.2 ∧ takesOneTemplate one.2 = true

namespace Alike

theorem callName? (alike : Alike first second) :
    Option.Rel NamedAlike (callName? first) (callName? second) := by
  rw [callName?_eq, callName?_eq]
  refine relBind alike.name?_trimLeft fun named => ?_
  exact relMap (named.2.dropChar?_trimLeft (by decide : isSolid '(' = true)) fun opened =>
    ⟨named.1, opened.1, opened.2 rfl⟩

theorem linkHead? (alike : Alike first second) :
    Option.Rel NamedAlike (linkHead? first) (linkHead? second) := by
  rw [linkHead?_eq, linkHead?_eq]
  exact relBind (alike.dropChar?_trimLeft (by decide : isSolid '.' = true)) fun rest =>
    rest.1.callName?

theorem constructorHead? (alike : Alike first second) :
    Option.Rel NamedAlike (constructorHead? first) (constructorHead? second) := by
  rw [constructorHead?_eq, constructorHead?_eq]
  exact relBind (alike.dropChar?_trimLeft (by decide : isSolid 'z' = true)) fun rest =>
    rest.1.linkHead?

theorem segment? (alike : Alike first second) :
    Option.Rel Alike (segment? first) (segment? second) := by
  rw [segment?_eq, segment?_eq]
  exact relBind (alike.dropChar?_trimLeft (by decide : isSolid '.' = true)) fun rest =>
    relMap rest.1.name?_trimLeft fun named => named.2

theorem firstVisible_eq (alike : Alike first second) :
    firstVisible first = firstVisible second := by
  obtain ⟨place, -, -, related⟩ := alike
  exact related.firstVisible_eq

theorem allBlank_eq (alike : Alike first second) : allBlank first = allBlank second := by
  obtain ⟨place, -, -, related⟩ := alike
  exact related.allBlank_eq

/-- Both paths of names end at the same place. -/
theorem pathEnd? {one other : Option (List Char)} (before : Option.Rel Alike one other)
    (alike : Alike first second) :
    Option.Rel Alike (pathEnd? one first) (pathEnd? other second) := by
  induction length : first.length using Nat.strongRecOn
    generalizing one other first second with
  | _ size ih =>
  have segment := alike.segment?
  rw [pathEnd?_eq one, pathEnd?_eq other]
  cases found : Source.segment? first with
  | none =>
      rw [found] at segment
      generalize Source.segment? second = rest at segment ⊢
      cases segment
      have ends : pathMayEnd first = pathMayEnd second := by
        rw [pathMayEnd, pathMayEnd, alike.firstVisible_eq]
      simp only [ends]
      cases pathMayEnd second with
      | true => exact .some alike
      | false => exact before
  | some rest =>
      have shorter := length_segment? found
      rw [found] at segment
      generalize Source.segment? second = behind at segment ⊢
      cases segment with
      | some inner => exact ih rest.length (length ▸ shorter) (.some alike) inner rfl

theorem reference? (alike : Alike first second) :
    Option.Rel Alike (reference? first) (reference? second) := by
  rw [reference?_eq, reference?_eq]
  exact relBind alike.name?_trimLeft fun named => pathEnd? .none named.2

/-- Arguments behind a bracket, and what follows them. -/
theorem arguments (named : takesOneTemplate first = true) (alike : Alike first second) :
    Option.Rel (fun one other => Alike one.1 other.1 ∧ Alike one.2 other.2 ∧
        areOneTemplate one.1 = true)
      (Source.splitClosing .code 0 first) (Source.splitClosing .code 0 second) := by
  have split := alike.splitClosing
  rw [takesOneTemplate] at named
  generalize Source.splitClosing .code 0 first = one at named split ⊢
  generalize Source.splitClosing .code 0 second = other at split ⊢
  cases split with
  | none => exact .none
  | some parts => exact .some ⟨parts.1, parts.2, named⟩

/-- Both texts begin with the same links, with arguments that are spaced anew. -/
theorem links? (alike : Alike first second) :
    Option.Rel (List.Forall₂ Link.Alike) (links? first) (links? second) := by
  induction length : first.length using Nat.strongRecOn generalizing first second with
  | _ size ih =>
  have head := alike.linkHead?
  rw [links?_eq first, links?_eq second]
  cases found : Source.linkHead? first with
  | none =>
      rw [found] at head
      generalize Source.linkHead? second = other at head ⊢
      cases head
      exact .some .nil
  | some one =>
      obtain ⟨name, opened⟩ := one
      have shorter := length_linkHead? found
      rw [found] at head
      generalize Source.linkHead? second = other at head ⊢
      cases head with
      | @some _ other named =>
          obtain ⟨same, behind⟩ := other
          obtain ⟨rfl, inner, template⟩ := named
          have parts := inner.arguments template
          simp only
          cases closes : Source.splitClosing .code 0 opened with
          | none =>
              rw [closes] at parts
              generalize Source.splitClosing .code 0 behind = other at parts ⊢
              cases parts
              exact .none
          | some split =>
              have bound := length_splitClosing _ _ _ closes
              rw [closes] at parts
              generalize Source.splitClosing .code 0 behind = other at parts ⊢
              cases parts with
              | some parts =>
                  refine relMap (ih split.2.length (by omega) parts.2.1 rfl) fun others => ?_
                  exact .cons ⟨rfl, parts.1, parts.2.2⟩ others

end Alike

structure Call.Alike (first second : Call) : Prop where
  constructor : first.constructor = second.constructor
  arguments : Source.Alike first.arguments second.arguments

structure Chain.Alike (first second : Chain) : Prop where
  call : Option.Rel Call.Alike first.call second.call
  links : List.Forall₂ Link.Alike first.links second.links

/-- Both expressions are split into the same calls. -/
theorem Alike.splitChain (alike : Alike first second) :
    Option.Rel Chain.Alike (splitChain first) (splitChain second) := by
  have head := alike.constructorHead?
  rw [Source.splitChain, Source.splitChain]
  generalize Source.constructorHead? first = one at head ⊢
  generalize Source.constructorHead? second = other at head ⊢
  cases head with
  | none =>
      have path := alike.reference?
      simp only
      generalize Source.reference? first = one at path ⊢
      generalize Source.reference? second = other at path ⊢
      cases path with
      | none => exact .none
      | some rest => exact relMap rest.links? fun links => ⟨.none, links⟩
  | @some one other named =>
      obtain ⟨name, opened⟩ := one
      obtain ⟨same, behind⟩ := other
      obtain ⟨rfl, inner, template⟩ := named
      have parts := inner.arguments template
      simp only
      generalize Source.splitClosing .code 0 opened = one at parts ⊢
      generalize Source.splitClosing .code 0 behind = other at parts ⊢
      cases parts with
      | none => exact .none
      | some parts =>
          exact relMap parts.2.1.links? fun links => ⟨.some ⟨rfl, parts.1⟩, links⟩

theorem Alike.trailingLinks (alike : Alike first second) :
    List.Forall₂ Link.Alike (trailingLinks first) (trailingLinks second) := by
  have split := alike.splitChain
  rw [Source.trailingLinks, Source.trailingLinks]
  generalize Source.splitChain first = one at split ⊢
  generalize Source.splitChain second = other at split ⊢
  cases split with
  | none => exact .nil
  | some chain => exact chain.links

/-! ## Pieces -/

/-- The level of brackets behind one more character, which counts in code only. -/
def levelBehind (cursor : Cursor) (level : Int) (char : Char) : Int :=
  if cursor = .code then levelAfter level char else level

/-- One step of the search for commas. -/
theorem piecesFrom_cons (cursor : Cursor) (level : Int) (char : Char) (rest : List Char) :
    piecesFrom cursor level (char :: rest) =
      if cursor = .code ∧ char = ',' ∧ level = 0 then
        ([], (piecesFrom .code 0 rest).1 :: (piecesFrom .code 0 rest).2)
      else
        extend char (piecesFrom (cursor.advance sourceQuotes char)
          (levelBehind cursor level char) rest) := by
  cases cursor with
  | code =>
      by_cases comma : char = ',' ∧ level = 0
      · obtain ⟨rfl, rfl⟩ := comma
        rw [piecesFrom_comma, if_pos ⟨rfl, rfl, rfl⟩]
      · rw [piecesFrom_code (fun outside sign => comma ⟨sign, outside⟩),
          if_neg fun both => comma both.2]
        rfl
  | literal | escape => rfl

/-- Pieces and the same pieces spaced anew, where the first ones are those of a
text. -/
structure PiecesAlike (place : Place) (text : List Char)
    (one other : List Char × List (List Char)) : Prop where
  isPrefix : one.1 <+: text
  piece : Respaced false place one.1 other.1
  others : List.Forall₂ Alike one.2 other.2

theorem Respaced.piecesFrom {place : Place} (related : Respaced false place first second)
    (fitting : isFitting place first = true) (level : Int) :
    PiecesAlike place first (piecesFrom place.cursor level first)
      (piecesFrom place.cursor level second) := by
  have blankStep {place : Place} {char : Char} {text : List Char}
      (code : place.cursor = .code) (blank : isBlank char = true) (level : Int) :
      Source.piecesFrom place.cursor level (char :: text) =
        extend char (Source.piecesFrom place.cursor level text) := by
    have noComma := beq_eq_false_iff_ne.mp (beq_of_isBlank blank (rfl : isBlank ',' = false))
    have same : levelBehind place.cursor level char = level := by
      simp [levelBehind, levelAfter, Respaced.isBracket_blank blank]
    rw [piecesFrom_cons, if_neg (by simp [noComma]), same, ← Place.cursor_advance,
      Place.advance_blank code blank]
  induction related generalizing level with
  | nil place =>
      rw [Source.piecesFrom]
      exact ⟨List.prefix_rfl, .nil place, .nil⟩
  | @keep place char first second rest ih =>
      have inner := isFitting_tail fitting
      rw [piecesFrom_cons, piecesFrom_cons]
      split
      next comma =>
        have code : (place.advance char).cursor = .code := by
          rw [Place.cursor_advance, comma.1, comma.2.1]
          rfl
        obtain ⟨isPrefix, piece, others⟩ := ih inner 0
        rw [code] at isPrefix piece others
        exact ⟨List.nil_prefix, .nil place, .cons (.of_front piece code inner isPrefix) others⟩
      next =>
        obtain ⟨isPrefix, piece, others⟩ := ih inner (levelBehind place.cursor level char)
        rw [Place.cursor_advance] at isPrefix piece others
        exact ⟨List.cons_prefix_cons.mpr ⟨rfl, isPrefix⟩, .keep piece, others⟩
  | @left place char first second code blank free _ rest ih =>
      have inner := isFitting_tail fitting
      rw [Place.advance_blank code blank] at inner
      obtain ⟨isPrefix, piece, others⟩ := ih inner level
      rw [blankStep code blank]
      refine ⟨List.cons_prefix_cons.mpr ⟨rfl, isPrefix⟩, .left code blank ?_ (by simp) piece,
        others⟩
      obtain ⟨more, whole⟩ := isPrefix
      rw [← whole] at free
      exact free.of_front
  | @right place char first second code separates free _ rest ih =>
      obtain ⟨isPrefix, piece, others⟩ := ih fitting level
      rw [blankStep code (Relaxed.isBlank_of_isSeparator separates)]
      refine ⟨isPrefix, .right code separates ?_ (by simp) piece, others⟩
      obtain ⟨more, whole⟩ := isPrefix
      rw [← whole] at free
      exact free.of_front

/-- The pieces between the commas are spaced anew. -/
theorem Alike.splitTopLevel (alike : Alike first second) :
    List.Forall₂ Alike (splitTopLevel first) (splitTopLevel second) := by
  obtain ⟨place, code, fitting, related⟩ := alike
  obtain ⟨isPrefix, piece, others⟩ := related.piecesFrom fitting 0
  rw [code] at isPrefix piece others
  exact List.rel_filter (fun _ _ alike => by simp only [Alike.allBlank_eq alike])
    (.cons (.of_front piece code fitting isPrefix) others)

namespace Alike

/-- Both texts begin with the same key or with none. -/
theorem key?_trimLeft (alike : Alike first second) :
    Option.Rel (fun one other => one.1 = other.1 ∧ Alike one.2 other.2)
      (key? (Text.trimLeft first)) (key? (Text.trimLeft second)) := by
  have named := alike.name?_trimLeft
  obtain ⟨place, code, fitting, related⟩ := alike.trimLeft
  rcases related.cases_visible (stops_trimLeft _) (stops_trimLeft _) with
    ⟨firstNil, secondNil⟩ | ⟨char, tail, other, firstCons, secondCons, rest⟩
  · rw [firstNil, secondNil]
    exact .none
  rw [firstCons] at fitting named
  rw [secondCons] at named
  rw [firstCons, secondCons, key?, key?]
  split
  next quoted =>
    have source : char ∈ sourceQuotes := by rcases quoted with rfl | rfl <;> decide
    have different : char ≠ '\\' := by rcases quoted with rfl | rfl <;> decide
    have inside : (place.advance char).cursor = .literal char := by
      rw [Place.cursor_advance, code, Cursor.advance, if_pos source]
    have inner := isFitting_tail fitting
    rcases rest.literal different inside with
      rfl | ⟨body, tail, other, within, rfl, rfl, closed, -, behind⟩
    · cases found : quotedRest? char tail with
      | none => exact .none
      | some pair =>
          obtain ⟨body, within, literal, rfl⟩ := quotedRest?_eq_some found
          refine .some ⟨rfl, (place.advance char).after (body ++ [char]), ?_, ?_, .refl _ _⟩
          · rw [Place.cursor_after, inside, within.after_closed sourceQuotes different]
          · apply isFitting_suffix
            simpa using inner
    · rw [quotedRest?_body within different, quotedRest?_body within different]
      refine .some ⟨rfl, _, closed, ?_, behind⟩
      apply isFitting_suffix
      simpa using inner
  next => exact relMap named fun named => ⟨congrArg Key.bare named.1, named.2⟩

/-- Both entries are properties with the same key or none is. -/
theorem property? (alike : Alike first second) :
    Option.Rel (fun one other => one.1 = other.1 ∧ Alike one.2 other.2)
      (property? first) (property? second) := by
  rw [property?_eq, property?_eq]
  refine relBind alike.key?_trimLeft fun keyed => ?_
  exact relMap (keyed.2.dropChar?_trimLeft (by decide : isSolid ':' = true)) fun expression =>
    ⟨keyed.1, expression.1.trimLeft⟩

end Alike

/-! ## Classification -/

/-- The tokens that the classification rules look for. -/
def ruleTokens : List String :=
  ["object(", "array(", "string()", "number()", "boolean()", "date()", "enum(", "literal(",
    "nullable()", "optional()", "union(", "null()", "undefined()", "bigint()"] ++ signatureTokens

/-- Whether a token is found in any spacing or in none. -/
def isSolidToken (token : String) : Bool :=
  !token.toList.isEmpty && token.toList.all isSolid

theorem isSolidToken_of_mem : ∀ token ∈ ruleTokens, isSolidToken token = true := by
  have all : ruleTokens.all isSolidToken = true := by decide
  exact List.all_eq_true.mp all

namespace Respaced

variable {place : Place}

theorem occursIn_token (related : Respaced false place first second) {token : String}
    (member : token ∈ ruleTokens) :
    occursIn token.toList first = occursIn token.toList second := by
  have solid := isSolidToken_of_mem token member
  rw [isSolidToken] at solid
  generalize token.toList = word at solid ⊢
  cases word with
  | nil => cases solid
  | cons letter word => exact related.occursIn_eq (List.all_eq_true.mp solid)

theorem hasSignature_eq (related : Respaced false place first second) :
    hasSignature first = hasSignature second := by
  have same : signatureTokens.countP (fun token => occursIn token.toList first) =
      signatureTokens.countP fun token => occursIn token.toList second := by
    apply List.countP_congr
    intro token member
    rw [related.occursIn_token (List.mem_append_right _ member)]
  rw [hasSignature, hasSignature, same]

/-- Every rule applies to both texts or to none. -/
theorem applies_eq (related : Respaced false place first second) :
    ∀ rule ∈ rules, rule.applies first = rule.applies second := by
  intro rule member
  simp only [rules, List.mem_cons, List.not_mem_nil, or_false] at member
  rcases member with rfl | rfl | rfl | rfl | rfl | rfl | rfl | rfl | rfl | rfl | rfl | rfl |
    rfl | rfl | rfl
  all_goals
    first
      | exact related.hasSignature_eq
      | exact related.occursIn_token (by decide)

theorem classify_eq (related : Respaced false place first second) :
    classify first = classify second :=
  List.find?_congr related.applies_eq

theorem classifyKind_eq (related : Respaced false place first second) :
    classifyKind first = classifyKind second :=
  List.find?_congr fun rule member => by rw [related.applies_eq rule member]

end Respaced

theorem readCall_eq (constructor : String) (arguments : List Char) :
    readCall constructor arguments =
      match constructorKind? constructor with
      | none => .error .unsupported
      | some (.leaf kind) => .ok (.leaf {} kind)
      | some .literal => readLiteralCall arguments
      | some .enumeration => readEnumerationCall arguments
      | some .array =>
          if allBlank arguments then .ok (.array {} none)
          else
            match readExpression arguments with
            | .ok items => .ok (.array {} (some items))
            | .error setback => .error setback
      | some .object =>
          if allBlank arguments then .ok (.object {} [])
          else
            match unwrap? '{' '}' (trim arguments) with
            | none => .error .unsupported
            | some body =>
                match readProperties [] (splitTopLevel body) with
                | .ok properties => .ok (.object {} properties)
                | .error breakdown => .error (.breakdown breakdown)
      | some .union =>
          match unwrap? '[' ']' (trim arguments) with
          | none => .error .unsupported
          | some body =>
              match readMembers (splitTopLevel body) with
              | .ok members => .ok (.union {} (some members))
              | .error setback => .error setback := by
  rw [readCall.eq_def]
  cases constructorKind? constructor with
  | none => rfl
  | some kind =>
      cases kind with
      | object =>
          simp only
          split
          next => rfl
          next =>
            split
            next wrapped => simp only [wrapped]
            next body wrapped =>
              cases found : readProperties [] (splitTopLevel body) <;>
                simp only [wrapped, found]
      | union =>
          simp only
          split
          next wrapped => simp only [wrapped]
          next body wrapped =>
            cases found : readMembers (splitTopLevel body) <;> simp only [wrapped, found]
      | _ => rfl

/-- An entry that is no property is passed over. -/
theorem readProperties_skip {entry : List Char} (absent : property? entry = none)
    (before : List (String × Node)) (rest : List (List Char)) :
    readProperties before (entry :: rest) = readProperties before rest := by
  rw [readProperties.eq_def]
  simp only
  split
  next => rfl
  next key expression found =>
    rw [absent] at found
    cases found

section Reading

/-- Expressions of less than a given length are read alike in any spacing. -/
def ReadsAlike (size : Nat) : Prop :=
  ∀ {first second : List Char}, first.length < size → Alike first second →
    readExpression first = readExpression second

variable {size : Nat}

theorem readProperty_alike (inner : ReadsAlike size) (shorter : first.length < size)
    (alike : Alike first second) (name : String) :
    readProperty name first = readProperty name second := by
  have fallback : fallbackNode name first = fallbackNode name second := by
    obtain ⟨place, -, -, related⟩ := alike
    rw [fallbackNode, fallbackNode, related.classifyKind_eq]
  rw [readProperty.eq_def, readProperty.eq_def, inner shorter alike, fallback,
    applyLinks_alike alike.trailingLinks]

theorem readProperties_alike (inner : ReadsAlike size) {entries others : List (List Char)}
    (shorter : ∀ entry ∈ entries, entry.length < size)
    (alike : List.Forall₂ Alike entries others) (before : List (String × Node)) :
    readProperties before entries = readProperties before others := by
  induction alike generalizing before with
  | nil => rfl
  | @cons entry other entries others alike _ ih =>
      rw [List.forall_mem_cons] at shorter
      have property := alike.property?
      cases found : property? entry with
      | none =>
          rw [found] at property
          cases foundOther : property? other with
          | none =>
              rw [readProperties_skip found, readProperties_skip foundOther]
              exact ih shorter.2 before
          | some pair =>
              rw [foundOther] at property
              cases property
      | some pair =>
          obtain ⟨key, expression⟩ := pair
          have bound := length_property? found
          rw [found] at property
          cases foundOther : property? other with
          | none =>
              rw [foundOther] at property
              cases property
          | some pair =>
              obtain ⟨same, behind⟩ := pair
              rw [foundOther] at property
              cases property with
              | some both =>
                  obtain ⟨rfl, expressions⟩ := both
                  rw [readProperties_cons_eq found, readProperties_cons_eq foundOther]
                  cases key.read with
                  | error breakdown => rfl
                  | ok name =>
                      simp only
                      rw [readProperty_alike inner (bound.trans shorter.1) expressions]
                      cases readProperty name behind with
                      | error breakdown => rfl
                      | ok node => exact ih shorter.2 _

theorem readMembers_alike (inner : ReadsAlike size) {pieces others : List (List Char)}
    (shorter : ∀ piece ∈ pieces, piece.length < size)
    (alike : List.Forall₂ Alike pieces others) : readMembers pieces = readMembers others := by
  induction alike with
  | nil => rfl
  | cons alike _ ih =>
      rw [List.forall_mem_cons] at shorter
      rw [readMembers.eq_def, readMembers.eq_def]
      simp only
      rw [inner shorter.1 alike, ih shorter.2]

/-- A constructor call is read alike where the expressions in it are. -/
theorem readCall_alike (alike : Alike first second) (inner : ReadsAlike size)
    (bound : first.length < size) (constructor : String) :
    readCall constructor first = readCall constructor second := by
  rw [readCall_eq, readCall_eq]
  cases constructorKind? constructor with
  | none => rfl
  | some kind =>
      cases kind with
      | leaf kind => rfl
      | literal => simp only [readLiteralCall, alike.decodeArgument_eq]
      | enumeration => simp only [readEnumerationCall, alike.decodeArgument_eq]
      | array => simp only [alike.allBlank_eq, inner bound alike]
      | object =>
          have body := alike.unwrap? (by decide : '{' ∉ sourceQuotes)
            (by decide : isBlank '}' = false)
          simp only [alike.allBlank_eq]
          split
          next => rfl
          next =>
            cases wrapped : unwrap? '{' '}' (trim first) with
            | none =>
                rw [wrapped] at body
                generalize unwrap? '{' '}' (trim second) = other at body ⊢
                cases body
                rfl
            | some inside =>
                have shorter := length_of_mem_pieces wrapped
                rw [wrapped] at body
                generalize unwrap? '{' '}' (trim second) = other at body ⊢
                cases body with
                | some body =>
                    simp only
                    rw [readProperties_alike inner
                      (fun piece member => (shorter piece member).trans bound)
                      body.splitTopLevel]
      | union =>
          have body := alike.unwrap? (by decide : '[' ∉ sourceQuotes)
            (by decide : isBlank ']' = false)
          simp only
          cases wrapped : unwrap? '[' ']' (trim first) with
          | none =>
              rw [wrapped] at body
              generalize unwrap? '[' ']' (trim second) = other at body ⊢
              cases body
              rfl
          | some inside =>
              have shorter := length_of_mem_pieces wrapped
              rw [wrapped] at body
              generalize unwrap? '[' ']' (trim second) = other at body ⊢
              cases body with
              | some body =>
                  simp only
                  rw [readMembers_alike inner
                    (fun piece member => (shorter piece member).trans bound)
                    body.splitTopLevel]

end Reading

/-- An expression is read as the same node in any spacing. -/
theorem readExpression_alike (alike : Alike first second) :
    readExpression first = readExpression second := by
  induction length : first.length using Nat.strongRecOn generalizing first second with
  | _ size ih =>
  have split := alike.splitChain
  cases found : splitChain first with
  | none =>
      rw [found] at split
      cases foundOther : splitChain second with
      | some chain =>
          rw [foundOther] at split
          cases split
      | none =>
          rw [readExpression_unsupported (by rw [found]; rfl),
            readExpression_unsupported (by rw [foundOther]; rfl)]
  | some chain =>
      rw [found] at split
      cases foundOther : splitChain second with
      | none =>
          rw [foundOther] at split
          cases split
      | some other =>
          rw [foundOther] at split
          obtain ⟨call, links⟩ := chain
          obtain ⟨callOther, linksOther⟩ := other
          cases split with
          | some chains =>
              obtain ⟨calls, linksAlike⟩ := chains
              cases calls with
              | none =>
                  rw [readExpression_unsupported (by rw [found]; rfl),
                    readExpression_unsupported (by rw [foundOther]; rfl)]
              | @some call callOther calls =>
                  obtain ⟨constructor, arguments⟩ := call
                  obtain ⟨same, argumentsOther⟩ := callOther
                  obtain ⟨rfl, argumentsAlike⟩ := calls
                  have bound := length_splitChain found rfl
                  have inner : ReadsAlike size :=
                    fun shorter alike => ih _ shorter alike rfl
                  rw [readExpression_eq found, readExpression_eq foundOther,
                    readCall_alike argumentsAlike inner (length ▸ bound)]
                  simp only [applyLinks_alike linksAlike]

end TwinSchema.Source
