import TwinSchema.Fault
import TwinSchema.Relaxed.Reader
import TwinSchema.Source.Chain
import TwinSchema.Source.Declaration
import TwinSchema.Source.Preamble
import TwinSchema.Source.Rule

/-!
# Reading source text

A schema is found in source text by a few strategies in turn: the first exported
declaration, the first declaration, a bare expression, and the reference schema.
An expression is read as a chain of calls; where that fails, the classification
rules stand in for it.
-/

namespace TwinSchema.Source

open Text

/-- Why an expression could not be read: it is no plain chain of calls, or
something stops the conversion altogether. -/
inductive Setback where
  | unsupported
  | breakdown (breakdown : Breakdown)
  deriving DecidableEq, Repr

/-- A part of source text that is read. -/
abbrev Reading (α : Type) := Except Setback α

/-- The outcome of a step that can only break down. -/
def orBreakdown {α : Type} : Except Breakdown α → Reading α
  | .ok value => .ok value
  | .error breakdown => .error (.breakdown breakdown)

/-- The text before blanks at the end of a reversed text, of which there must be
one at least, and before a word in front of them. -/
def dropEndingWord? (word : String) (reversed : List Char) :
    Option (List Char) :=
  (dropWord? word.toList.reverse reversed).bind blanks?

/-- An argument without a constness assertion at its end. -/
def dropConstAssertion (text : List Char) : List Char :=
  match (dropEndingWord? "const" (trimLeft text.reverse)).bind
      (dropEndingWord? "as") with
  | some reversed => reversed.reverse
  | none => text

/-- An argument as data. -/
def decodeArgument (text : List Char) : Reading Json.Value :=
  match Relaxed.decode (dropConstAssertion text) with
  | .ok value => .ok value
  | .error (.malformed _) => .error .unsupported
  | .error (.longInteger digits) => .error (.breakdown (.longInteger digits))

/-- The text between backquotes, taken as it stands. -/
def templateText? : List Char → Option (List Char)
  | [] => none
  | char :: rest =>
      if char = '\x60' ∧ rest.getLast? = some '\x60' then some rest.dropLast
      else none

/-- The description that an argument gives, if it is a text. -/
def readDescription (arguments : List Char) :
    Except Breakdown (Option String) :=
  let text := trim arguments
  match templateText? text with
  | some inside => .ok (some (String.ofList inside))
  | none =>
      match decodeArgument text with
      | .ok value => .ok value.text?
      | .error .unsupported => .ok none
      | .error (.breakdown breakdown) => .error breakdown

/-- A node after one link of a chain. An array link wraps the node, and a link
that is not known changes nothing. -/
def applyLink (node : Node) (link : Link) : Except Breakdown Node :=
  match link.name with
  | "nullable" => .ok (node.apply { nullable := true })
  | "optional" => .ok (node.apply { optional := true })
  | "nullish" => .ok (node.apply { nullable := true, optional := true })
  | "describe" | "description" =>
      match readDescription link.arguments with
      | .ok description => .ok (node.apply { description })
      | .error breakdown => .error breakdown
  | "array" => .ok (.array {} (some node))
  | _ => .ok node

/-- A node after the links of a chain, from left to right. -/
def applyLinks (node : Node) : List Link → Except Breakdown Node
  | [] => .ok node
  | link :: rest =>
      match applyLink node link with
      | .ok next => applyLinks next rest
      | .error breakdown => .error breakdown

def constructorKind? : String → Option Kind
  | "string" => some (.leaf .string)
  | "number" => some (.leaf .number)
  | "boolean" => some (.leaf .boolean)
  | "null" => some (.leaf .null)
  | "undefined" => some (.leaf .undefined)
  | "bigint" => some (.leaf .bigint)
  | "date" => some (.leaf .date)
  | "any" | "unknown" => some (.leaf .any)
  | "literal" => some .literal
  | "enum" => some .enumeration
  | "array" => some .array
  | "object" => some .object
  | "union" => some .union
  | _ => none

/-- A literal from its argument, which must be a value without parts. -/
def readLiteralCall (arguments : List Char) : Reading Node := do
  match ← decodeArgument arguments with
  | .scalar value => return .literal {} value
  | _ => .error .unsupported

/-- The choices in a list of values, each of which must be one. -/
def choices? : List Json.Value → Option (List Choice)
  | [] => some []
  | .scalar value :: rest =>
      match Choice.ofScalar? value, choices? rest with
      | some choice, some others => some (choice :: others)
      | _, _ => none
  | _ :: _ => none

/-- An enumeration from its argument, which must be a list of texts and
numbers. -/
def readEnumerationCall (arguments : List Char) : Reading Node := do
  match ← decodeArgument arguments with
  | .list values =>
      match choices? values with
      | some choices => return .enumeration {} (some choices)
      | none => .error .unsupported
  | _ => .error .unsupported

/-- Splits a quoted literal after its opening quote: the rest of the literal
with its closing quote, and what follows. -/
def quotedRest? (quote : Char) : List Char → Option (List Char × List Char)
  | [] => none
  | char :: rest =>
      if char = quote then some ([char], rest)
      else if char = '\\' then
        match rest with
        | [] => none
        | escaped :: after =>
            (quotedRest? quote after).map fun (literal, rest) =>
              (char :: escaped :: literal, rest)
      else
        (quotedRest? quote rest).map fun (literal, rest) =>
          (char :: literal, rest)

/-- A property key as it is written. -/
inductive Key where
  | bare (name : List Char)
  | quoted (literal : List Char)
  deriving DecidableEq, Repr

/-- The key that a text begins with, and what follows it. -/
def key? (text : List Char) : Option (Key × List Char) :=
  match text with
  | [] => none
  | char :: rest =>
      if char = '"' ∨ char = '\'' then
        (quotedRest? char rest).map fun (literal, after) =>
          (.quoted (char :: literal), after)
      else (name? text).map fun (name, after) => (.bare name, after)

/-- A property of an object body: its key, and the text of its schema. -/
def property? (entry : List Char) : Option (Key × List Char) :=
  match key? (trimLeft entry) with
  | none => none
  | some (key, rest) =>
      match dropChar? ':' (trimLeft rest) with
      | none => none
      | some expression => some (key, trimLeft expression)

/-- The name that a key stands for. A quoted key is read as strict JSON once it
is in double quotes. -/
def Key.read : Key → Except Breakdown String
  | .bare name => .ok (String.ofList name)
  | .quoted literal =>
      let text := Relaxed.convertSingleQuotes literal
      match Json.read text with
      | .ok (.scalar (.text name)) => .ok name
      | .ok _ => .ok ""
      | .error (.longInteger digits) => .error (.longInteger digits)
      | .error (.mistake mistake) =>
          let offset := mistake.offset text
          .error (.unreadableKey mistake.reason offset
            (Text.Position.ofOffset text offset))

theorem length_quotedRest? (quote : Char) (text : List Char) :
    ∀ {literal rest : List Char}, quotedRest? quote text = some (literal, rest) →
      rest.length < text.length := by
  fun_induction quotedRest? quote text with
  | case1 => simp
  | case2 =>
      intro literal after found
      simp only [Option.some.injEq, Prod.mk.injEq] at found
      simp [← found.2]
  | case3 => simp
  | case4 =>
      rename_i bound
      intro literal after found
      simp only [Option.map_eq_some_iff, Prod.mk.injEq] at found
      obtain ⟨⟨inner, tail⟩, quoted, -, same⟩ := found
      have := bound quoted
      simp only [List.length_cons, ← same]
      omega
  | case5 =>
      rename_i bound
      intro literal after found
      simp only [Option.map_eq_some_iff, Prod.mk.injEq] at found
      obtain ⟨⟨inner, tail⟩, quoted, -, same⟩ := found
      have := bound quoted
      simp only [List.length_cons, ← same]
      omega

theorem length_key? {text rest : List Char} {key : Key}
    (found : key? text = some (key, rest)) : rest.length < text.length := by
  unfold key? at found
  split at found
  · simp at found
  · rename_i char tail
    split at found
    · simp only [Option.map_eq_some_iff, Prod.mk.injEq] at found
      obtain ⟨⟨literal, after⟩, quoted, -, same⟩ := found
      have := length_quotedRest? _ _ quoted
      simp only [List.length_cons, ← same]
      omega
    · simp only [Option.map_eq_some_iff, Prod.mk.injEq] at found
      obtain ⟨⟨name, after⟩, named, -, same⟩ := found
      have := length_name? named
      simp only [← same]
      exact this

theorem length_property? {entry expression : List Char} {key : Key}
    (found : property? entry = some (key, expression)) :
    expression.length < entry.length := by
  unfold property? at found
  split at found
  · simp at found
  · rename_i named rest keyed
    split at found
    · simp at found
    · rename_i after separated
      simp only [Option.some.injEq, Prod.mk.injEq] at found
      have := length_key? keyed
      have := length_dropChar? separated
      have := length_trimLeft entry
      have := length_trimLeft rest
      have := length_trimLeft after
      rw [← found.2]
      omega

/-! ## Expressions -/

/-- The node of a property that is no plain chain of calls: from the vocabulary,
then from the classification rules, and otherwise one that accepts anything. -/
def fallbackNode (name : String) (expression : List Char) : Node :=
  match vocabulary.lookup name with
  | some node => node
  | none =>
      match classifyKind expression with
      | some rule => rule.verdict.node
      | none => .any

mutual

/-- Reads an expression as a chain of calls. -/
def readExpression (text : List Char) : Reading Node :=
  match split : splitChain text with
  | none => .error .unsupported
  | some chain =>
      match called : chain.call with
      | none => .error .unsupported
      | some call =>
          have : call.arguments.length < text.length :=
            length_splitChain split called
          match readCall call.constructor call.arguments with
          | .ok node => orBreakdown (applyLinks node chain.links)
          | .error setback => .error setback
termination_by (text.length, 1)

/-- Reads a constructor call from its arguments. -/
def readCall (constructor : String) (arguments : List Char) : Reading Node :=
  match constructorKind? constructor with
  | none => .error .unsupported
  | some (.leaf kind) => .ok (.leaf {} kind)
  | some .literal => readLiteralCall arguments
  | some .enumeration => readEnumerationCall arguments
  | some .array =>
      if allBlank arguments then .ok (.array {} none)
      else
        match readExpression arguments with
        | .ok items => .ok (.array {} (some items))
        | .error setback => .error setback
  | some .object =>
      if allBlank arguments then .ok (.object {} [])
      else
        match wrapped : unwrap? '{' '}' (trim arguments) with
        | none => .error .unsupported
        | some body =>
            have : room (splitTopLevel body) < arguments.length := by
              have := length_unwrap? wrapped
              have := length_trim arguments
              have := room_splitTopLevel body
              omega
            match readProperties [] (splitTopLevel body) with
            | .ok properties => .ok (.object {} properties)
            | .error breakdown => .error (.breakdown breakdown)
  | some .union =>
      match wrapped : unwrap? '[' ']' (trim arguments) with
      | none => .error .unsupported
      | some body =>
          have : room (splitTopLevel body) < arguments.length := by
            have := length_unwrap? wrapped
            have := length_trim arguments
            have := room_splitTopLevel body
            omega
          match readMembers (splitTopLevel body) with
          | .ok members => .ok (.union {} (some members))
          | .error setback => .error setback
termination_by (arguments.length, 2)

/-- Reads the properties of an object body into the ones read before. An entry
without a key and a colon is passed over, and a repeated name keeps its place
and takes the later schema. -/
def readProperties (before : List (String × Node)) (entries : List (List Char)) :
    Except Breakdown (List (String × Node)) :=
  match entries with
  | [] => .ok before
  | entry :: rest =>
      match found : property? entry with
      | none => readProperties before rest
      | some (key, expression) =>
          match key.read with
          | .error breakdown => .error breakdown
          | .ok name =>
              have : expression.length < room (entry :: rest) := by
                have := length_property? found
                simp only [room_cons]
                omega
              match readProperty name expression with
              | .ok node => readProperties (setField name node before) rest
              | .error breakdown => .error breakdown
termination_by (room entries, 0)

/-- Reads the schema of a property. Where the expression is no plain chain of
calls, a fallback takes the place of the chain's beginning, and the links that
can be told apart still apply. -/
def readProperty (name : String) (expression : List Char) :
    Except Breakdown Node :=
  match readExpression expression with
  | .ok node => .ok node
  | .error (.breakdown breakdown) => .error breakdown
  | .error .unsupported =>
      applyLinks (fallbackNode name expression) (trailingLinks expression)
termination_by (expression.length, 2)

def readMembers (pieces : List (List Char)) : Reading (List Node) :=
  match pieces with
  | [] => .ok []
  | piece :: rest =>
      have : piece.length < room (piece :: rest) := by
        simp only [room_cons]
        omega
      match readExpression piece with
      | .error setback => .error setback
      | .ok member =>
          match readMembers rest with
          | .ok members => .ok (member :: members)
          | .error setback => .error setback
termination_by (room pieces, 0)

end

/-! ## Strategies -/

/-- Reads the expression of a declaration, or a bare one, in a text. Where it is
no plain chain of calls, the classification rules decide; an object then has the
properties that the whole text names. -/
def readTopLevel (text expression : List Char) :
    Except Breakdown (Option Node) :=
  match readExpression expression with
  | .ok node => .ok (some node)
  | .error (.breakdown breakdown) => .error breakdown
  | .error .unsupported =>
      match (classify expression).map Rule.verdict with
      | none => .ok none
      | some .reference => .ok (some referenceSchema)
      | some (.plain kind) =>
          let node :=
            if kind = .object then .object {} (namedProperties text)
            else .ofKind kind
          (applyLinks node (trailingLinks expression)).map some

/-- The expression that a text consists of when it begins with a constructor
call. -/
def bareExpression? (text : List Char) : Option (List Char) :=
  (constructorHead? text).map fun _ => statement .code 0 (trimLeft text)

/-- The reference schema, where a text is classified as that. -/
def recognizedReference? (text : List Char) : Option Node :=
  match (classify text).map Rule.verdict with
  | some .reference => some referenceSchema
  | _ => none

/-- The node of the first expression that gives one. -/
def firstReadable (text : List Char) :
    List (Option (List Char)) → Except Breakdown (Option Node)
  | [] => .ok none
  | none :: rest => firstReadable text rest
  | some expression :: rest =>
      match readTopLevel text expression with
      | .ok none => firstReadable text rest
      | outcome => outcome

def readClean (text : List Char) : Except Failure Node :=
  if allBlank text then .error (.fault (.unrecognized Fault.nothingGiven))
  else
    match firstReadable text
        [exportedDeclaration? text, declaration? text, bareExpression? text] with
    | .error breakdown => .error (.breakdown breakdown)
    | .ok (some node) => .ok node
    | .ok none =>
        match recognizedReference? text with
        | some node => .ok node
        | none => .error (.fault (.unrecognized Fault.nothingFound))

/-- Reads source text. -/
def read (text : List Char) : Except Failure Node :=
  readClean (clean text)

end TwinSchema.Source
