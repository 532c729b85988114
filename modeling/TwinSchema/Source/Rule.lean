import TwinSchema.Node.Basic
import TwinSchema.Text.Blank

/-!
# Fixed rules for source text

What cannot be read as a chain of calls is classified by the tokens it holds.
One schema is known as a whole, and its properties form the vocabulary of names
that are recognized without their definitions.
-/

namespace TwinSchema.Source

open Text

def textNode (description : String) : Node :=
  .leaf { description := some description } .string

def nullableTextNode (description : String) : Node :=
  .leaf { description := some description, nullable := true } .string

def numberNode (description : String) : Node :=
  .leaf { description := some description } .number

def objectNode (description : String) (properties : List (String × Node)) :
    Node :=
  .object { description := some description } properties

/-- The property names that are recognized without their definitions, each with
its schema. -/
def vocabulary : List (String × Node) :=
  [("platform",
      .literal { description := some "Social platform identifier" }
        (.text "tiktok")),
    ("template_version", textNode "Schema version"),
    ("post_id", nullableTextNode "Unique TikTok post ID"),
    ("author", objectNode "Post author metadata"
      [("id", textNode "Author's TikTok ID"),
        ("uniqueId", textNode "Author's @ handle"),
        ("nickname", textNode "Display name")]),
    ("dimensions", objectNode "Overall post dimensions"
      [("width", numberNode "Content width in pixels"),
        ("height", numberNode "Content height in pixels")]),
    ("slide_count", numberNode "Number of image slides"),
    ("hashtag_analysis", objectNode "Extracted hashtag details"
      [("hashtags",
          .array
            { description := some "List of extracted hashtags from the caption" }
            (some (.leaf {} .string))),
        ("strategy", nullableTextNode
          "Why these hashtags were chosen (e.g. audience targeting)")]),
    ("caption_segments",
      .array { description := some "Hook/Body/CTA segments of the caption" }
        (some (.object {}
          [("type",
              .enumeration
                { description := some
                    ("Segment role: attention-grabber, body text, or " ++
                      "call-to-action") }
                (some [.text "hook", .text "body", .text "cta"])),
            ("content", nullableTextNode "Text of this caption segment"),
            ("rationale", nullableTextNode
              "Why this segment works in its role"),
            ("position_in_caption", numberNode
              "Order index of this segment within the full caption")])))]

/-- The schema that is known as a whole. -/
def referenceSchema : Node :=
  objectNode "Complete analysis schema for a TikTok image post" vocabulary

/-- The tokens by which the reference schema is recognized. -/
def signatureTokens : List String :=
  ["TikTokPostSchema", "platform", "template_version", "post_id", "slide_count",
    "hashtag_analysis", "caption_segments"]

/-- Whether a text holds enough of the reference schema: two of its tokens. -/
def hasSignature (text : List Char) : Bool :=
  2 ≤ signatureTokens.countP fun token => occursIn token.toList text

/-- The vocabulary name that a text begins with, where a colon follows it. -/
def nameAt? (text : List Char) : Option (String × Node) :=
  vocabulary.find? fun (name, _) =>
    match dropWord? name.toList text with
    | some rest => firstVisible rest == some ':'
    | none => false

/-- The vocabulary names in a text that a colon follows, as often as they
occur. -/
def occurrences : List Char → List (String × Node)
  | [] => []
  | char :: rest =>
      match nameAt? (char :: rest) with
      | some entry => entry :: occurrences rest
      | none => occurrences rest

/-- Keeps the first entry of every name. -/
def firstOfEach {α : Type} (seen : List String) :
    List (String × α) → List (String × α)
  | [] => []
  | (name, content) :: rest =>
      if name ∈ seen then firstOfEach seen rest
      else (name, content) :: firstOfEach (name :: seen) rest

/-- The properties that a text names, in the order in which they first occur. -/
def namedProperties (text : List Char) : List (String × Node) :=
  firstOfEach [] (occurrences text)

/-- What a rule yields: a kind, or the reference schema as a whole. -/
inductive Verdict where
  | plain (kind : Kind)
  | reference
  deriving DecidableEq, Repr

/-- A row of the classification table. -/
structure Rule where
  name : String
  applies : List Char → Bool
  verdict : Verdict

/-- A rule for texts that hold a token. -/
def tokenRule (kind : Kind) (token : String) : Rule where
  name := kind.name
  applies := occursIn token.toList
  verdict := .plain kind

/-- The classification table. Calls for objects and arrays come first, since
they can hold every other token. -/
def rules : List Rule :=
  [tokenRule .object "object(",
    tokenRule .array "array(",
    tokenRule (.leaf .string) "string()",
    tokenRule (.leaf .number) "number()",
    tokenRule (.leaf .boolean) "boolean()",
    tokenRule (.leaf .date) "date()",
    tokenRule .enumeration "enum(",
    tokenRule .literal "literal(",
    tokenRule (.leaf .nullable) "nullable()",
    tokenRule (.leaf .optional) "optional()",
    tokenRule .union "union(",
    tokenRule (.leaf .null) "null()",
    tokenRule (.leaf .undefined) "undefined()",
    tokenRule (.leaf .bigint) "bigint()",
    ⟨"reference-schema", hasSignature, .reference⟩]

/-- The rule that applies to a text: the first of the table. -/
def classify (text : List Char) : Option Rule :=
  rules.find? fun rule => rule.applies text

/-- The kind that the table gives a text, leaving the reference schema aside. -/
def classifyKind (text : List Char) : Option Rule :=
  rules.find? fun rule => rule.verdict != .reference && rule.applies text

/-- The node that a verdict stands for, without anything in it. -/
def Verdict.node : Verdict → Node
  | .plain kind => .ofKind kind
  | .reference => referenceSchema

end TwinSchema.Source
