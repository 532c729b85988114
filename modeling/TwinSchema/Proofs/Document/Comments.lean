import TwinSchema.Node.Walk
import TwinSchema.Proofs.Document.Writing

/-!
# Comments only add lines

The two ways of writing a node's document are compared line by line. The text
with comments is the plain text with one more line for every described node, and
no line of the plain text looks like a comment.
-/

namespace TwinSchema.Document

open Json Relaxed
open Text (isBlank lineBreak trimLeft)

/-- Whether a line is a comment: after blanks it begins with two slashes. -/
def isCommentLine (line : List Char) : Bool :=
  ['/', '/'].isPrefixOf (trimLeft line)

/-- Whether a node has a description that is not empty. -/
def isDescribed (node : Node) : Bool :=
  node.modifiers.description.any fun description => !description.isEmpty

theorem trimLeft_lineStart {step : Int} {level : Nat} {char : Char}
    (visible : isBlank char = false) (rest : List Char) :
    trimLeft (List.replicate (step * level).toNat ' ' ++ char :: rest) =
      char :: rest := by
  rw [Text.trimLeft_blanks fun blank member => by
      rw [List.eq_of_mem_replicate member]; rfl,
    Text.trimLeft_of_stops (Text.stops_cons visible)]

/-! ## Texts with and without comments -/

/-- A text with a number of comments, each on a line of its own, and the same
text without them. Apart from the comments every line begins with a visible
character that is no slash. -/
inductive Annotates : (comments : Nat) → (commented plain : List Char) → Prop where
  | nil : Annotates 0 [] []
  | char {comments : Nat} {commented plain : List Char} {char : Char}
      (within : char ≠ '\n') (rest : Annotates comments commented plain) :
      Annotates comments (char :: commented) (char :: plain)
  | line {comments : Nat} {commented plain : List Char} {char : Char}
      (step : Int) (level : Nat) (visible : isBlank char = false)
      (noSlash : char ≠ '/') (rest : Annotates comments commented plain) :
      Annotates comments (lineBreak step level ++ char :: commented)
        (lineBreak step level ++ char :: plain)
  | comment {comments : Nat} {commented plain : List Char} {body : List Char}
      (step : Int) (level : Nat) (within : '\n' ∉ body)
      (rest : Annotates comments ('\n' :: commented) plain) :
      Annotates (comments + 1)
        (lineBreak step level ++ '/' :: '/' :: (body ++ '\n' :: commented)) plain

namespace Annotates

variable {comments more : Nat} {commented plain others otherPlain : List Char}

/-- A text without line breaks, in which there is no room for a comment. -/
theorem of_notMem {text : List Char} (within : '\n' ∉ text) :
    Annotates 0 text text := by
  induction text with
  | nil => exact nil
  | cons char text ih =>
      rw [List.mem_cons, not_or] at within
      exact .char (Ne.symm within.1) (ih within.2)

theorem append (first : Annotates comments commented plain)
    (second : Annotates more others otherPlain) :
    Annotates (comments + more) (commented ++ others) (plain ++ otherPlain) := by
  induction first with
  | nil => rwa [Nat.zero_add]
  | char within _ ih => exact char within ih
  | line step level visible noSlash _ ih =>
      simpa using line step level visible noSlash ih
  | comment step level within _ ih =>
      rw [Nat.add_right_comm]
      simpa using comment step level within ih

/-- The line on which a text goes on is no comment, however it goes on. -/
def Decided (lead : List Char) : Prop :=
  '\n' ∉ lead ∧ ∀ rest, isCommentLine (lead ++ rest) = false

theorem Decided.append_char {lead : List Char} (decided : Decided lead)
    {char : Char} (within : char ≠ '\n') : Decided (lead ++ [char]) := by
  refine ⟨?_, fun rest => ?_⟩
  · simp [decided.1, Ne.symm within]
  · rw [List.append_assoc]
    exact decided.2 _

theorem decided_lineStart (step : Int) (level : Nat) {char : Char}
    (visible : isBlank char = false) (noSlash : char ≠ '/') :
    Decided (List.replicate (step * level).toNat ' ' ++ [char]) := by
  refine ⟨?_, fun rest => ?_⟩
  · intro member
    rcases List.mem_append.mp member with blank | last
    · cases List.eq_of_mem_replicate blank
    · rw [← List.mem_singleton.mp last] at visible
      cases visible
  · rw [isCommentLine, List.append_assoc, List.singleton_append,
      trimLeft_lineStart visible]
    simp [List.isPrefixOf, Ne.symm noSlash]

theorem isCommentLine_comment (step : Int) (level : Nat) (body : List Char) :
    isCommentLine
      (List.replicate (step * level).toNat ' ' ++ '/' :: '/' :: body) = true := by
  rw [isCommentLine, trimLeft_lineStart rfl]
  rfl

/-- Without its comment lines, of which there are as many as comments, an
annotated text has the lines of the plain one. -/
theorem lines (annotates : Annotates comments commented plain)
    {lead : List Char} (decided : Decided lead) :
    ((lead ++ commented).splitOn '\n').filter (fun line => !isCommentLine line) =
        (lead ++ plain).splitOn '\n' ∧
      ((lead ++ commented).splitOn '\n').countP isCommentLine = comments := by
  have noComment : isCommentLine lead = false := by
    simpa using decided.2 []
  induction annotates generalizing lead with
  | nil =>
      rw [List.append_nil, List.splitOn_eq_singleton decided.1]
      simp [noComment]
  | @char _ commented plain char within _ ih =>
      have longer := decided.append_char within
      have step := ih longer (by simpa using longer.2 [])
      rwa [List.append_assoc, List.append_assoc] at step
  | @line _ commented plain char step level visible noSlash _ ih =>
      have start := decided_lineStart step level visible noSlash
      have later := ih start (by simpa using start.2 [])
      rw [List.append_assoc, List.append_assoc] at later
      simp only [lineBreak, List.cons_append]
      rw [List.splitOn_append_cons_self_of_not_mem decided.1,
        List.splitOn_append_cons_self_of_not_mem decided.1]
      simp only [List.filter_cons, List.countP_cons, noComment, Bool.not_false,
        if_true, Bool.false_eq_true, if_false, Nat.add_zero]
      exact ⟨congrArg _ later.1, later.2⟩
  | @comment _ commented plain body step level within _ ih =>
      have later := ih decided noComment
      rw [List.splitOn_append_cons_self_of_not_mem decided.1] at later
      have whole := isCommentLine_comment step level body
      have noBreak : '\n' ∉ List.replicate (step * level).toNat ' ' ++
          '/' :: '/' :: body := by
        simp [within]
      have split : lead ++ (lineBreak step level ++
          '/' :: '/' :: (body ++ '\n' :: commented)) =
            lead ++ '\n' :: (List.replicate (step * level).toNat ' ' ++
              '/' :: '/' :: body ++ '\n' :: commented) := by
        simp [lineBreak]
      rw [split, List.splitOn_append_cons_self_of_not_mem decided.1,
        List.splitOn_append_cons_self_of_not_mem noBreak]
      simp only [List.filter_cons, List.countP_cons, noComment, whole,
        Bool.not_false, Bool.not_true, if_true, Bool.false_eq_true, if_false,
        Nat.add_zero] at later ⊢
      exact ⟨later.1, congrArg (· + 1) later.2⟩

end Annotates

/-- An annotated text that may stand at the beginning of a line. -/
inductive AnnotatesItem : (comments : Nat) → (commented plain : List Char) → Prop
    where
  | intro {comments : Nat} {commented plain : List Char} {char : Char}
      (visible : isBlank char = false) (noSlash : char ≠ '/')
      (rest : Annotates comments commented plain) :
      AnnotatesItem comments (char :: commented) (char :: plain)

namespace AnnotatesItem

variable {comments more : Nat} {commented plain others otherPlain : List Char}

theorem annotates (item : AnnotatesItem comments commented plain) :
    Annotates comments commented plain := by
  obtain ⟨visible, -, rest⟩ := item
  refine .char ?_ rest
  rintro rfl
  cases visible

theorem onLine (step : Int) (level : Nat)
    (item : AnnotatesItem comments commented plain) :
    Annotates comments (lineBreak step level ++ commented)
      (lineBreak step level ++ plain) := by
  obtain ⟨visible, noSlash, rest⟩ := item
  exact .line step level visible noSlash rest

theorem append (item : AnnotatesItem comments commented plain)
    (rest : Annotates more others otherPlain) :
    AnnotatesItem (comments + more) (commented ++ others)
      (plain ++ otherPlain) := by
  obtain ⟨visible, noSlash, first⟩ := item
  exact .intro visible noSlash (first.append rest)

theorem lines (item : AnnotatesItem comments commented plain) :
    (commented.splitOn '\n').filter (fun line => !isCommentLine line) =
        plain.splitOn '\n' ∧
      (commented.splitOn '\n').countP isCommentLine = comments := by
  obtain ⟨visible, noSlash, rest⟩ := item
  exact rest.lines (Annotates.decided_lineStart 0 0 visible noSlash)

theorem of_letters {word : List Char} (nonempty : word ≠ [])
    (letters : ∀ char ∈ word, isWordLetter char = true) :
    AnnotatesItem 0 word word := by
  obtain ⟨char, rest, rfl⟩ := List.exists_cons_of_ne_nil nonempty
  obtain ⟨first, others⟩ := List.forall_mem_cons.mp letters
  refine .intro (isBlank_eq_false_of_isWordLetter first)
    (ne_of_isWordLetter first (by decide)) (.of_notMem fun member => ?_)
  cases others _ member

theorem of_writeText (text : String) :
    AnnotatesItem 0 (writeText text) (writeText text) := by
  have within : '\n' ∉ text.toList.flatMap escapeChar ++ ['"'] := by
    rw [List.mem_append, not_or]
    exact ⟨notMem_escaped text.toList, by decide⟩
  exact .intro rfl (by decide) (.of_notMem within)

theorem of_writeScalar (scalar : Scalar) :
    AnnotatesItem 0 (writeScalar scalar) (writeScalar scalar) := by
  rcases exists_text_or_letters scalar with ⟨text, rfl⟩ | ⟨nonempty, letters⟩
  · exact of_writeText text
  · exact of_letters nonempty letters

theorem writtenField (name : String)
    (content : AnnotatesItem comments commented plain) :
    AnnotatesItem comments (writtenField name commented)
      (writtenField name plain) := by
  have sign : Annotates 0 [':', ' '] [':', ' '] := .of_notMem (by decide)
  have field := ((of_writeText name).append sign).append content.annotates
  simpa [Document.writtenField] using field

end AnnotatesItem

/-- Items with the number of comments in all of them. -/
inductive AnnotatesItems :
    (comments : Nat) → (commented plain : List (List Char)) → Prop where
  | nil : AnnotatesItems 0 [] []
  | cons {comments more : Nat} {commented plain : List Char}
      {others otherPlain : List (List Char)}
      (item : AnnotatesItem comments commented plain)
      (rest : AnnotatesItems more others otherPlain) :
      AnnotatesItems (comments + more) (commented :: others)
        (plain :: otherPlain)

namespace AnnotatesItems

variable {comments more : Nat} {commented plain others otherPlain : List (List Char)}

theorem append (first : AnnotatesItems comments commented plain)
    (second : AnnotatesItems more others otherPlain) :
    AnnotatesItems (comments + more) (commented ++ others)
      (plain ++ otherPlain) := by
  induction first with
  | nil => rwa [Nat.zero_add]
  | cons item _ ih =>
      rw [Nat.add_assoc]
      exact cons item ih

theorem singleton {comments : Nat} {commented plain : List Char}
    (item : AnnotatesItem comments commented plain) :
    AnnotatesItems comments [commented] [plain] :=
  cons item nil

theorem onLines (step : Int) (level : Nat)
    (items : AnnotatesItems comments commented plain) :
    Annotates comments
      (commented.flatMap fun item => ',' :: lineBreak step level ++ item)
      (plain.flatMap fun item => ',' :: lineBreak step level ++ item) := by
  induction items with
  | nil => exact .nil
  | cons item _ ih =>
      exact (Annotates.char (by decide) (item.onLine step level)).append ih

end AnnotatesItems

/-- How many comments a description makes. -/
def commentCount (description : Option String) : Nat :=
  if description.any fun text => !text.isEmpty then 1 else 0

theorem Annotates.commentLine (step : Int) (level : Nat)
    (description : Option String) {comments : Nat} {commented plain : List Char}
    (rest : Annotates comments ('\n' :: commented) plain) :
    Annotates (commentCount description + comments)
      (Document.commentLine step level description ++ '\n' :: commented)
      plain := by
  have silent : Annotates (0 + comments) ([] ++ '\n' :: commented) plain := by
    rwa [Nat.zero_add, List.nil_append]
  cases description with
  | none => exact silent
  | some description =>
      rw [commentCount, Option.any_some, Document.commentLine]
      by_cases empty : description.isEmpty = true
      · rw [if_neg (by simp [empty]), if_pos empty]
        exact silent
      · have within : '\n' ∉ ' ' :: commentText description := fun member =>
          (commentText_stays description _ member).2 rfl
        have line := Annotates.comment step level within rest
        rw [if_pos (by simp [empty]), if_neg empty, Nat.add_comm]
        simpa using line

namespace AnnotatesItem

variable {opening closing : Char} {step : Int} {level comments more : Nat}

/-- Items between brackets, the first of which may have a comment before it. -/
theorem enclosed (step : Int) (level : Nat)
    (openingVisible : isBlank opening = false ∧ opening ≠ '/')
    (closingVisible : isBlank closing = false ∧ closing ≠ '/')
    (description : Option String) {commented plain : List Char}
    {others otherPlain : List (List Char)}
    (first : AnnotatesItem comments commented plain)
    (rest : AnnotatesItems more others otherPlain) :
    AnnotatesItem (commentCount description + (comments + more))
      (opening :: commentLine step (level + 1) description ++
        lineBreak step (level + 1) ++ commented ++
        others.flatMap (fun item => ',' :: lineBreak step (level + 1) ++ item) ++
        lineBreak step level ++ [closing])
      (bracketed opening closing step level (plain :: otherPlain)) := by
  have last : Annotates 0 (lineBreak step level ++ [closing])
      (lineBreak step level ++ [closing]) :=
    .line step level closingVisible.1 closingVisible.2 .nil
  have inside := (first.onLine step (level + 1)).append
    ((rest.onLines step (level + 1)).append last)
  have whole := Annotates.commentLine step (level + 1) description inside
  have item := intro openingVisible.1 openingVisible.2 whole
  simpa [bracketed, lineBreak] using item

theorem bracketed (openingVisible : isBlank opening = false ∧ opening ≠ '/')
    (closingVisible : isBlank closing = false ∧ closing ≠ '/')
    {commented plain : List (List Char)}
    (items : AnnotatesItems comments commented plain) :
    AnnotatesItem comments (bracketed opening closing step level commented)
      (bracketed opening closing step level plain) := by
  cases items with
  | nil =>
      refine intro openingVisible.1 openingVisible.2 (.of_notMem ?_)
      rw [List.mem_singleton]
      rintro rfl
      cases closingVisible.1
  | cons item rest =>
      have plainly := enclosed step level openingVisible closingVisible none
        item rest
      simpa [Json.bracketed, commentCount, commentLine] using plainly

end AnnotatesItem

theorem writeFields_append (step : Int) (level : Nat)
    (fields others : List (String × Value)) :
    writeFields step level (fields ++ others) =
      writeFields step level fields ++ writeFields step level others := by
  induction fields with
  | nil => rfl
  | cons field fields ih =>
      rw [List.cons_append, writeFields, writeFields, ih, List.cons_append]

/-- A commented record has one comment more than its own fields, where its
description makes one. -/
theorem annotatesItem_commentedRecord (step : Int) (level : Nat) (kind : Kind)
    (modifiers : Modifiers) {comments : Nat} {texts : List (List Char)}
    {body : List (String × Value)}
    (own : AnnotatesItems comments texts (writeFields step (level + 1) body)) :
    AnnotatesItem (commentCount modifiers.description + comments)
      (commentedRecord step level kind modifiers texts)
      (writeValue step level (nodeRecord kind modifiers body)) := by
  have flag : ∀ (set : Bool) (name : String), AnnotatesItems 0
      (if set then [writtenField name "true".toList] else [])
      (writeFields step (level + 1)
        (if set then [(name, .bool true)] else [])) := by
    intro set name
    cases set with
    | true => exact .singleton (.writtenField name (.of_writeScalar (.bool true)))
    | false => exact .nil
  have description : AnnotatesItems 0
      (modifiers.description.toList.map fun description =>
        writtenField "description" (writeText description))
      (writeFields step (level + 1) (descriptionField modifiers)) := by
    rw [descriptionField]
    cases modifiers.description with
    | none => exact .nil
    | some description =>
        exact .singleton (.writtenField "description" (.of_writeText description))
  have kindField := AnnotatesItem.writtenField "type" (.of_writeText kind.name)
  have fields := description.append (own.append
    ((flag modifiers.nullable "nullable").append
      (flag modifiers.optional "optional")))
  have openingVisible : isBlank '{' = false ∧ '{' ≠ '/' := by decide
  have closingVisible : isBlank '}' = false ∧ '}' ≠ '/' := by decide
  have record := AnnotatesItem.enclosed step level openingVisible closingVisible
    modifiers.description kindField fields
  rw [nodeRecord_eq, writeValue, writeFields, writeFields_append,
    writeFields_append, flagFields, writeFields_append]
  cases described : modifiers.description <;>
    simpa [commentedRecord, writtenField, described, Value.text, writeValue,
      writeScalar] using record

/-! ## Nodes -/

/-- How many of the places in a tree are described. -/
def describedCount (places : List (Path × Node)) : Nat :=
  places.countP fun place => isDescribed place.2

theorem describedCount_cons (path : Path) (node : Node)
    (places : List (Path × Node)) :
    describedCount ((path, node) :: places) =
      commentCount node.modifiers.description + describedCount places := by
  rw [describedCount, List.countP_cons, Nat.add_comm]
  rfl

theorem describedCount_append (places others : List (Path × Node)) :
    describedCount (places ++ others) =
      describedCount places + describedCount others :=
  List.countP_append

theorem annotatesItems_choices (step : Int) (level : Nat)
    (choices : List Choice) :
    AnnotatesItems 0 (choices.map fun choice => writeScalar choice.toScalar)
      (writeItems step level
        (choices.map fun choice => .scalar choice.toScalar)) := by
  induction choices with
  | nil => exact .nil
  | cons choice choices ih => exact .cons (.of_writeScalar choice.toScalar) ih

mutual

theorem annotatesItem_commentedNode (step : Int) (level : Nat) (path : Path) :
    (node : Node) →
      AnnotatesItem (describedCount (node.walkFrom path))
        (commentedNode step level node) (writeValue step level (ofNode node))
  | .leaf modifiers kind => by
      rw [commentedNode, ofNode, Node.walkFrom, describedCount_cons]
      · exact annotatesItem_commentedRecord step level _ modifiers .nil
      all_goals simp
  | .literal modifiers value => by
      rw [commentedNode, ofNode, Node.walkFrom, describedCount_cons]
      · exact annotatesItem_commentedRecord step level _ modifiers
          (.singleton (.writtenField "const" (.of_writeScalar value)))
      all_goals simp
  | .enumeration modifiers choices => by
      rw [commentedNode, ofNode, Node.walkFrom, describedCount_cons]
      · exact annotatesItem_commentedRecord step level _ modifiers
          (.singleton (.writtenField "enum"
            (.bracketed (by decide) (by decide)
              (annotatesItems_choices step (level + 2) (choices.getD [])))))
      all_goals simp
  | .array modifiers none => by
      rw [commentedNode, ofNode, Node.walkFrom, describedCount_cons]
      · exact annotatesItem_commentedRecord step level _ modifiers .nil
      all_goals simp
  | .array modifiers (some items) => by
      rw [commentedNode, ofNode, Node.walkFrom, describedCount_cons]
      exact annotatesItem_commentedRecord step level _ modifiers
        (.singleton (.writtenField "items"
          (annotatesItem_commentedNode step (level + 1) _ items)))
  | .object modifiers properties => by
      rw [commentedNode, ofNode, Node.walkFrom, describedCount_cons]
      exact annotatesItem_commentedRecord step level _ modifiers
        (.singleton (.writtenField "properties"
          (.bracketed (by decide) (by decide)
            (annotatesItems_commentedProperties step (level + 2) path
              properties))))
  | .union modifiers none => by
      rw [commentedNode, ofNode, Node.walkFrom, describedCount_cons]
      · exact annotatesItem_commentedRecord step level _ modifiers
          (.singleton (.writtenField "oneOf"
            (.bracketed (by decide) (by decide) .nil)))
      all_goals simp
  | .union modifiers (some members) => by
      rw [commentedNode, ofNode, Node.walkFrom, describedCount_cons]
      exact annotatesItem_commentedRecord step level _ modifiers
        (.singleton (.writtenField "oneOf"
          (.bracketed (by decide) (by decide)
            (annotatesItems_commentedMembers step (level + 2) path 0
              members))))

theorem annotatesItems_commentedProperties (step : Int) (level : Nat)
    (path : Path) :
    (properties : List (String × Node)) →
      AnnotatesItems (describedCount (walkProperties path properties))
        (commentedProperties step level properties)
        (writeFields step level (ofProperties properties))
  | [] => .nil
  | (name, node) :: rest => by
      rw [commentedProperties, ofProperties, writeFields, walkProperties,
        describedCount_append]
      exact .cons
        (.writtenField name (annotatesItem_commentedNode step level _ node))
        (annotatesItems_commentedProperties step level path rest)

theorem annotatesItems_commentedMembers (step : Int) (level : Nat) (path : Path)
    (index : Nat) :
    (members : List Node) →
      AnnotatesItems (describedCount (walkMembers path index members))
        (commentedMembers step level members)
        (writeItems step level (ofMembers members))
  | [] => .nil
  | node :: rest => by
      rw [commentedMembers, ofMembers, writeItems, walkMembers,
        describedCount_append]
      exact .cons (annotatesItem_commentedNode step level _ node)
        (annotatesItems_commentedMembers step level path (index + 1) rest)

end

end TwinSchema.Document
