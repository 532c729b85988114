import TwinSchema.Proofs.Node.Valid
import TwinSchema.Proofs.Relaxed.Reading
import TwinSchema.Source.Reader

/-!
# Source text tells valid nodes

Whatever source text is read, by its calls or by the rules that stand in for
them, the node is valid: arguments are decoded values, properties are set under
distinct names, and the known schemas are valid themselves.
-/

namespace TwinSchema.Source

open Text

theorem isProper_of_decodeArgument {text : List Char} {value : Json.Value}
    (decoded : decodeArgument text = .ok value) : value.isProper = true := by
  rw [decodeArgument] at decoded
  split at decoded
  next found => cases decoded; exact Relaxed.isProper_of_decode found
  all_goals cases decoded

theorem isValid_readLiteralCall {arguments : List Char} {node : Node}
    (read : readLiteralCall arguments = .ok node) : node.isValid = true := by
  rw [readLiteralCall] at read
  cases decoded : decodeArgument arguments with
  | error setback => rw [decoded] at read; cases read
  | ok value =>
      have proper := isProper_of_decodeArgument decoded
      rw [decoded] at read
      cases value with
      | scalar scalar => cases read; exact proper
      | _ => cases read

theorem isShort_choices? {values : List Json.Value} {choices : List Choice}
    (proper : ∀ value ∈ values, value.isProper = true)
    (found : choices? values = some choices) :
    (choices.all fun choice => choice.toScalar.isShort) = true := by
  induction values generalizing choices with
  | nil => cases found; rfl
  | cons value values ih =>
      obtain ⟨first, others⟩ := List.forall_mem_cons.mp proper
      cases value with
      | scalar scalar =>
          rw [choices?] at found
          split at found
          next choice more made rest =>
            cases found
            rw [List.all_cons, Choice.toScalar_of_ofScalar? made, ih others rest,
              Bool.and_true]
            exact first
          next => cases found
      | _ => cases found

theorem isValid_readEnumerationCall {arguments : List Char} {node : Node}
    (read : readEnumerationCall arguments = .ok node) : node.isValid = true := by
  rw [readEnumerationCall] at read
  cases decoded : decodeArgument arguments with
  | error setback => rw [decoded] at read; cases read
  | ok value =>
      have proper := isProper_of_decodeArgument decoded
      rw [decoded] at read
      cases value with
      | list values =>
          cases found : choices? values with
          | none => simp [found, Bind.bind, Except.bind] at read
          | some choices =>
              have short := isShort_choices? (Json.isProper_list.mp proper) found
              simp only [Bind.bind, Except.bind, found] at read
              cases read
              exact short
      | _ => cases read

theorem isValid_apply (node : Node) (change : Change) :
    (node.apply change).isValid = node.isValid := by
  rw [Node.apply, Node.isValid_setModifiers]

theorem isValid_applyLink {node next : Node} {link : Link}
    (valid : node.isValid = true) (applied : applyLink node link = .ok next) :
    next.isValid = true := by
  rw [applyLink] at applied
  split at applied
  all_goals try (cases applied; first | exact valid | rwa [isValid_apply])
  all_goals
    split at applied
    next => cases applied; rwa [isValid_apply]
    next => cases applied

theorem isValid_applyLinks {node result : Node} {links : List Link}
    (valid : node.isValid = true) (applied : applyLinks node links = .ok result) :
    result.isValid = true := by
  induction links generalizing node with
  | nil => cases applied; exact valid
  | cons link links ih =>
      rw [applyLinks] at applied
      split at applied
      next next found => exact ih (isValid_applyLink valid found) applied
      next => cases applied

theorem isValid_referenceSchema : referenceSchema.isValid = true := by
  decide

theorem isValid_of_mem_vocabulary :
    ∀ property ∈ vocabulary, property.2.isValid = true :=
  (Node.isValid_object.mp isValid_referenceSchema).2

theorem isValid_verdict (verdict : Verdict) : verdict.node.isValid = true := by
  cases verdict with
  | plain kind => exact Node.isValid_ofKind kind
  | reference => exact isValid_referenceSchema

/-- What takes the place of an expression is valid. -/
theorem isValid_fallbackNode (name : String) (expression : List Char) :
    (fallbackNode name expression).isValid = true := by
  rw [fallbackNode]
  split
  next node found =>
    obtain ⟨before, after, same, -⟩ := List.lookup_eq_some_iff.mp found
    exact isValid_of_mem_vocabulary (name, node) (by simp [same])
  next =>
    split
    next rule _ => exact isValid_verdict rule.verdict
    next => rfl

theorem mem_of_nameAt? {text : List Char} {entry : String × Node}
    (found : nameAt? text = some entry) : entry ∈ vocabulary :=
  List.mem_of_find?_eq_some found

theorem mem_of_mem_occurrences {text : List Char} :
    ∀ entry ∈ occurrences text, entry ∈ vocabulary := by
  induction text with
  | nil => simp [occurrences]
  | cons char text ih =>
      intro entry member
      rw [occurrences] at member
      split at member
      next found =>
        rcases List.mem_cons.mp member with rfl | later
        · exact mem_of_nameAt? found
        · exact ih entry later
      next => exact ih entry member

/-- What is kept of entries is among them, under a name that was not seen
before. -/
theorem mem_firstOfEach {α : Type} {seen : List String}
    {entries : List (String × α)} {entry : String × α}
    (member : entry ∈ firstOfEach seen entries) :
    entry ∈ entries ∧ entry.1 ∉ seen := by
  induction entries generalizing seen with
  | nil => cases member
  | cons first entries ih =>
      rw [firstOfEach] at member
      split at member
      next =>
        obtain ⟨inside, unseen⟩ := ih member
        exact ⟨List.mem_cons_of_mem _ inside, unseen⟩
      next fresh =>
        rcases List.mem_cons.mp member with rfl | later
        · exact ⟨List.mem_cons_self, fresh⟩
        · obtain ⟨inside, unseen⟩ := ih later
          rw [List.mem_cons, not_or] at unseen
          exact ⟨List.mem_cons_of_mem _ inside, unseen.2⟩

/-- No name is kept twice. -/
theorem nodup_firstOfEach {α : Type} (seen : List String)
    (entries : List (String × α)) :
    ((firstOfEach seen entries).map Prod.fst).Nodup := by
  induction entries generalizing seen with
  | nil => exact List.nodup_nil
  | cons entry entries ih =>
      obtain ⟨name, content⟩ := entry
      rw [firstOfEach]
      split
      next => exact ih seen
      next =>
        rw [List.map_cons, List.nodup_cons]
        constructor
        · intro member
          obtain ⟨entry, inside, same⟩ := List.mem_map.mp member
          have unseen := (mem_firstOfEach inside).2
          rw [same] at unseen
          exact unseen List.mem_cons_self
        · exact ih (name :: seen)

theorem isValid_namedProperties (modifiers : Modifiers) (text : List Char) :
    (Node.object modifiers (namedProperties text)).isValid = true := by
  refine Node.isValid_object.mpr ⟨nodup_firstOfEach [] _, ?_⟩
  intro property member
  have inside := (mem_firstOfEach member).1
  exact isValid_of_mem_vocabulary property (mem_of_mem_occurrences property inside)

mutual

theorem isValid_readExpression (text : List Char) {node : Node}
    (read : readExpression text = .ok node) : node.isValid = true := by
  rw [readExpression.eq_def] at read
  split at read
  next => cases read
  next chain found =>
    split at read
    next => cases read
    next call called =>
      have : call.arguments.length < text.length := length_splitChain found called
      split at read
      next base made =>
        have valid := isValid_readCall call.constructor call.arguments made
        cases applied : applyLinks base chain.links with
        | error breakdown => rw [applied] at read; cases read
        | ok result =>
            rw [applied] at read
            cases read
            exact isValid_applyLinks valid applied
      next => cases read
termination_by (text.length, 1)

theorem isValid_readCall (constructor : String) (arguments : List Char)
    {node : Node} (read : readCall constructor arguments = .ok node) :
    node.isValid = true := by
  rw [readCall.eq_def] at read
  split at read
  next => cases read
  next => cases read; rfl
  next => exact isValid_readLiteralCall read
  next => exact isValid_readEnumerationCall read
  next =>
    split at read
    next => cases read; rfl
    next =>
      split at read
      next items found =>
        have valid := isValid_readExpression arguments found
        cases read
        exact valid
      next => cases read
  next =>
    split at read
    next => cases read; rfl
    next =>
      split at read
      next => cases read
      next body wrapped =>
        have shorter := room_of_unwrap wrapped
        split at read
        next properties found =>
          cases read
          exact isValid_readProperties [] (splitTopLevel body) rfl found
        next => cases read
  next =>
    split at read
    next => cases read
    next body wrapped =>
      have shorter := room_of_unwrap wrapped
      split at read
      next members found =>
        cases read
        exact areValid_readMembers (splitTopLevel body) found
      next => cases read
termination_by (arguments.length, 2)

theorem isValid_readProperties (before : List (String × Node))
    (entries : List (List Char)) {properties : List (String × Node)}
    (valid : (Node.object {} before).isValid = true)
    (read : readProperties before entries = .ok properties) :
    (Node.object {} properties).isValid = true := by
  cases entries with
  | nil => rw [readProperties] at read; cases read; exact valid
  | cons entry rest =>
      rw [readProperties.eq_def] at read
      simp only at read
      split at read
      next => exact isValid_readProperties before rest valid read
      next key expression found =>
        split at read
        next => cases read
        next name named =>
          have : expression.length < room (entry :: rest) := by
            have := length_property? found
            simp only [room_cons]
            omega
          split at read
          next node told =>
            have nodeValid := isValid_readProperty name expression told
            exact isValid_readProperties _ rest
              (Node.isValid_setField valid nodeValid) read
          next => cases read
termination_by (room entries, 0)

theorem isValid_readProperty (name : String) (expression : List Char)
    {node : Node} (read : readProperty name expression = .ok node) :
    node.isValid = true := by
  rw [readProperty.eq_def] at read
  split at read
  next found => cases read; exact isValid_readExpression expression found
  next => cases read
  next =>
    exact isValid_applyLinks (isValid_fallbackNode name expression) read
termination_by (expression.length, 2)

theorem areValid_readMembers (pieces : List (List Char)) {members : List Node}
    (read : readMembers pieces = .ok members) :
    areValidMembers members = true := by
  cases pieces with
  | nil => rw [readMembers] at read; cases read; rfl
  | cons piece rest =>
      have : piece.length < room (piece :: rest) := by
        simp only [room_cons]
        omega
      rw [readMembers.eq_def] at read
      simp only at read
      split at read
      next => cases read
      next member found =>
        have valid := isValid_readExpression piece found
        split at read
        next members others =>
          cases read
          rw [areValidMembers, valid, areValid_readMembers rest others]
          rfl
        next => cases read
termination_by (room pieces, 0)

end

theorem isValid_readTopLevel {text expression : List Char} {node : Node}
    (read : readTopLevel text expression = .ok (some node)) :
    node.isValid = true := by
  rw [readTopLevel] at read
  split at read
  next found => cases read; exact isValid_readExpression expression found
  next => cases read
  next =>
    split at read
    next => cases read
    next => cases read; exact isValid_referenceSchema
    next kind _ =>
      cases applied : applyLinks (if kind = .object then
          .object {} (namedProperties text) else .ofKind kind)
          (trailingLinks expression) with
      | error breakdown => simp only [applied] at read; cases read
      | ok result =>
          simp only [applied] at read
          cases read
          refine isValid_applyLinks ?_ applied
          split
          next => exact isValid_namedProperties {} text
          next => exact Node.isValid_ofKind kind

theorem isValid_firstReadable {text : List Char}
    {expressions : List (Option (List Char))} {node : Node}
    (read : firstReadable text expressions = .ok (some node)) :
    node.isValid = true := by
  induction expressions with
  | nil => cases read
  | cons expression rest ih =>
      cases expression with
      | none => exact ih read
      | some expression =>
          rw [firstReadable] at read
          split at read
          next => exact ih read
          next => exact isValid_readTopLevel read

theorem isValid_of_read {text : List Char} {node : Node}
    (found : read text = .ok node) : node.isValid = true := by
  rw [read, readClean] at found
  split at found
  next => cases found
  next =>
    split at found
    next => cases found
    next told => cases found; exact isValid_firstReadable told
    next =>
      split at found
      next known =>
        cases found
        rw [recognizedReference?] at known
        split at known
        next => cases known; exact isValid_referenceSchema
        next => cases known
      next => cases found

end TwinSchema.Source
