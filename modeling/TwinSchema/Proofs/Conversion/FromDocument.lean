import TwinSchema.Proofs.Conversion.Outcome
import TwinSchema.Proofs.Document.RoundTrip
import TwinSchema.Proofs.Document.WellFormed
import TwinSchema.Proofs.Relaxed.Refusal
import TwinSchema.Proofs.Source.Fragment

/-!
# Converting documents

A document without overlong integers is always answered: with the source text of
a node when the document is well-formed, and otherwise with a fault that says
that it cannot be decoded or that it is no schema document.
-/

namespace TwinSchema

open Text

namespace Document

open Json

theorem ofValue_isOk_iff {value : Value} (proper : value.isProper = true) :
    (∃ node, ofValue value = .ok node) ↔ WellFormed value := by
  rw [← checkNode_eq_nil value proper []]
  constructor
  · rintro ⟨node, told⟩
    exact (ofValue_eq_ok_iff.mp told).1
  · intro shaped
    obtain ⟨node, told⟩ := Option.isSome_iff_exists.mp (isSome_node? value shaped)
    exact ⟨node, ofValue_eq_ok_iff.mpr ⟨shaped, told⟩⟩

/-- What can be wrong with a document: it cannot be decoded, or what is decoded
is no schema document. -/
inductive IsComplaint : Fault → Prop where
  | malformed (detail : Malformed) : IsComplaint (.malformed detail)
  | invalid (problem path : String) : IsComplaint (.invalidDocument problem path)

theorem isComplaint_of_ofValue {value : Value} {fault : Fault}
    (refused : ofValue value = .error fault) : IsComplaint fault := by
  cases value with
  | record fields =>
      rw [ofValue] at refused
      split at refused
      next => cases refused
      next => cases refused; exact .invalid _ _
  | scalar _ | list _ => cases refused; exact .invalid _ _

theorem isComplaint_of_read {text : List Char} {fault : Fault}
    (refused : read text = .error (.fault fault)) : IsComplaint fault := by
  rw [read] at refused
  split at refused
  next refusal _ =>
    cases refusal with
    | malformed detail => cases refused; exact .malformed detail
    | longInteger digits => cases refused
  next value _ =>
    split at refused
    next => cases refused
    next fault told => cases refused; exact isComplaint_of_ofValue told

/-- Reading a document breaks down only at an integer of too many digits. -/
theorem decode_of_breakdown {text : List Char} {breakdown : Breakdown}
    (stopped : read text = .error (.breakdown breakdown)) :
    ∃ digits, Relaxed.decode text = .error (.longInteger digits) := by
  rw [read] at stopped
  split at stopped
  next refusal refused =>
    cases refusal with
    | malformed detail => cases stopped
    | longInteger digits => exact ⟨digits, refused⟩
  next value _ =>
    split at stopped
    next => cases stopped
    next => cases stopped

/-- A text that decodes is read exactly when what it decodes to is
well-formed. -/
theorem read_isOk_iff {text : List Char} {value : Value}
    (decoded : Relaxed.decode text = .ok value) :
    (∃ node, read text = .ok node) ↔ WellFormed value := by
  rw [← ofValue_isOk_iff (Relaxed.isProper_of_decode decoded), read, decoded]
  cases told : ofValue value with
  | ok node => simp [told]
  | error fault => simp [told]

end Document

namespace Source

theorem writeFlat_begins (node : Node) :
    ∃ rest, writeFlat node = 'z' :: '.' :: rest := by
  obtain ⟨argument, same⟩ := exists_writeFlat node
  exact ⟨_, same⟩

theorem write_ne_nil (laidOut : Bool) (step : Int) (node : Node) :
    write laidOut step node ≠ [] := by
  obtain ⟨rest, same⟩ := writeFlat_begins node
  rw [write, same]
  split
  · rw [reindent, Spacing.lay, cells, Spacing.layFrom, if_neg (by decide)]
    exact List.append_ne_nil_of_right_ne_nil _ (List.cons_ne_nil _ _)
  · exact List.cons_ne_nil _ _

end Source

open Document in
/-- Converting a document without overlong integers has an outcome: a fault
about the document and nothing else, or the source text of the node that is read
and no fault. A document that decodes is converted exactly when it is
well-formed. -/
theorem convert_document (settings : Settings) (comments : Option Bool)
    {text : List Char} (short : Relaxed.ShortIntegers text) :
    ∃ outcome, convert settings .documentToSource comments text = .ok outcome ∧
      ((∃ fault, IsComplaint fault ∧ outcome.Failed fault) ∨
        (∃ node, read text = .ok node ∧ outcome.Succeeded node
          (Source.write settings.reindentSource settings.indent.val node)) ∧
          outcome.output ≠ "") ∧
      ∀ value, Relaxed.decode text = .ok value →
        (outcome.fault? = none ↔ WellFormed value) := by
  cases found : Direction.documentToSource.read text with
  | ok node =>
      obtain ⟨outcome, converted, succeeded⟩ := convert_of_node found
      refine ⟨outcome, converted, .inr ⟨⟨node, found, succeeded⟩, ?_⟩, ?_⟩
      · rw [succeeded.output, Ne, String.ofList_eq_empty_iff]
        exact Source.write_ne_nil _ _ node
      · intro value decoded
        exact iff_of_true succeeded.fault ((read_isOk_iff decoded).mp ⟨node, found⟩)
  | error failure =>
      cases failure with
      | fault fault =>
          obtain ⟨outcome, converted, failed⟩ := convert_of_fault found
          refine ⟨outcome, converted, .inl ⟨fault, isComplaint_of_read found, failed⟩, ?_⟩
          intro value decoded
          refine iff_of_false ?_ fun formed => ?_
          · rw [failed.fault]
            exact Option.some_ne_none fault
          · obtain ⟨node, told⟩ := (read_isOk_iff decoded).mpr formed
            cases found.symm.trans told
      | breakdown breakdown =>
          obtain ⟨digits, refused⟩ := decode_of_breakdown found
          exact absurd refused (short.decode_ne digits)

open Document in
/-- The document of an object with an array of choices and a union decodes to its
record, and is converted. -/
theorem convert_document_nested :
    let node : Node := .object { description := some "a // b" }
      [("list", .array { optional := true }
          (some (.enumeration {} (some [.integer 12, .text "x"])))),
        ("either", .union { nullable := true }
          (some [.literal {} (.bool true), .object {} [("", .leaf {} .date)]]))]
    let text := write true 2 node
    Relaxed.ShortIntegers text ∧ Relaxed.decode text = .ok (ofNode node) ∧
      ∃ outcome, convert {} .documentToSource none text = .ok outcome ∧
        ((∃ fault, IsComplaint fault ∧ outcome.Failed fault) ∨
          (∃ node, read text = .ok node ∧
            outcome.Succeeded node (Source.write true 2 node)) ∧
            outcome.output ≠ "") ∧
        ∀ value, Relaxed.decode text = .ok value →
          (outcome.fault? = none ↔ WellFormed value) := by
  intro node text
  have short : Relaxed.ShortIntegers text :=
    Relaxed.shortIntegers_of_length (by decide +kernel)
  have decoded : Relaxed.decode text = .ok (ofNode node) :=
    Relaxed.decode_of_spells (spells_write true 2 (by decide))
  exact ⟨short, decoded, convert_document {} none short⟩

end TwinSchema
