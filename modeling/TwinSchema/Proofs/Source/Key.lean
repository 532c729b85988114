import TwinSchema.Proofs.Source.Arguments

/-!
# Keys of properties

A key is written bare where its name passes for an identifier, and as a quoted text
otherwise. What is written for a key is read as its name, with one exception: a line
feed at the end of an identifier passes for a part of it when the key is written, and
for a blank behind it when the key is read.
-/

namespace TwinSchema.Source

open Text

/-- A text up to whose end an identifier goes on, if it ends in a line feed. -/
theorem exists_of_namePartsToEnd {text : List Char} (toEnd : namePartsToEnd text = true)
    (feed : text.getLast? = some '\n') :
    ∃ parts, text = parts ++ ['\n'] ∧ ∀ char ∈ parts, isNamePart char = true := by
  fun_induction namePartsToEnd text with
  | case1 => cases feed
  | case2 => exact ⟨[], rfl, by simp⟩
  | case3 char rest alone ih =>
      rw [Bool.and_eq_true] at toEnd
      cases rest with
      | nil => exact absurd (by simpa using feed) (alone · rfl)
      | cons next rest =>
          rw [List.getLast?_cons_cons] at feed
          obtain ⟨parts, same, inside⟩ := ih toEnd.2 feed
          exact ⟨char :: parts, by rw [same]; rfl, List.forall_mem_cons.mpr ⟨toEnd.1, inside⟩⟩

/-- An identifier with a line feed at its end is a name in front of that line feed. -/
theorem exists_name_of_not_isPlainName {name : String} (feed : isPlainName name = false) :
    isIdentifier name = true ∧ ∃ front, name.toList = front ++ ['\n'] ∧ isName front = true := by
  simp only [isPlainName, Bool.not_eq_false', Bool.and_eq_true, beq_iff_eq] at feed
  obtain ⟨identifier, feed⟩ := feed
  refine ⟨identifier, ?_⟩
  rw [isIdentifier] at identifier
  split at identifier
  next => cases identifier
  next first rest same =>
    rw [Bool.and_eq_true] at identifier
    cases rest with
    | nil =>
        rw [same, List.getLast?_singleton, Option.some.injEq] at feed
        rw [feed] at identifier
        cases identifier.1
    | cons next rest =>
        rw [same, List.getLast?_cons_cons] at feed
        obtain ⟨parts, behind, inside⟩ := exists_of_namePartsToEnd identifier.2 feed
        refine ⟨first :: parts, by rw [same, behind]; rfl, ?_⟩
        rw [isName, Bool.and_eq_true, List.all_eq_true]
        exact ⟨identifier.1, inside⟩

/-- A written key with the text of a schema is a property of that schema, whatever the
name. The key is read as the name, without the line feed at the end of an identifier. -/
theorem read_writeKey (name : String) :
    ∃ key, property? (writeKey name ++ ": z.string()".toList) =
        some (key, "z.string()".toList) ∧
      key.read =
        .ok (if isPlainName name then name else String.ofList name.toList.dropLast) := by
  cases plain : isPlainName name with
  | true =>
      have noBlank : ∀ char ∈ ([] : List Char), isBlank char = true := by simp
      have visible : Stops isBlank "z.string()".toList := stops_cons (by decide)
      exact property?_writeKey plain noBlank visible
  | false =>
      obtain ⟨identifier, front, same, named⟩ := exists_name_of_not_isPlainName plain
      have parts : writeKey name ++ ": z.string()".toList =
          front ++ '\n' :: ": z.string()".toList := by
        rw [writeKey, if_pos identifier, same, List.append_assoc, List.singleton_append]
      have found : key? (front ++ '\n' :: ": z.string()".toList) =
          some (.bare front, '\n' :: ": z.string()".toList) :=
        key?_name named (stops_cons (by decide))
      refine ⟨.bare front, ?_, ?_⟩
      · rw [parts, property?, trimLeft_of_stops (stops_of_isName named _), found]
        rfl
      · rw [same, List.dropLast_concat]
        rfl

/-- A line feed behind an identifier is lost. -/
theorem read_writeKey_fails :
    ∃ key, property? (writeKey "a\n" ++ ": z.string()".toList) =
        some (key, "z.string()".toList) ∧
      key.read = .ok "a" ∧ "a" ≠ "a\n" :=
  ⟨.bare ['a'], by decide +kernel, rfl, by decide⟩

end TwinSchema.Source
