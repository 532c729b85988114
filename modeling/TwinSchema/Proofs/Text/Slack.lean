import Mathlib.Data.List.TakeWhile
import TwinSchema.Proofs.Text.Visible
import TwinSchema.Proofs.Text.Word
import TwinSchema.Text.Literal

/-!
# Where blanks count for nothing

Behind an opening brace or bracket, behind a comma, and in front of a closing
brace or bracket, any number of blanks may stand. No other place is next to such
a sign on the side that matters, so words stay whole.
-/

namespace TwinSchema.Text

/-- The signs behind which blanks count for nothing. -/
def opensGap (char : Char) : Bool := char == '{' || char == '[' || char == ','

/-- Whether blanks count for nothing behind one more character, where `loose`
tells whether they did before it. -/
def loosens (loose : Bool) (char : Char) : Bool :=
  opensGap char || (loose && isBlank char)

/-- The signs in front of which blanks count for nothing. -/
def closesGap (char : Char) : Bool := char == '}' || char == ']'

/-- Whether a closing sign or nothing at all is what a text goes on with. -/
def beforeClosing (text : List Char) : Bool := (firstVisible text).all closesGap

/-- The characters next to which no blank is without meaning and which open no
literal. -/
def isSolid (char : Char) : Bool :=
  !isBlank char && !opensGap char && !closesGap char && !(char ∈ sourceQuotes)

theorem beq_of_isBlank {char sign : Char} (blank : isBlank char = true)
    (visible : isBlank sign = false) : (char == sign) = false := by
  rw [beq_eq_false_iff_ne]
  rintro rfl
  rw [blank] at visible
  cases visible

theorem notMem_of_isBlank {char : Char} {signs : List Char} (blank : isBlank char = true)
    (visible : signs.any isBlank = false) : char ∉ signs :=
  fun member => List.any_eq_false.mp visible char member blank

theorem isBlank_of_mem_sourceQuotes : ∀ quote ∈ sourceQuotes, isBlank quote = false := by
  have visible : sourceQuotes.any isBlank = false := rfl
  simpa using visible

theorem closesGap_iff {char : Char} : closesGap char = true ↔ char = '}' ∨ char = ']' := by
  simp [closesGap]

section Solid

variable {char : Char}

theorem isBlank_of_isSolid (solid : isSolid char = true) : isBlank char = false := by
  simp only [isSolid, Bool.and_eq_true, Bool.not_eq_true'] at solid
  exact solid.1.1.1

theorem closesGap_of_isSolid (solid : isSolid char = true) : closesGap char = false := by
  simp only [isSolid, Bool.and_eq_true, Bool.not_eq_true'] at solid
  exact solid.1.2

theorem loosens_solid (solid : isSolid char = true) (loose : Bool) :
    loosens loose char = false := by
  simp only [isSolid, Bool.and_eq_true, Bool.not_eq_true'] at solid
  simp [loosens, solid]

theorem loosens_blank (blank : isBlank char = true) (loose : Bool) :
    loosens loose char = loose := by
  have noSign : opensGap char = false := by
    rw [Bool.eq_false_iff]
    intro opens
    simp only [opensGap, Bool.or_eq_true, beq_iff_eq] at opens
    rcases opens with (rfl | rfl) | rfl <;> cases blank
  simp [loosens, noSign, blank]

theorem loosens_mono {first second : Bool} (implies : first = true → second = true)
    (loosened : loosens first char = true) : loosens second char = true := by
  simp only [loosens, Bool.or_eq_true, Bool.and_eq_true] at loosened ⊢
  exact loosened.imp_right (And.imp_left implies)

theorem isSolid_of_isNamePart (part : isNamePart char = true) : isSolid char = true := by
  have different : ∀ other, isNamePart other = false → char ≠ other := by
    rintro other no rfl
    rw [part] at no
    cases no
  have noSign : opensGap char = false ∧ closesGap char = false := by
    simp [opensGap, closesGap, different '{' rfl, different '[' rfl,
      different ',' rfl, different '}' rfl, different ']' rfl]
  have noQuote : char ∉ sourceQuotes := by
    simp [sourceQuotes, different '"' rfl, different '\'' rfl, different '\x60' rfl]
  simp [isSolid, isBlank_of_isNamePart part, noSign, noQuote]

end Solid

/-- What a text goes on with is in front of any visible character. -/
theorem firstVisible_append {char : Char} {body : List Char}
    (visible : isBlank char = false) (first second : List Char) :
    firstVisible (body ++ char :: first) = firstVisible (body ++ char :: second) := by
  simp [firstVisible, List.find?_append, visible]

theorem head?_trimLeft (text : List Char) :
    (trimLeft text).head? = firstVisible text :=
  (List.find?_not_eq_head?_dropWhile isBlank text).symm

theorem stops_trimLeft (text : List Char) : Stops isBlank (trimLeft text) :=
  stops_dropWhile isBlank text

theorem allBlank_eq_isNone (text : List Char) :
    allBlank text = (firstVisible text).isNone := by
  induction text with
  | nil => rfl
  | cons char text ih =>
      rw [allBlank, firstVisible] at ih ⊢
      rw [List.all_cons, List.find?_cons, ih]
      cases isBlank char <;> rfl

section BeforeClosing

variable {char : Char} {rest : List Char}

theorem beforeClosing_blank (blank : isBlank char = true) :
    beforeClosing (char :: rest) = beforeClosing rest := by
  simp [beforeClosing, firstVisible, blank]

theorem beforeClosing_visible (visible : isBlank char = false) :
    beforeClosing (char :: rest) = closesGap char := by
  simp [beforeClosing, firstVisible, visible]

theorem beforeClosing_solid (solid : isSolid char = true) :
    beforeClosing (char :: rest) = false := by
  rw [beforeClosing_visible (isBlank_of_isSolid solid), closesGap_of_isSolid solid]

theorem beforeClosing_trimLeft (text : List Char) :
    beforeClosing (trimLeft text) = beforeClosing text := by
  induction text with
  | nil => rfl
  | cons char text ih =>
      cases blank : isBlank char with
      | true => simpa [trimLeft, blank, beforeClosing_blank blank] using ih
      | false => simp [trimLeft, blank]

end BeforeClosing

theorem takeWhile_of_stops {test : Char → Bool} {rest : List Char}
    (stops : Stops test rest) : rest.takeWhile test = [] := by
  cases rest with
  | nil => rfl
  | cons char rest => simp [stops char rfl]

theorem dropWord?_cons (expected : Char) (word text : List Char) :
    dropWord? (expected :: word) text = (dropChar? expected text).bind (dropWord? word) := by
  cases text with
  | nil => rfl
  | cons char text =>
      rw [dropWord?, dropChar?]
      split <;> rfl

theorem dropChar?_beforeClosing {expected : Char} (solid : isSolid expected = true)
    {text : List Char} (closing : beforeClosing text = true) :
    dropChar? expected text = none := by
  cases text with
  | nil => rfl
  | cons char text =>
      rw [dropChar?]
      apply if_neg
      rintro rfl
      rw [beforeClosing_solid solid] at closing
      cases closing

theorem dropWord?_beforeClosing {letter : Char} (solid : isSolid letter = true)
    (word : List Char) {text : List Char} (closing : beforeClosing text = true) :
    dropWord? (letter :: word) text = none := by
  rw [dropWord?_cons, dropChar?_beforeClosing solid closing, Option.bind_none]

theorem name?_beforeClosing {text : List Char} (closing : beforeClosing text = true) :
    name? text = none := by
  cases text with
  | nil => rfl
  | cons char text =>
      rw [name?]
      apply if_neg
      intro starts
      rw [beforeClosing_solid (isSolid_of_isNamePart (isNamePart_of_isNameStart starts))]
        at closing
      cases closing

/-- A text that begins with a name falls into the name and what follows it. -/
theorem name?_eq_some {text name rest : List Char}
    (found : name? text = some (name, rest)) :
    text = name ++ rest ∧ ∀ char ∈ name, isNamePart char = true := by
  cases text with
  | nil => cases found
  | cons char text =>
      rw [name?] at found
      split at found
      next starts =>
        cases found
        constructor
        · rw [List.cons_append, List.takeWhile_append_dropWhile]
        · rw [List.forall_mem_cons]
          exact ⟨isNamePart_of_isNameStart starts,
            fun _ member => List.mem_takeWhile_imp member⟩
      next => cases found

section Related

variable {α β γ δ : Type} {related : α → β → Prop} {next : γ → δ → Prop}
variable {first : Option α} {second : Option β}

/-- Steps that relate what they find, one after the other. -/
theorem relBind {left : α → Option γ} {right : β → Option δ}
    (found : Option.Rel related first second)
    (step : ∀ {one other}, related one other → Option.Rel next (left one) (right other)) :
    Option.Rel next (first.bind left) (second.bind right) := by
  cases found with
  | none => exact .none
  | some same => exact step same

theorem relMono {weaker : α → β → Prop} (found : Option.Rel related first second)
    (weakens : ∀ {one other}, related one other → weaker one other) :
    Option.Rel weaker first second := by
  cases found with
  | none => exact .none
  | some same => exact .some (weakens same)

theorem relKnown (found : Option.Rel related first second) :
    Option.Rel (fun one other => first = some one ∧ related one other) first second := by
  cases found with
  | none => exact .none
  | some same => exact .some ⟨rfl, same⟩

theorem relMap {left : α → γ} {right : β → δ} (found : Option.Rel related first second)
    (step : ∀ {one other}, related one other → next (left one) (right other)) :
    Option.Rel next (first.map left) (second.map right) := by
  cases found with
  | none => exact .none
  | some same => exact .some (step same)

theorem relOr {third : Option α} {fourth : Option β}
    (found : Option.Rel related first second) (other : Option.Rel related third fourth) :
    Option.Rel related (first.or third) (second.or fourth) := by
  cases found with
  | none => exact other
  | some same => exact .some same

theorem isSome_eq_of_rel (found : Option.Rel related first second) :
    first.isSome = second.isSome := by
  cases found <;> rfl

theorem rel_of_forall {related : α → α → Prop} (refl : ∀ value, related value value)
    (found : Option α) : Option.Rel related found found := by
  cases found with
  | none => exact .none
  | some value => exact .some (refl value)

end Related

end TwinSchema.Text
