import TwinSchema.Proofs.Source.Balanced

/-!
# Closed source text

A text is closed when a scan through it ends outside of literals and brackets
and meets no closing bracket that nothing opened. Closed text is balanced, so
the scans that take source text apart pass over it as a whole.
-/

namespace TwinSchema.Source

open Text

/-- Whether literals and brackets are closed at the end of a text, where `depth`
brackets are open in front of it, and characters of a class alone stand outside
of them. -/
def isClosedFrom (surface : Char → Bool) : Cursor → (depth : Nat) → List Char → Bool
  | cursor, depth, [] => cursor == .code && depth == 0
  | .code, depth, char :: rest =>
      if isOpener char then isClosedFrom surface .code (depth + 1) rest
      else if isCloser char then
        match depth with
        | 0 => false
        | outer + 1 => isClosedFrom surface .code outer rest
      else
        (depth != 0 || char ∈ sourceQuotes || surface char) &&
          isClosedFrom surface (Cursor.code.advance sourceQuotes char) depth rest
  | cursor, depth, char :: rest =>
      isClosedFrom surface (cursor.advance sourceQuotes char) depth rest

/-- Whether literals and brackets are closed in a text, with characters of a class
alone outside of them. -/
def isClosed (surface : Char → Bool) (text : List Char) : Bool :=
  isClosedFrom surface .code 0 text

variable {surface : Char → Bool}

theorem exists_literal_of_isClosedFrom {quote : Char} {depth : Nat} : {text : List Char} →
    isClosedFrom surface (.literal quote) depth text = true →
    ∃ body rest, text = body ++ quote :: rest ∧ LiteralBody quote body ∧
      isClosedFrom surface .code depth rest = true
  | [], closed => by simp [isClosedFrom] at closed
  | char :: rest, closed => by
      simp only [isClosedFrom, Cursor.advance] at closed
      split at closed
      next escape =>
        cases rest with
        | nil => simp [isClosedFrom] at closed
        | cons next rest =>
            have later : isClosedFrom surface (.literal quote) depth rest = true := closed
            obtain ⟨body, behind, rfl, inside, later⟩ :=
              exists_literal_of_isClosedFrom later
            exact ⟨char :: next :: body, behind, rfl, escape ▸ .escaped inside, later⟩
      next notEscape =>
        split at closed
        next same => exact ⟨[], rest, by rw [same]; rfl, .nil, closed⟩
        next notQuote =>
          obtain ⟨body, behind, rfl, inside, later⟩ :=
            exists_literal_of_isClosedFrom closed
          exact ⟨char :: body, behind, rfl, .plain notEscape notQuote inside, later⟩

/-- What a text goes on with where its innermost bracket closes, or where it ends
if no bracket is open. -/
def ClosesAt (surface : Char → Bool) : (depth : Nat) → List Char → Prop
  | 0, rest => rest = []
  | outer + 1, rest => ∃ closing more, rest = closing :: more ∧ isCloser closing = true ∧
      isClosedFrom surface .code outer more = true

/-- A closed text is balanced up to where its innermost bracket closes. -/
theorem exists_balanced_of_isClosedFrom (text : List Char) (depth : Nat)
    (closed : isClosedFrom surface .code depth text = true) :
    ∃ inside rest, text = inside ++ rest ∧
      Balanced (fun char => depth != 0 || surface char) inside ∧
      ClosesAt surface depth rest := by
  -- The length bounds the recursion: what follows a bracket or a literal is scanned anew.
  induction length : text.length using Nat.strongRecOn generalizing text depth with
  | ind bound ih =>
    subst length
    have later {rest : List Char} (shorter : rest.length < text.length) (depth : Nat)
        (closed : isClosedFrom surface .code depth rest = true) :=
      ih rest.length shorter rest depth closed rfl
    cases text with
    | nil =>
        simp only [isClosedFrom, Bool.and_eq_true, beq_iff_eq] at closed
        exact ⟨[], [], rfl, .nil, by rw [closed.2]; rfl⟩
    | cons char text =>
        simp only [isClosedFrom] at closed
        split at closed
        next opens =>
          obtain ⟨inside, rest, rfl, within, closing, more, rfl, closes, outer⟩ :=
            later (by simp) _ closed
          obtain ⟨behind, rest, rfl, balanced, ends⟩ := later (by simp; omega) _ outer
          refine ⟨char :: (inside ++ [closing]) ++ behind, rest, by simp, ?_, ends⟩
          exact .append (.enclosed opens closes (within.mono fun _ _ => rfl)) balanced
        next noOpener =>
          split at closed
          next closes =>
            cases depth with
            | zero => cases closed
            | succ outer => exact ⟨[], char :: text, rfl, .nil, char, text, rfl, closes, closed⟩
          next noCloser =>
            rw [Bool.not_eq_true] at noOpener noCloser
            rw [Bool.and_eq_true] at closed
            obtain ⟨allowed, closed⟩ := closed
            rw [Cursor.advance] at closed
            split at closed
            next quoted =>
              obtain ⟨body, rest, rfl, inside, closed⟩ :=
                exists_literal_of_isClosedFrom closed
              obtain ⟨behind, rest, rfl, balanced, ends⟩ := later (by simp; omega) _ closed
              refine ⟨char :: (body ++ [char]) ++ behind, rest, by simp, ?_, ends⟩
              exact .append (.literal quoted inside) balanced
            next noQuote =>
              obtain ⟨inside, rest, rfl, balanced, ends⟩ := later (by simp) _ closed
              refine ⟨char :: inside, rest, rfl, ?_, ends⟩
              exact .cons noOpener noCloser noQuote (by simpa [noQuote] using allowed) balanced

theorem balanced_of_isClosed {text : List Char} (closed : isClosed surface text = true) :
    Balanced surface text := by
  obtain ⟨inside, rest, rfl, balanced, ends⟩ :=
    exists_balanced_of_isClosedFrom text 0 closed
  rw [show rest = [] from ends, List.append_nil]
  exact balanced.mono fun char allowed => by simpa using allowed

end TwinSchema.Source
