import OperatorCalculator.Proofs.Session.Tracing
import OperatorCalculator.Proofs.Text.Bytes

/-
Lines of bytes.

The input of a session is cut behind newline bytes, and there is one way to do so.  Since no
character but the newline has that byte in its encoding, an input encodes a text exactly if
each of its lines does.
-/

set_option autoImplicit false

namespace OperatorCalculator

/-! ### Lines -/

namespace Session

/-- Lines that an input is cut into behind each newline byte.  What is left without one is a
line if it is not empty. -/
inductive CutsLines : List UInt8 → List (List UInt8) → Prop
  | nothing : CutsLines [] []
  | last {piece : List UInt8} (hPiece : 10 ∉ piece) (hSome : piece ≠ []) :
      CutsLines piece [piece]
  | line {piece rest : List UInt8} {lines : List (List UInt8)} (hPiece : 10 ∉ piece)
      (hRest : CutsLines rest lines) :
      CutsLines (piece ++ 10 :: rest) ((piece ++ [10]) :: lines)

theorem splitLines_cons {byte : UInt8} (hByte : byte ≠ 10) (rest : List UInt8) :
    splitLines (byte :: rest) =
      match splitLines rest with
      | [] => [[byte]]
      | line :: lines => (byte :: line) :: lines :=
  if_neg hByte

theorem splitLines_append_newline {piece : List UInt8} (hPiece : 10 ∉ piece)
    (rest : List UInt8) :
    splitLines (piece ++ 10 :: rest) = (piece ++ [10]) :: splitLines rest := by
  induction piece with
  | nil => exact if_pos rfl
  | cons byte piece ih =>
      rw [List.mem_cons, not_or] at hPiece
      rw [List.cons_append, splitLines_cons (Ne.symm hPiece.1), ih hPiece.2, List.cons_append]

theorem splitLines_append {piece : List UInt8} (hPiece : 10 ∉ piece) (hSome : piece ≠ [])
    (rest : List UInt8) :
    splitLines (piece ++ rest) =
      match splitLines rest with
      | [] => [piece]
      | line :: lines => (piece ++ line) :: lines := by
  induction piece with
  | nil => contradiction
  | cons byte piece ih =>
      rw [List.mem_cons, not_or] at hPiece
      rw [List.cons_append, splitLines_cons (Ne.symm hPiece.1)]
      cases piece with
      | nil => rfl
      | cons next piece =>
          rw [ih hPiece.2 (List.cons_ne_nil next piece)]
          cases splitLines rest with
          | nil => rfl
          | cons line lines => rfl

theorem CutsLines.splitLines_eq {input : List UInt8} {lines : List (List UInt8)}
    (hCuts : CutsLines input lines) : splitLines input = lines := by
  induction hCuts with
  | nothing => rfl
  | @last piece hPiece hSome =>
      have alone := splitLines_append hPiece hSome []
      rwa [List.append_nil] at alone
  | line hPiece _ ih => rw [splitLines_append_newline hPiece, ih]

theorem cutsLines_splitLines (input : List UInt8) : CutsLines input (splitLines input) := by
  induction input with
  | nil => exact .nothing
  | cons byte rest ih =>
      by_cases hByte : byte = 10
      · rw [hByte]
        exact .line List.not_mem_nil ih
      · have other : (10 : UInt8) ≠ byte := Ne.symm hByte
        rw [splitLines_cons hByte]
        generalize splitLines rest = lines at ih
        cases ih with
        | nothing => exact .last (by simpa using other) (List.cons_ne_nil byte [])
        | last hPiece hSome =>
            exact .last (by simp [other, hPiece]) (List.cons_ne_nil byte _)
        | @line piece rest lines hPiece hRest =>
            have longer : 10 ∉ byte :: piece := by simp [other, hPiece]
            exact .line longer hRest

theorem CutsLines.splitLines_append {front : List UInt8} {lines : List (List UInt8)}
    (hCuts : CutsLines front lines) (hEnds : ∀ byte ∈ front.getLast?, byte = 10)
    (back : List UInt8) : splitLines (front ++ back) = lines ++ splitLines back := by
  induction hCuts with
  | nothing => rfl
  | @last piece hPiece hSome =>
      have final := List.getLast?_eq_some_getLast hSome
      have newline := hEnds _ final
      have member := List.getLast_mem hSome
      rw [newline] at member
      contradiction
  | @line piece rest lines hPiece _ ih =>
      have restEnds : ∀ byte ∈ rest.getLast?, byte = 10 := by
        intro byte final
        apply hEnds
        rw [List.getLast?_append, List.getLast?_cons, final]
        rfl
      rw [List.append_assoc, List.cons_append, splitLines_append_newline hPiece,
        ih restEnds, List.cons_append]

theorem isText_of_mem_splitLines_append {piece rest : List UInt8} (hPiece : IsText piece)
    (hNewline : 10 ∉ piece) (hSome : piece ≠ [])
    (hLines : ∀ line ∈ splitLines rest, IsText line) :
    ∀ line ∈ splitLines (piece ++ rest), IsText line := by
  rw [splitLines_append hNewline hSome]
  cases hRest : splitLines rest with
  | nil =>
      intro line member
      rw [List.mem_singleton.mp member]
      exact hPiece
  | cons first others =>
      rw [hRest] at hLines
      intro line member
      rcases List.mem_cons.mp member with rfl | deeper
      · exact hPiece.append (hLines first List.mem_cons_self)
      · exact hLines line (List.mem_cons_of_mem _ deeper)

theorem isText_of_mem_splitLines {input : List UInt8} (hInput : IsText input) :
    ∀ line ∈ splitLines input, IsText line := by
  rcases isText_iff.mp hInput with ⟨characters, rfl⟩
  clear hInput
  induction characters with
  | nil =>
      intro line member
      contradiction
  | cons character characters ih =>
      have alone : IsText (String.utf8EncodeChar character) :=
        isText_iff.mpr ⟨[character], by simp⟩
      rw [List.flatMap_cons]
      -- A newline is a line on its own here; any other character goes in front of one.
      by_cases hNewline : character = '\n'
      · subst hNewline
        change ∀ line ∈ splitLines ([] ++ 10 :: characters.flatMap String.utf8EncodeChar),
          IsText line
        rw [splitLines_append_newline List.not_mem_nil]
        intro line member
        rcases List.mem_cons.mp member with rfl | deeper
        · exact alone
        · exact ih line deeper
      · apply isText_of_mem_splitLines_append alone _ String.utf8EncodeChar_ne_nil ih
        intro inside
        exact hNewline (eq_newline_of_mem_utf8EncodeChar inside)

/-- Bytes are a text exactly if each line of them is one. -/
theorem CutsLines.isText_iff {input : List UInt8} {lines : List (List UInt8)}
    (hCuts : CutsLines input lines) : IsText input ↔ ∀ line ∈ lines, IsText line := by
  constructor
  · intro hInput
    rw [← hCuts.splitLines_eq]
    exact isText_of_mem_splitLines hInput
  · intro hLines
    induction hCuts with
    | nothing => exact ⟨"", rfl⟩
    | last _ _ => exact hLines _ List.mem_cons_self
    | @line piece rest lines _ _ ih =>
        have first := hLines _ List.mem_cons_self
        have others := ih (fun line member => hLines line (List.mem_cons_of_mem _ member))
        have whole := first.append others
        rwa [List.append_assoc, List.singleton_append] at whole

end Session
end OperatorCalculator
