import SpaceQuery.Lib.RustText

/-!
Texts compared up to white space (`stripWhitespace`), and a text without the characters at
given positions (`removeAt`).
-/

namespace RustText

open List

/-! ### White space -/

variable (text : List Char)

def stripWhitespace : List Char := text.filter (!isWhitespace ·)

@[simp] lemma stripWhitespace_nil : stripWhitespace [] = [] := rfl

@[simp] lemma stripWhitespace_append (a b : List Char) :
    stripWhitespace (a ++ b) = stripWhitespace a ++ stripWhitespace b :=
  filter_append _ _

lemma stripWhitespace_dropWhile :
    stripWhitespace (text.dropWhile isWhitespace) = stripWhitespace text := by
  induction text with
  | nil => rfl
  | cons c text ih =>
    by_cases hc : isWhitespace c
    · rw [dropWhile_cons_of_pos hc, ih]
      simp [stripWhitespace, hc]
    · rw [dropWhile_cons_of_neg hc]

lemma stripWhitespace_reverse : stripWhitespace text.reverse = (stripWhitespace text).reverse :=
  filter_reverse

@[simp] lemma stripWhitespace_trim : stripWhitespace (trim text) = stripWhitespace text := by
  rw [trim, trimEnd, stripWhitespace_reverse, stripWhitespace_dropWhile, stripWhitespace_reverse,
    reverse_reverse, stripWhitespace_dropWhile]

section Positions

variable {α : Type*}

/-- The text without the given positions. The first character stands at position `start`. -/
def removeAt (positions : List ℕ) : ℕ → List α → List α
  | _, [] => []
  | start, c :: text =>
    if start ∈ positions then removeAt positions (start + 1) text
    else c :: removeAt positions (start + 1) text

variable (positions : List ℕ)

@[simp] lemma removeAt_nil (start : ℕ) : removeAt positions start ([] : List α) = [] := rfl

lemma removeAt_take_drop (k start : ℕ) (text : List α) : removeAt positions start text
      = removeAt positions start (text.take k) ++ removeAt positions (start + k) (text.drop k) := by
  induction k generalizing start text with
  | zero => simp
  | succ k ih =>
    cases text with
    | nil => simp
    | cons c text =>
      have h := ih (start + 1) text
      rw [show start + 1 + k = start + (k + 1) by omega] at h
      by_cases hs : start ∈ positions
      · simp [removeAt, hs, h]
      · simp [removeAt, hs, h]

lemma removeAt_append (start : ℕ) (a b : List α) : removeAt positions start (a ++ b)
      = removeAt positions start a ++ removeAt positions (start + a.length) b := by
  rw [removeAt_take_drop positions a.length, take_left, drop_left]

/-- Positions behind the text remove nothing. -/
lemma removeAt_of_le {positions : List ℕ} {start : ℕ} {text : List α}
    (h : ∀ p ∈ positions, start + text.length ≤ p) : removeAt positions start text = text := by
  induction text generalizing start with
  | nil => rfl
  | cons c text ih =>
    have hs : start ∉ positions := fun hs => by simpa using h start hs
    rw [removeAt, if_neg hs, ih]
    intro p hp
    have := h p hp
    rw [length_cons] at this
    omega

/-- A position before the text removes nothing. -/
lemma removeAt_cons_of_lt {p : ℕ} {positions : List ℕ} {start : ℕ} (h : p < start)
    (text : List α) : removeAt (p :: positions) start text = removeAt positions start text := by
  induction text generalizing start with
  | nil => rfl
  | cons c text ih =>
    have hp : start ≠ p := by omega
    simp [removeAt, hp, ih (show p < start + 1 by omega)]

end Positions

end RustText
