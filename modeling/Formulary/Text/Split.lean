/-!
# Splitting text

A text is split at a separator, or where its first characters of some class end.

## Main results

* `intercalate_splitAt`: putting the separator back between the pieces gives the text.
* `takeWhile_append_of_head`: the first elements of a class, when what follows starts with none.
-/

namespace Formulary.Text

/-- The **pieces** of a text between the occurrences of a separator. -/
def splitAt (sep : Char) : List Char → List (List Char)
  | [] => [[]]
  | c :: rest =>
    if c = sep then [] :: splitAt sep rest
    else
      match splitAt sep rest with
      | [] => [[c]]
      | piece :: more => (c :: piece) :: more

/-- There is always a piece. -/
theorem splitAt_ne_nil (sep : Char) (cs : List Char) : splitAt sep cs ≠ [] := by
  cases cs with
  | nil => simp [splitAt]
  | cons c rest =>
    rw [splitAt]
    split
    · simp
    · split <;> simp

/-- Putting the separator back between the pieces gives the text. -/
theorem intercalate_splitAt (sep : Char) (cs : List Char) :
    [sep].intercalate (splitAt sep cs) = cs := by
  induction cs with
  | nil => rfl
  | cons c rest ih =>
    rw [splitAt]
    cases h : splitAt sep rest with
    | nil => exact absurd h (splitAt_ne_nil sep rest)
    | cons piece more =>
      rw [h] at ih
      split
      · rename_i hc
        subst hc
        rw [List.intercalate_cons_cons, ih]
        rfl
      · cases more with
        | nil => simp_all [List.intercalate]
        | cons next rest => simp_all [List.intercalate]

/-- The first elements of a class are taken off exactly, when what follows starts with none. -/
theorem takeWhile_append_of_head {α : Type} {p : α → Bool} {front rest : List α}
    (hfront : ∀ x ∈ front, p x = true) (hrest : ∀ x ∈ rest.head?, p x = false) :
    (front ++ rest).takeWhile p = front ∧ (front ++ rest).dropWhile p = rest := by
  rw [List.takeWhile_append_of_pos hfront, List.dropWhile_append_of_pos hfront]
  cases rest with
  | nil => simp
  | cons x rest => simp [hrest x rfl]

/-- What follows the first elements of a class changes nothing about them, when it starts with
none. -/
theorem takeWhile_append_eq {α : Type} {p : α → Bool} {front rest : List α}
    (hrest : ∀ x ∈ rest.head?, p x = false) : (front ++ rest).takeWhile p = front.takeWhile p := by
  induction front with
  | nil => exact (takeWhile_append_of_head (by simp) hrest).1
  | cons x front ih => rw [List.cons_append, List.takeWhile_cons, List.takeWhile_cons, ih]

/-- What follows the first elements of a class stays behind them, when it starts with none. -/
theorem dropWhile_append_eq {α : Type} {p : α → Bool} {front rest : List α}
    (hrest : ∀ x ∈ rest.head?, p x = false) :
    (front ++ rest).dropWhile p = front.dropWhile p ++ rest := by
  induction front with
  | nil => exact (takeWhile_append_of_head (by simp) hrest).2
  | cons x front ih =>
    rw [List.cons_append, List.dropWhile_cons, List.dropWhile_cons, ih]
    split <;> rfl

/-- The first elements of a class, taken by their number. -/
theorem take_length_takeWhile {α : Type} (p : α → Bool) (xs : List α) :
    xs.take (xs.takeWhile p).length = xs.takeWhile p :=
  (List.prefix_iff_eq_take.1 (List.takeWhile_prefix p)).symm

end Formulary.Text
