/-!
# Sorting by name

Listings are sorted by the code points of their names. The sort is stable: entries of one name
keep their order.

## Main results

* `sortOn_perm`: sorting loses nothing and adds nothing.
-/

namespace Formulary.Text

/-- Puts an entry before the first one whose name is not smaller. -/
def insertOn (key : α → String) (x : α) : List α → List α
  | [] => [x]
  | y :: rest => if key y < key x then y :: insertOn key x rest else x :: y :: rest

/-- The entries in the order of their names. -/
def sortOn (key : α → String) : List α → List α
  | [] => []
  | x :: rest => insertOn key x (sortOn key rest)

/-- The names in order. -/
def sortNames (names : List String) : List String :=
  sortOn id names

/-- Insertion adds exactly the entry. -/
theorem insertOn_perm (key : α → String) (x : α) (l : List α) :
    (insertOn key x l).Perm (x :: l) := by
  induction l with
  | nil => exact .refl _
  | cons y rest ih =>
    rw [insertOn]
    split
    · exact (ih.cons y).trans (.swap x y rest)
    · exact .refl _

/-- Sorting is a rearrangement. -/
theorem sortOn_perm (key : α → String) (l : List α) : (sortOn key l).Perm l := by
  induction l with
  | nil => exact .refl _
  | cons x rest ih => exact (insertOn_perm key x _).trans (ih.cons x)

/-- A name is in the sorted list exactly when it is in the list. -/
theorem mem_sortNames {name : String} {names : List String} :
    name ∈ sortNames names ↔ name ∈ names :=
  (sortOn_perm id names).mem_iff

end Formulary.Text
