import Formulary.Journal.Event
import Mathlib.Data.Int.Notation
import Mathlib.Data.List.Basic
import Mathlib.Data.Nat.Notation
import Mathlib.Data.Option.Basic

/-!
# Cutting the Texts of a Context

The context of an event may hold texts of any length, at any depth. Before the event is recorded
every long text in it is cut. This module says that nothing else of the context changes and that a
context that was cut is cut no further, although the texts in it are longer than the limit by the
mark that was put behind them.

## Conventions

A value is seen as its **nodes** at **addresses**: the node is what the value is apart from its
parts, and an address lists the positions of the parts that lead into it. That two values agree in
their nodes at all addresses makes them equal (`eq_of_nodes`).

The limit stands here as the number 256, not by the name that the definitions give it.

## Main results

* `CutsTo.unique`: what a value is cut to is determined.
* `CutsTo.again`: what a value is cut to is cut to itself.
* `cutsTo_truncate`: cutting does what it should, on every value.
* `truncateFields_spec`: the cut of a context, its bound, and that a second cut changes nothing.
-/

namespace Formulary.Json

/-! ### Nodes and parts -/

/-- The **node** of a value: its kind with all that stands in the value itself and not in its
parts. That is the length of an array and the names of an object, in order. -/
inductive Node where
  | null
  | bool (b : Bool)
  | whole (n : ℤ)
  | real (x : Float)
  | text (s : String)
  | array (length : ℕ)
  | object (names : List String)

/-- The node of a value. -/
def node : Json → Node
  | .null => .null
  | .bool b => .bool b
  | .whole n => .whole n
  | .real x => .real x
  | .text s => .text s
  | .array items => .array items.length
  | .object fields => .object (Fields.names fields)

/-- The **parts** of a value in order: the items of an array or the values of an object. -/
def parts : Json → List Json
  | .array items => items
  | .object fields => fields.map (·.2)
  | _ => []

/-- The value at an **address**, a list of positions among the parts. -/
def at? : Json → List ℕ → Option Json
  | v, [] => some v
  | v, i :: address => v.parts[i]?.bind fun part => part.at? address

/-- A part is smaller than its value. -/
theorem sizeOf_lt_of_mem_parts {part v : Json} (h : part ∈ v.parts) : sizeOf part < sizeOf v := by
  cases v with
  | array items =>
      have hlt : sizeOf part < sizeOf items := List.sizeOf_lt_of_mem h
      rw [array.sizeOf_spec]
      omega
  | object fields =>
      obtain ⟨⟨name, value⟩, hmem, rfl⟩ := List.mem_map.mp h
      have hlt := List.sizeOf_lt_of_mem hmem
      rw [Prod.mk.sizeOf_spec] at hlt
      rw [object.sizeOf_spec]
      change sizeOf value < _
      omega
  | null | bool _ | whole _ | real _ | text _ => cases h

/-- What a value has if all its parts have it is had by every value. -/
theorem induction_parts {P : Json → Prop} (step : ∀ v : Json, (∀ part ∈ v.parts, P part) → P v)
    (v : Json) : P v :=
  step v fun part h =>
    have := sizeOf_lt_of_mem_parts h
    induction_parts step part
termination_by sizeOf v

/-- A value is determined by its node and its parts. -/
theorem eq_of_node_of_parts {v w : Json} (hnode : v.node = w.node) (hparts : v.parts = w.parts) :
    v = w := by
  cases v <;> cases w <;> simp only [node, reduceCtorEq, Node.bool.injEq, Node.whole.injEq,
    Node.real.injEq, Node.text.injEq, Node.object.injEq] at hnode
  case null.null => rfl
  case array.array => exact congrArg array hparts
  case object.object fields more =>
      -- The names and the values of the fields are their two columns.
      have hzip (l : Fields) : (l.map (·.1)).zip (l.map (·.2)) = l := by
        rw [List.zip_map', List.map_id'']
        exact fun field => rfl
      rw [← hzip fields, ← hzip more]
      exact congrArg object (congrArg₂ List.zip hnode hparts)
  all_goals rw [hnode]

/-- A value is determined by its nodes at all addresses. -/
theorem eq_of_nodes {v w : Json}
    (h : ∀ address, (v.at? address).map node = (w.at? address).map node) : v = w := by
  induction v using induction_parts generalizing w with
  | step v ih =>
      refine eq_of_node_of_parts (Option.some.inj (h [])) (List.ext_getElem? fun i => ?_)
      have hat := fun address => h (i :: address)
      simp only [at?] at hat
      cases hv : v.parts[i]? with
      | none =>
          cases hw : w.parts[i]? with
          | none => rfl
          | some q => simpa [hv, hw, at?] using hat []
      | some p =>
          cases hw : w.parts[i]? with
          | none => simpa [hv, hw, at?] using hat []
          | some q =>
              simp only [hv, hw, Option.bind_some] at hat
              rw [ih p (List.mem_of_getElem? hv) hat]

/-! ### What cutting should do -/

/-- What a node is **cut to**. A text of at most 256 characters is kept and a longer one becomes its
first 256 characters with the mark behind them. Every other node is kept. -/
inductive Node.CutTo : Node → Node → Prop
  | short {s : String} (hs : s.toList.length ≤ 256) : CutTo (.text s) (.text s)
  | long {s t : String} (hs : 256 < s.toList.length)
      (ht : t.toList = s.toList.take 256 ++ truncationMark.toList) : CutTo (.text s) (.text t)
  | other {n : Node} (h : ∀ s, n ≠ .text s) : CutTo n n

/-- What a node is cut to is determined. -/
theorem Node.CutTo.unique {n m m' : Node} (h : n.CutTo m) (h' : n.CutTo m') : m = m' := by
  cases h with
  | short hs =>
      cases h' with
      | short => rfl
      | long hs' => omega
      | other hno => rfl
  | long hs ht =>
      cases h' with
      | short hs' => omega
      | long _ ht' => rw [String.toList_injective (ht.trans ht'.symm)]
      | other hno => exact absurd rfl (hno _)
  | other hno =>
      cases h' with
      | short | other => rfl
      | long => exact absurd rfl (hno _)

/-- A text that was cut has as many characters as the limit and the mark together. -/
theorem length_of_long {s t : String} (hs : 256 < s.toList.length)
    (ht : t.toList = s.toList.take 256 ++ truncationMark.toList) :
    t.toList.length = 256 + truncationMark.toList.length := by
  rw [ht, List.length_append, List.length_take_of_le (Nat.le_of_lt hs)]

/-- What a node was cut to is cut to itself: of a text that was cut the first 256 characters are
those that were kept, and the mark behind them gives way to the same mark. -/
theorem Node.CutTo.again {n m : Node} (h : n.CutTo m) : m.CutTo m := by
  cases h with
  | short hs => exact .short hs
  | other hno => exact .other hno
  | @long s t hs ht =>
      have hkept : (s.toList.take 256).length = 256 := List.length_take_of_le (Nat.le_of_lt hs)
      have hlong : 256 < t.toList.length := by
        rw [length_of_long hs ht]
        decide
      refine .long hlong ?_
      calc t.toList = s.toList.take 256 ++ truncationMark.toList := ht
        _ = t.toList.take 256 ++ truncationMark.toList := by rw [ht, List.take_left' hkept]

/-- A text that a node is cut to exceeds the limit by the mark at most. -/
theorem Node.CutTo.length_le {n : Node} {t : String} (h : n.CutTo (.text t)) :
    t.toList.length ≤ 256 + truncationMark.toList.length := by
  cases h with
  | short hs => exact Nat.le_add_right_of_le hs
  | other hno => exact absurd rfl (hno t)
  | long hs ht => exact Nat.le_of_eq (length_of_long hs ht)

/-- Whether a value is **cut to** another: they have the same addresses, and at each of them the
node of the one is cut to the node of the other. -/
def CutsTo (v w : Json) : Prop :=
  ∀ address, Option.Rel Node.CutTo ((v.at? address).map node) ((w.at? address).map node)

/-- What a value is cut to is determined. -/
theorem CutsTo.unique {v w w' : Json} (h : v.CutsTo w) (h' : v.CutsTo w') : w = w' := by
  refine eq_of_nodes fun address => ?_
  have hw := h address
  have hw' := h' address
  generalize (v.at? address).map node = n at hw hw'
  generalize (w.at? address).map node = m at hw ⊢
  generalize (w'.at? address).map node = m' at hw' ⊢
  cases hw with
  | none =>
      cases hw'
      rfl
  | some hm =>
      cases hw' with
      | some hm' => rw [hm.unique hm']

/-- What a value was cut to is cut to itself. -/
theorem CutsTo.again {v w : Json} (h : v.CutsTo w) : w.CutsTo w := by
  intro address
  have hw := h address
  generalize (v.at? address).map node = n at hw
  generalize (w.at? address).map node = m at hw ⊢
  cases hw with
  | none => exact .none
  | some hm => exact .some hm.again

/-- Whether no text in a value, at any address, has more characters than the **bound**. -/
def TextsWithin (bound : ℕ) (v : Json) : Prop :=
  ∀ address s, v.at? address = some (.text s) → s.toList.length ≤ bound

/-- The texts in what a value was cut to exceed the limit by the mark at most. -/
theorem CutsTo.textsWithin {v w : Json} (h : v.CutsTo w) :
    w.TextsWithin (256 + truncationMark.toList.length) := by
  intro address s hs
  have hw := h address
  rw [hs, Option.map_some] at hw
  generalize (v.at? address).map node = n at hw
  cases hw with
  | some hm => exact hm.length_le

/-! ### What cutting does -/

/-- Cutting items cuts each of them. -/
theorem truncateItems_eq_map (items : List Json) : truncateItems items = items.map truncate := by
  induction items with
  | nil => rw [truncateItems, List.map_nil]
  | cons item rest ih => rw [truncateItems, ih, List.map_cons]

/-- Cutting fields cuts the value of each of them. -/
theorem truncateFields_eq_map (fields : Fields) :
    truncateFields fields = fields.map (Prod.map id truncate) := by
  induction fields with
  | nil => rw [truncateFields, List.map_nil]
  | cons field rest ih =>
      rw [truncateFields, ih, List.map_cons]
      rfl

/-- Cutting a text cuts its node. -/
theorem cutTo_truncateText (s : String) : (Node.text s).CutTo (.text (truncateText s)) := by
  by_cases hs : s.toList.length ≤ 256
  case pos =>
    rw [truncateText_of_short hs]
    exact .short hs
  case neg =>
    have hlong : maxTextLength < s.toList.length := Nat.lt_of_not_le hs
    rw [truncateText, if_pos hlong]
    exact .long hlong String.toList_ofList

/-- Cutting a value cuts its node. -/
theorem cutTo_node_truncate (v : Json) : v.node.CutTo (truncate v).node := by
  cases v with
  | text s =>
      rw [truncate]
      exact cutTo_truncateText s
  | array items =>
      rw [truncate, node, node, truncateItems_eq_map, List.length_map]
      exact .other nofun
  | object fields =>
      have hnames : Fields.names (truncateFields fields) = Fields.names fields := by
        rw [truncateFields_eq_map, Fields.names, List.map_map]
        rfl
      rw [truncate, node, node, hnames]
      exact .other nofun
  | null | bool _ | whole _ | real _ => exact .other nofun

/-- Cutting a value cuts its parts. -/
theorem parts_truncate (v : Json) : (truncate v).parts = v.parts.map truncate := by
  cases v with
  | array items => rw [truncate, parts, parts, truncateItems_eq_map]
  | object fields =>
      rw [truncate, parts, parts, truncateFields_eq_map, List.map_map, List.map_map]
      rfl
  | null | bool _ | whole _ | real _ | text _ => rfl

/-- What stands at an address of a value that is cut is cut. -/
theorem at?_truncate (v : Json) (address : List ℕ) :
    (truncate v).at? address = (v.at? address).map truncate := by
  induction address generalizing v with
  | nil => rfl
  | cons i rest ih =>
      rw [at?, at?, parts_truncate, List.getElem?_map]
      cases v.parts[i]? with
      | none => rfl
      | some part => exact ih part

/-- Cutting a value cuts it as it should. -/
theorem cutsTo_truncate (v : Json) : v.CutsTo (truncate v) := by
  intro address
  rw [at?_truncate]
  cases v.at? address with
  | none => exact .none
  | some part => exact .some (cutTo_node_truncate part)

/-- Cutting a context keeps its structure, its names and all values that are no texts, and cuts the
texts. No text in what it gives exceeds the limit by more than the mark, and cutting it once more
changes nothing. -/
theorem truncateFields_spec (context : Fields) :
    CutsTo (.object context) (.object (truncateFields context)) ∧
      TextsWithin (256 + truncationMark.toList.length) (.object (truncateFields context)) ∧
      truncateFields (truncateFields context) = truncateFields context := by
  have hcut (fields : Fields) : CutsTo (.object fields) (.object (truncateFields fields)) := by
    have hcut := cutsTo_truncate (.object fields)
    rwa [truncate] at hcut
  have hfirst := hcut context
  have hsecond := hcut (truncateFields context)
  exact ⟨hfirst, hfirst.textsWithin, object.inj (hsecond.unique hfirst.again)⟩

end Formulary.Json
