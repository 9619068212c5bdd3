/-!
# The variable store

The variables of a formula are kept in the order in which they were first set. A name occurs once:
setting it again changes its value and not its place.

## Main results

* `Store.get?_put`: a variable reads as it was set last, and setting it touches no other.
* `Store.names_put`: a new name goes to the end, a present one stays where it is.
* `Store.restore_get?`, `Store.restore_put`: a variable that was set is given back without a trace.
-/

namespace Formulary

/-- Sets the value of a name in a list of entries: in its place, or at the end if it is new. -/
def putEntry (name : String) (value : Float) : List (String × Float) → List (String × Float)
  | [] => [(name, value)]
  | (key, old) :: rest =>
    if key = name then (key, value) :: rest else (key, old) :: putEntry name value rest

/-- The names after an entry was set. -/
theorem map_fst_putEntry (name : String) (value : Float) (entries : List (String × Float)) :
    (putEntry name value entries).map (·.1) =
      if name ∈ entries.map (·.1) then entries.map (·.1) else entries.map (·.1) ++ [name] := by
  induction entries with
  | nil => rfl
  | cons entry rest ih =>
    obtain ⟨key, old⟩ := entry
    by_cases h : key = name
    · subst h; simp [putEntry]
    · have h' : name ≠ key := fun e => h e.symm
      simp only [putEntry, h, if_false, List.map_cons, ih, List.mem_cons, h', false_or]
      split <;> simp

/-- A **store**: variables with their values in the order of first setting. -/
@[ext] structure Store where
  entries : List (String × Float)
  /-- No name occurs twice. -/
  distinct : (entries.map (·.1)).Nodup

namespace Store

/-- The store without variables. -/
def empty : Store where
  entries := []
  distinct := List.nodup_nil

instance : Inhabited Store := ⟨empty⟩

/-- The names in order. -/
def names (s : Store) : List String :=
  s.entries.map (·.1)

/-- The value of a variable. -/
def get? (s : Store) (name : String) : Option Float :=
  s.entries.lookup name

/-- Whether the variable is set. -/
def has (s : Store) (name : String) : Bool :=
  (s.get? name).isSome

/-- Sets a variable. -/
def put (s : Store) (name : String) (value : Float) : Store where
  entries := putEntry name value s.entries
  distinct := by
    rw [map_fst_putEntry]
    split
    · exact s.distinct
    · rename_i h
      rw [List.nodup_append]
      exact ⟨s.distinct, by simp, fun a ha b hb => by
        simp only [List.mem_singleton] at hb; subst hb; exact fun e => h (e ▸ ha)⟩

/-- Removes a variable, if it is set. -/
def erase (s : Store) (name : String) : Store where
  entries := s.entries.filter fun entry => entry.1 != name
  distinct := s.distinct.sublist (List.filter_sublist.map _)

/-- Sets the variables of a list, one after the other. -/
def putAll (s : Store) (entries : List (String × Float)) : Store :=
  entries.foldl (fun acc entry => acc.put entry.1 entry.2) s

/-- The store of a list of variables; of a repeated name the last value counts. -/
def ofList (entries : List (String × Float)) : Store :=
  empty.putAll entries

/-- Gives a variable back the value it had, or removes it if it had none. -/
def restore (s : Store) (name : String) : Option Float → Store
  | some value => s.put name value
  | none => s.erase name

/-! ### Laws -/

/-- Looking up an entry that was just set. -/
theorem lookup_putEntry (name key : String) (value : Float) (entries : List (String × Float)) :
    (putEntry name value entries).lookup key =
      if key = name then some value else entries.lookup key := by
  induction entries with
  | nil =>
    by_cases h : key = name
    · simp [putEntry, h]
    · have : (key == name) = false := by simpa using h
      simp [putEntry, List.lookup_cons, h, this]
  | cons entry rest ih =>
    obtain ⟨other, old⟩ := entry
    by_cases h : other = name
    · subst h
      by_cases hk : key = other
      · simp [putEntry, hk]
      · have : (key == other) = false := by simpa using hk
        simp [putEntry, List.lookup_cons, hk, this]
    · rw [putEntry, if_neg h, List.lookup_cons, List.lookup_cons, ih]
      by_cases hk : key = other
      · subst hk; simp [h]
      · have : (key == other) = false := by simpa using hk
        simp [this]

/-- A variable reads as it was set last, and setting it touches no other. -/
theorem get?_put (s : Store) (name key : String) (value : Float) :
    (s.put name value).get? key = if key = name then some value else s.get? key :=
  lookup_putEntry name key value s.entries

/-- Setting a variable adds its name to those that are set. -/
theorem has_put (s : Store) (name key : String) (value : Float) :
    (s.put name value).has key = (key == name || s.has key) := by
  rw [has, get?_put]
  by_cases h : key = name <;> simp [h, has]

/-- A new name goes to the end, a present one stays where it is. -/
theorem names_put (s : Store) (name : String) (value : Float) :
    (s.put name value).names = if name ∈ s.names then s.names else s.names ++ [name] :=
  map_fst_putEntry name value s.entries

/-- Setting a name again changes its value only. -/
theorem putEntry_putEntry (name : String) (value former : Float)
    (entries : List (String × Float)) :
    putEntry name value (putEntry name former entries) = putEntry name value entries := by
  induction entries with
  | nil => simp [putEntry]
  | cons entry rest ih =>
    obtain ⟨key, old⟩ := entry
    by_cases h : key = name <;> simp [putEntry, h, ih]

/-- Setting a name to the value it has changes nothing. -/
theorem putEntry_of_lookup {name : String} {value : Float} {entries : List (String × Float)}
    (h : entries.lookup name = some value) : putEntry name value entries = entries := by
  induction entries with
  | nil => cases h
  | cons entry rest ih =>
    obtain ⟨key, old⟩ := entry
    rw [List.lookup_cons] at h
    by_cases hk : key = name
    · rw [hk, beq_self_eq_true] at h
      rw [putEntry, if_pos hk, Option.some.inj h]
    · have hne : (name == key) = false := by simpa using fun e : name = key => hk e.symm
      rw [hne] at h
      rw [putEntry, if_neg hk, ih h]

/-- A name that is set and removed leaves what its removal alone leaves. -/
theorem filter_putEntry (name : String) (value : Float) (entries : List (String × Float)) :
    (putEntry name value entries).filter (·.1 != name) = entries.filter (·.1 != name) := by
  induction entries with
  | nil => simp [putEntry]
  | cons entry rest ih =>
    obtain ⟨key, old⟩ := entry
    by_cases h : key = name
    · simp [putEntry, h]
    · simp [putEntry, h, ih]

/-- A variable that is set twice has the later value. -/
@[simp] theorem put_put (s : Store) (name : String) (value former : Float) :
    (s.put name former).put name value = s.put name value :=
  Store.ext (putEntry_putEntry name value former s.entries)

/-- A variable that is set to the value it has stays as it is. -/
theorem put_of_get? {s : Store} {name : String} {value : Float} (h : s.get? name = some value) :
    s.put name value = s :=
  Store.ext (putEntry_of_lookup h)

/-- Setting a variable does not show once it is removed. -/
theorem erase_put (s : Store) (name : String) (value : Float) :
    (s.put name value).erase name = s.erase name :=
  Store.ext (filter_putEntry name value s.entries)

/-- Removing a variable that is not set changes nothing. -/
theorem erase_of_get? {s : Store} {name : String} (h : s.get? name = none) : s.erase name = s := by
  refine Store.ext (List.filter_eq_self.2 fun entry hentry => ?_)
  have hne := List.lookup_eq_none_iff.1 h entry hentry
  rw [bne_comm]
  simpa using hne

/-- Giving a variable back what it has changes nothing. -/
@[simp] theorem restore_get? (s : Store) (name : String) :
    s.restore name (s.get? name) = s := by
  cases h : s.get? name with
  | none => exact erase_of_get? h
  | some value => exact put_of_get? h

/-- Setting a variable does not show once it is given back what it had. -/
@[simp] theorem restore_put (s : Store) (name : String) (value : Float) (former : Option Float) :
    (s.put name value).restore name former = s.restore name former := by
  cases former with
  | none => exact erase_put s name value
  | some former => exact put_put s name former value

end Store

end Formulary
