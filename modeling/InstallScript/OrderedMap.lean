/-!
Maps and sets of names that remember the order in which names were first added. Writing to a name
that is already there replaces its value and keeps its place.
-/

namespace InstallScript

/-- A map from names to values, in the order in which the names were first added. -/
structure OrderedMap (α : Type) where
  entries : List (String × α)
  nodup : (entries.map Prod.fst).Nodup

namespace OrderedMap

/-- The map without entries. -/
def empty : OrderedMap α := ⟨[], by simp⟩

instance : Inhabited (OrderedMap α) := ⟨empty⟩

theorem ext {m n : OrderedMap α} (h : m.entries = n.entries) : m = n := by
  cases m; cases n; cases h; rfl

instance [DecidableEq α] : DecidableEq (OrderedMap α) := fun m n =>
  if h : m.entries = n.entries then isTrue (ext h) else isFalse fun e => h (e ▸ rfl)

/-- The names, oldest first. -/
def keys (m : OrderedMap α) : List String :=
  m.entries.map Prod.fst

/-- The values, in the order of their names. -/
def values (m : OrderedMap α) : List α :=
  m.entries.map Prod.snd

/-- The number of entries. -/
def size (m : OrderedMap α) : Nat :=
  m.entries.length

/-- Whether there are no entries. -/
def isEmpty (m : OrderedMap α) : Bool :=
  m.entries.isEmpty

/-- The value of a name. -/
def get? (m : OrderedMap α) (key : String) : Option α :=
  m.entries.lookup key

/-- Whether a name has a value. -/
def contains (m : OrderedMap α) (key : String) : Bool :=
  m.keys.contains key

/-- Replaces the value of a name that is there, and adds one that is not at the end. -/
def put (key : String) (value : α) : List (String × α) → List (String × α)
  | [] => [(key, value)]
  | (k, v) :: rest => if k = key then (k, value) :: rest else (k, v) :: put key value rest

theorem mem_keys_put {key : String} {value : α} {entries : List (String × α)} {name : String} :
    name ∈ (put key value entries).map Prod.fst ↔ name = key ∨
    name ∈ entries.map Prod.fst := by
  induction entries with
  | nil => simp [put]
  | cons e rest ih =>
    obtain ⟨k, v⟩ := e
    by_cases h : k = key
    · subst h
      simp [put]
    · simp only [put, h, if_false, List.map_cons, List.mem_cons, ih]
      constructor
      · rintro (h | h | h)
        · exact .inr (.inl h)
        · exact .inl h
        · exact .inr (.inr h)
      · rintro (h | h | h)
        · exact .inr (.inl h)
        · exact .inl h
        · exact .inr (.inr h)

theorem nodup_put {key : String} {value : α} {entries : List (String × α)}
    (h : (entries.map Prod.fst).Nodup) : ((put key value entries).map Prod.fst).Nodup := by
  induction entries with
  | nil => simp [put]
  | cons e rest ih =>
    obtain ⟨k, v⟩ := e
    simp only [List.map_cons, List.nodup_cons] at h
    by_cases hk : k = key
    · subst hk
      simpa [put] using h
    · simp only [put, hk, if_false, List.map_cons, List.nodup_cons]
      refine ⟨fun hmem => ?_, ih h.2⟩
      rcases mem_keys_put.mp hmem with rfl | hmem
      · exact hk rfl
      · exact h.1 hmem

/-- Sets the value of a name. -/
def insert (m : OrderedMap α) (key : String) (value : α) : OrderedMap α :=
  ⟨put key value m.entries, nodup_put m.nodup⟩

/-- Removes a name. The others keep their order. -/
def erase (m : OrderedMap α) (key : String) : OrderedMap α :=
  ⟨m.entries.filter (·.1 != key), m.nodup.sublist (List.filter_sublist.map _)⟩

/-- Changes the value of a name that is there. -/
def modify (m : OrderedMap α) (key : String) (f : α → α) : OrderedMap α :=
  ⟨m.entries.map fun (k, v) => if k = key then (k, f v) else (k, v), by
    have h : (m.entries.map fun (k, v) => if k = key then (k, f v) else (k, v)).map Prod.fst =
        m.entries.map Prod.fst := by
      rw [List.map_map]
      exact List.map_congr_left fun e _ => by dsimp; split <;> rfl
    rw [h]
    exact m.nodup⟩

/-- Adds entries one after the other. Of several with one name the last gives the value. -/
def ofList (entries : List (String × α)) : OrderedMap α :=
  entries.foldl (fun m (k, v) => m.insert k v) empty

end OrderedMap

/-- A set of names, in the order in which they were added. -/
structure OrderedSet where
  names : List String
  nodup : names.Nodup

namespace OrderedSet

/-- The set without names. -/
def empty : OrderedSet := ⟨[], by simp⟩

instance : Inhabited OrderedSet := ⟨empty⟩

theorem ext {s t : OrderedSet} (h : s.names = t.names) : s = t := by
  cases s; cases t; cases h; rfl

instance : DecidableEq OrderedSet := fun s t =>
  if h : s.names = t.names then isTrue (ext h) else isFalse fun e => h (e ▸ rfl)

/-- Adds a name, at the end if it is new. -/
def insert (s : OrderedSet) (name : String) : OrderedSet :=
  if h : name ∈ s.names then s
  else ⟨s.names ++ [name], by
    rw [List.nodup_append]
    exact ⟨s.nodup, by simp, fun a ha b hb => by
      rw [List.mem_singleton] at hb
      subst hb
      exact fun e => h (e ▸ ha)⟩⟩

/-- Removes a name. The others keep their order. -/
def erase (s : OrderedSet) (name : String) : OrderedSet :=
  ⟨s.names.filter (· != name), s.nodup.sublist List.filter_sublist⟩

/-- Adds names one after the other. -/
def ofList (names : List String) : OrderedSet :=
  names.foldl insert empty

end OrderedSet

end InstallScript
