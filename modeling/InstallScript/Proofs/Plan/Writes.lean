import InstallScript.Proofs.Plan.Metadata
import Mathlib.Data.List.Nodup

/-!
Writes to a map, one after the other. Each replaces the value of its name in place or adds the name
at the end, so the names come in the order in which they were first written, and a name has the
value that was last written to it.
-/

namespace InstallScript

namespace OrderedMap

variable {α : Type}

/-- Setting the value of a name replaces it in place if it is there, and adds it at the end if
    not. -/
theorem put_cases (key : String) (value : α) (entries : List (String × α)) :
    (key ∉ entries.map Prod.fst ∧ put key value entries = entries ++ [(key, value)]) ∨
      ∃ front old back, entries = front ++ (key, old) :: back ∧
        put key value entries = front ++ (key, value) :: back := by
  induction entries with
  | nil => exact .inl ⟨by simp, rfl⟩
  | cons first rest ih =>
    obtain ⟨k, v⟩ := first
    by_cases hk : k = key
    · subst hk
      exact .inr ⟨[], v, rest, rfl, by simp [put]⟩
    · rcases ih with ⟨hnew, hput⟩ | ⟨front, old, back, hrest, hput⟩
      · exact .inl ⟨by simpa [Ne.symm hk] using hnew, by simp [put, hk, hput]⟩
      · exact .inr ⟨(k, v) :: front, old, back, by simp [hrest], by simp [put, hk, hput]⟩

variable (m : OrderedMap α)

theorem insert_cases (key : String) (value : α) :
    (key ∉ m.keys ∧ (m.insert key value).entries = m.entries ++ [(key, value)]) ∨
      ∃ front old back, m.entries = front ++ (key, old) :: back ∧
        (m.insert key value).entries = front ++ (key, value) :: back :=
  put_cases key value m.entries

theorem keys_insert (key : String) (value : α) :
    (m.insert key value).keys = if key ∈ m.keys then m.keys else m.keys ++ [key] := by
  rcases m.insert_cases key value with ⟨hnew, hinsert⟩ | ⟨front, old, back,
    hentries, hinsert⟩
  · rw [if_neg hnew, keys, hinsert, List.map_append]
    rfl
  · have hmem : key ∈ m.keys := by simp [keys, hentries]
    rw [if_pos hmem, keys, hinsert, keys, hentries, List.map_append, List.map_append]
    rfl

theorem mem_keys_iff (key : String) : key ∈ m.keys ↔ ∃ value, m.get? key = some value := by
  rw [← Option.isSome_iff_exists, ← contains_eq_isSome_get?, contains, List.contains_iff_mem]

theorem get?_of_mem {key : String} {value : α} (h : (key, value) ∈ m.entries) :
    m.get? key = some value := by
  obtain ⟨entries, hnodup⟩ := m
  simp only [get?] at h ⊢
  induction entries with
  | nil => cases h
  | cons first rest ih =>
    obtain ⟨k, v⟩ := first
    rw [List.map_cons, List.nodup_cons] at hnodup
    rw [lookup_cons_eq]
    rcases List.mem_cons.mp h with heq | hrest
    · cases heq
      rw [if_pos rfl]
    · have hne : key ≠ k := by
        rintro rfl
        exact hnodup.1 (List.mem_map.mpr ⟨_, hrest, rfl⟩)
      rw [if_neg hne, ih hnodup.2 hrest]

/-- The entries are given by the names and their values. -/
theorem entries_eq : m.entries = m.keys.filterMap fun key => (m.get? key).map (key, ·) := by
  have hself : ∀ e ∈ m.entries, (m.get? e.1).map (e.1, ·) = some e := by
    intro e he
    rw [m.get?_of_mem he]
    rfl
  rw [keys, List.filterMap_map]
  exact ((List.filterMap_congr hself).trans List.filterMap_some).symm

/-- Maps with the same names in the same order and the same values are one map. -/
theorem eq_of_get? {m n : OrderedMap α} (hkeys : m.keys = n.keys)
    (hget : ∀ key, m.get? key = n.get? key) : m = n := by
  refine ext ?_
  rw [m.entries_eq, n.entries_eq, hkeys, funext hget]

/-- Writes values one after the other. Each may take something over from the value that it
    replaces. -/
def writeAll (writes : List (String × (Option α → α))) (m : OrderedMap α) : OrderedMap α :=
  writes.foldl (fun m w => m.insert w.1 (w.2 (m.get? w.1))) m

section WriteAll

variable (writes : List (String × (Option α → α)))

theorem writeAll_cons (w : String × (Option α → α)) :
    writeAll (w :: writes) m = writeAll writes (m.insert w.1 (w.2 (m.get? w.1))) :=
  rfl

/-- The value of a name is what the writes to that name make of the one it had. -/
theorem get?_writeAll (key : String) : (writeAll writes m).get? key =
    (writes.filter (·.1 == key)).foldl (fun old w => some (w.2 old)) (m.get? key) := by
  induction writes generalizing m with
  | nil => rfl
  | cons w rest ih =>
    rw [writeAll_cons, ih, get?_insert]
    by_cases hkey : w.1 = key
    · subst hkey
      rw [if_pos rfl, List.filter_cons_of_pos (by simp)]
      rfl
    · rw [if_neg (Ne.symm hkey), List.filter_cons_of_neg (by simpa using hkey)]

theorem get?_writeAll_of_notMem {key : String} (h : key ∉ writes.map Prod.fst) :
    (writeAll writes m).get? key = m.get? key := by
  have hnone : writes.filter (·.1 == key) = [] := by
    refine List.filter_eq_nil_iff.mpr fun w hw hkey => h ?_
    rw [← beq_iff_eq.mp hkey]
    exact List.mem_map_of_mem hw
  rw [get?_writeAll, hnone]
  rfl

theorem get?_writeAll_of_mem {key : String} {f : Option α → α}
    (hnodup : (writes.map Prod.fst).Nodup) (h : (key, f) ∈ writes) :
    (writeAll writes m).get? key = some (f (m.get? key)) := by
  obtain ⟨front, back, rfl⟩ := List.append_of_mem h
  rw [List.map_append, List.map_cons, List.nodup_middle, List.nodup_cons, List.mem_append,
    not_or] at hnodup
  have hsteps : writeAll (front ++ (key, f) :: back) m =
      writeAll ((key, f) :: back) (writeAll front m) :=
    List.foldl_append
  rw [hsteps, writeAll_cons, get?_writeAll_of_notMem _ _ hnodup.1.2, get?_insert, if_pos rfl,
    get?_writeAll_of_notMem _ _ hnodup.1.1]

/-- Names that are written for the first time go to the end, in the order in which they are
    written. -/
theorem keys_writeAll_of_nodup (hnodup : (writes.map Prod.fst).Nodup) :
    (writeAll writes m).keys = m.keys ++ (writes.map Prod.fst).filter (· ∉ m.keys) := by
  induction writes generalizing m with
  | nil => simp [writeAll]
  | cons w rest ih =>
    rw [List.map_cons, List.nodup_cons] at hnodup
    rw [writeAll_cons, ih _ hnodup.2, keys_insert, List.map_cons]
    by_cases hmem : w.1 ∈ m.keys
    · rw [if_pos hmem, List.filter_cons_of_neg (by simpa using hmem)]
    · rw [if_neg hmem, List.filter_cons_of_pos (by simpa using hmem), List.append_assoc,
        List.singleton_append]
      congr 2
      refine List.filter_congr fun key hkey => ?_
      have hne : key ≠ w.1 := by
        rintro rfl
        exact hnodup.1 hkey
      simp [hne]

theorem mem_keys_writeAll {key : String} (h : key ∈ writes.map Prod.fst) :
    key ∈ (writeAll writes m).keys := by
  rw [mem_keys_iff, get?_writeAll]
  obtain ⟨w, hw, rfl⟩ := List.mem_map.mp h
  have hmem : w ∈ writes.filter (·.1 == w.1) := List.mem_filter.mpr ⟨hw, by simp⟩
  rcases List.eq_nil_or_concat' (writes.filter (·.1 == w.1)) with hnil | ⟨front, last, hconcat⟩
  · simp [hnil] at hmem
  · rw [hconcat, List.foldl_append]
    exact ⟨_, rfl⟩

theorem keys_writeAll_of_mem (h : ∀ key ∈ writes.map Prod.fst, key ∈ m.keys) :
    (writeAll writes m).keys = m.keys := by
  induction writes generalizing m with
  | nil => rfl
  | cons w rest ih =>
    have hkeys : (m.insert w.1 (w.2 (m.get? w.1))).keys = m.keys := by
      rw [keys_insert, if_pos (h w.1 (by simp))]
    rw [writeAll_cons, ih, hkeys]
    rw [hkeys]
    exact fun key hkey => h key (List.mem_cons_of_mem _ hkey)

end WriteAll

section Repeated

variable {writes : List (String × (Option α → α))}

/-- Whether each write takes over only what the other writes take over as well, so that it gives the
    same after them. -/
def Absorbing (writes : List (String × (Option α → α))) : Prop :=
  ∀ w ∈ writes, ∀ other ∈ writes, ∀ old, w.2 (some (other.2 old)) = w.2 old

/-- What was written before makes no difference to a write. -/
theorem Absorbing.foldl_eq (h : Absorbing writes) {w : String × (Option α → α)}
    (hw : w ∈ writes) {others : List (String × (Option α → α))}
    (hothers : ∀ other ∈ others, other ∈ writes) (old : Option α) :
    w.2 (others.foldl (fun old w => some (w.2 old)) old) = w.2 old := by
  induction others generalizing old with
  | nil => rfl
  | cons other rest ih =>
    obtain ⟨hother, hrest⟩ := List.forall_mem_cons.mp hothers
    rw [List.foldl_cons, ih hrest]
    exact h w hw other hother old

/-- Writing everything once more changes nothing: the names are there, and the last write to a name
    gives what it gave before. -/
theorem writeAll_writeAll (h : Absorbing writes) :
    writeAll writes (writeAll writes m) = writeAll writes m := by
  refine eq_of_get? (keys_writeAll_of_mem _ _ fun key hkey => mem_keys_writeAll _ _ hkey) fun key =>
    ?_
  have hwrites : ∀ w ∈ writes.filter (·.1 == key), w ∈ writes :=
    fun w hw => (List.mem_filter.mp hw).1
  rw [get?_writeAll, get?_writeAll]
  rcases List.eq_nil_or_concat' (writes.filter (·.1 == key)) with hnil | ⟨front, last, hconcat⟩
  · rw [hnil]
    rfl
  · rw [hconcat] at hwrites ⊢
    have hlast : last ∈ writes := hwrites last (by simp)
    have hfront : ∀ w ∈ front, w ∈ writes := fun w hw => hwrites w (List.mem_append_left _ hw)
    have hfold : ∀ old, (front ++ [last]).foldl (fun old w => some (w.2 old)) old =
        some (last.2 old) := by
      intro old
      rw [List.foldl_append, List.foldl_cons, List.foldl_nil, h.foldl_eq hlast hfront]
    rw [hfold, hfold, h last hlast last hlast]

end Repeated

end OrderedMap

/-- Staging data files one after the other is a series of writes to the staged data files. -/
theorem Change.applyAll_installData (output : Entry → String) (entries : List Entry) (p : Plan) :
    Change.applyAll (entries.map fun e => .installData e (output e)) p =
      { p with
        dataFiles := OrderedMap.writeAll (entries.map fun e =>
          (Path.key (Path.normalize (output e)), fun _ => ⟨e, Path.normalize (output e)⟩))
          p.dataFiles } := by
  rw [applyAll, List.foldl_map, OrderedMap.writeAll, List.foldl_map]
  refine List.foldl_hom (fun files => { p with dataFiles := files }) ?_
  exact fun _ _ => rfl

end InstallScript
