import InstallScript.Proofs.Plan.WellKept

/-!
How metadata of plugins comes together. The metadata that is collected under a key is what the
changes made for that key give, in whatever order files are staged and unstaged meanwhile, and
finishing a plan hands it to the plugin staged under that key.
-/

namespace InstallScript

open Text

namespace OrderedMap

variable {α : Type} (m : OrderedMap α)

theorem lookup_cons_eq (name key : String) (value : α) (rest : List (String × α)) :
    ((key, value) :: rest).lookup name = if name = key then some value else rest.lookup name := by
  rw [List.lookup_cons]
  by_cases hname : name = key
  · simp [hname]
  · rw [beq_false_of_ne hname, if_neg hname]

theorem get?_insert (key name : String) (value : α) :
    (m.insert key value).get? name = if name = key then some value else m.get? name := by
  obtain ⟨entries, hnodup⟩ := m
  simp only [get?, insert]
  clear hnodup
  induction entries with
  | nil => rw [put, lookup_cons_eq]
  | cons first rest ih =>
    obtain ⟨k, v⟩ := first
    rw [put]
    by_cases hk : k = key
    · subst hk
      rw [if_pos rfl, lookup_cons_eq, lookup_cons_eq]
      split <;> rfl
    · rw [if_neg hk, lookup_cons_eq, lookup_cons_eq, ih]
      by_cases hname : name = k
      · subst hname
        rw [if_pos rfl, if_pos rfl, if_neg hk]
      · rw [if_neg hname, if_neg hname]

theorem get?_erase (key name : String) :
    (m.erase key).get? name = if name = key then none else m.get? name := by
  obtain ⟨entries, hnodup⟩ := m
  simp only [get?, erase]
  clear hnodup
  induction entries with
  | nil => simp
  | cons first rest ih =>
    obtain ⟨k, v⟩ := first
    by_cases hk : k = key
    · rw [List.filter_cons_of_neg (by simp [hk]), ih, lookup_cons_eq]
      subst hk
      split <;> rfl
    · rw [List.filter_cons_of_pos (by simp [hk]), lookup_cons_eq, lookup_cons_eq, ih]
      by_cases hname : name = k
      · subst hname
        rw [if_pos rfl, if_pos rfl, if_neg hk]
      · rw [if_neg hname, if_neg hname]

theorem contains_eq_isSome_get? (name : String) : m.contains name = (m.get? name).isSome := by
  obtain ⟨entries, hnodup⟩ := m
  simp only [get?, contains, keys]
  clear hnodup
  induction entries with
  | nil => rfl
  | cons first rest ih =>
    obtain ⟨k, v⟩ := first
    rw [List.map_cons, List.contains_cons, lookup_cons_eq, ih]
    by_cases hname : name = k <;> simp [hname]

theorem get?_modify (key name : String) (f : α → α) :
    (m.modify key f).get? name = if name = key then (m.get? name).map f else m.get? name := by
  obtain ⟨entries, hnodup⟩ := m
  simp only [get?, modify]
  clear hnodup
  induction entries with
  | nil => simp
  | cons first rest ih =>
    obtain ⟨k, v⟩ := first
    simp only [List.map_cons, lookup_cons_eq]
    by_cases hkey : k = key
    · subst hkey
      simp only [if_true, lookup_cons_eq, ih]
      split <;> rfl
    · simp only [if_neg hkey, lookup_cons_eq, ih]
      by_cases hname : name = k
      · subst hname
        simp [hkey]
      · simp [hname]

theorem keys_modify (key : String) (f : α → α) : (m.modify key f).keys = m.keys := by
  simp only [keys, modify, List.map_map]
  refine List.map_congr_left fun e _ => ?_
  dsimp only [Function.comp_apply]
  split <;> rfl

end OrderedMap

namespace FlagChange

/-- The plugin before which a change puts its own. -/
def loadBefore? : FlagChange → Option String
  | .loadBefore name => some name
  | _ => none

/-- The plugin after which a change puts its own. -/
def loadAfter? : FlagChange → Option String
  | .loadAfter name => some name
  | _ => none

/-- The warning level that a change sets. -/
def deactivation? : FlagChange → Option Deactivation
  | .deactivation status => some status
  | _ => none

/-- Applies changes to the metadata of a plugin, one after the other. -/
def applyAll (changes : List FlagChange) (f : PluginFlags) : PluginFlags :=
  changes.foldl (fun f c => c.apply f) f

end FlagChange

/-- Whether metadata is what changes add up to: a mark is set if some change set it, the last
    warning level counts, and the other plugins are listed in the order in which they were first
    named, each once however it is spelled. -/
structure PluginFlags.Sums (f : PluginFlags) (changes : List FlagChange) : Prop where
  isUnchecked : f.isUnchecked = true ↔ .uncheck ∈ changes
  loadEarly : f.loadEarly = true ↔ .loadEarly ∈ changes
  deactivation : f.deactivation = (changes.filterMap FlagChange.deactivation?).getLast?
  loadBefore : f.loadBefore = (changes.filterMap FlagChange.loadBefore?).eraseDupsBy sameName
  loadAfter : f.loadAfter = (changes.filterMap FlagChange.loadAfter?).eraseDupsBy sameName

namespace PluginFlags

/-- Metadata that nothing added to is the default one. -/
theorem Sums.eq_default {f : PluginFlags} (h : f.Sums []) : f = {} := by
  obtain ⟨isUnchecked, loadEarly, loadBefore, loadAfter, deactivation⟩ := f
  obtain ⟨hunchecked, hearly, hdeactivation, hbefore, hafter⟩ := h
  simp_all [List.eraseDupsBy_nil]

/-- Adding names one after the other keeps the first spelling of each that is not there yet. -/
theorem foldl_addName (names others : List String) : others.foldl addName names =
    names ++ (others.filter fun other => !names.any (sameName · other)).eraseDupsBy sameName := by
  induction others generalizing names with
  | nil => simp
  | cons name rest ih =>
    rw [List.foldl_cons, addName]
    by_cases hknown : names.any (sameName · name) = true
    · rw [if_pos hknown, ih, List.filter_cons_of_neg (by simp [hknown])]
    · rw [if_neg hknown, ih, List.filter_cons_of_pos (by simp [hknown]), List.eraseDupsBy_cons,
        List.filter_filter, List.append_assoc, List.singleton_append]
      congr 3
      refine List.filter_congr fun other _ => ?_
      rw [List.any_append, Bool.not_or, Bool.and_comm, sameName_comm other name]
      simp

theorem foldl_addName_nil (names : List String) :
    names.foldl addName [] = names.eraseDupsBy sameName := by
  rw [foldl_addName, List.nil_append]
  exact congrArg _ (List.filter_eq_self.mpr fun _ _ => rfl)

section Applied

variable (changes : List FlagChange) (f : PluginFlags)

/-- A mark that only one change sets is set if that change is among those applied. -/
theorem mark_applyAll {mark : PluginFlags → Bool} {setter : FlagChange}
    (h : ∀ f c, mark (c.apply f) = true ↔ mark f = true ∨ setter = c) :
    mark (FlagChange.applyAll changes f) = true ↔ mark f = true ∨ setter ∈ changes := by
  induction changes generalizing f with
  | nil => simp [FlagChange.applyAll]
  | cons c rest ih =>
    rw [FlagChange.applyAll, List.foldl_cons, List.mem_cons, ← or_assoc, ← h f c]
    exact ih (c.apply f)

theorem deactivation_applyAll : (FlagChange.applyAll changes f).deactivation =
    (changes.filterMap FlagChange.deactivation?).getLast?.or f.deactivation := by
  induction changes generalizing f with
  | nil => rfl
  | cons c rest ih =>
    rw [FlagChange.applyAll, List.foldl_cons]
    refine (ih (c.apply f)).trans ?_
    cases c with
    | deactivation status =>
      have hhead : (FlagChange.deactivation status).deactivation? = some status := rfl
      rw [List.filterMap_cons_some hhead, List.getLast?_cons]
      cases (rest.filterMap FlagChange.deactivation?).getLast? <;> rfl
    | uncheck | loadEarly | loadBefore | loadAfter => rfl

theorem loadBefore_applyAll : (FlagChange.applyAll changes f).loadBefore =
    (changes.filterMap FlagChange.loadBefore?).foldl addName f.loadBefore := by
  rw [List.foldl_filterMap]
  exact (List.foldl_hom PluginFlags.loadBefore fun f c => by cases c <;> rfl).symm

theorem loadAfter_applyAll : (FlagChange.applyAll changes f).loadAfter =
    (changes.filterMap FlagChange.loadAfter?).foldl addName f.loadAfter := by
  rw [List.foldl_filterMap]
  exact (List.foldl_hom PluginFlags.loadAfter fun f c => by cases c <;> rfl).symm

/-- Changes that are applied to the default metadata add up. -/
theorem sums_applyAll : (FlagChange.applyAll changes {}).Sums changes where
  isUnchecked := by
    have hmark : ∀ (f : PluginFlags) c,
        (FlagChange.apply c f).isUnchecked = true ↔ f.isUnchecked = true ∨ .uncheck = c := by
      intro f c
      cases c <;> simp [FlagChange.apply]
    exact (mark_applyAll changes {} hmark).trans (by simp)
  loadEarly := by
    have hmark : ∀ (f : PluginFlags) c,
        (FlagChange.apply c f).loadEarly = true ↔ f.loadEarly = true ∨ .loadEarly = c := by
      intro f c
      cases c <;> simp [FlagChange.apply]
    exact (mark_applyAll changes {} hmark).trans (by simp)
  deactivation := (deactivation_applyAll changes {}).trans (Option.or_none)
  loadBefore := (loadBefore_applyAll changes {}).trans (foldl_addName_nil _)
  loadAfter := (loadAfter_applyAll changes {}).trans (foldl_addName_nil _)

end Applied

end PluginFlags

/-- The changes in a history of metadata that were made for the plugin with a key. -/
def changesFor (key : String) (history : List (String × FlagChange)) : List FlagChange :=
  history.filterMap fun e => if Path.key e.1 = key then some e.2 else none

/-- The plugin that a change gives metadata, and the metadata. -/
def Change.flag? : Change → Option (String × FlagChange)
  | .flag plugin change => some (plugin, change)
  | _ => none

namespace Plan

variable {p : Plan}

/-- The metadata collected under a key. -/
def collected (p : Plan) (key : String) : PluginFlags :=
  (p.pendingFlags.get? key).getD {}

/-- Whether the metadata collected in a plan is what a history of changes gives. -/
def Gathers (p : Plan) (history : List (String × FlagChange)) : Prop :=
  ∀ key, p.collected key = FlagChange.applyAll (changesFor key history) {}

theorem gathers_empty : Plan.empty.Gathers [] :=
  fun _ => rfl

theorem collected_updateFlags (plugin key : String) (c : FlagChange) :
    (p.updateFlags plugin c.apply).collected key =
      if Path.key plugin = key then c.apply (p.collected key) else p.collected key := by
  simp only [collected, updateFlags, OrderedMap.get?_insert]
  by_cases hkey : key = Path.key plugin
  · subst hkey
    simp [flagsOf]
  · simp [hkey, Ne.symm hkey]

/-- Only metadata adds to what is collected: neither staging nor unstaging a plugin does. -/
theorem Gathers.apply {history : List (String × FlagChange)} (h : p.Gathers history) (c : Change) :
    (c.apply p).Gathers (history ++ c.flag?.toList) := by
  cases c with
  | flag plugin change =>
    intro key
    rw [Change.apply, collected_updateFlags, h key]
    simp only [changesFor, Change.flag?, Option.toList_some, List.filterMap_append]
    by_cases hkey : Path.key plugin = key <;> simp [hkey, FlagChange.applyAll]
  | _ =>
    change Gathers _ (history ++ [])
    rw [List.append_nil]
    exact h

theorem Gathers.applyAll {history : List (String × FlagChange)} (h : p.Gathers history)
    (changes : List Change) :
    (Change.applyAll changes p).Gathers (history ++ changes.filterMap Change.flag?) := by
  induction changes generalizing p history with
  | nil =>
    rw [List.filterMap_nil, List.append_nil]
    exact h
  | cons c rest ih =>
    have hrest := ih (h.apply c)
    have hhistory : history ++ (c :: rest).filterMap Change.flag? =
        history ++ c.flag?.toList ++ rest.filterMap Change.flag? := by
      cases hflag : c.flag? <;> simp [hflag]
    rw [hhistory]
    exact hrest

section Finalize

theorem get?_foldl_settleFlags {entries : List (String × PluginFlags)}
    (hnodup : (entries.map Prod.fst).Nodup) (plugins : OrderedMap PluginFile) (key : String) :
    (entries.foldl settleFlags plugins).get? key =
      (plugins.get? key).map fun plugin =>
        { plugin with flags := (entries.lookup key).getD plugin.flags } := by
  induction entries generalizing plugins with
  | nil => simp
  | cons e rest ih =>
    obtain ⟨name, flags⟩ := e
    rw [List.map_cons, List.nodup_cons] at hnodup
    rw [List.foldl_cons, ih hnodup.2, settleFlags, OrderedMap.get?_modify,
      OrderedMap.lookup_cons_eq]
    by_cases hkey : key = name
    · subst hkey
      have hlater : rest.lookup key = none := by
        rw [List.lookup_eq_none_iff]
        intro other hother
        refine bne_iff_ne.mpr ?_
        rintro rfl
        exact hnodup.1 (List.mem_map.mpr ⟨other, hother, rfl⟩)
      simp [hlater, Function.comp_def]
    · simp [hkey]

theorem keys_foldl_settleFlags (entries : List (String × PluginFlags))
    (plugins : OrderedMap PluginFile) :
    (entries.foldl settleFlags plugins).keys = plugins.keys := by
  induction entries generalizing plugins with
  | nil => rfl
  | cons e rest ih => rw [List.foldl_cons, ih, settleFlags, OrderedMap.keys_modify]

/-- The plugins of a finished plan: those that were staged, with the metadata collected for them. -/
theorem get?_finalize (p : Plan) (key : String) : p.finalize.pluginFiles.get? key =
    (p.pluginFiles.get? key).map fun plugin =>
      { plugin with flags := (p.pendingFlags.get? key).getD plugin.flags } :=
  get?_foldl_settleFlags p.pendingFlags.nodup p.pluginFiles key

theorem keys_finalize (p : Plan) : p.finalize.pluginFiles.keys = p.pluginFiles.keys :=
  keys_foldl_settleFlags p.pendingFlags.entries p.pluginFiles

section Distinct

variable {α : Type} [DecidableEq α]

theorem nodup_foldl_distinct (xs seen : List α) (h : seen.Nodup) :
    (xs.foldl (fun seen x => if x ∈ seen then seen else seen ++ [x]) seen).Nodup := by
  induction xs generalizing seen with
  | nil => exact h
  | cons x rest ih =>
    rw [List.foldl_cons]
    apply ih
    split
    · exact h
    · rename_i hnew
      rw [List.nodup_append]
      refine ⟨h, by simp, ?_⟩
      rintro a ha b hb rfl
      exact hnew (List.mem_singleton.mp hb ▸ ha)

theorem foldl_distinct_of_nodup (xs seen : List α) (h : (seen ++ xs).Nodup) :
    xs.foldl (fun seen x => if x ∈ seen then seen else seen ++ [x]) seen = seen ++ xs := by
  induction xs generalizing seen with
  | nil => simp
  | cons x rest ih =>
    have hnew : x ∉ seen := fun hmem => (List.nodup_append.mp h).2.2 x hmem x (by simp) rfl
    rw [List.foldl_cons, if_neg hnew, ih _ (by simpa using h), List.append_assoc,
      List.singleton_append]

theorem distinct_distinct (xs : List α) : distinct (distinct xs) = distinct xs :=
  foldl_distinct_of_nodup (distinct xs) [] (nodup_foldl_distinct xs [] .nil)

end Distinct

/-- There is nothing left to finish in a finished plan. -/
theorem finalize_finalize (p : Plan) : p.finalize.finalize = p.finalize := by
  have hconflicts : distinct p.finalize.conflicts = p.finalize.conflicts :=
    distinct_distinct p.conflicts
  rw [finalize, hconflicts]
  rfl

end Finalize

/-- If the plugins of a plan have no metadata of their own, finishing it gives each what was
    collected under its key. -/
theorem Gathers.sums_of_finalize {history : List (String × FlagChange)} {files : FileSet}
    (h : p.Gathers history) (hkept : p.WellKept files) {key : String} {plugin : PluginFile}
    (hplugin : p.finalize.pluginFiles.get? key = some plugin) :
    plugin.flags.Sums (changesFor key history) := by
  rw [get?_finalize, Option.map_eq_some_iff] at hplugin
  obtain ⟨staged, hstaged, rfl⟩ := hplugin
  have hown : staged.flags = {} := (hkept.plugin.of_get? hstaged).2.2
  have hcollected : (p.pendingFlags.get? key).getD staged.flags =
      FlagChange.applyAll (changesFor key history) {} := by
    rw [hown]
    exact h key
  dsimp only
  rw [hcollected]
  exact PluginFlags.sums_applyAll (changesFor key history)

end Plan

end InstallScript
