import InstallScript.Proofs.Plan.Outputs

/-!
What holds of a plan while it is being made. Every record is filed under its own key and comes from
the package, metadata waits apart from the plugins it is for, and nothing is listed twice or on both
sides.
-/

namespace InstallScript

open Text

/-- Whether something holds of every name of a map and its value. -/
def OrderedMap.Each {α : Type} (P : String → α → Prop) (m : OrderedMap α) : Prop :=
  ∀ e ∈ m.entries, P e.1 e.2

namespace OrderedMap

variable {α : Type} {P : String → α → Prop} {m : OrderedMap α} {key : String} {value : α}

theorem each_empty : (empty : OrderedMap α).Each P := by
  rintro _ ⟨⟩

theorem Each.insert (h : m.Each P) (hvalue : P key value) : (m.insert key value).Each P := by
  intro e he
  rcases mem_put he with rfl | he
  · exact hvalue
  · exact h e he

theorem Each.erase (h : m.Each P) : (m.erase key).Each P :=
  fun e he => h e (List.mem_filter.mp he).1

theorem Each.of_get? (h : m.Each P) (hget : m.get? key = some value) : P key value := by
  obtain ⟨front, back, hentries, -⟩ := List.lookup_eq_some_iff.mp hget
  exact h (key, value) (by simp [hentries])

end OrderedMap

theorem OrderedSet.mem_insert {s : OrderedSet} {name other : String}
    (h : other ∈ (s.insert name).names) :
    other ∈ s.names ∨ other = name := by
  unfold insert at h
  split at h
  · exact .inl h
  · rcases List.mem_append.mp h with h | h
    · exact .inl h
    · exact .inr (List.mem_singleton.mp h)

theorem OrderedSet.mem_erase {s : OrderedSet} {name other : String}
    (h : other ∈ (s.erase name).names) :
    other ∈ s.names ∧ other ≠ name := by
  obtain ⟨hmem, hne⟩ := List.mem_filter.mp h
  exact ⟨hmem, by simpa using hne⟩

namespace PluginFlags

/-- Whether neither load-order list names a plugin twice, however it is spelled. -/
def Distinct (f : PluginFlags) : Prop :=
  f.loadBefore.Pairwise (fun a b => sameName a b = false) ∧
    f.loadAfter.Pairwise (fun a b => sameName a b = false)

theorem distinct_default : ({} : PluginFlags).Distinct :=
  ⟨.nil, .nil⟩

theorem pairwise_addName {names : List String} (h : names.Pairwise fun a b => sameName a b = false)
    (name : String) :
    (addName names name).Pairwise fun a b => sameName a b = false := by
  unfold addName
  split
  · exact h
  · rename_i hnew
    have hother : ∀ a ∈ names, sameName a name = false := by
      intro a ha
      rw [← Bool.not_eq_true]
      intro hsame
      exact hnew (List.any_eq_true.mpr ⟨a, ha, hsame⟩)
    rw [List.pairwise_append]
    refine ⟨h, List.pairwise_singleton _ _, fun a ha b hb => ?_⟩
    rw [List.mem_singleton.mp hb]
    exact hother a ha

theorem Distinct.apply {f : PluginFlags} (h : f.Distinct) (c : FlagChange) :
    (c.apply f).Distinct := by
  cases c with
  | loadBefore name => exact ⟨pairwise_addName h.1 name, h.2⟩
  | loadAfter name => exact ⟨h.1, pairwise_addName h.2 name⟩
  | uncheck | loadEarly | deactivation => exact h

end PluginFlags

/-- Whether a conflict is bounded by no version whose parts are all zero, which would bound
    nothing. -/
def Conflict.Bounded (c : Conflict) : Prop :=
  c.minVersion ≠ some .zero ∧ c.maxVersion ≠ some .zero

/-- What holds of a plan for a package before it is finished. -/
structure Plan.WellKept (files : FileSet) (p : Plan) : Prop where
  data : p.dataFiles.Each fun key f => key = Path.key f.output ∧ f.source ∈ files.data
  plugin : p.pluginFiles.Each fun key f => key = Path.key f.output ∧
    f.source ∈ files.plugins ∧ f.flags = {}
  ini : p.iniEdits.Each fun key edit => key = HasTarget.target edit
  shader : p.shaderEdits.Each fun key edit => key = HasTarget.target edit ∧
    edit.binary ∈ files.data
  record : p.recordEdits.Each fun key edit => key = HasTarget.target edit ∧
    edit.plugin ∈ files.plugins
  value : p.valueEdits.Each fun key edit => key = HasTarget.target edit ∧
    edit.plugin ∈ files.plugins
  xml : p.xmlEdits.Each fun key edit => key = HasTarget.target edit ∧ edit.file ∈ files.data
  patch : p.patches.Each fun key edit => key = HasTarget.target edit ∧
    edit.source ∈ files.entries edit.kind
  flags : p.pendingFlags.Each fun _ flags => flags.Distinct
  archives : ∀ name ∈ p.registered.names, name ∉ p.unregistered.names
  bounds : ∀ c ∈ p.conflicts, c.Bounded

namespace Plan.WellKept

open OrderedMap (Each)

variable {files : FileSet} {p : Plan}

protected theorem empty (files : FileSet) : Plan.empty.WellKept files where
  data := OrderedMap.each_empty
  plugin := OrderedMap.each_empty
  ini := OrderedMap.each_empty
  shader := OrderedMap.each_empty
  record := OrderedMap.each_empty
  value := OrderedMap.each_empty
  xml := OrderedMap.each_empty
  patch := OrderedMap.each_empty
  flags := OrderedMap.each_empty
  archives := by
    rintro _ ⟨⟩
  bounds := by
    rintro _ ⟨⟩

theorem installData (h : p.WellKept files) {e : Entry} (he : e ∈ files.data) (output : String) :
    (p.installData e output).WellKept files :=
  { h with data := h.data.insert ⟨rfl, he⟩ }

/-- A plugin that takes the place of another takes its flags over, and these are still the default
    ones. -/
theorem installPlugin (h : p.WellKept files) {e : Entry} (he : e ∈ files.plugins)
    (output : String) :
    (p.installPlugin e output).WellKept files := by
  have hflags : ((p.pluginFiles.get? (Path.key (Path.normalize output))).map (·.flags)).getD {} =
      {} := by
    cases hget : p.pluginFiles.get? (Path.key (Path.normalize output)) with
    | none => rfl
    | some f => exact (h.plugin.of_get? hget).2.2
  exact { h with plugin := h.plugin.insert ⟨rfl, he, hflags⟩ }

theorem updateFlags (h : p.WellKept files) (plugin : String) (change : FlagChange) :
    (p.updateFlags plugin change.apply).WellKept files := by
  have hold : (p.flagsOf plugin).Distinct := by
    unfold Plan.flagsOf
    cases hget : p.pendingFlags.get? (Path.key plugin) with
    | none => exact PluginFlags.distinct_default
    | some flags => exact h.flags.of_get? hget
  exact { h with flags := h.flags.insert (hold.apply change) }

theorem register (h : p.WellKept files) (name : String) : (p.register name).WellKept files := by
  refine { h with archives := fun archive hin hout => ?_ }
  obtain ⟨hout, hne⟩ := OrderedSet.mem_erase hout
  rcases OrderedSet.mem_insert hin with hin | rfl
  · exact h.archives archive hin hout
  · exact hne rfl

theorem unregister (h : p.WellKept files) (name : String) : (p.unregister name).WellKept files := by
  refine { h with archives := fun archive hin hout => ?_ }
  obtain ⟨hin, hne⟩ := OrderedSet.mem_erase hin
  rcases OrderedSet.mem_insert hout with hout | rfl
  · exact h.archives archive hin hout
  · exact hne rfl

theorem declare (h : p.WellKept files) {c : Conflict} (hc : c.Bounded) :
    (p.declare c).WellKept files := by
  refine { h with bounds := fun other hother => ?_ }
  rcases List.mem_append.mp hother with hother | hother
  · exact h.bounds other hother
  · rw [List.mem_singleton.mp hother]
    exact hc

end Plan.WellKept

end InstallScript
