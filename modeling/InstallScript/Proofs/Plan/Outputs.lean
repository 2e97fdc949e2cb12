import InstallScript.Plan.Change

/-!
Where the outputs of a plan come from: a change adds at most one, and finishing the plan adds none.
-/

namespace InstallScript

namespace OrderedMap

variable {α : Type} {m : OrderedMap α} {key : String} {value v : α}

theorem mem_put {entries : List (String × α)} {e : String × α}
    (h : e ∈ put key value entries) :
    e = (key, value) ∨ e ∈ entries := by
  induction entries with
  | nil => exact .inl (List.mem_singleton.mp h)
  | cons first rest ih =>
    obtain ⟨k, w⟩ := first
    rw [put] at h
    split at h
    · rename_i hkey
      subst hkey
      rcases List.mem_cons.mp h with h | h
      · exact .inl h
      · exact .inr (List.mem_cons_of_mem _ h)
    · rcases List.mem_cons.mp h with rfl | h
      · exact .inr List.mem_cons_self
      · rcases ih h with h | h
        · exact .inl h
        · exact .inr (List.mem_cons_of_mem _ h)

theorem mem_values_insert (h : v ∈ (m.insert key value).values) :
    v = value ∨ v ∈ m.values := by
  obtain ⟨e, he, rfl⟩ := List.mem_map.mp h
  rcases mem_put he with rfl | he
  · exact .inl rfl
  · exact .inr (List.mem_map_of_mem he)

theorem mem_values_erase (h : v ∈ (m.erase key).values) : v ∈ m.values := by
  obtain ⟨e, he, rfl⟩ := List.mem_map.mp h
  exact List.mem_map_of_mem (List.mem_filter.mp he).1

theorem mem_values_modify {f : α → α} (h : v ∈ (m.modify key f).values) :
    ∃ w ∈ m.values, v = w ∨ v = f w := by
  obtain ⟨e, he, rfl⟩ := List.mem_map.mp h
  obtain ⟨⟨k, w⟩, hw, rfl⟩ := List.mem_map.mp he
  refine ⟨w, List.mem_map_of_mem hw, ?_⟩
  dsimp only
  split
  · exact .inr rfl
  · exact .inl rfl

end OrderedMap

/-- The paths under which a plan stages files, and those of the files it patches. -/
def Plan.outputs (p : Plan) : List String :=
  p.dataOutputs ++ p.pluginOutputs ++ p.patches.values.map (·.output)

/-- The output that a change adds to a plan. -/
def Change.output? : Change → Option String
  | .installData _ output | .installPlugin _ output => some (Path.normalize output)
  | .patch edit => some edit.output
  | _ => none

namespace Plan

variable {p : Plan} {output : String}

theorem mem_outputs : output ∈ p.outputs ↔ (∃ f ∈ p.dataFiles.values, f.output = output) ∨
    (∃ f ∈ p.pluginFiles.values, f.output = output) ∨
      ∃ f ∈ p.patches.values, f.output = output := by
  simp [outputs, dataOutputs, pluginOutputs]

theorem mem_values_settleFlags {entries : List (String × PluginFlags)}
    {plugins : OrderedMap PluginFile} {f : PluginFile}
    (h : f ∈ (entries.foldl settleFlags plugins).values) :
    ∃ g ∈ plugins.values, g.output = f.output := by
  induction entries generalizing plugins with
  | nil => exact ⟨f, h, rfl⟩
  | cons e rest ih =>
    obtain ⟨g, hg, houtput⟩ := ih h
    obtain ⟨original, horiginal, rfl | rfl⟩ := OrderedMap.mem_values_modify hg
    · exact ⟨g, horiginal, houtput⟩
    · exact ⟨original, horiginal, houtput⟩

theorem mem_outputs_of_finalize (h : output ∈ p.finalize.outputs) : output ∈ p.outputs := by
  rw [mem_outputs] at h ⊢
  rcases h with hdata | ⟨f, hf, rfl⟩ | hpatch
  · exact .inl hdata
  · exact .inr (.inl (mem_values_settleFlags hf))
  · exact .inr (.inr hpatch)

end Plan

namespace Change

variable {p : Plan} {output : String}

/-- The outputs after a change are those before it and the one that the change adds. -/
theorem mem_outputs_of_apply {c : Change} (h : output ∈ (c.apply p).outputs) :
    output ∈ p.outputs ∨ c.output? = some output := by
  cases c with
  | installData source path =>
    rw [Plan.mem_outputs] at h ⊢
    rcases h with ⟨f, hf, rfl⟩ | hrest
    · rcases OrderedMap.mem_values_insert hf with rfl | hf
      · exact .inr rfl
      · exact .inl (.inl ⟨f, hf, rfl⟩)
    · exact .inl (.inr hrest)
  | installPlugin source path =>
    rw [Plan.mem_outputs] at h ⊢
    rcases h with hdata | ⟨f, hf, rfl⟩ | hpatch
    · exact .inl (.inl hdata)
    · rcases OrderedMap.mem_values_insert hf with rfl | hf
      · exact .inr rfl
      · exact .inl (.inr (.inl ⟨f, hf, rfl⟩))
    · exact .inl (.inr (.inr hpatch))
  | patch edit =>
    rw [Plan.mem_outputs] at h ⊢
    rcases h with hdata | hplugin | ⟨f, hf, rfl⟩
    · exact .inl (.inl hdata)
    · exact .inl (.inr (.inl hplugin))
    · rcases OrderedMap.mem_values_insert hf with rfl | hf
      · exact .inr rfl
      · exact .inl (.inr (.inr ⟨f, hf, rfl⟩))
  | removeData path =>
    rw [Plan.mem_outputs] at h ⊢
    rcases h with ⟨f, hf, rfl⟩ | hrest
    · exact .inl (.inl ⟨f, OrderedMap.mem_values_erase hf, rfl⟩)
    · exact .inl (.inr hrest)
  | removePlugin path =>
    rw [Plan.mem_outputs] at h ⊢
    rcases h with hdata | ⟨f, hf, rfl⟩ | hpatch
    · exact .inl (.inl hdata)
    · exact .inl (.inr (.inl ⟨f, OrderedMap.mem_values_erase hf, rfl⟩))
    · exact .inl (.inr (.inr hpatch))
  | clearData =>
    rw [Plan.mem_outputs] at h ⊢
    rcases h with ⟨f, hf, -⟩ | hrest
    · cases hf
    · exact .inl (.inr hrest)
  | clearPlugins =>
    rw [Plan.mem_outputs] at h ⊢
    rcases h with hdata | ⟨f, hf, -⟩ | hpatch
    · exact .inl (.inl hdata)
    · cases hf
    · exact .inl (.inr (.inr hpatch))
  | flag | declare | ini | shader | record | value | xml | register | unregister => exact .inl h

end Change

end InstallScript
