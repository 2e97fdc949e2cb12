import InstallScript.Proofs.Plan.Writes

/-!
Changes that are made twice. Writing what is there, removing what is gone, and adding metadata that
a plugin has leave a plan as it is. A conflict is listed once more, and finishing the plan drops it
again.
-/

namespace InstallScript

open Text

namespace OrderedMap

variable {α : Type} (m : OrderedMap α)

theorem insert_insert (key : String) (value : α) :
    (m.insert key value).insert key value = m.insert key value := by
  have hmem : key ∈ (m.insert key value).keys := by
    rw [mem_keys_iff, get?_insert, if_pos rfl]
    exact ⟨value, rfl⟩
  refine eq_of_get? (by rw [keys_insert, if_pos hmem]) fun name => ?_
  rw [get?_insert, get?_insert]
  split <;> rfl

theorem entries_foldl_erase (keys : List String) :
    (keys.foldl erase m).entries = m.entries.filter fun e => e.1 ∉ keys := by
  induction keys generalizing m with
  | nil => simp
  | cons key rest ih =>
    rw [List.foldl_cons, ih, erase, List.filter_filter]
    refine List.filter_congr fun e _ => ?_
    rw [Bool.eq_iff_iff]
    simp [and_comm]

/-- Names that were removed are not there to be removed again. -/
theorem foldl_erase_foldl_erase (keys : List String) :
    keys.foldl erase (keys.foldl erase m) = keys.foldl erase m := by
  refine ext ?_
  rw [entries_foldl_erase, entries_foldl_erase, List.filter_filter]
  simp

end OrderedMap

namespace OrderedSet

theorem insert_of_mem {s : OrderedSet} {name : String} (h : name ∈ s.names) : s.insert name = s :=
  dif_pos h

theorem insert_insert (s : OrderedSet) (name : String) :
    (s.insert name).insert name = s.insert name := by
  refine insert_of_mem ?_
  unfold insert
  split
  · assumption
  · simp

theorem erase_erase (s : OrderedSet) (name : String) :
    (s.erase name).erase name = s.erase name := by
  refine ext ?_
  simp [erase]

end OrderedSet

namespace PluginFlags

theorem addName_addName (names : List String) (name : String) :
    addName (addName names name) name = addName names name := by
  have hknown : (addName names name).any (sameName · name) = true := by
    unfold addName
    split
    · assumption
    · simp [sameName_iff]
  rw [addName, if_pos hknown]

end PluginFlags

theorem FlagChange.apply_apply (c : FlagChange) (f : PluginFlags) :
    c.apply (c.apply f) = c.apply f := by
  cases c with
  | uncheck | loadEarly | deactivation => rfl
  | loadBefore name | loadAfter name => simp [apply, PluginFlags.addName_addName]

theorem Plan.distinct_append_append {α : Type} [DecidableEq α] (xs : List α) (x : α) :
    Plan.distinct (xs ++ [x] ++ [x]) = Plan.distinct (xs ++ [x]) := by
  have hmem : x ∈ Plan.distinct (xs ++ [x]) := by
    rw [Plan.distinct, List.foldl_append, List.foldl_cons, List.foldl_nil]
    split
    · assumption
    · simp
  rw [Plan.distinct, List.foldl_append, List.foldl_cons, List.foldl_nil]
  exact if_pos hmem

theorem Plan.updateFlags_updateFlags (p : Plan) (plugin : String) (c : FlagChange) :
    (p.updateFlags plugin c.apply).updateFlags plugin c.apply = p.updateFlags plugin c.apply := by
  have hflags : (p.updateFlags plugin c.apply).flagsOf plugin = c.apply (p.flagsOf plugin) := by
    rw [flagsOf, updateFlags, OrderedMap.get?_insert, if_pos rfl, Option.getD_some]
  rw [updateFlags, hflags, c.apply_apply]
  simp only [updateFlags, OrderedMap.insert_insert]

namespace Change

/-- Whether making changes once more does not change what the plan is when it is finished. -/
def Repeatable (changes : List Change) : Prop :=
  ∀ p, (applyAll changes (applyAll changes p)).finalize = (applyAll changes p).finalize

section Lists

variable (output : Entry → String) (entries : List Entry)

theorem repeatable_installData : Repeatable (entries.map fun e => .installData e (output e)) := by
  intro p
  rw [applyAll_installData, applyAll_installData, OrderedMap.writeAll_writeAll]
  intro w hw other hother old
  obtain ⟨e, -, rfl⟩ := List.mem_map.mp hw
  rfl

theorem applyAll_installPlugin (p : Plan) :
    applyAll (entries.map fun e => .installPlugin e (output e)) p =
      { p with
        pluginFiles := OrderedMap.writeAll (entries.map fun e =>
          (Path.key (Path.normalize (output e)),
            fun old => ⟨e, Path.normalize (output e), (old.map (·.flags)).getD {}⟩))
          p.pluginFiles } := by
  rw [applyAll, List.foldl_map, OrderedMap.writeAll, List.foldl_map]
  refine List.foldl_hom (fun files => { p with pluginFiles := files }) ?_
  exact fun _ _ => rfl

/-- Plugins that are staged once more take over the flags they have. -/
theorem applyAll_installPlugin_twice (p : Plan) :
    applyAll (entries.map fun e => .installPlugin e (output e))
        (applyAll (entries.map fun e => .installPlugin e (output e)) p) =
      applyAll (entries.map fun e => .installPlugin e (output e)) p := by
  rw [applyAll_installPlugin, applyAll_installPlugin, OrderedMap.writeAll_writeAll]
  intro w hw other hother old
  obtain ⟨e, -, rfl⟩ := List.mem_map.mp hw
  obtain ⟨e', -, rfl⟩ := List.mem_map.mp hother
  rfl

theorem repeatable_installPlugin : Repeatable (entries.map fun e => .installPlugin e (output e)) :=
  fun p => congrArg Plan.finalize (applyAll_installPlugin_twice output entries p)

theorem applyAll_removeData (p : Plan) : applyAll (entries.map fun e => .removeData (output e)) p =
    { p with dataFiles :=
      (entries.map fun e => Path.key (output e)).foldl OrderedMap.erase p.dataFiles } := by
  rw [applyAll, List.foldl_map, List.foldl_map]
  refine List.foldl_hom (fun files => { p with dataFiles := files }) ?_
  exact fun _ _ => rfl

theorem repeatable_removeData : Repeatable (entries.map fun e => .removeData (output e)) := by
  intro p
  rw [applyAll_removeData, applyAll_removeData, OrderedMap.foldl_erase_foldl_erase]

end Lists

theorem repeatable_single (c : Change) : Repeatable [c] := by
  intro p
  change (c.apply (c.apply p)).finalize = (c.apply p).finalize
  cases c with
  | installData source output => exact repeatable_installData (fun _ => output) [source] p
  | removeData output => exact repeatable_removeData (fun _ => output) [default] p
  | clearData | clearPlugins => rfl
  | installPlugin source output => exact repeatable_installPlugin (fun _ => output) [source] p
  | removePlugin output =>
    have herase := p.pluginFiles.foldl_erase_foldl_erase [Path.key output]
    exact congrArg Plan.finalize (congrArg (fun files => { p with pluginFiles := files }) herase)
  | flag plugin change => exact congrArg Plan.finalize (p.updateFlags_updateFlags plugin change)
  | declare conflict =>
    simp only [apply, Plan.declare, Plan.finalize, Plan.distinct_append_append]
  | ini edit | shader edit | record edit | value edit | xml edit | patch edit =>
    simp only [apply, EditSet.merge, OrderedMap.insert_insert]
  | register name | unregister name =>
    simp only [apply, Plan.register, Plan.unregister, OrderedSet.insert_insert,
      OrderedSet.erase_erase]

end Change

end InstallScript
