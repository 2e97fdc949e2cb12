import InstallScript.Codec.Plan
import InstallScript.Plan.Change
import InstallScript.Proofs.Codec.Restoring

/-!
Saved plans. If all lengths in a plan can be written in eight bytes, its saved form is read back as
the plan without the metadata that has not reached its plugin; a finished plan has no such metadata
and is read back as it is.
-/

namespace InstallScript

open Codec.Format

section Lengths

variable {α : Type}

/-- The length of a text in its saved form. -/
def Text.lengths (s : String) : List Nat :=
  [s.utf8ByteSize]

/-- The number of elements of a list and the lengths in them. -/
def Codec.lengthsOf (lengths : α → List Nat) (as : List α) : List Nat :=
  as.length :: as.flatMap lengths

/-- The number of entries of a map and the lengths in them. -/
def OrderedMap.lengths (lengths : α → List Nat) (m : OrderedMap α) : List Nat :=
  Codec.lengthsOf (fun e => Text.lengths e.1 ++ lengths e.2) m.entries

/-- The number of names of a set and their lengths. -/
def OrderedSet.lengths (s : OrderedSet) : List Nat :=
  Codec.lengthsOf Text.lengths s.names

def Entry.lengths (e : Entry) : List Nat :=
  Text.lengths e.name

def PluginFlags.lengths (f : PluginFlags) : List Nat :=
  Codec.lengthsOf Text.lengths f.loadBefore ++ Codec.lengthsOf Text.lengths f.loadAfter

def DataFile.lengths (f : DataFile) : List Nat :=
  f.source.lengths ++ Text.lengths f.output

def PluginFile.lengths (f : PluginFile) : List Nat :=
  f.source.lengths ++ (Text.lengths f.output ++ f.flags.lengths)

def Conflict.lengths (c : Conflict) : List Nat :=
  Text.lengths c.file ++ c.comment.toList.flatMap Text.lengths

def IniEdit.lengths (e : IniEdit) : List Nat :=
  Text.lengths e.sectionName ++ (Text.lengths e.key ++ Text.lengths e.value)

def ShaderEdit.lengths (e : ShaderEdit) : List Nat :=
  Text.lengths e.shader ++ e.binary.lengths

def RecordEdit.lengths (e : RecordEdit) : List Nat :=
  e.plugin.lengths ++ (Text.lengths e.editorId ++ Text.lengths e.value)

def ValueEdit.lengths (e : ValueEdit) : List Nat :=
  e.plugin.lengths

def XmlChange.lengths : XmlChange → List Nat
  | .line _ value => Text.lengths value
  | .replace find replacement => Text.lengths find ++ Text.lengths replacement

def XmlEdit.lengths (e : XmlEdit) : List Nat :=
  e.file.lengths ++ e.change.lengths

def FilePatch.lengths (p : FilePatch) : List Nat :=
  p.source.lengths ++ Text.lengths p.output

/-- All lengths in what is saved of a plan. -/
def Plan.lengths (p : Plan) : List Nat :=
  p.dataFiles.lengths DataFile.lengths ++ (p.pluginFiles.lengths PluginFile.lengths ++
    (Codec.lengthsOf Conflict.lengths p.conflicts ++ (p.iniEdits.lengths IniEdit.lengths ++
      (p.shaderEdits.lengths ShaderEdit.lengths ++ (p.recordEdits.lengths RecordEdit.lengths ++
        (p.valueEdits.lengths ValueEdit.lengths ++ (p.xmlEdits.lengths XmlEdit.lengths ++
          (p.patches.lengths FilePatch.lengths ++
            (p.registered.lengths ++ p.unregistered.lengths)))))))))

end Lengths

namespace Codec

section Collections

variable {α : Type} {f : Format α} {lengths : α → List Nat}

theorem restores_lengths_text {s : String} (h : ∀ n ∈ Text.lengths s, n < 2 ^ 64) :
    text.Restores s :=
  restores_text (h _ (List.mem_singleton.mpr rfl))

theorem restores_lengths_list {as : List α} (h : ∀ n ∈ lengthsOf lengths as, n < 2 ^ 64)
    (hf : ∀ a, (∀ n ∈ lengths a, n < 2 ^ 64) → f.Restores a) : (list f).Restores as := by
  obtain ⟨hlength, helements⟩ := List.forall_mem_cons.mp h
  refine restores_list hlength fun a ha => hf a fun n hn => ?_
  exact helements n (List.mem_flatMap.mpr ⟨a, ha, hn⟩)

theorem restores_lengths_map {m : OrderedMap α} (h : ∀ n ∈ m.lengths lengths, n < 2 ^ 64)
    (hf : ∀ a, (∀ n ∈ lengths a, n < 2 ^ 64) → f.Restores a) : (map f).Restores m := by
  refine (restores_lengths_list h fun e he => ?_).imap m.ofList_entries
  obtain ⟨hkey, hvalue⟩ := List.forall_mem_append.mp he
  exact restores_pair (restores_lengths_text hkey) (hf e.2 hvalue)

theorem restores_lengths_set {s : OrderedSet} (h : ∀ n ∈ s.lengths, n < 2 ^ 64) :
    set.Restores s :=
  (restores_lengths_list h fun _ => restores_lengths_text).imap s.ofList_names

end Collections

section Records

theorem restores_version (v : Version) : version.Restores v := by
  refine Restores.imap ?_ rfl
  exact restores_pair (restores_u32 v.major) (restores_pair (restores_u32 v.minor)
    (restores_pair (restores_u32 v.build) (restores_u32 v.revision)))

theorem restores_entry {e : Entry} (h : ∀ n ∈ e.lengths, n < 2 ^ 64) : entry.Restores e := by
  refine Restores.imap ?_ rfl
  exact restores_pair (restores_lengths_text h) (restores_pair (restores_u32 e.crc)
    (restores_pair (restores_u64 e.length) (restores_u64 e.offset)))

theorem restores_deactivation (d : Deactivation) : deactivation.Restores d := by
  apply restores_enum
  · cases d <;> simp
  · decide

theorem restores_pluginFlags {f : PluginFlags} (h : ∀ n ∈ f.lengths, n < 2 ^ 64) :
    pluginFlags.Restores f := by
  obtain ⟨hbefore, hafter⟩ := List.forall_mem_append.mp h
  have hlists := restores_pair (restores_lengths_list hbefore fun _ => restores_lengths_text)
    (restores_pair (restores_lengths_list hafter fun _ => restores_lengths_text)
      (restores_option fun d (_ : d ∈ f.deactivation) => restores_deactivation d))
  refine Restores.imap ?_ rfl
  exact restores_pair (restores_bool f.isUnchecked)
    (restores_pair (restores_bool f.loadEarly) hlists)

theorem restores_dataFile {f : DataFile} (h : ∀ n ∈ f.lengths, n < 2 ^ 64) :
    dataFile.Restores f := by
  obtain ⟨hsource, houtput⟩ := List.forall_mem_append.mp h
  refine Restores.imap ?_ rfl
  exact restores_pair (restores_entry hsource) (restores_lengths_text houtput)

theorem restores_pluginFile {f : PluginFile} (h : ∀ n ∈ f.lengths, n < 2 ^ 64) :
    pluginFile.Restores f := by
  obtain ⟨hsource, hrest⟩ := List.forall_mem_append.mp h
  obtain ⟨houtput, hflags⟩ := List.forall_mem_append.mp hrest
  refine Restores.imap ?_ rfl
  exact restores_pair (restores_entry hsource)
    (restores_pair (restores_lengths_text houtput) (restores_pluginFlags hflags))

theorem restores_conflictKind (kind : ConflictKind) : conflictKind.Restores kind := by
  apply restores_enum
  · cases kind <;> simp
  · decide

theorem restores_conflictLevel (level : ConflictLevel) : conflictLevel.Restores level := by
  apply restores_enum
  · cases level <;> simp
  · decide

theorem restores_conflict {c : Conflict} (h : ∀ n ∈ c.lengths, n < 2 ^ 64) :
    conflict.Restores c := by
  obtain ⟨hfile, hcomment⟩ := List.forall_mem_append.mp h
  have htext : (option text).Restores c.comment := by
    refine restores_option fun s hs => restores_lengths_text fun n hn => ?_
    exact hcomment n (List.mem_flatMap.mpr ⟨s, Option.mem_toList.mpr hs, hn⟩)
  have hbounds := restores_pair (restores_option fun v (_ : v ∈ c.minVersion) =>
    restores_version v)
    (restores_pair (restores_option fun v (_ : v ∈ c.maxVersion) => restores_version v)
      (restores_pair htext (restores_conflictLevel c.level)))
  refine Restores.imap ?_ rfl
  exact restores_pair (restores_conflictKind c.kind) (restores_pair (restores_lengths_text hfile)
    (restores_pair (restores_bool c.isRegex) hbounds))

theorem restores_iniEdit {e : IniEdit} (h : ∀ n ∈ e.lengths, n < 2 ^ 64) :
    iniEdit.Restores e := by
  obtain ⟨hsection, hrest⟩ := List.forall_mem_append.mp h
  obtain ⟨hkey, hvalue⟩ := List.forall_mem_append.mp hrest
  refine Restores.imap ?_ rfl
  exact restores_pair (restores_lengths_text hsection)
    (restores_pair (restores_lengths_text hkey) (restores_lengths_text hvalue))

theorem restores_shaderEdit {e : ShaderEdit} (h : ∀ n ∈ e.lengths, n < 2 ^ 64) :
    shaderEdit.Restores e := by
  obtain ⟨hshader, hbinary⟩ := List.forall_mem_append.mp h
  refine Restores.imap ?_ rfl
  exact restores_pair (restores_u8 e.package)
    (restores_pair (restores_lengths_text hshader) (restores_entry hbinary))

theorem restores_recordKind (kind : RecordKind) : recordKind.Restores kind := by
  apply restores_enum
  · cases kind <;> simp
  · decide

theorem restores_recordEdit {e : RecordEdit} (h : ∀ n ∈ e.lengths, n < 2 ^ 64) :
    recordEdit.Restores e := by
  obtain ⟨hplugin, hrest⟩ := List.forall_mem_append.mp h
  obtain ⟨hid, hvalue⟩ := List.forall_mem_append.mp hrest
  refine Restores.imap ?_ rfl
  exact restores_pair (restores_recordKind e.kind) (restores_pair (restores_entry hplugin)
    (restores_pair (restores_lengths_text hid) (restores_lengths_text hvalue)))

theorem restores_pluginValue (v : PluginValue) : pluginValue.Restores v := by
  intro rest
  cases v with
  | byte v =>
    exact (read_tag_bind (by decide) (by decide) _ _ _).trans (read_imap (restores_u8 v rest))
  | short v =>
    exact (read_tag_bind (by decide) (by decide) _ _ _).trans (read_imap (restores_i16 v rest))
  | int v =>
    exact (read_tag_bind (by decide) (by decide) _ _ _).trans (read_imap (restores_i32 v rest))
  | long v =>
    exact (read_tag_bind (by decide) (by decide) _ _ _).trans (read_imap (restores_i64 v rest))
  | float v =>
    exact (read_tag_bind (by decide) (by decide) _ _ _).trans (read_imap (restores_u32 v rest))

theorem restores_valueEdit {e : ValueEdit} (h : ∀ n ∈ e.lengths, n < 2 ^ 64) :
    valueEdit.Restores e := by
  refine Restores.imap ?_ rfl
  exact restores_pair (restores_entry h)
    (restores_pair (restores_u64 e.offset) (restores_pluginValue e.value))

theorem restores_xmlChange {c : XmlChange} (h : ∀ n ∈ c.lengths, n < 2 ^ 64) :
    xmlChange.Restores c := by
  intro rest
  cases c with
  | line line value =>
    have hpair := restores_pair (restores_u64 line) (restores_lengths_text h) rest
    refine (read_tag_bind (by decide) (by decide) _ _ _).trans ?_
    simp only [if_true, hpair]
    rfl
  | replace find replacement =>
    obtain ⟨hfind, hreplacement⟩ := List.forall_mem_append.mp h
    have hpair := restores_pair (restores_lengths_text hfind)
      (restores_lengths_text hreplacement) rest
    refine (read_tag_bind (by decide) (by decide) _ _ _).trans ?_
    simp only [Nat.one_ne_zero, if_false, hpair]
    rfl

theorem restores_xmlEdit {e : XmlEdit} (h : ∀ n ∈ e.lengths, n < 2 ^ 64) :
    xmlEdit.Restores e := by
  obtain ⟨hfile, hchange⟩ := List.forall_mem_append.mp h
  refine Restores.imap ?_ rfl
  exact restores_pair (restores_entry hfile) (restores_xmlChange hchange)

theorem restores_fileKind (kind : FileKind) : fileKind.Restores kind := by
  apply restores_enum
  · cases kind <;> simp
  · decide

theorem restores_filePatch {p : FilePatch} (h : ∀ n ∈ p.lengths, n < 2 ^ 64) :
    filePatch.Restores p := by
  obtain ⟨hsource, houtput⟩ := List.forall_mem_append.mp h
  refine Restores.imap ?_ rfl
  exact restores_pair (restores_fileKind p.kind) (restores_pair (restores_entry hsource)
    (restores_pair (restores_lengths_text houtput) (restores_bool p.create)))

end Records

/-- What is read from the saved form of a plan is the plan, without the metadata that is not
    saved. -/
theorem read_write_plan {p : Plan} (h : ∀ n ∈ p.lengths, n < 2 ^ 64) (rest : List UInt8) :
    plan.read (plan.write p ++ rest) = .ok ({ p with pendingFlags := .empty }, rest) := by
  obtain ⟨hdata, h⟩ := List.forall_mem_append.mp h
  obtain ⟨hplugin, h⟩ := List.forall_mem_append.mp h
  obtain ⟨hconflict, h⟩ := List.forall_mem_append.mp h
  obtain ⟨hini, h⟩ := List.forall_mem_append.mp h
  obtain ⟨hshader, h⟩ := List.forall_mem_append.mp h
  obtain ⟨hrecord, h⟩ := List.forall_mem_append.mp h
  obtain ⟨hvalue, h⟩ := List.forall_mem_append.mp h
  obtain ⟨hxml, h⟩ := List.forall_mem_append.mp h
  obtain ⟨hpatch, h⟩ := List.forall_mem_append.mp h
  obtain ⟨hregistered, hunregistered⟩ := List.forall_mem_append.mp h
  refine read_imap (restores_pair ?_
    (restores_pair ?_ (restores_pair ?_ (restores_pair ?_ (restores_pair ?_
    (restores_pair ?_ (restores_pair ?_
      (restores_pair ?_ (restores_pair ?_ (restores_pair ?_ ?_))))))))) rest)
  · exact restores_lengths_map hdata fun _ => restores_dataFile
  · exact restores_lengths_map hplugin fun _ => restores_pluginFile
  · exact restores_lengths_list hconflict fun _ => restores_conflict
  · exact restores_lengths_map hini fun _ => restores_iniEdit
  · exact restores_lengths_map hshader fun _ => restores_shaderEdit
  · exact restores_lengths_map hrecord fun _ => restores_recordEdit
  · exact restores_lengths_map hvalue fun _ => restores_valueEdit
  · exact restores_lengths_map hxml fun _ => restores_xmlEdit
  · exact restores_lengths_map hpatch fun _ => restores_filePatch
  · exact restores_lengths_set hregistered
  · exact restores_lengths_set hunregistered

/-- A plan whose lengths can be written in eight bytes is loaded from its saved form, whatever
    follows that, with every field as it was but the metadata that had not reached its plugin, of
    which there is none. So a finished plan is loaded as it was saved. -/
theorem decode_write_plan {p : Plan} (h : ∀ n ∈ p.lengths, n < 2 ^ 64) (rest : List UInt8) :
    plan.decode (plan.write p ++ rest) = .ok { p with pendingFlags := .empty } ∧
      ∀ q : Plan, p = q.finalize → plan.decode (plan.write p ++ rest) = .ok p := by
  have hdecode : plan.decode (plan.write p ++ rest) = .ok { p with pendingFlags := .empty } := by
    rw [decode, read_write_plan h rest]
    rfl
  refine ⟨hdecode, ?_⟩
  rintro q rfl
  exact hdecode

/-- A finished plan with metadata, a bounded conflict and a floating-point number that is not a
    number. -/
theorem decode_write_plan_of_metadata :
    let a : Entry := ⟨"A.esp", 1, 2, 3⟩
    let p : Plan := Change.applyAll [.installPlugin a "A.esp", .flag "a.esp" (.loadAfter "É.esp"),
      .flag "A.ESP" (.deactivation .disallow),
      .declare ⟨.dependency, "b", true, none, some ⟨1, 2, 0, 0⟩, some "", .minor⟩,
      .value ⟨a, 16, .float 0x7FC00001⟩, .value ⟨a, 20, .short (-2)⟩,
      .xml ⟨a, .replace "x" "y"⟩, .register "B.bsa"] .empty
    p.pendingFlags.size = 1 ∧ p.finalize.pluginFiles.values.map (·.flags.loadAfter) =
      [["É.esp"]] ∧
      (∀ n ∈ p.finalize.lengths, n < 2 ^ 64) ∧
          plan.decode (plan.write p.finalize ++ []) = .ok p.finalize := by
  intro a p
  have hlengths : ∀ n ∈ p.finalize.lengths, n < 2 ^ 64 := by decide +kernel
  refine ⟨by decide +kernel, by decide +kernel, hlengths, ?_⟩
  exact (decode_write_plan hlengths []).2 p rfl

end Codec

end InstallScript
