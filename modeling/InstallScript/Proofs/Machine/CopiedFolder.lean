import InstallScript.Proofs.Machine.FailedStatement
import InstallScript.Proofs.Package.Below
import InstallScript.Proofs.Plan.Writes

/-!
Copying a folder. Every data file below the folder is staged below the target, under what is left of
its name there. Files with different keys are staged under different keys, so none takes the place
of another, and nothing but these outputs changes.
-/

namespace InstallScript

open Text

/-- Whether a list has the data files that lie below a folder, in their order in the package, each
    with what is left of its name there. -/
structure FileSet.IsBelow (files : FileSet) (folder : String) (recurse : Bool)
    (found : List (Entry × String)) :
    Prop where
  complete : ∀ e rest, (e, rest) ∈ found ↔ e ∈ files.data ∧
    e.LiesBelow folder recurse rest
  ordered : (found.map Prod.fst).Sublist files.data

/-- The key under which a copy of a file below a folder is staged. -/
def copyKey (target : String) (c : Entry × String) : String :=
  Path.key (Path.join target c.2)

/-- Whether a plan comes from another one by copying files below a target: each is staged under a
    key of its own, those whose keys are new come last, and nothing else changes. -/
structure Plan.Copies (found : List (Entry × String)) (target : String) (before after : Plan) :
    Prop where
  distinct : (found.map (copyKey target)).Nodup
  staged : ∀ c ∈ found,
    after.dataFiles.get? (copyKey target c) = some ⟨c.1, Path.join target c.2⟩
  unchanged : ∀ key, key ∉ found.map (copyKey target) →
    after.dataFiles.get? key = before.dataFiles.get? key
  keys : after.dataFiles.keys =
    before.dataFiles.keys ++ (found.map (copyKey target)).filter (· ∉ before.dataFiles.keys)
  others : after = { before with dataFiles := after.dataFiles }

namespace FileSet

variable {files : FileSet} {folder : String} {recurse : Bool}

/-- The data files below a folder, each with what is left of its name there. -/
def below (files : FileSet) (folder : String) (recurse : Bool) : List (Entry × String) :=
  (files.inFolder .data folder recurse).map fun e =>
    (e, (Path.stripFolder e.name folder).getD e.fileName)

theorem isBelow_below (files : FileSet) (folder : String) (recurse : Bool) :
    files.IsBelow folder recurse (files.below folder recurse) where
  complete := by
    intro e rest
    rw [below, List.mem_map]
    constructor
    · rintro ⟨e, he, heq⟩
      cases heq
      obtain ⟨hdata, hfolder⟩ := List.mem_filter.mp he
      obtain ⟨rest, hrest⟩ := Entry.isInFolder_iff.mp hfolder
      refine ⟨hdata, ?_⟩
      rwa [(Entry.liesBelow_iff.mp hrest).1, Option.getD_some]
    · rintro ⟨hdata, hrest⟩
      refine ⟨e, List.mem_filter.mpr ⟨hdata, Entry.isInFolder_iff.mpr ⟨rest, hrest⟩⟩,
        ?_⟩
      rw [(Entry.liesBelow_iff.mp hrest).1, Option.getD_some]
  ordered := by
    have hfound : (files.below folder recurse).map Prod.fst =
        files.inFolder .data folder recurse := by
      simp [below, Function.comp_def]
    rw [hfound]
    exact List.filter_sublist

theorem inFolder_eq_nil_iff : files.inFolder .data folder recurse = [] ↔
    ∀ e ∈ files.data, ∀ rest, ¬e.LiesBelow folder recurse rest := by
  rw [inFolder, List.filter_eq_nil_iff]
  simp only [Entry.isInFolder_iff, not_exists]
  rfl

end FileSet

namespace Instruction

variable (line : Nat)

theorem interpret_copyDataFolder (site : Site) (p : Plan) (source path : String)
    (option : Option String) :
    interpret site p line .copyDataFolder (source :: path :: option.toList) = (do
      let recurse ← Argument.flag option
      let target ← Argument.output path
      let entries ← Argument.folder site.files source recurse
      pure (.change (entries.map fun e => .installData e (copiedPath source target e)))) := by
  cases option <;> rfl

variable {site : Site} {p : Plan} {source path : String} {option : Option String} {recurse : Bool}

/-- Copying a folder is settled only if its flag can be read and its target is safe. -/
theorem of_interpret_copyDataFolder {effect : Effect}
    (h : interpret site p line .copyDataFolder (source :: path :: option.toList) = .ok effect) :
    (∃ recurse, Argument.flag option = .ok recurse) ∧ Path.isSafe path = true ∧
      Path.normalize path ≠ "" := by
  rw [interpret_copyDataFolder] at h
  obtain ⟨recurse, hflag, h⟩ := Except.bind_eq_ok_iff.mp h
  obtain ⟨target, htarget, -⟩ := Except.bind_eq_ok_iff.mp h
  obtain ⟨hsafe, hne, -⟩ := Argument.output_eq_ok htarget
  exact ⟨⟨recurse, hflag⟩, hsafe, hne⟩

/-- What copying a folder to a safe target is settled to depends on whether there is anything to
    copy. -/
theorem interpret_copyDataFolder_of_isSafe (hsafe : Path.isSafe path = true)
    (hne : Path.normalize path ≠ "") (hflag : Argument.flag option = .ok recurse) :
    interpret site p line .copyDataFolder (source :: path :: option.toList) =
      if site.files.inFolder .data source recurse = [] then .error (.missingFolder source)
      else .ok (.change ((site.files.inFolder .data source recurse).map fun e =>
        .installData e (copiedPath source (Path.normalize path) e))) := by
  have htarget : Argument.output path = .ok (Path.normalize path) := by
    simp [Argument.output, hsafe, hne]
  rw [interpret_copyDataFolder, hflag, htarget]
  simp only [bind, Except.bind, Argument.folder]
  cases site.files.inFolder .data source recurse <;> rfl

/-- What carrying out a copy to a safe target comes to. -/
theorem run_copyDataFolder {σ : Type} (ctx : Context σ) (s : Session σ)
    (hsafe : Path.isSafe path = true) (hne : Path.normalize path ≠ "")
    (hflag : Argument.flag option = .ok recurse) :
    (carryOut ctx line .copyDataFolder (source :: path :: option.toList)).run.run s =
      if ctx.files.inFolder .data source recurse = []
        then (.error (.run ⟨line, .missingFolder source⟩), s)
      else (.ok (), s.change ((ctx.files.inFolder .data source recurse).map fun e =>
        .installData e (copiedPath source (Path.normalize path) e))) := by
  split
  · rename_i hnone
    exact run_carryOut_error ctx line
      ((interpret_copyDataFolder_of_isSafe line hsafe hne hflag).trans (if_pos hnone))
  · rename_i hsome
    exact run_carryOut_change ctx line
      ((interpret_copyDataFolder_of_isSafe line hsafe hne hflag).trans (if_neg hsome))

end Instruction

section Copies

variable {files : FileSet} {source path : String} {recurse : Bool}

/-- Below a safe target, what is left of canonical names tells files with different keys apart. -/
theorem FileSet.nodup_copyKeys (hsafe : Path.isSafe path = true) (hne : Path.normalize path ≠ "")
    (hnames : ∀ e ∈ files.data, e.name ≠ "" ∧ Path.normalize e.name = e.name)
    (hkeys : files.data.Pairwise fun a b => Path.key a.name ≠ Path.key b.name)
    {found : List (Entry × String)} (hfound : files.IsBelow source recurse found) :
    (found.map (copyKey (Path.normalize path))).Nodup := by
  have hleads := Path.leads_of_isSafe hsafe hne
  have hsub := List.pairwise_map.mp (hkeys.sublist hfound.ordered)
  refine List.pairwise_map.mpr (hsub.imp_of_mem fun {c d} hc hd hdiffer hsame => hdiffer ?_)
  obtain ⟨hcdata, hcbelow⟩ := (hfound.complete c.1 c.2).mp hc
  obtain ⟨hddata, hdbelow⟩ := (hfound.complete d.1 d.2).mp hd
  have hcname := hnames c.1 hcdata
  have hdname := hnames d.1 hddata
  have hctrails := (Path.trails_of_normalize_eq hcname.2 hcname.1).of_isTail hcbelow.isTail
  have hdtrails := (Path.trails_of_normalize_eq hdname.2 hdname.1).of_isTail hdbelow.isTail
  rw [copyKey, copyKey, Path.key_join hleads hctrails, Path.key_join hleads hdtrails,
    Path.join_inj] at hsame
  rw [Path.key, Path.key, hcname.2, hdname.2]
  exact hcbelow.lower_name_inj hdbelow hsame

/-- The path under which a file below a folder is staged is the one that is put together from the
    target and what is left of the file's name. -/
theorem Instruction.normalize_copiedPath (hsafe : Path.isSafe path = true)
    (hne : Path.normalize path ≠ "") {e : Entry}
    (hname : e.name ≠ "" ∧ Path.normalize e.name = e.name) {rest : String}
    (hbelow : e.LiesBelow source recurse rest) :
    Path.normalize (copiedPath source (Path.normalize path) e) =
      Path.join (Path.normalize path) rest := by
  have htrails := (Path.trails_of_normalize_eq hname.2 hname.1).of_isTail hbelow.isTail
  have hjoin := Path.normalize_join (Path.leads_of_isSafe hsafe hne) htrails
  have hcopied : copiedPath source (Path.normalize path) e =
      Path.normalize (Path.join (Path.normalize path) rest) := by
    rw [copiedPath, (Entry.liesBelow_iff.mp hbelow).1, Option.getD_some]
    rfl
  rw [hcopied, hjoin, hjoin]

/-- The write that stages a copy of a file below a folder. -/
def copyWrite (target : String) (c : Entry × String) : String × (Option DataFile → DataFile) :=
  (copyKey target c, fun _ => ⟨c.1, Path.join target c.2⟩)

theorem map_copyWrite (target : String) (found : List (Entry × String)) :
    (found.map (copyWrite target)).map Prod.fst = found.map (copyKey target) := by
  rw [List.map_map]
  rfl

/-- Staging the files below a folder copies them. -/
theorem Instruction.copies_below (hsafe : Path.isSafe path = true)
    (hne : Path.normalize path ≠ "")
    (hnames : ∀ e ∈ files.data, e.name ≠ "" ∧ Path.normalize e.name = e.name)
    (hkeys : files.data.Pairwise fun a b => Path.key a.name ≠ Path.key b.name) (p : Plan) :
    Plan.Copies (files.below source recurse) (Path.normalize path) p
      (Change.applyAll ((files.inFolder .data source recurse).map fun e =>
        .installData e (copiedPath source (Path.normalize path) e)) p) := by
  have hnodup := FileSet.nodup_copyKeys hsafe hne hnames hkeys (files.isBelow_below source recurse)
  have hwrites : ((files.inFolder .data source recurse).map fun e =>
      (Path.key (Path.normalize (copiedPath source (Path.normalize path) e)),
        fun _ => ⟨e, Path.normalize (copiedPath source (Path.normalize path) e)⟩)) =
      (files.below source recurse).map (copyWrite (Path.normalize path)) := by
    rw [FileSet.below, List.map_map]
    refine List.map_congr_left fun e he => ?_
    obtain ⟨hdata, hfolder⟩ := List.mem_filter.mp he
    obtain ⟨rest, hrest⟩ := Entry.isInFolder_iff.mp hfolder
    simp only [Function.comp_apply, copyWrite, copyKey, (Entry.liesBelow_iff.mp hrest).1,
      Option.getD_some, normalize_copiedPath hsafe hne (hnames e hdata) hrest]
  rw [Change.applyAll_installData, hwrites]
  rw [← map_copyWrite] at hnodup
  exact {
    distinct := map_copyWrite _ _ ▸ hnodup
    staged := fun c hc => OrderedMap.get?_writeAll_of_mem _ _ hnodup (List.mem_map_of_mem hc)
    unchanged := fun key hkey => OrderedMap.get?_writeAll_of_notMem _ _ (map_copyWrite _ _ ▸ hkey)
    keys := map_copyWrite _ _ ▸ OrderedMap.keys_writeAll_of_nodup _ _ hnodup
    others := rfl }

end Copies

/-- Copying a folder stages every data file below it, and only these, under the target and what is
    left of their names, if the names in the package are canonical and have different keys. With a
    target that is safe and not empty and a flag that can be read, it fails exactly if no data file
    lies below the folder, and then leaves the plan as it was. -/
theorem Instruction.carryOut_copyDataFolder {σ : Type} (ctx : Context σ) (line : Nat)
    (source path : String) (option : Option String) (s : Session σ)
    (hnames : ∀ e ∈ ctx.files.data, e.name ≠ "" ∧ Path.normalize e.name = e.name)
    (hkeys : ctx.files.data.Pairwise fun a b => Path.key a.name ≠ Path.key b.name) :
    let copying := carryOut ctx line .copyDataFolder (source :: path :: option.toList)
    (∀ t, copying.run.run s = (.ok (), t) →
      ∃ recurse found, Argument.flag option = .ok recurse ∧
      ctx.files.IsBelow source recurse found ∧
        Plan.Copies found (Path.normalize path) s.plan t.plan) ∧
    (Path.isSafe path = true → Path.normalize path ≠ "" →
      ∀ recurse, Argument.flag option = .ok recurse →
      ((∃ t, copying.run.run s = (.error (.run ⟨line, .missingFolder source⟩), t)) ↔
        ∀ e ∈ ctx.files.data, ∀ rest, ¬e.LiesBelow source recurse rest) ∧
      ∀ failure t, copying.run.run s = (.error failure, t) →
        failure = .run ⟨line, .missingFolder source⟩ ∧ t.plan = s.plan) := by
  intro copying
  constructor
  · intro t ht
    cases heffect : interpret ctx.toSite s.plan line .copyDataFolder
        (source :: path :: option.toList) with
    | error cause => cases (run_carryOut_error ctx line heffect).symm.trans ht
    | ok effect =>
      obtain ⟨⟨recurse, hflag⟩, hsafe, hne⟩ := of_interpret_copyDataFolder line heffect
      refine ⟨recurse, ctx.files.below source recurse, hflag,
        ctx.files.isBelow_below source recurse, ?_⟩
      rw [run_copyDataFolder line ctx s hsafe hne hflag] at ht
      split at ht
      · cases ht
      · cases ht
        exact copies_below hsafe hne hnames hkeys s.plan
  · intro hsafe hne recurse hflag
    rw [run_copyDataFolder line ctx s hsafe hne hflag, ← FileSet.inFolder_eq_nil_iff]
    split
    · rename_i hnone
      refine ⟨⟨fun _ => hnone, fun _ => ⟨s, rfl⟩⟩, fun failure t ht => ?_⟩
      cases ht
      exact ⟨rfl, rfl⟩
    · rename_i hsome
      refine ⟨⟨fun ⟨t, ht⟩ => (by cases ht), fun hnone => absurd hnone hsome⟩,
        fun failure t ht => ?_⟩
      cases ht

/-- The textures of a package are copied below a folder of another name, and there are no sounds to
    copy. -/
theorem Instruction.carryOut_copyDataFolder_textures :
    let ctx : Context Prepared :=
      ⟨⟨.default, ⟨[⟨"readme.txt", 0, 0, 0⟩, ⟨"textures\\a.dds", 1, 0, 0⟩,
        ⟨"Textures\\sub\\c.dds", 2, 0, 0⟩], []⟩, .empty⟩, Prepared.host⟩
    let session := Session.start ({} : Prepared)
    (∃ t, (carryOut ctx 1 .copyDataFolder ["textures", "backup/2", "True"]).run.run
      session = (.ok (), t) ∧
      t.plan.dataFiles.get? "backup\\2\\sub\\c.dds" =
        some ⟨⟨"Textures\\sub\\c.dds", 2, 0, 0⟩, "backup\\2\\sub\\c.dds"⟩) ∧
    ∃ t, (carryOut ctx 1 .copyDataFolder ["sounds", "backup"]).run.run session =
      (.error (.run ⟨1, .missingFolder "sounds"⟩), t) ∧ t.plan = session.plan := by
  intro ctx session
  have hnames : ∀ e ∈ ctx.files.data, e.name ≠ "" ∧ Path.normalize e.name = e.name := by
    decide +kernel
  have hkeys : ctx.files.data.Pairwise fun a b => Path.key a.name ≠ Path.key b.name := by
    decide +kernel
  constructor
  · obtain ⟨hcopies, hfails⟩ :=
      carryOut_copyDataFolder ctx 1 "textures" "backup/2" (some "True") session hnames hkeys
    have hflag : Argument.flag (some "True") = .ok true := by decide +kernel
    obtain ⟨hmissing, hfailure⟩ := hfails (by decide +kernel) (by decide +kernel) true hflag
    have hbelow :
        Entry.LiesBelow ⟨"Textures\\sub\\c.dds", 2, 0, 0⟩ "textures" true "sub\\c.dds" :=
      Entry.liesBelow_iff.mpr (by decide +kernel)
    rcases hrun :
      (carryOut ctx 1 .copyDataFolder ["textures", "backup/2", "True"]).run.run session with
      ⟨failure | _, t⟩
    · obtain ⟨rfl, -⟩ := hfailure failure t hrun
      exact absurd hbelow (hmissing.mp ⟨t, hrun⟩ _ (by simp [ctx]) _)
    · obtain ⟨recurse, found, hrecurse, hfound, hcopied⟩ := hcopies t hrun
      cases hflag.symm.trans hrecurse
      have hstaged := hcopied.staged _ ((hfound.complete _ _).mpr ⟨by simp [ctx], hbelow⟩)
      have hpath : Path.join (Path.normalize "backup/2") "sub\\c.dds" =
        "backup\\2\\sub\\c.dds" := by decide +kernel
      have hkey : Path.key "backup\\2\\sub\\c.dds" = "backup\\2\\sub\\c.dds" := by decide +kernel
      rw [copyKey, hpath, hkey] at hstaged
      exact ⟨t, rfl, hstaged⟩
  · obtain ⟨-, hfails⟩ :=
      carryOut_copyDataFolder ctx 1 "sounds" "backup" none session hnames hkeys
    obtain ⟨hmissing, hplan⟩ := hfails (by decide +kernel) (by decide +kernel) false rfl
    have hnone : ∀ e ∈ ctx.files.data, ∀ rest, ¬e.LiesBelow "sounds" false rest := by
      rw [← FileSet.inFolder_eq_nil_iff]
      decide +kernel
    obtain ⟨t, ht⟩ := hmissing.mpr hnone
    exact ⟨t, ht, (hplan _ t ht).2⟩

end InstallScript
