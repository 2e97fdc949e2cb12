import InstallScript.Proofs.Script.Canonical

/-!
Scripts written back out. The statements of a script, written one on a line, are read as the same
statements again exactly if none of the lines ends in a backslash, for such a line runs on into the
next one, and at the end of the script it loses the backslash.
-/

namespace InstallScript.Script

open Text

/-- The script that has the given statements, one on a line. -/
def dump (statements : List Statement) : String :=
  String.intercalate "\n" (statements.map Statement.text)

namespace Statement

variable {s : Statement} {statements again : List Statement} {index : Nat}

theorem canonical_of_statements {text : String} (h : Script.statements text = .ok statements) :
    ∀ s ∈ statements, s.command.Canonical := by
  intro s hs
  obtain ⟨line, hline, hparse⟩ := Except.exists_mem_of_mapM h s hs
  exact Line.canonical_of_parse (noFeed_of_mem_logicalLines hline) hparse

theorem oneLine_of_mem_texts (h : ∀ s ∈ statements, s.command.Canonical) :
    ∀ t ∈ statements.map (·.text.toList), OneLine t := by
  intro t ht
  obtain ⟨s, hs, rfl⟩ := List.mem_map.mp ht
  exact oneLine_text (h s hs)

theorem text_eq_of_command {s t : Statement} (h : s.command = t.command) : s.text = t.text := by
  unfold text
  rw [h]

/-- Lines that end in no backslash are read one by one. -/
theorem exists_mapM_parse_joinFrom (hcanonical : ∀ s ∈ statements, s.command.Canonical)
    (hends : ∀ s ∈ statements, s.text.toList.getLast? ≠ some '\\') (index : Nat) :
    ∃ again, (Line.joinFrom index none (statements.map (·.text.toList))).mapM Line.parse =
      .ok again ∧
      again.map command = statements.map command := by
  induction statements generalizing index with
  | nil => exact ⟨[], rfl, rfl⟩
  | cons s rest ih =>
    obtain ⟨hs, hrest⟩ := List.forall_mem_cons.mp hcanonical
    obtain ⟨hlast, hlasts⟩ := List.forall_mem_cons.mp hends
    obtain ⟨again, hread, hcommands⟩ := ih hrest hlasts (index + 1)
    have hline : (⟨index, String.ofList s.text.toList⟩ : Line).parse =
        .ok ⟨index, s.command⟩ := by
      rw [String.ofList_toList]
      exact parse_text hs index
    refine ⟨⟨index, s.command⟩ :: again, ?_, by simp [hcommands]⟩
    rw [List.map_cons, Line.joinFrom_of_ends (oneLine_text hs) hlast]
    exact Except.mapM_cons_eq_ok_iff.mpr ⟨_, again, hline, hread, rfl⟩

/-- At the end of a script a line loses the backslash it ends in, and so is not read as the
    statement that it was written from. -/
theorem not_read_without_backslash (hlast : s.text.toList.getLast? = some '\\') {again : Statement}
    (h : (⟨index, String.ofList (trimEnd s.text.toList.dropLast)⟩ : Line).parse = .ok again) :
    again.command ≠ s.command := by
  intro hcommand
  have hcount := Line.count_text_of_parse h
  rw [text_eq_of_command hcommand, String.toList_ofList] at hcount
  obtain ⟨front, htext⟩ := List.getLast?_eq_some_iff.mp hlast
  rw [htext, List.dropLast_concat, count_trimEnd (by decide)] at hcount
  simp at hcount

/-- If all statements are read back, none of their lines runs on. -/
theorem getLast_of_mapM_parse_joinFrom (hcanonical : ∀ s ∈ statements, s.command.Canonical)
    (hread : (Line.joinFrom index none (statements.map (·.text.toList))).mapM Line.parse =
      .ok again)
    (hcommands : again.map command = statements.map command) :
    ∀ s ∈ statements, s.text.toList.getLast? ≠ some '\\' := by
  induction statements generalizing index again with
  | nil => simp
  | cons s rest ih =>
    obtain ⟨hs, hrest⟩ := List.forall_mem_cons.mp hcanonical
    have hline := oneLine_text hs
    rw [List.map_cons] at hread
    by_cases hlast : s.text.toList.getLast? = some '\\'
    · exfalso
      rw [Line.joinFrom_of_continues hline hlast] at hread
      cases rest with
      | nil =>
        simp only [List.map_nil, Line.joinFrom, Line.emit] at hread
        split at hread
        · cases hread
          cases hcommands
        · obtain ⟨first, others, hfirst, -, rfl⟩ := Except.mapM_cons_eq_ok_iff.mp hread
          rw [List.map_cons, List.map_cons, List.cons.injEq] at hcommands
          exact not_read_without_backslash hlast hfirst hcommands.1
      | cons next rest =>
        -- The line runs on into the next one, which leaves fewer lines than statements.
        have hlength := congrArg List.length hcommands
        have hfewer := Line.length_joinFrom_le (index + 1)
          (some (index, trimEnd s.text.toList.dropLast))
          ((next :: rest).map (·.text.toList))
        rw [← Except.length_of_mapM hread] at hfewer
        simp only [List.length_map, List.length_cons, Option.isSome_some, Bool.toNat_true]
          at hlength hfewer
        omega
    · rw [Line.joinFrom_of_ends hline hlast] at hread
      obtain ⟨first, others, -, hothers, rfl⟩ := Except.mapM_cons_eq_ok_iff.mp hread
      rw [List.map_cons, List.map_cons, List.cons.injEq] at hcommands
      exact List.forall_mem_cons.mpr ⟨hlast, ih hrest hothers hcommands.2⟩

end Statement

/-- The statements of a script, written one on a line, are read as the same statements exactly if
    none of these lines ends in a backslash. A line feed after the last line makes no difference. -/
theorem statements_dump_iff {text : String} {ss : List Statement} (h : statements text = .ok ss) :
    ((∃ again, statements (dump ss) = .ok again ∧
      again.map Statement.command = ss.map Statement.command) ↔
        ∀ s ∈ ss, s.text.toList.getLast? ≠ some '\\') ∧
      statements (String.join (ss.map fun s => s.text ++ "\n")) = statements (dump ss) := by
  have hcanonical := Statement.canonical_of_statements h
  have hlines := Statement.oneLine_of_mem_texts hcanonical
  have hdump : (dump ss).toList = joinWith ['\n'] (ss.map (·.text.toList)) := by
    rw [dump, String.toList_intercalate, joinWith_eq_intercalate, List.map_map]
    rfl
  have hfeeds : (String.join (ss.map fun s => s.text ++ "\n")).toList =
      (ss.map (·.text.toList)).flatMap (· ++ ['\n']) := by
    simp [String.toList_join, List.flatMap_map]
  have hlogical := logicalLines_of_joinWith hlines hdump
  refine ⟨⟨?_, fun hends => ?_⟩, ?_⟩
  · rintro ⟨again, hread, hcommands⟩
    rw [statements, hlogical] at hread
    exact Statement.getLast_of_mapM_parse_joinFrom hcanonical hread hcommands
  · rw [statements, hlogical]
    exact Statement.exists_mapM_parse_joinFrom hcanonical hends 1
  · rw [statements, statements, hlogical, logicalLines_of_feeds hlines hfeeds]

/-- A folder with a backslash at its end was read from quotes, which it is written without; with a
    blank it keeps them. -/
theorem statements_dump_of_folders :
    let folder (name : String) : List Statement := [⟨1, .instruction .installDataFolder [name]⟩]
    (statements "InstallDataFolder \"textures\\\"" = .ok (folder "textures\\") ∧
        ¬∃ again, statements (dump (folder "textures\\")) = .ok again ∧
          again.map Statement.command = (folder "textures\\").map Statement.command) ∧
      statements "InstallDataFolder \"my textures\\\"" = .ok (folder "my textures\\") ∧
        ∃ again, statements (dump (folder "my textures\\")) = .ok again ∧
          again.map Statement.command = (folder "my textures\\").map Statement.command := by
  intro folder
  have hbare : statements "InstallDataFolder \"textures\\\"" = .ok (folder "textures\\") := by rfl
  have hquoted : statements "InstallDataFolder \"my textures\\\"" =
    .ok (folder "my textures\\") := by rfl
  refine ⟨⟨hbare, fun hread => ?_⟩, hquoted,
    (statements_dump_iff hquoted).1.mpr (by decide)⟩
  have hends := (statements_dump_iff hbare).1.mp hread
  exact hends _ List.mem_cons_self (by decide)

end InstallScript.Script
