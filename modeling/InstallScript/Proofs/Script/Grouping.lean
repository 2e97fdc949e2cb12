import InstallScript.Proofs.Script.Returns
import Mathlib.Data.List.SplitBy

/-!
Logical lines as groups of physical ones. A script is cut into maximal groups in which every line
but the last goes on in the next one, and a group is a logical line unless there is nothing in it.
So line numbers increase, nothing is lost, and carriage returns before line feeds do not matter.
-/

namespace InstallScript.Script

open Text

namespace Line

/-- The text of a group of physical lines: what they add, without what is empty, with single blanks
    in between. -/
def groupText (group : List (List Char × Nat)) : List Char :=
  joinWith [' '] ((group.map fun entry => body entry.1).filter (!·.isEmpty))

/-- The logical line of a group of physical lines, which has the number of the first of them. -/
def ofGroup? (group : List (List Char × Nat)) : Option Line :=
  match group with
  | [] => none
  | (_, number) :: _ =>
    if (groupText group).isEmpty then none else some ⟨number, String.ofList (groupText group)⟩

end Line

/-- The physical lines of a script with their numbers. -/
def numberedLines (script : String) : List (List Char × Nat) :=
  (lines (dropMark script.toList)).zipIdx 1

/-- Physical lines in maximal groups in which every line but the last goes on. The last line of all
    ends its group in any case. -/
structure Grouped (entries : List (List Char × Nat)) (groups : List (List (List Char × Nat))) :
    Prop where
  flatten : groups.flatten = entries
  ne_nil : [] ∉ groups
  goesOn : ∀ group ∈ groups, ∀ entry ∈ group.dropLast, Line.goesOn entry.1 = true
  ends : ∀ group ∈ groups.dropLast, ∀ entry ∈ group.getLast?, Line.goesOn entry.1 = false

/-- The groups of the physical lines of a script. -/
def lineGroups (script : String) : List (List (List Char × Nat)) :=
  (numberedLines script).splitBy fun entry _ => Line.goesOn entry.1

theorem isChain_iff_dropLast {α : Type} {p : α → Prop} {xs : List α} :
    (xs.IsChain fun a _ => p a) ↔ ∀ a ∈ xs.dropLast, p a := by
  induction xs with
  | nil => simp
  | cons x rest ih =>
    cases rest with
    | nil => simp
    | cons y rest => rw [List.isChain_cons_cons, ih, List.dropLast_cons_cons, List.forall_mem_cons]

namespace Line

variable {raw : List Char} {raws : List (List Char)} {group : List (List Char × Nat)}
  {entry : List Char × Nat} {line : Line}

theorem body_trimmed (raw : List Char) : trim (body raw) = body raw := by
  unfold body
  split
  · obtain ⟨bs, hbs, -⟩ := exists_trimEnd (trim raw).dropLast
    refine trim_eq_self_iff.mpr ⟨fun c hc => ?_, fun c hc => ?_⟩
    · have hhead : ((trim raw).dropLast).head? = some c := by
        rw [hbs, List.head?_append, hc]
        rfl
      rw [List.head?_dropLast] at hhead
      split at hhead
      · exact isBlank_head_trim hhead
      · cases hhead
    · rw [trimEnd, List.getLast?_reverse] at hc
      exact isBlank_head_trimStart hc
  · exact trim_trim raw

theorem groupText_pieces (group : List (List Char × Nat)) :
    ∀ piece ∈ (group.map fun entry => body entry.1).filter (!·.isEmpty), piece ≠ [] ∧
      trim piece = piece := by
  intro piece hpiece
  rw [List.mem_filter] at hpiece
  obtain ⟨hmem, hne⟩ := hpiece
  obtain ⟨entry, -, rfl⟩ := List.mem_map.mp hmem
  exact ⟨by simpa using hne, body_trimmed entry.1⟩

/-- A line at the end of a group is joined to what the group has before it. -/
theorem groupText_concat (group : List (List Char × Nat)) (entry : List Char × Nat) :
    groupText (group ++ [entry]) = glue (groupText group) (body entry.1) := by
  have hpieces := groupText_pieces group
  unfold groupText
  rw [List.map_append, List.filter_append, List.map_singleton]
  generalize (group.map fun entry => body entry.1).filter (!·.isEmpty) = pieces at hpieces ⊢
  cases body entry.1 with
  | nil => simp [glue]
  | cons c cs =>
    by_cases hnil : pieces = []
    · subst hnil
      simp [glue, joinWith]
    · have hne := joinWith_ne_nil hnil (fun piece hpiece => (hpieces piece hpiece).1) [' ']
      have hlast : [c :: cs].filter (!·.isEmpty) = [c :: cs] := rfl
      rw [hlast, joinWith_append hnil (by simp)]
      simp [glue, hne, joinWith]

theorem ofGroup?_eq_some (h : ofGroup? group = some line) :
    (∃ entry ∈ group, entry.2 = line.number) ∧ groupText group ≠ [] ∧
      line.text.toList = groupText group := by
  cases group with
  | nil => cases h
  | cons entry rest =>
    obtain ⟨raw, number⟩ := entry
    simp only [ofGroup?] at h
    split at h
    · cases h
    · rename_i hne
      cases h
      exact ⟨⟨_, List.mem_cons_self, rfl⟩, by simpa using hne, String.toList_ofList⟩

theorem exists_ofGroup? (h : groupText group ≠ []) : ∃ line, ofGroup? group = some line := by
  cases group with
  | nil => exact absurd rfl h
  | cons entry rest => exact ⟨_, if_neg (by simpa using h)⟩

/-- The logical line that some physical lines have begun: its number and its text so far. -/
def pendingOf (group : List (List Char × Nat)) : Option (Nat × List Char) :=
  group.head?.map fun entry => (entry.2, groupText group)

theorem pendingOf_concat (group : List (List Char × Nat)) (raw : List Char) (index : Nat) :
    pendingOf (group ++ [(raw, index)]) = some (extend index raw (pendingOf group)) := by
  have htext := groupText_concat group (raw, index)
  cases group with
  | nil =>
    rw [pendingOf, htext]
    rfl
  | cons entry rest =>
    rw [pendingOf, htext]
    rfl

theorem filterMap_ofGroup? {joined : Nat × List Char} (h : pendingOf group = some joined) :
    [group].filterMap ofGroup? = emit joined.1 joined.2 := by
  cases group with
  | nil => cases h
  | cons entry rest =>
    cases h
    simp only [List.filterMap_cons, List.filterMap_nil, ofGroup?, emit]
    cases (groupText (entry :: rest)).isEmpty <;> rfl

/-- Lines that go on, with any line behind them, belong together. -/
theorem isChain_concat (hgroup : ∀ e ∈ group, goesOn e.1 = true) (entry : List Char × Nat) :
    (group ++ [entry]).IsChain fun e _ => goesOn e.1 := by
  rw [isChain_iff_dropLast, List.dropLast_concat]
  exact hgroup

/-- Joining physical lines gives the logical lines of their groups. The lines that the logical line
    so far is made of belong to the first group. -/
theorem joinFrom_pendingOf (hgroup : ∀ e ∈ group, goesOn e.1 = true) (index : Nat)
    (raws : List (List Char)) :
    joinFrom index (pendingOf group) raws =
      ((group ++ raws.zipIdx index).splitBy fun e _ => goesOn e.1).filterMap ofGroup? := by
  induction raws generalizing group index with
  | nil =>
    rw [List.zipIdx_nil, List.append_nil]
    cases hpending : pendingOf group with
    | none =>
      obtain rfl : group = [] := by simpa [pendingOf] using hpending
      rfl
    | some joined =>
      have hne : group ≠ [] := by
        rintro rfl
        cases hpending
      have hchain := (isChain_concat hgroup ([], 0)).left_of_append
      rw [List.splitBy_of_isChain hne hchain, filterMap_ofGroup? hpending, joinFrom]
  | cons raw rest ih =>
    have hpending := pendingOf_concat group raw index
    have hsplit : group ++ (raw :: rest).zipIdx index =
        group ++ [(raw, index)] ++ rest.zipIdx (index + 1) := by simp
    rw [joinFrom_cons, hsplit]
    cases hgoesOn : goesOn raw with
    | true =>
      have hnext : ∀ e ∈ group ++ [(raw, index)], goesOn e.1 = true := by
        intro e he
        rcases List.mem_append.mp he with he | he
        · exact hgroup e he
        · rw [List.mem_singleton.mp he, hgoesOn]
      rw [if_pos rfl, ← hpending, ih hnext]
    | false =>
      have hchain := isChain_concat hgroup (raw, index)
      have hends : ∀ x ∈ (group ++ [(raw, index)]).getLast?,
          ∀ y ∈ (rest.zipIdx (index + 1)).head?,
          goesOn x.1 = false := by
        intro x hx y hy
        rw [List.getLast?_concat] at hx
        cases hx
        exact hgoesOn
      have hnone : ∀ e ∈ ([] : List (List Char × Nat)), goesOn e.1 = true := by simp
      have hrest := ih hnone (index + 1)
      rw [List.nil_append] at hrest
      rw [List.splitBy_append hends, List.splitBy_of_isChain (by simp) hchain,
        List.filterMap_append, filterMap_ofGroup? hpending, ← hrest]
      rfl

end Line

section Groups

variable {script : String} {entry : List Char × Nat} {group : List (List Char × Nat)}

theorem logicalLines_eq_filterMap (script : String) :
    logicalLines script = (lineGroups script).filterMap Line.ofGroup? := by
  have hnone : ∀ e ∈ ([] : List (List Char × Nat)), Line.goesOn e.1 = true := by simp
  exact Line.joinFrom_pendingOf hnone 1 _

/-- There is only one way to group physical lines. -/
theorem grouped_iff_eq_splitBy {entries : List (List Char × Nat)}
    {groups : List (List (List Char × Nat))} :
    Grouped entries groups ↔ groups = entries.splitBy fun entry _ => Line.goesOn entry.1 := by
  rw [eq_comm (a := groups), List.splitBy_eq_iff]
  have hinner : (∀ group ∈ groups, group.IsChain fun entry _ => Line.goesOn entry.1) ↔
      ∀ group ∈ groups, ∀ entry ∈ group.dropLast, Line.goesOn entry.1 = true := by
    simp only [isChain_iff_dropLast]
  have houter (hne : [] ∉ groups) :
      (groups.IsChain fun a b => ∃ (ha : a ≠ []) (_ : b ≠ []),
        Line.goesOn (a.getLast ha).1 = false) ↔
        ∀ group ∈ groups.dropLast, ∀ entry ∈ group.getLast?,
            Line.goesOn entry.1 = false := by
    rw [← isChain_iff_dropLast]
    refine List.IsChain.iff_of_mem_imp fun a b ha hb => ?_
    have hane : a ≠ [] := fun h => hne (h ▸ ha)
    have hbne : b ≠ [] := fun h => hne (h ▸ hb)
    simp [List.getLast?_eq_some_getLast hane, hane, hbne]
  rw [hinner]
  constructor
  · intro h
    exact ⟨h.flatten.symm, h.ne_nil, h.goesOn, (houter h.ne_nil).mpr h.ends⟩
  · rintro ⟨hflatten, hne, hgoesOn, hends⟩
    exact ⟨hflatten.symm, hne, hgoesOn, (houter hne).mp hends⟩

/-- Every physical line is in a group, and the groups have the lines in their order. -/
theorem flatten_lineGroups (script : String) : (lineGroups script).flatten = numberedLines script :=
  List.flatten_splitBy _ _

theorem pairwise_numberedLines (script : String) :
    (numberedLines script).Pairwise fun a b => a.2 < b.2 := by
  have hrange : (List.range' 1 (lines (dropMark script.toList)).length).Pairwise (· < ·) :=
    List.pairwise_lt_range'
  rw [← List.zipIdx_map_snd, List.pairwise_map] at hrange
  exact hrange

/-- The numbers in a group come before those in the next one. -/
theorem pairwise_lineGroups (script : String) :
    (lineGroups script).Pairwise fun a b => ∀ x ∈ a, ∀ y ∈ b, x.2 < y.2 := by
  have hnumbered := pairwise_numberedLines script
  rw [← flatten_lineGroups, List.pairwise_flatten] at hnumbered
  exact hnumbered.2

theorem pairwise_number (script : String) :
    (logicalLines script).Pairwise fun a b => a.number < b.number := by
  rw [logicalLines_eq_filterMap]
  refine (pairwise_lineGroups script).filterMap _ fun a b hab x hx y hy => ?_
  obtain ⟨⟨first, hfirst, hx⟩, -⟩ := Line.ofGroup?_eq_some hx
  obtain ⟨⟨second, hsecond, hy⟩, -⟩ := Line.ofGroup?_eq_some hy
  rw [← hx, ← hy]
  exact hab first hfirst second hsecond

theorem trimmed_of_mem_logicalLines {line : Line} (h : line ∈ logicalLines script) :
    line.text.toList ≠ [] ∧ trim line.text.toList = line.text.toList := by
  rw [logicalLines_eq_filterMap] at h
  obtain ⟨group, -, hgroup⟩ := List.mem_filterMap.mp h
  obtain ⟨-, hne, htext⟩ := Line.ofGroup?_eq_some hgroup
  rw [htext]
  exact ⟨hne, trim_joinWith (Line.groupText_pieces group) _⟩

/-- A physical line is in one group only. -/
theorem lineGroups_unique {a b : List (List Char × Nat)} (ha : a ∈ lineGroups script)
    (hb : b ∈ lineGroups script) (hentry : entry ∈ a) (hother : entry ∈ b) : a = b := by
  have hdisjoint : (lineGroups script).Pairwise List.Disjoint :=
    (pairwise_lineGroups script).imp fun hlt x hx hy => Nat.lt_irrefl _ (hlt x hx x hy)
  have hsymm : Std.Symm (List.Disjoint : List (List Char × Nat) →
      List (List Char × Nat) → Prop) :=
    ⟨fun _ _ h _ hx hy => h hy hx⟩
  by_contra hne
  exact hdisjoint.forall ha hb hne hentry hother

/-- Whether a physical line is in the group that a logical line comes from. -/
def Line.ComesFrom (script : String) (line : Line) (entry : List Char × Nat) : Prop :=
  ∃ group ∈ lineGroups script, entry ∈ group ∧ Line.ofGroup? group = some line

/-- A physical line that adds something is in the group of exactly one logical line, and what it
    adds is in the text. -/
theorem exists_comesFrom (hentry : entry ∈ numberedLines script)
    (hbody : Line.body entry.1 ≠ []) :
    ∃ line ∈ logicalLines script, line.ComesFrom script entry ∧
      Line.body entry.1 <:+: line.text.toList ∧
      ∀ other : Line, other.ComesFrom script entry → other = line := by
  rw [← flatten_lineGroups, List.mem_flatten] at hentry
  obtain ⟨group, hgroup, hentry⟩ := hentry
  have hpiece : Line.body entry.1 ∈ (group.map fun e => Line.body e.1).filter (!·.isEmpty) :=
    List.mem_filter.mpr ⟨List.mem_map_of_mem hentry, by simpa using hbody⟩
  have hinfix := infix_joinWith hpiece [' ']
  have hne : Line.groupText group ≠ [] := by
    intro hnil
    rw [← Line.groupText, hnil] at hinfix
    exact hbody (List.eq_nil_of_infix_nil hinfix)
  obtain ⟨line, hline⟩ := Line.exists_ofGroup? hne
  refine ⟨line, ?_, ⟨group, hgroup, hentry, hline⟩, ?_, ?_⟩
  · rw [logicalLines_eq_filterMap]
    exact List.mem_filterMap.mpr ⟨group, hgroup, hline⟩
  · rw [(Line.ofGroup?_eq_some hline).2.2]
    exact hinfix
  · rintro other ⟨another, hanother, hmem, hother⟩
    rw [lineGroups_unique hanother hgroup hmem hentry, hline] at hother
    exact (Option.some.inj hother).symm

/-- The logical lines of a script are those of its groups of physical lines. Their numbers increase,
    their texts are trimmed and not empty, every physical line that adds something is in exactly one
    of them, and carriage returns before the line feeds make no difference. -/
theorem logicalLines_of_groups (script : String) :
    (∀ groups, Grouped (numberedLines script) groups ↔ groups = lineGroups script) ∧
      logicalLines script = (lineGroups script).filterMap Line.ofGroup? ∧
      ((logicalLines script).Pairwise fun a b => a.number < b.number) ∧
      (∀ line ∈ logicalLines script, line.text.toList ≠ [] ∧
        trim line.text.toList = line.text.toList) ∧
      (∀ entry ∈ numberedLines script, Line.body entry.1 ≠ [] →
        ∃ line ∈ logicalLines script, line.ComesFrom script entry ∧
          Line.body entry.1 <:+: line.text.toList ∧
          ∀ other : Line, other.ComesFrom script entry → other = line) ∧
      logicalLines (String.ofList (addReturns script.toList)) = logicalLines script :=
  ⟨fun _ => grouped_iff_eq_splitBy, logicalLines_eq_filterMap script, pairwise_number script,
    fun _ => trimmed_of_mem_logicalLines, fun _ => exists_comesFrom,
      logicalLines_addReturns script⟩

/-- A line with nothing but its backslash goes on, of two backslashes one is left, and the text ends
    in a line that would go on. -/
theorem logicalLines_of_groups_of_backslashes :
    let script := "\uFEFFMessage \\\r\n  \\\n\thi\\\\\n\n\nReturn \\"
    logicalLines script = [⟨1, "Message hi\\"⟩, ⟨6, "Return"⟩] ∧
      ∃ line ∈ logicalLines script, line.ComesFrom script ("\thi\\\\".toList, 3) := by
  intro script
  obtain ⟨-, hlines, -, -, hfrom, -⟩ := logicalLines_of_groups script
  obtain ⟨line, hmem, hline, -, -⟩ := hfrom ("\thi\\\\".toList, 3) (by decide) (by decide)
  exact ⟨hlines.trans (by decide), line, hmem, hline⟩

end Groups

end InstallScript.Script
