import InstallScript.Proofs.Nesting.Block
import InstallScript.Proofs.Result

/-!
What reading a line guarantees about its statement: the number of its arguments is one that its
keyword admits, and a menu has a preview and a description for an option exactly if its keyword says
so.
-/

namespace InstallScript.Script

/-- Whether an option has the texts that a menu of the shape shows. -/
def Choice.HasShape (shape : SelectShape) (c : Choice) : Prop :=
  c.preview.isSome = shape.previews ∧ c.description.isSome = shape.descriptions

/-- Whether a statement has as many arguments as it needs. -/
def Command.WellShaped : Command → Prop
  | .ifTest _ condition args => condition.arity.admits args.length = true
  | .select menu => ∀ c ∈ menu.choices, c.HasShape menu.shape
  | .instruction kind args => kind.isAction = true ∧ kind.arity.admits args.length = true
  | _ => True

namespace Line

theorem checkCount_eq_ok_iff (line : Line) (keyword : String) (arity : Arity) (found : Nat) :
    line.checkCount keyword arity found = .ok () ↔ arity.admits found = true := by
  unfold checkCount
  split
  · simp_all
  · simp_all [fail]

theorem hasShape_readChoice (shape : SelectShape) (words : List String) :
    (readChoice shape words).HasShape shape := by
  obtain ⟨multi, previews, descriptions⟩ := shape
  cases previews <;> cases descriptions <;> exact ⟨rfl, rfl⟩

theorem wellShaped_readIf {line : Line} {negated : Bool} {name : String} {args : List String}
    {c : Command} (h : line.readIf negated name args = .ok c) :
    c.WellShaped := by
  unfold readIf at h
  cases hname : Condition.ofName? name with
  | none => simp [hname, fail] at h
  | some condition =>
    simp only [hname] at h
    obtain ⟨_, hcount, hc⟩ := Except.bind_eq_ok_iff.mp h
    cases hc
    exact (line.checkCount_eq_ok_iff _ _ _).mp hcount

theorem wellShaped_readMenu {line : Line} {shape : SelectShape} {title : String}
    {options : List String} {menu : Menu} (h : line.readMenu shape title options = .ok menu) :
    (Command.select menu).WellShaped := by
  unfold readMenu at h
  split at h
  · simp [fail] at h
  · cases h
    intro c hc
    obtain ⟨words, -, rfl⟩ := List.mem_map.mp hc
    exact hasShape_readChoice shape words

/-- A keyword that names a statement of its own is never read as an instruction. -/
theorem wellShaped_readCommand {line : Line} {kind : Keyword} {args : List String} {c : Command}
    (hcount : kind.arity.admits args.length = true) (h : line.readCommand kind args = .ok c) :
    c.WellShaped := by
  unfold readCommand at h
  cases hshape : kind.selectShape? with
  | some shape =>
    simp only [hshape] at h
    obtain ⟨menu, hmenu, rfl⟩ := Except.map_eq_ok_iff.mp h
    exact wellShaped_readMenu hmenu
  | none =>
    simp only [hshape] at h
    cases kind with
    | ifTrue | ifNot => exact wellShaped_readIf h
    | forLoop =>
      obtain ⟨header, -, rfl⟩ := Except.map_eq_ok_iff.mp h
      trivial
    | conflictsWith | dependsOn | conflictsWithRegex | dependsOnRegex =>
      dsimp only at h
      split at h
      · simp [fail] at h
      · cases h
        exact ⟨rfl, hcount⟩
    | select | selectMany | selectWithPreview | selectManyWithPreview | selectWithDescriptions
    | selectManyWithDescriptions | selectWithDescriptionsAndPreviews
    | selectManyWithDescriptionsAndPreviews => simp [Keyword.selectShape?] at hshape
    | _ =>
      cases h
      trivial

/-- How a line is read: as a comment, as a line without words, or by its keyword. -/
theorem parse_cases {line : Line} {s : Statement} (h : line.parse = .ok s) :
    (∃ rest, line.text.toList = ';' :: rest ∧
      s.command = .comment (String.ofList (Text.trim rest))) ∨
      (splitWords line.text = some [] ∧ s.command = .comment "") ∨
      ∃ word args kind, splitWords line.text = some (word :: args) ∧
        Keyword.ofWord? word = some kind ∧
        kind.arity.admits args.length = true ∧ line.readCommand kind args = .ok s.command := by
  unfold parse at h
  cases hcomment : line.comment with
  | some text =>
    simp only [hcomment, Except.ok.injEq] at h
    subst h
    left
    unfold comment at hcomment
    split at hcomment
    · rename_i rest htext
      cases hcomment
      exact ⟨rest, htext, rfl⟩
    · cases hcomment
  | none =>
    right
    cases hwords : splitWords line.text with
    | none => simp [hcomment, hwords, fail] at h
    | some words =>
      simp only [hcomment, hwords] at h
      obtain ⟨c, hread, rfl⟩ := Except.map_eq_ok_iff.mp h
      cases words with
      | nil =>
        cases hread
        exact .inl ⟨rfl, rfl⟩
      | cons word args =>
        right
        simp only [readWords] at hread
        cases hkind : Keyword.ofWord? word with
        | none => simp [hkind, fail] at hread
        | some kind =>
          simp only [hkind] at hread
          obtain ⟨_, hcount, hcommand⟩ := Except.bind_eq_ok_iff.mp hread
          rw [checkCount_eq_ok_iff] at hcount
          exact ⟨word, args, kind, rfl, hkind, hcount, hcommand⟩

/-- Every line that can be read gives a statement with as many arguments as it needs. -/
theorem wellShaped_parse {line : Line} {s : Statement} (h : line.parse = .ok s) :
    s.command.WellShaped := by
  rcases parse_cases h with ⟨_, -, hcommand⟩ | ⟨-, hcommand⟩ | ⟨word, args, kind, -, -,
    hcount, hread⟩
  · rw [hcommand]
    trivial
  · rw [hcommand]
    trivial
  · exact wellShaped_readCommand hcount hread

end Line

end InstallScript.Script
