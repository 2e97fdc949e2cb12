import InstallScript.Proofs.Script.Shape
import InstallScript.Proofs.Script.Vocabulary

/-!
The forms of statements. Beyond the number of its arguments, a keyword may ask for names in certain
places, and for a number that fits what these names say. A statement that has such a form is read,
and the names in it are spelled as the vocabulary has them.
-/

namespace InstallScript.Script

open Text

namespace Arity

variable {a : Arity} {α : Type} {xs : List α}

theorem exists_cons_of_admits (hmin : 0 < a.min) (h : a.admits xs.length = true) :
    ∃ x rest, xs = x :: rest := by
  apply List.exists_cons_of_length_pos
  simp only [admits, Bool.and_eq_true, decide_eq_true_eq] at h
  omega

theorem admits_iff {min max count : Nat} :
    (⟨min, some max⟩ : Arity).admits count = true ↔ min ≤ count ∧ count ≤ max := by
  simp only [admits, Option.all_some, Bool.and_eq_true, decide_eq_true_eq]

theorem length_of_admits {n : Nat} (h : (⟨n, some n⟩ : Arity).admits xs.length = true) :
    xs.length = n :=
  Nat.le_antisymm (admits_iff.mp h).2 (admits_iff.mp h).1

end Arity

theorem Keyword.eq_keyword_of_selectShape? {kind : Keyword} {shape : SelectShape}
    (h : kind.selectShape? = some shape) : kind = shape.keyword := by
  cases kind <;> simp [selectShape?] at h <;> subst h <;> rfl

namespace Keyword

/-- The keywords of statements that declare conflicts and dependencies. -/
def conflicts : List Keyword :=
  [.conflictsWith, .dependsOn, .conflictsWithRegex, .dependsOnRegex]

/-- The keywords that ask for nothing but a number of arguments. -/
def IsSimple (kind : Keyword) : Prop :=
  kind ∉ [.ifTrue, .ifNot, .forLoop] ∧ kind ∉ conflicts ∧
    ∀ shape : SelectShape, kind ≠ shape.keyword

end Keyword

/-- The forms of statements: a keyword, the arguments it is given, and how they are spelled when
    their names are looked up. -/
inductive Form : Keyword → List String → List String → Prop where
  | test {kind : Keyword} (hkind : kind ∈ [.ifTrue, .ifNot]) {condition : Condition}
    {name : String} {args : List String}
    (hname : sameName condition.name name = true)
      (hcount : condition.arity.admits args.length = true) :
    Form kind (name :: args) (condition.name :: args)
  | count {first : String} {args : List String} (hfirst : sameName countWord first = true)
    (hcount : (first :: args).length ≤ 5) : Form .forLoop (first :: args) (countWord :: args)
  | each {first second : String} {kind : Enumeration} {args : List String}
    (hfirst : sameName eachWord first = true)
    (hsecond : sameName kind.name second = true) :
    Form .forLoop (first :: second :: args) (eachWord :: kind.name :: args)
  | menu {shape : SelectShape} {title : String} {options : List String}
    (hcount : options.length % shape.perOption = 0) :
      Form shape.keyword (title :: options) (title :: options)
  | conflict {kind : Keyword} {args : List String} (hkind : kind ∈ Keyword.conflicts)
    (hcount : args.length ≠ 4) :
    Form kind args args
  | simple {kind : Keyword} {args : List String} (hkind : kind.IsSimple) : Form kind args args

namespace Form

variable {kind : Keyword} {args spelled : List String}

/-- The arguments of a statement are spelled as they are given, up to the case of letters. -/
theorem map_nameKey (h : Form kind args spelled) : spelled.map nameKey = args.map nameKey := by
  cases h with
  | test hkind hname hcount => rw [List.map_cons, List.map_cons, sameName_iff.mp hname]
  | count hfirst hcount => rw [List.map_cons, List.map_cons, sameName_iff.mp hfirst]
  | each hfirst hsecond =>
    rw [List.map_cons, List.map_cons, List.map_cons, List.map_cons, sameName_iff.mp hfirst,
      sameName_iff.mp hsecond]
  | menu | conflict | simple => rfl

/-- A statement that has a form is read, if the number of its arguments is right. -/
theorem exists_readCommand (h : Form kind args spelled)
    (hadmits : kind.arity.admits args.length = true) (line : Line) :
    ∃ c, line.readCommand kind args = .ok c := by
  cases h with
  | @test _ hkind condition name args hname hcount =>
    have hread : ∀ negated, line.readIf negated name args =
        .ok (.ifTest negated condition args) := by
      intro negated
      simp only [Line.readIf, Condition.ofName?_eq_some_iff.mpr hname, Line.checkCount, hcount]
      rfl
    simp only [List.mem_cons, List.not_mem_nil, or_false] at hkind
    rcases hkind with rfl | rfl
    · exact ⟨_, hread false⟩
    · exact ⟨_, hread true⟩
  | @count first args hfirst hcount =>
    have hcounted : (⟨4, some 5⟩ : Arity).admits (first :: args).length = true :=
      Arity.admits_iff.mpr ⟨(Arity.admits_iff.mp hadmits).1, hcount⟩
    have hread : ∃ header, line.readFor (first :: args) = .ok header := by
      simp only [Line.readFor, List.getD_cons_zero, if_pos hfirst, Line.checkCount, hcounted]
      exact ⟨_, rfl⟩
    obtain ⟨header, hheader⟩ := hread
    exact ⟨_, Except.map_eq_ok_iff.mpr ⟨header, hheader, rfl⟩⟩
  | @each first second kind args hfirst hsecond =>
    have hcount : sameName countWord first = false := by
      rw [← Bool.not_eq_true, sameName_iff, ← sameName_iff.mp hfirst]
      decide
    have hread : ∃ header, line.readFor (first :: second :: args) = .ok header := by
      simp only [Line.readFor, List.getD_cons_zero, List.getD_cons_succ, hcount,
        Bool.false_eq_true, if_false, if_pos hfirst, Enumeration.ofName?_eq_some_iff.mpr hsecond]
      exact ⟨_, rfl⟩
    obtain ⟨header, hheader⟩ := hread
    exact ⟨_, Except.map_eq_ok_iff.mpr ⟨header, hheader, rfl⟩⟩
  | @menu shape title options hcount =>
    have hmin : 2 ≤ (title :: options).length := by
      have harity : shape.keyword.arity = ⟨2, none⟩ := by
        obtain ⟨_ | _, _ | _, _ | _⟩ := shape <;> rfl
      rw [harity] at hadmits
      simpa [Arity.admits] using hadmits
    have hne : options ≠ [] := by
      rintro rfl
      simp at hmin
    have hread : ∃ menu, line.readMenu shape title options = .ok menu :=
      ⟨_, if_neg (by simp [hne, hcount])⟩
    obtain ⟨menu, hmenu⟩ := hread
    refine ⟨.select menu, ?_⟩
    simp only [Line.readCommand, SelectShape.selectShape?_keyword, List.headD_cons,
      List.tail_cons, hmenu]
    rfl
  | conflict hkind hcount =>
    simp only [Keyword.conflicts, List.mem_cons, List.not_mem_nil, or_false] at hkind
    rcases hkind with rfl | rfl | rfl | rfl
    all_goals exact ⟨_, if_neg hcount⟩
  | simple hkind =>
    obtain ⟨hnamed, hconflict, hmenu⟩ := hkind
    cases kind with
    | ifTrue | ifNot | forLoop => simp at hnamed
    | conflictsWith | dependsOn | conflictsWithRegex | dependsOnRegex =>
      simp [Keyword.conflicts] at hconflict
    | select => exact absurd rfl (hmenu ⟨false, false, false⟩)
    | selectMany => exact absurd rfl (hmenu ⟨true, false, false⟩)
    | selectWithPreview => exact absurd rfl (hmenu ⟨false, true, false⟩)
    | selectManyWithPreview => exact absurd rfl (hmenu ⟨true, true, false⟩)
    | selectWithDescriptions => exact absurd rfl (hmenu ⟨false, false, true⟩)
    | selectManyWithDescriptions => exact absurd rfl (hmenu ⟨true, false, true⟩)
    | selectWithDescriptionsAndPreviews => exact absurd rfl (hmenu ⟨false, true, true⟩)
    | selectManyWithDescriptionsAndPreviews => exact absurd rfl (hmenu ⟨true, true, true⟩)
    | _ => exact ⟨_, rfl⟩

end Form

end InstallScript.Script
