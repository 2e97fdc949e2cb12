import InstallScript.Proofs.Script.Forms

/-!
The arguments of a statement, read once more. They are the ones it was read from, in a form that its
keyword has, and reading them gives the same statement.
-/

namespace InstallScript.Script

open Text

theorem chunks_of_lt {α : Type} {size : Nat} {xs : List α} (h : xs.length < size) :
    chunks size xs = [] := by
  rw [chunks]
  simp [h]

theorem chunks_of_le {α : Type} {size : Nat} {xs : List α} (hsize : 0 < size)
    (h : size ≤ xs.length) :
    chunks size xs = xs.take size :: chunks size (xs.drop size) := by
  rw [chunks]
  simp [Nat.pos_iff_ne_zero.mp hsize, h]

/-- Cutting into pieces of one size leaves nothing out if the size divides the length. -/
theorem flatten_chunks {α : Type} {size : Nat} (hsize : 0 < size) (xs : List α)
    (h : xs.length % size = 0) :
    (chunks size xs).flatten = xs ∧ ∀ piece ∈ chunks size xs, piece.length = size := by
  induction hlen : xs.length using Nat.strongRecOn generalizing xs with
  | ind n ih =>
    by_cases hfits : size ≤ xs.length
    · have hdrop : (xs.drop size).length % size = 0 := by
        rw [List.length_drop, ← Nat.mod_eq_sub_mod hfits, h]
      have hshorter : (xs.drop size).length < n := by
        rw [List.length_drop]
        omega
      obtain ⟨hflatten, hlength⟩ := ih _ hshorter _ hdrop rfl
      rw [chunks_of_le hsize hfits]
      refine ⟨by rw [List.flatten_cons, hflatten, List.take_append_drop], ?_⟩
      exact List.forall_mem_cons.mpr ⟨List.length_take_of_le hfits, hlength⟩
    · have hshort : xs.length < size := by omega
      rw [chunks_of_lt hshort]
      rw [Nat.mod_eq_of_lt hshort] at h
      simp [List.length_eq_zero_iff.mp h]

namespace Line

variable {line : Line} {args : List String}

/-- An option is described by the words it is read from. -/
theorem words_readChoice {shape : SelectShape} {words : List String}
    (h : words.length = shape.perOption) :
    (readChoice shape words).words = words := by
  obtain ⟨multi, previews, descriptions⟩ := shape
  cases previews <;> cases descriptions
  case false.false => match words, h with | [_], _ => rfl
  case true.true => match words, h with | [_, _, _], _ => rfl
  all_goals match words, h with | [_, _], _ => rfl

theorem arguments_readMenu {shape : SelectShape} {title : String} {options : List String}
    {menu : Menu} (h : line.readMenu shape title options = .ok menu) :
    menu.shape = shape ∧ (Command.select menu).arguments = title :: options ∧
    options.length % shape.perOption = 0 ∧
      ∀ other : Line, other.readMenu shape title options = .ok menu := by
  unfold readMenu at h ⊢
  split at h
  · simp [fail] at h
  · rename_i hmultiple
    cases h
    have hagain : ∀ other : Line, other.readMenu shape title options = _ :=
      fun _ => if_neg hmultiple
    simp only [ne_eq, Bool.or_eq_true, decide_eq_true_eq, not_or, Decidable.not_not] at hmultiple
    refine ⟨rfl, ?_, hmultiple.2, hagain⟩
    have hpositive : 0 < shape.perOption := by
      unfold SelectShape.perOption
      omega
    obtain ⟨hflatten, hlength⟩ := flatten_chunks hpositive options hmultiple.2
    have hwords : ∀ words ∈ chunks shape.perOption options,
        (readChoice shape words).words = words :=
      fun words hmem => words_readChoice (hlength words hmem)
    simp only [Command.arguments, List.flatMap_map]
    rw [List.flatMap_def, List.map_congr_left hwords, List.map_id', hflatten]

theorem arguments_readIf {negated : Bool} {name : String} {c : Command}
    (h : line.readIf negated name args = .ok c) :
    ∃ condition : Condition, c = .ifTest negated condition args ∧
      sameName condition.name name = true ∧
      condition.arity.admits args.length = true ∧
      ∀ other : Line, other.readIf negated condition.name args = .ok c := by
  unfold readIf at h
  cases hname : Condition.ofName? name with
  | none => simp [hname, fail] at h
  | some condition =>
    simp only [hname] at h
    obtain ⟨_, hcount, hc⟩ := Except.bind_eq_ok_iff.mp h
    cases hc
    have hadmits := (line.checkCount_eq_ok_iff _ _ _).mp hcount
    refine ⟨condition, rfl, Condition.ofName?_eq_some_iff.mp hname, hadmits, fun other => ?_⟩
    simp only [readIf, Condition.ofName?_name, checkCount, hadmits]
    rfl

/-- The arguments of a `For`: the four that have to be there, and those that can be left out. -/
theorem exists_of_length_for (h : Keyword.forLoop.arity.admits args.length = true) :
    ∃ a b c d rest, args = a :: b :: c :: d :: rest ∧ rest.length ≤ 2 := by
  match args, h with
  | a :: b :: c :: d :: rest, h =>
    have hmax := (Arity.admits_iff.mp h).2
    refine ⟨a, b, c, d, rest, rfl, ?_⟩
    simp only [List.length_cons] at hmax
    omega
  | [], h | [_], h | [_, _], h | [_, _, _], h => cases h

theorem readFor_count (line : Line) (name start stop : String) (step : Option String) :
    line.readFor (Command.forLoop (.count name start stop step)).arguments =
      .ok (.count name start stop step) := by
  have hword := sameName_refl countWord
  cases step with
  | none => exact if_pos hword
  | some step => exact if_pos hword

/-- A pattern follows the flag that tells whether to go into folders, so it cannot stand without
    it. -/
theorem readFor_each (line : Line) (kind : Enumeration) (name folder : String)
    {recurse pattern : Option String} (h : recurse = none → pattern = none) :
    line.readFor (Command.forLoop (.each kind name folder recurse pattern)).arguments =
      .ok (.each kind name folder recurse pattern) := by
  have hword : sameName countWord eachWord = false := by decide
  cases recurse with
  | none =>
    rw [h rfl]
    simp [Command.arguments, readFor, sameName_refl, hword]
  | some flag => cases pattern <;> simp [Command.arguments, readFor, sameName_refl, hword]

/-- The header of a `For` keeps what it is read from, and the words that can be left out as they are
    given. -/
theorem arguments_readFor {header : LoopHeader}
    (hcount : Keyword.forLoop.arity.admits args.length = true)
    (h : line.readFor args = .ok header) :
    Form .forLoop args (Command.forLoop header).arguments ∧
      ∀ other : Line, other.readFor (Command.forLoop header).arguments = .ok header := by
  obtain ⟨a, b, c, d, rest, rfl, hrest⟩ := exists_of_length_for hcount
  unfold readFor at h
  simp only [List.getD_cons_zero, List.getD_cons_succ] at h
  split at h
  · rename_i hword
    obtain ⟨_, hlength, hheader⟩ := Except.bind_eq_ok_iff.mp h
    cases hheader
    rw [checkCount_eq_ok_iff] at hlength
    have hmax := (Arity.admits_iff.mp hlength).2
    obtain _ | ⟨e, _ | ⟨f, others⟩⟩ := rest
    · exact ⟨.count hword hmax, fun other => other.readFor_count ..⟩
    · exact ⟨.count hword hmax, fun other => other.readFor_count ..⟩
    · simp only [List.length_cons] at hmax
      omega
  · split at h
    · rename_i hnot hword
      cases hkind : Enumeration.ofName? b with
      | none => simp [hkind, fail] at h
      | some kind =>
        simp only [hkind, Except.ok.injEq] at h
        subst h
        have hname := Enumeration.ofName?_eq_some_iff.mp hkind
        obtain _ | ⟨e, _ | ⟨f, _ | ⟨g, others⟩⟩⟩ := rest
        · exact ⟨.each hword hname, fun other => other.readFor_each kind c d (by simp)⟩
        · exact ⟨.each hword hname, fun other => other.readFor_each kind c d (by simp)⟩
        · exact ⟨.each hword hname, fun other => other.readFor_each kind c d (by simp)⟩
        · simp only [List.length_cons] at hrest
          omega
    · simp [fail] at h

/-- What a keyword is read as has that keyword, and the arguments that were given in a form of it.
    Read once more, on any line, they give the same statement. -/
theorem arguments_readCommand {kind : Keyword} {c : Command}
    (hcount : kind.arity.admits args.length = true) (h : line.readCommand kind args = .ok c) :
    c.keyword? = some kind ∧ Form kind args c.arguments ∧
      ∀ other : Line, other.readCommand kind c.arguments = .ok c := by
  unfold readCommand at h
  cases hshape : kind.selectShape? with
  | some shape =>
    simp only [hshape] at h
    obtain ⟨menu, hmenu, rfl⟩ := Except.map_eq_ok_iff.mp h
    obtain rfl := Keyword.eq_keyword_of_selectShape? hshape
    have hmin : 0 < shape.keyword.arity.min := by
      obtain ⟨_ | _, _ | _, _ | _⟩ := shape <;> decide
    obtain ⟨title, options, rfl⟩ := Arity.exists_cons_of_admits hmin hcount
    rw [List.headD_cons, List.tail_cons] at hmenu
    obtain ⟨rfl, harguments, hmultiple, hagain⟩ := arguments_readMenu hmenu
    refine ⟨rfl, by rw [harguments]; exact .menu hmultiple, fun other => ?_⟩
    simp only [readCommand, hshape, harguments, List.headD_cons, List.tail_cons]
    rw [hagain]
    rfl
  | none =>
    simp only [hshape] at h
    have hmenu : ∀ shape : SelectShape, kind ≠ shape.keyword := by
      rintro shape rfl
      simp at hshape
    cases kind with
    | select | selectMany | selectWithPreview | selectManyWithPreview | selectWithDescriptions
    | selectManyWithDescriptions | selectWithDescriptionsAndPreviews
    | selectManyWithDescriptionsAndPreviews => simp [Keyword.selectShape?] at hshape
    | ifTrue | ifNot =>
      obtain ⟨condition, rfl, hname, hadmits, hagain⟩ := arguments_readIf h
      obtain ⟨name, args, rfl⟩ := Arity.exists_cons_of_admits (by decide) hcount
      exact ⟨rfl, .test (by decide) hname hadmits, hagain⟩
    | forLoop =>
      obtain ⟨header, hheader, rfl⟩ := Except.map_eq_ok_iff.mp h
      obtain ⟨harguments, hagain⟩ := arguments_readFor hcount hheader
      refine ⟨rfl, harguments, fun other => ?_⟩
      exact Except.map_eq_ok_iff.mpr ⟨header, hagain other, rfl⟩
    | conflictsWith | dependsOn | conflictsWithRegex | dependsOnRegex =>
      dsimp only at h
      split at h
      · simp [fail] at h
      · rename_i hlength
        cases h
        exact ⟨rfl, .conflict (by decide) hlength, fun _ => if_neg hlength⟩
    | otherwise | endIf | endFor | continueLoop | exitLoop | defaultCase | breakCase
    | endSelect | returnEarly
    | fatalError =>
      cases h
      obtain rfl := List.length_eq_zero_iff.mp (Arity.length_of_admits hcount)
      exact ⟨rfl, .simple ⟨by decide, by decide, hmenu⟩, fun _ => rfl⟩
    | selectVar | selectString | caseOf | label | goto =>
      cases h
      obtain ⟨a, rfl⟩ := List.length_eq_one_iff.mp (Arity.length_of_admits hcount)
      exact ⟨rfl, .simple ⟨by decide, by decide, hmenu⟩, fun _ => rfl⟩
    | setVar =>
      cases h
      obtain ⟨a, rest, rfl⟩ := Arity.exists_cons_of_admits (by decide) hcount
      have hrest : rest.length = 1 := Nat.succ.inj (Arity.length_of_admits hcount)
      obtain ⟨b, rfl⟩ := List.length_eq_one_iff.mp hrest
      exact ⟨rfl, .simple ⟨by decide, by decide, hmenu⟩, fun _ => rfl⟩
    | _ =>
      cases h
      exact ⟨rfl, .simple ⟨by decide, by decide, hmenu⟩, fun _ => rfl⟩

end Line

end InstallScript.Script
