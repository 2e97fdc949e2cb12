import InstallScript.Machine.Substitute
import InstallScript.Proofs.Text.Pieces

/-!
Placeholders in texts. A text is read in exactly one way as plain characters, placeholders and
percent signs that stand for themselves, whatever the variables are. Substitution puts the value of
each placeholder in its place and leaves everything else as it is.
-/

namespace InstallScript

open Text

/-- One part of a text with placeholders. -/
inductive TextPart where
  | literal (c : Char)
  | placeholder (name : String)
  | percent
  deriving DecidableEq, Repr

namespace TextPart

/-- What a part is replaced by. A placeholder without a value is replaced by nothing. -/
def value (vars : Variables) : TextPart → List Char
  | .literal c => [c]
  | .placeholder name => ((vars.get? name).getD "").toList
  | .percent => ['%']

/-- Whether a text between two percent signs names a variable. -/
def IsName (name : List Char) : Prop :=
  name ≠ [] ∧ ∀ c ∈ name, c ≠ '%' ∧ isBlank c = false

/-- Whether a percent sign stands for itself before the given text: no other one follows, or one
    follows at once, or there is white space before the next one. -/
def StandsAlone (rest : List Char) : Prop :=
  '%' ∉ rest ∨ rest.head? = some '%' ∨
    ∃ name after, rest = name ++ '%' :: after ∧ '%' ∉ name ∧
      ∃ c ∈ name, isBlank c = true

/-- The parts that a text is made of, from left to right. -/
inductive Compose : List TextPart → List Char → Prop where
  | nil : Compose [] []
  | literal {c : Char} {parts : List TextPart} {rest : List Char} (hc : c ≠ '%')
    (h : Compose parts rest) :
    Compose (.literal c :: parts) (c :: rest)
  | placeholder {name : String} {parts : List TextPart} {rest : List Char}
    (hname : IsName name.toList)
    (h : Compose parts rest) :
      Compose (.placeholder name :: parts) ('%' :: (name.toList ++ '%' :: rest))
  | percent {parts : List TextPart} {rest : List Char} (halone : StandsAlone rest)
    (h : Compose parts rest) :
    Compose (.percent :: parts) ('%' :: rest)

variable {cs name rest : List Char} {parts others : List TextPart}

theorem placeholder?_eq_some_iff :
    placeholder? cs = some (name, rest) ↔ cs = name ++ '%' :: rest ∧ IsName name := by
  unfold placeholder?
  constructor
  · intro h
    split at h
    · rename_i before after hsplit
      obtain ⟨hcs, hnot⟩ := splitOnce_eq_some hsplit
      split at h
      · cases h
      · rename_i hname
        cases h
        simp only [Bool.or_eq_true, List.any_eq_true, not_or, not_exists, not_and,
          Bool.not_eq_true] at hname
        refine ⟨hcs, by simpa using hname.1, fun c hc => ⟨?_, hname.2 c hc⟩⟩
        rintro rfl
        exact hnot hc
    · cases h
  · rintro ⟨rfl, hne, hname⟩
    have hnot : '%' ∉ name := fun hmem => (hname _ hmem).1 rfl
    have hblank : name.any isBlank = false := by
      simp only [List.any_eq_false, Bool.not_eq_true]
      exact fun c hc => (hname c hc).2
    simp [splitOnce_append_cons hnot, hne, hblank]

theorem placeholder?_append (hname : IsName name) (rest : List Char) :
    placeholder? (name ++ '%' :: rest) = some (name, rest) :=
  placeholder?_eq_some_iff.mpr ⟨rfl, hname⟩

theorem placeholder?_eq_none_iff : placeholder? cs = none ↔ StandsAlone cs := by
  unfold placeholder?
  cases hsplit : splitOnce '%' cs with
  | none => simp [StandsAlone, splitOnce_eq_none hsplit]
  | some pair =>
    obtain ⟨before, after⟩ := pair
    obtain ⟨rfl, hnot⟩ := splitOnce_eq_some hsplit
    constructor
    · intro h
      cases before with
      | nil => exact .inr (.inl rfl)
      | cons c before =>
        have hany : (c :: before).any isBlank = true := by
          cases hany : (c :: before).any isBlank with
          | true => rfl
          | false => simp [hany] at h
        exact .inr (.inr ⟨c :: before, after, rfl, hnot, List.any_eq_true.mp hany⟩)
    · rintro (hno | hhead | ⟨name, rest, heq, hname, hblank⟩)
      · simp at hno
      · cases before with
        | nil => rfl
        | cons c before =>
          cases hhead
          simp at hnot
      · have hagain := splitOnce_append_cons hname rest
        rw [← heq, hsplit] at hagain
        cases hagain
        have hany : before.any isBlank = true := List.any_eq_true.mpr hblank
        simp [hany]

/-- Every text is made of parts. -/
theorem exists_compose (cs : List Char) : ∃ parts, Compose parts cs := by
  induction hlength : cs.length using Nat.strongRecOn generalizing cs with
  | ind n ih =>
    cases cs with
    | nil => exact ⟨[], .nil⟩
    | cons c rest =>
      rw [List.length_cons] at hlength
      by_cases hc : c = '%'
      · subst hc
        cases hplaceholder : placeholder? rest with
        | none =>
          obtain ⟨parts, hparts⟩ := ih rest.length (by omega) rest rfl
          exact ⟨_, .percent (placeholder?_eq_none_iff.mp hplaceholder) hparts⟩
        | some pair =>
          obtain ⟨name, after⟩ := pair
          have hshorter := length_of_placeholder? hplaceholder
          obtain ⟨rfl, hname⟩ := placeholder?_eq_some_iff.mp hplaceholder
          obtain ⟨parts, hparts⟩ := ih after.length (by omega) after rfl
          rw [← String.toList_ofList (l := name)] at hname
          have hwhole := Compose.placeholder hname hparts
          rw [String.toList_ofList] at hwhole
          exact ⟨_, hwhole⟩
      · obtain ⟨parts, hparts⟩ := ih rest.length (by omega) rest rfl
        exact ⟨_, .literal hc hparts⟩

/-- A text is made of parts in one way only. -/
theorem Compose.unique (h : Compose parts cs) (hothers : Compose others cs) : others = parts := by
  induction h generalizing others with
  | nil =>
    cases hothers
    rfl
  | literal hc h ih =>
    cases hothers with
    | literal _ hrest => rw [ih hrest]
    | placeholder => exact absurd rfl hc
    | percent => exact absurd rfl hc
  | @placeholder name parts rest hname h ih =>
    have hfound := placeholder?_append hname rest
    generalize hafter : name.toList ++ '%' :: rest = after at hfound hothers
    cases hothers with
    | literal hc => exact absurd rfl hc
    | @placeholder other _ _ hother hrest =>
      rw [placeholder?_append hother] at hfound
      simp only [Option.some.injEq, Prod.mk.injEq, String.toList_inj] at hfound
      obtain ⟨rfl, rfl⟩ := hfound
      rw [ih hrest]
    | percent halone =>
      rw [placeholder?_eq_none_iff.mpr halone] at hfound
      cases hfound
  | @percent parts rest halone h ih =>
    have hnone := placeholder?_eq_none_iff.mpr halone
    cases hothers with
    | literal hc => exact absurd rfl hc
    | placeholder hname =>
      rw [placeholder?_append hname] at hnone
      cases hnone
    | percent _ hrest => rw [ih hrest]

end TextPart

namespace Variables

open TextPart

variable {vars other : Variables} {cs rest : List Char} {parts front back : List TextPart}
  {name : String}

theorem expand_literal {c : Char} (hc : c ≠ '%') (rest : List Char) :
    vars.expand (c :: rest) = (vars.expand rest).map (c :: ·) := by
  rw [expand, if_neg hc]

theorem expand_placeholder (hname : IsName name.toList) (rest : List Char) :
    vars.expand ('%' :: (name.toList ++ '%' :: rest)) =
      match vars.get? name with
      | some value => (vars.expand rest).map (value.toList ++ ·)
      | none => .error name := by
  have hfound := placeholder?_append hname rest
  rw [expand, if_pos rfl]
  split
  · rename_i found after heq
    rw [hfound] at heq
    cases heq
    cases hvalue : vars.get? name with
    | none => simp only [String.ofList_toList, hvalue]
    | some value => simp only [String.ofList_toList, hvalue]
  · rename_i heq
    rw [hfound] at heq
    cases heq

theorem expand_percent (halone : StandsAlone rest) :
    vars.expand ('%' :: rest) = (vars.expand rest).map ('%' :: ·) := by
  have hnone := placeholder?_eq_none_iff.mpr halone
  rw [expand, if_pos rfl]
  split
  · rename_i heq
    rw [hnone] at heq
    cases heq
  · rfl

/-- Whether all variables that are named by some parts have values. -/
def Defines (vars : Variables) (parts : List TextPart) : Prop :=
  ∀ name, .placeholder name ∈ parts → (vars.get? name).isSome = true

@[simp] theorem defines_nil : vars.Defines [] := by
  simp [Defines]

@[simp] theorem defines_literal {c : Char} : vars.Defines (.literal c :: parts) ↔
    vars.Defines parts := by
  simp [Defines]

@[simp] theorem defines_percent : vars.Defines (.percent :: parts) ↔ vars.Defines parts := by
  simp [Defines]

@[simp] theorem defines_placeholder :
    vars.Defines (.placeholder name :: parts) ↔ (vars.get? name).isSome = true ∧
    vars.Defines parts := by
  simp [Defines]

theorem Defines.congr (h : vars.Defines parts)
    (hsame : ∀ name, .placeholder name ∈ parts →
      (other.get? name).isSome = (vars.get? name).isSome) :
    other.Defines parts := by
  intro name hname
  rw [hsame name hname, h name hname]

/-- If all variables have values, each part is replaced by what it stands for. -/
theorem expand_of_defines (h : Compose parts cs) (hdefines : vars.Defines parts) :
    vars.expand cs = .ok (parts.flatMap (TextPart.value vars)) := by
  induction h with
  | nil =>
    rw [expand]
    rfl
  | literal hc h ih =>
    rw [expand_literal hc, ih (defines_literal.mp hdefines)]
    rfl
  | @placeholder name parts rest hname h ih =>
    obtain ⟨hsome, hrest⟩ := defines_placeholder.mp hdefines
    obtain ⟨value, hvalue⟩ := Option.isSome_iff_exists.mp hsome
    rw [expand_placeholder hname, ih hrest, hvalue, List.flatMap_cons, TextPart.value, hvalue]
    rfl
  | percent halone h ih =>
    rw [expand_percent halone, ih (defines_percent.mp hdefines)]
    rfl

/-- The first placeholder without a value ends the substitution. -/
theorem expand_of_undefined (h : Compose (front ++ .placeholder name :: back) cs)
    (hdefines : vars.Defines front) (hnone : vars.get? name = none) :
    vars.expand cs = .error name := by
  induction front generalizing cs with
  | nil =>
    cases h with
    | placeholder hname h => rw [expand_placeholder hname, hnone]
  | cons part front ih =>
    cases h with
    | literal hc h =>
      rw [expand_literal hc, ih h (defines_literal.mp hdefines)]
      rfl
    | placeholder hname h =>
      obtain ⟨hsome, hrest⟩ := defines_placeholder.mp hdefines
      obtain ⟨value, hvalue⟩ := Option.isSome_iff_exists.mp hsome
      rw [expand_placeholder hname, ih h hrest, hvalue]
      rfl
    | percent halone h =>
      rw [expand_percent halone, ih h (defines_percent.mp hdefines)]
      rfl

/-- Either all variables of a text have values, or there is a first placeholder without one. -/
theorem defines_or_exists_undefined (vars : Variables) (parts : List TextPart) :
    vars.Defines parts ∨ ∃ front name back, parts = front ++ .placeholder name :: back ∧
      vars.Defines front ∧ vars.get? name = none := by
  induction parts with
  | nil => exact .inl defines_nil
  | cons part parts ih =>
    rcases ih with hdefines | ⟨front, name, back, rfl, hdefines, hnone⟩
    · cases part with
      | literal c => exact .inl (defines_literal.mpr hdefines)
      | percent => exact .inl (defines_percent.mpr hdefines)
      | placeholder name =>
        cases hvalue : vars.get? name with
        | none => exact .inr ⟨[], name, parts, rfl, defines_nil, hvalue⟩
        | some value => exact .inl (defines_placeholder.mpr ⟨by simp [hvalue], hdefines⟩)
    · cases part with
      | literal c =>
        exact .inr ⟨.literal c :: front, name, back, rfl, defines_literal.mpr hdefines, hnone⟩
      | percent =>
        exact .inr ⟨.percent :: front, name, back, rfl, defines_percent.mpr hdefines, hnone⟩
      | placeholder first =>
        cases hvalue : vars.get? first with
        | none => exact .inr ⟨[], first, _, rfl, defines_nil, hvalue⟩
        | some value =>
          refine .inr ⟨.placeholder first :: front, name, back, rfl, ?_, hnone⟩
          exact defines_placeholder.mpr ⟨by simp [hvalue], hdefines⟩

section Substitute

variable {text : String}

theorem substitute_of_defines (h : Compose parts text.toList) (hdefines : vars.Defines parts) :
    vars.substitute text = .ok (String.ofList (parts.flatMap (TextPart.value vars))) := by
  rw [substitute, expand_of_defines h hdefines]

theorem substitute_of_undefined (h : Compose (front ++ .placeholder name :: back) text.toList)
    (hdefines : vars.Defines front) (hnone : vars.get? name = none) :
    vars.substitute text = .error (.undefinedVariable name) := by
  rw [substitute, expand_of_undefined h hdefines hnone]

/-- What the values are made of does not matter to whether substitution fails. -/
theorem substitute_eq_error_iff (h : Compose parts text.toList)
    (hsame : ∀ name, .placeholder name ∈ parts →
      (other.get? name).isSome = (vars.get? name).isSome)
    (cause : RunCause) : other.substitute text = .error cause ↔
    vars.substitute text = .error cause := by
  rcases vars.defines_or_exists_undefined parts with hdefines | ⟨front, name, back, rfl,
    hdefines, hnone⟩
  · rw [substitute_of_defines h hdefines, substitute_of_defines h (hdefines.congr hsame)]
    constructor
    · rintro ⟨⟩
    · rintro ⟨⟩
  · have hother : other.Defines front :=
      hdefines.congr fun name hname => hsame name (List.mem_append_left _ hname)
    have hfails : other.get? name = none := by
      have hisSome := hsame name (by simp)
      rw [hnone] at hisSome
      simpa using hisSome
    rw [substitute_of_undefined h hdefines hnone, substitute_of_undefined h hother hfails]

/-- Only the variables that a text names matter to it. -/
theorem substitute_congr (h : Compose parts text.toList)
    (hsame : ∀ name, .placeholder name ∈ parts → other.get? name = vars.get? name) :
    other.substitute text = vars.substitute text := by
  have hisSome : ∀ name, .placeholder name ∈ parts →
      (other.get? name).isSome = (vars.get? name).isSome :=
    fun name hname => by rw [hsame name hname]
  rcases vars.defines_or_exists_undefined parts with hdefines | ⟨front, name, back, rfl,
    hdefines, hnone⟩
  · have hvalues : ∀ part ∈ parts, part.value other = part.value vars := by
      intro part hpart
      cases part with
      | literal c => rfl
      | percent => rfl
      | placeholder name => rw [TextPart.value, hsame name hpart, TextPart.value]
    rw [substitute_of_defines h hdefines, substitute_of_defines h (hdefines.congr hisSome),
      List.flatMap_def, List.map_congr_left hvalues, ← List.flatMap_def]
  · have hfails := substitute_of_undefined h hdefines hnone
    rw [hfails, substitute_eq_error_iff h hisSome, hfails]

end Substitute

/-- A text is made of parts in exactly one way. If all of its variables have values, substitution
    gives the values and the other parts one after the other; otherwise it fails with the name of
    the first placeholder that has none. The variables that are not named do not matter, and neither
    does what is in a value for whether there is a result. -/
theorem substitute_text_by_parts (text : String) :
    ∃ parts, Compose parts text.toList ∧
      (∀ others, Compose others text.toList → others = parts) ∧
      ∀ vars : Variables,
        (vars.Defines parts →
        vars.substitute text = .ok (String.ofList (parts.flatMap (TextPart.value vars)))) ∧
        (¬vars.Defines parts → ∃ front name back,
          parts = front ++ .placeholder name :: back ∧ vars.Defines front ∧
          vars.get? name = none ∧ vars.substitute text = .error (.undefinedVariable name)) ∧
        ∀ other : Variables,
          ((∀ name, .placeholder name ∈ parts → other.get? name = vars.get? name) →
            other.substitute text = vars.substitute text) ∧
          ((∀ name, .placeholder name ∈ parts →
            (other.get? name).isSome = (vars.get? name).isSome) →
            ∀ cause, other.substitute text = .error cause ↔
              vars.substitute text = .error cause) := by
  obtain ⟨parts, hparts⟩ := exists_compose text.toList
  have hunique : ∀ others, Compose others text.toList → others = parts :=
    fun _ hothers => hparts.unique hothers
  refine ⟨parts, hparts, hunique, fun vars => ⟨?_, ?_, fun other => ⟨?_, ?_⟩⟩⟩
  · exact substitute_of_defines hparts
  · intro hnot
    rcases vars.defines_or_exists_undefined parts with hdefines | ⟨front, name, back, rfl,
      hdefines, hnone⟩
    · exact absurd hdefines hnot
    · exact ⟨front, name, back, rfl, hdefines, hnone,
        substitute_of_undefined hparts hdefines hnone⟩
  · exact substitute_congr hparts
  · exact substitute_eq_error_iff hparts

/-- A value with percent signs in it is put in as it is, also if it reads like a placeholder of a
    variable that has no value. -/
theorem substitute_of_percent_in_value :
    Variables.Defines (.ofList [("a", "%b%")]) [.placeholder "a"] ∧
      ¬Variables.Defines (.ofList [("a", "%b%")]) [.placeholder "b"] ∧
      Variables.substitute (.ofList [("a", "%b%")]) "50% %a%b%" = .ok "50% %b%b%" := by
  obtain ⟨parts, -, hunique, hsubstitute⟩ := substitute_text_by_parts "50% %a%b%"
  have hvalue : OrderedMap.get? (.ofList [("a", "%b%")]) "a" = some "%b%" := by decide
  have hnone : OrderedMap.get? (.ofList [("a", "%b%")] : Variables) "b" = none := by decide
  have htext : "50% %a%b%".toList = ['5', '0', '%', ' ', '%', 'a', '%', 'b', '%'] := by decide
  have hcompose : Compose [.literal '5', .literal '0', .percent, .literal ' ', .placeholder "a",
      .literal 'b', .percent]
      ['5', '0', '%', ' ', '%', 'a', '%', 'b', '%'] := by
    -- There is a blank between the first two percent signs, and nothing behind the last one.
    have hfirst : StandsAlone [' ', '%', 'a', '%', 'b', '%'] :=
      .inr (.inr ⟨[' '], ['a', '%', 'b', '%'], rfl, by decide, ' ', by decide, by decide⟩)
    have hlast : StandsAlone [] := .inl (by decide)
    have hname : IsName "a".toList := ⟨by decide, by simp [isBlank]⟩
    have hplaceholder :=
      Compose.placeholder hname (.literal (show 'b' ≠ '%' by decide) (.percent hlast .nil))
    exact .literal (by decide)
      (.literal (by decide) (.percent hfirst (.literal (by decide) hplaceholder)))
  rw [← htext] at hcompose
  have hresult := (hsubstitute (.ofList [("a", "%b%")])).1
  simp only [← hunique _ hcompose, defines_literal, defines_percent, defines_placeholder,
    defines_nil, hvalue] at hresult
  simp only [defines_placeholder, hvalue, hnone, defines_nil]
  refine ⟨by simp, by simp, (hresult (by simp)).trans ?_⟩
  simp only [TextPart.value, hvalue, List.flatMap_cons, List.flatMap_nil]
  exact congrArg Except.ok (by decide)

end Variables

end InstallScript
