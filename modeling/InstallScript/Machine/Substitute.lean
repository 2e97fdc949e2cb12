import InstallScript.Machine.Failure
import InstallScript.OrderedMap
import InstallScript.Text.Blank
import InstallScript.Text.Pieces

/-!
Variables, and putting their values into texts. A placeholder is a name between two percent signs;
a percent sign that does not start a placeholder stands for itself, and values are never searched
for further placeholders.
-/

namespace InstallScript

open Text

/-- The variables of a run with their values. -/
abbrev Variables := OrderedMap String

/-- The name of a placeholder whose first percent sign has been read, and what follows its second.
    A name is not empty and has no white space. -/
def placeholder? (cs : List Char) : Option (List Char × List Char) :=
  match splitOnce '%' cs with
  | some (name, rest) => if name.isEmpty || name.any isBlank then none else some (name, rest)
  | none => none

theorem length_of_splitOnce {sep : Char} {cs before after : List Char}
    (h : splitOnce sep cs = some (before, after)) : after.length < cs.length := by
  induction cs generalizing before after with
  | nil => simp [splitOnce] at h
  | cons c rest ih =>
    rw [splitOnce] at h
    split at h
    · simp only [Option.some.injEq, Prod.mk.injEq] at h
      simp [← h.2]
    · obtain ⟨⟨b, a⟩, hs, he⟩ := Option.map_eq_some_iff.mp h
      simp only [Prod.mk.injEq] at he
      have := ih hs
      rw [← he.2, List.length_cons]
      omega

theorem length_of_placeholder? {cs name rest : List Char}
    (h : placeholder? cs = some (name, rest)) : rest.length < cs.length := by
  unfold placeholder? at h
  split at h
  · rename_i hs
    split at h
    · simp at h
    · simp only [Option.some.injEq, Prod.mk.injEq] at h
      rw [← h.2]
      exact length_of_splitOnce hs
  · simp at h

namespace Variables

/-- Puts values into a text, or gives the name of the first placeholder that has no value. -/
def expand (vars : Variables) (cs : List Char) : Except String (List Char) :=
  match cs with
  | [] => .ok []
  | c :: rest =>
    if c = '%' then
      match _h : placeholder? rest with
      | some (name, after) =>
        match vars.get? (String.ofList name) with
        | some value => (vars.expand after).map (value.toList ++ ·)
        | none => .error (String.ofList name)
      | none => (vars.expand rest).map ('%' :: ·)
    else (vars.expand rest).map (c :: ·)
termination_by cs.length
decreasing_by
  · have := length_of_placeholder? _h
    simp only [List.length_cons]
    omega
  · simp
  · simp

/-- Puts values into a text. -/
def substitute (vars : Variables) (text : String) : Except RunCause String :=
  match vars.expand text.toList with
  | .ok cs => .ok (String.ofList cs)
  | .error name => .error (.undefinedVariable name)

/-- Puts values into texts, one after the other. -/
def substituteAll (vars : Variables) (texts : List String) : Except RunCause (List String) :=
  texts.mapM vars.substitute

/-- Puts values into a text that may be missing. -/
def substituteOption (vars : Variables) (text : Option String) :
    Except RunCause (Option String) :=
  text.mapM vars.substitute

end Variables

end InstallScript
