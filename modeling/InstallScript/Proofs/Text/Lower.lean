import InstallScript.Proofs.Script.Vocabulary
import InstallScript.Text.Lower

/-!
Lower-case forms and names. Which characters around a capital sigma have case does not depend on the
case of ASCII letters, so names that are equal up to that have one lower-case form. Nor does its
length depend on them, so a text from which characters are taken away has another one.
-/

namespace InstallScript.Text

theorem toLower_of_le {c : Char} (h : 0x80 ≤ c.toNat) : c.toLower = c := by
  rw [← Char.toNat_inj, toNat_toLower]
  split <;> omega

theorem toNat_toLower_lt_iff (c : Char) : c.toLower.toNat < 0x80 ↔ c.toNat < 0x80 := by
  rw [toNat_toLower]
  split <;> omega

theorem isAlpha_toLower (c : Char) : c.toLower.isAlpha = c.isAlpha := by
  rw [Bool.eq_iff_iff, isAlpha_iff, isAlpha_iff, toNat_toLower]
  split <;> omega

theorem toLower_toLower (c : Char) : c.toLower.toLower = c.toLower := by
  have hlower : ¬(65 ≤ c.toLower.toNat ∧ c.toLower.toNat ≤ 90) := by
    rw [toNat_toLower]
    split <;> omega
  rw [← Char.toNat_inj, toNat_toLower c.toLower, if_neg hlower]

theorem isCased_toLower (c : Char) : isCased c.toLower = isCased c := by
  unfold isCased
  simp only [toNat_toLower_lt_iff, isAlpha_toLower]
  split
  · rfl
  · rw [toLower_of_le (by omega)]

theorem isCaseIgnorable_toLower (c : Char) : isCaseIgnorable c.toLower = isCaseIgnorable c := by
  unfold isCaseIgnorable
  simp only [toNat_toLower_lt_iff]
  split
  · -- None of the ignorable characters of ASCII is a letter.
    rw [Bool.eq_iff_iff, List.contains_iff_mem, List.contains_iff_mem]
    simp (disch := decide) only [List.mem_cons, toLower_eq_iff, List.not_mem_nil]
  · rw [toLower_of_le (by omega)]

theorem lowerChar_toLower (c : Char) : lowerChar c.toLower = lowerChar c := by
  unfold lowerChar
  simp only [toNat_toLower_lt_iff, toLower_toLower]
  split
  · rfl
  · rw [toLower_of_le (by omega)]

theorem meetsCased_map_toLower (cs : List Char) :
    meetsCased (cs.map Char.toLower) = meetsCased cs := by
  have hignorable : isCaseIgnorable ∘ Char.toLower = isCaseIgnorable :=
    funext isCaseIgnorable_toLower
  unfold meetsCased
  rw [List.dropWhile_map, hignorable]
  cases cs.dropWhile isCaseIgnorable with
  | nil => rfl
  | cons c rest => exact isCased_toLower c

theorem lowerFrom_map_toLower (before cs : List Char) :
    lowerFrom (before.map Char.toLower) (cs.map Char.toLower) = lowerFrom before cs := by
  induction cs generalizing before with
  | nil => rfl
  | cons c rest ih =>
    have hsigma : c.toLower = 'Σ' ↔ c = 'Σ' := toLower_eq_iff (by decide)
    have hrest := ih (c :: before)
    rw [List.map_cons] at hrest
    simp only [List.map_cons, lowerFrom, hsigma, meetsCased_map_toLower, lowerChar_toLower, hrest]

/-- Names that are equal up to the case of ASCII letters have one lower-case form. -/
theorem lower_eq_of_sameName {a b : String} (h : sameName a b = true) : lower a = lower b := by
  have hkey : ∀ s : String, lower s = String.ofList (lowerFrom [] (nameKey s)) := by
    intro s
    rw [lower, nameKey, ← List.map_nil (f := Char.toLower), lowerFrom_map_toLower, List.map_nil]
  rw [hkey a, hkey b, sameName_iff.mp h]

theorem length_lowerChar_pos (c : Char) : 0 < (lowerChar c).length := by
  unfold lowerChar
  split
  · simp
  · split <;> simp

/-- How long a lower-case form is depends on each character alone, also for a capital sigma. -/
theorem length_lowerFrom (before cs : List Char) :
    (lowerFrom before cs).length = (cs.flatMap lowerChar).length := by
  induction cs generalizing before with
  | nil => rfl
  | cons c rest ih =>
    rw [lowerFrom, List.length_append, ih, List.flatMap_cons, List.length_append]
    congr 1
    split
    · rename_i hsigma
      subst hsigma
      simp [lowerChar]
    · rfl

/-- What is left of a text has a shorter lower-case form, unless nothing was taken away. -/
theorem length_lowerFrom_of_sublist {xs ys : List Char} (h : xs.Sublist ys) :
    xs = ys ∨ (lowerFrom [] xs).length < (lowerFrom [] ys).length := by
  simp only [length_lowerFrom]
  induction h with
  | slnil => exact .inl rfl
  | @cons xs ys c _ ih =>
    have hpos := length_lowerChar_pos c
    rw [List.flatMap_cons, List.length_append]
    rcases ih with rfl | hlt <;> omega
  | @cons_cons xs ys c _ ih =>
    rw [List.flatMap_cons, List.flatMap_cons, List.length_append, List.length_append]
    rcases ih with rfl | hlt
    · exact .inl rfl
    · omega

/-- A text of which something is left out has another lower-case form. -/
theorem eq_of_sublist_of_lower {s t : String} (hsub : s.toList.Sublist t.toList)
    (h : lower s = lower t) : s = t := by
  have hlists : lowerFrom [] s.toList = lowerFrom [] t.toList := String.ofList_injective h
  rcases length_lowerFrom_of_sublist hsub with heq | hlt
  · exact String.toList_inj.mp heq
  · rw [hlists] at hlt
    omega

end InstallScript.Text
