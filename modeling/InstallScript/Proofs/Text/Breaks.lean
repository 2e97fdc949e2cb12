import InstallScript.Proofs.Text.Lower

/-!
Lower-case forms of texts in parts. Lower-casing makes no control character, digit or punctuation
mark of ASCII out of anything else, and a character that neither has case nor is ignored where case
matters divides a text into two parts that are lower-cased on their own.
-/

namespace InstallScript.Text

variable {c : Char}

/-- What the table maps a character to is no character of ASCII before the small letters. -/
theorem apply_lowerRuns (d : Char) : CaseRun.apply lowerRuns d = d ∨
    (CaseRun.apply lowerRuns d).toNat = 0 ∨
    0x61 ≤ (CaseRun.apply lowerRuns d).toNat := by
  have htargets : ∀ r ∈ lowerRuns, 0x61 ≤ r.target := by decide +kernel
  unfold CaseRun.apply
  split
  · rename_i r hfound
    have htarget := htargets r (Array.mem_of_find?_eq_some hfound)
    right
    -- A number that is no code point stands for the character with code zero.
    by_cases hvalid : (r.target + (d.toNat - r.first)).isValidChar
    · rw [Char.ofNat, dif_pos hvalid]
      exact .inr (Nat.le_add_right_of_le htarget)
    · rw [Char.ofNat, dif_neg hvalid]
      exact .inl rfl
  · exact .inl rfl

theorem eq_of_mem_lowerChar {d : Char} (hpos : 0 < c.toNat) (hlt : c.toNat < 0x61)
    (h : c ∈ lowerChar d) : c = d := by
  unfold lowerChar at h
  split at h
  · rw [List.mem_singleton] at h
    have hcode : c.toNat = _ := congrArg Char.toNat h
    rw [toNat_toLower] at hcode
    split at hcode
    · omega
    · exact Char.toNat_inj.mp hcode
  · split at h
    · rcases List.mem_cons.mp h with rfl | h
      · exact absurd hlt (by decide)
      · cases List.mem_singleton.mp h
        exact absurd hlt (by decide)
    · rw [List.mem_singleton] at h
      rcases apply_lowerRuns d with hsame | hzero | hlarge
      · exact h.trans hsame
      · rw [← h] at hzero
        omega
      · rw [← h] at hlarge
        omega

/-- A mark of a lower-case form stands in the text itself. -/
theorem mem_of_mem_lowerFrom {before cs : List Char} (hpos : 0 < c.toNat) (hlt : c.toNat < 0x61)
    (h : c ∈ lowerFrom before cs) : c ∈ cs := by
  induction cs generalizing before with
  | nil => cases h
  | cons d rest ih =>
    rw [lowerFrom] at h
    rcases List.mem_append.mp h with h | h
    · split at h
      · -- Neither of the small sigmas is that far to the front.
        rw [List.mem_singleton] at h
        rw [h] at hlt
        split at hlt <;> exact absurd hlt (by decide)
      · exact List.mem_cons.mpr (.inl (eq_of_mem_lowerChar hpos hlt h))
    · exact List.mem_cons_of_mem d (ih h)

theorem mem_of_mem_lower {s : String} (hpos : 0 < c.toNat) (hlt : c.toNat < 0x61)
    (h : c ∈ (lower s).toList) :
    c ∈ s.toList := by
  rw [lower, String.toList_ofList] at h
  exact mem_of_mem_lowerFrom hpos hlt h

/-- Whether a character stands between words: it has no case, and is not ignored where case
    matters. -/
def BreaksWords (c : Char) : Prop :=
  isCased c = false ∧ isCaseIgnorable c = false

theorem BreaksWords.ne_sigma (h : BreaksWords c) : c ≠ 'Σ' := by
  rintro rfl
  exact absurd h.1 (by decide +kernel)

/-- What lies beyond a character between words plays no role. -/
theorem BreaksWords.meetsCased_append (h : BreaksWords c) (xs ys : List Char) :
    meetsCased (xs ++ c :: ys) = meetsCased xs := by
  unfold meetsCased
  rw [List.dropWhile_append]
  cases hfirst : xs.dropWhile isCaseIgnorable with
  | nil => simp [h.1, h.2]
  | cons d rest => simp

theorem BreaksWords.lowerFrom_append (h : BreaksWords c) (front before ys : List Char) :
    lowerFrom (front ++ c :: before) ys = lowerFrom front ys := by
  induction ys generalizing front with
  | nil => rfl
  | cons d rest ih =>
    have hrest := ih (d :: front)
    rw [List.cons_append] at hrest
    rw [lowerFrom, lowerFrom, h.meetsCased_append, hrest]

/-- The lower-case form of a text that is divided by a character between words. -/
theorem BreaksWords.lowerFrom_cut (h : BreaksWords c) (before xs ys : List Char) :
    lowerFrom before (xs ++ c :: ys) = lowerFrom before xs ++ (lowerChar c ++ lowerFrom [] ys) := by
  induction xs generalizing before with
  | nil =>
    have hrest := h.lowerFrom_append [] before ys
    simp only [List.nil_append] at hrest
    simp only [List.nil_append, lowerFrom, if_neg h.ne_sigma, hrest]
  | cons d rest ih =>
    rw [List.cons_append, lowerFrom, lowerFrom, h.meetsCased_append, ih, List.append_assoc]

end InstallScript.Text
