import InstallScript.Package.Entry

/-!
Sorting paths by their lower-case forms, and collecting folders. If different paths have different
lower-case forms, the order in which they come does not matter.
-/

namespace InstallScript

open Text

/-- Whether different texts among these have different lower-case forms. -/
def LowerDistinct (texts : List String) : Prop :=
  ∀ a ∈ texts, ∀ b ∈ texts, lower a = lower b → a = b

theorem LowerDistinct.subset {texts others : List String} (h : LowerDistinct texts)
    (hsub : others ⊆ texts) :
    LowerDistinct others :=
  fun a ha b hb => h a (hsub ha) b (hsub hb)

theorem LowerDistinct.filter {texts : List String} (h : LowerDistinct texts) (p : String → Bool) :
    LowerDistinct (texts.filter p) :=
  h.subset List.filter_sublist.subset

theorem sortByLower_perm (texts : List String) : (sortByLower texts).Perm texts := by
  have hsorted := (texts.map fun t => (lower t, t)).mergeSort_perm fun a b => !decide (b.1 < a.1)
  have hmap := hsorted.map Prod.snd
  rw [List.map_map] at hmap
  rw [sortByLower]
  simpa [Function.comp_def] using hmap

theorem pairwise_mergeSort_fst (keyed : List (String × String)) :
    (keyed.mergeSort fun a b => !decide (b.1 < a.1)).Pairwise fun a b => a.1 ≤ b.1 := by
  have hle : ∀ a b : String × String, (!decide (b.1 < a.1)) = true ↔ a.1 ≤ b.1 := by
    intro a b
    rw [Bool.not_eq_true', decide_eq_false_iff_not, String.not_lt]
  have htrans : ∀ a b c : String × String, (!decide (b.1 < a.1)) = true →
      (!decide (c.1 < b.1)) = true →
      (!decide (c.1 < a.1)) = true := by
    simp only [hle]
    exact fun a b c => String.le_trans
  have htotal : ∀ a b : String × String, (!decide (b.1 < a.1) || !decide (a.1 < b.1)) =
      true := by
    simp only [Bool.or_eq_true, hle]
    exact fun a b => String.le_total a.1 b.1
  exact (List.pairwise_mergeSort htrans htotal keyed).imp fun {a b} hab => (hle a b).mp hab

/-- Sorted texts do not decrease in their lower-case forms. -/
theorem pairwise_sortByLower (texts : List String) :
    (sortByLower texts).Pairwise fun a b => lower a ≤ lower b := by
  have hkey : ∀ a : String × String,
      a ∈ (texts.map fun t => (lower t, t)).mergeSort (fun a b => !decide (b.1 < a.1)) →
          a.1 = lower a.2 := by
    intro a ha
    rw [List.mem_mergeSort] at ha
    obtain ⟨t, -, rfl⟩ := List.mem_map.mp ha
    rfl
  rw [sortByLower, List.pairwise_map]
  refine (pairwise_mergeSort_fst _).imp_of_mem fun ha hb hab => ?_
  rw [← hkey _ ha, ← hkey _ hb]
  exact hab

namespace FileSet

variable {all known : List String} {folder : String}

theorem sameName_eq_false_iff {a b : String} : sameName a b = false ↔
    nameKey a ≠ nameKey b := by
  rw [← Bool.not_eq_true, sameName_iff]

/-- What is collected is what was known and every text that comes before all other spellings of
    it. -/
theorem mem_foldl_addFolder_iff : folder ∈ all.foldl addFolder known ↔ folder ∈ known ∨
    ∃ before after, all = before ++ folder :: after ∧
      ∀ other ∈ known ++ before, sameName other folder = false := by
  induction all generalizing known with
  | nil => simp
  | cons first rest ih =>
    have hcons : (∃ before after, first :: rest = before ++ folder :: after ∧
        ∀ other ∈ known ++ before, sameName other folder = false) ↔
        (first = folder ∧ ∀ other ∈ known, sameName other folder = false) ∨
          ∃ before after, rest = before ++ folder :: after ∧
            ∀ other ∈ known ++ first :: before, sameName other folder = false := by
      constructor
      · rintro ⟨before, after, hall, hnone⟩
        cases before with
        | nil =>
          cases hall
          exact .inl ⟨rfl, fun other hother => hnone other (by simp [hother])⟩
        | cons head before =>
          cases hall
          exact .inr ⟨before, after, rfl, hnone⟩
      · rintro (⟨rfl, hnone⟩ | ⟨before, after, rfl, hnone⟩)
        · exact ⟨[], rest, rfl, by simpa using hnone⟩
        · exact ⟨first :: before, after, rfl, hnone⟩
    rw [List.foldl_cons, addFolder, ih, hcons]
    by_cases hany : known.any (sameName · first) = true
    · obtain ⟨other, hother, hsame⟩ := List.any_eq_true.mp hany
      have hfirst : (∀ name ∈ known, sameName name folder = false) →
          sameName first folder = false := by
        intro hnone
        have hne := sameName_eq_false_iff.mp (hnone other hother)
        rw [sameName_iff.mp hsame] at hne
        exact sameName_eq_false_iff.mpr hne
      have hnone : ∀ before,
          (∀ name ∈ known ++ first :: before, sameName name folder = false) ↔
          ∀ name ∈ known ++ before, sameName name folder = false := by
        intro before
        grind
      have hknown : ¬(first = folder ∧ ∀ name ∈ known, sameName name folder = false) := by
        rintro ⟨rfl, hnone⟩
        exact absurd (hnone other hother) (by simp [hsame])
      simp only [if_pos hany, hnone, hknown, false_or]
    · have hnone : ∀ name ∈ known, sameName name first = false := by simpa using hany
      rw [if_neg hany]
      grind

/-- No two of the texts collected differ only in the case of letters. -/
theorem pairwise_foldl_addFolder (h : known.Pairwise fun a b => sameName a b = false) :
    (all.foldl addFolder known).Pairwise fun a b => sameName a b = false := by
  induction all generalizing known with
  | nil => exact h
  | cons first rest ih =>
    rw [List.foldl_cons, addFolder]
    split
    · exact ih h
    · rename_i hany
      have hnone : ∀ name ∈ known, sameName name first = false := by simpa using hany
      refine ih (List.pairwise_append.mpr ⟨h, List.pairwise_singleton _ _, ?_⟩)
      simpa using hnone

/-- If no two of the folders differ only in the case of letters, each is collected once. -/
theorem foldl_addFolder (h : ∀ a ∈ all, ∀ b ∈ all, sameName a b = true → a = b) :
    (all.foldl addFolder []).Nodup ∧ ∀ folder, folder ∈ all.foldl addFolder [] ↔
      folder ∈ all := by
  constructor
  · refine (pairwise_foldl_addFolder List.Pairwise.nil).imp fun {a b} hdiffer heq => ?_
    rw [heq, sameName_refl] at hdiffer
    cases hdiffer
  · intro folder
    rw [mem_foldl_addFolder_iff]
    constructor
    · rintro (hnil | ⟨before, after, rfl, -⟩)
      · cases hnil
      · simp
    · intro hmem
      obtain ⟨before, after, hall, hnot⟩ := List.eq_append_cons_of_mem hmem
      refine .inr ⟨before, after, hall,
        fun other hother => Bool.eq_false_iff.mpr fun hsame => hnot ?_⟩
      have hother : other ∈ before := hother
      rw [← h other (by simp [hall, hother]) folder hmem hsame]
      exact hother

end FileSet

end InstallScript
