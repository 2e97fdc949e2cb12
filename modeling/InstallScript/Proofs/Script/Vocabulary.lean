import InstallScript.Script.Keyword
import InstallScript.Text.Blank

/-!
Names in scripts are looked up without regard to case. No two names of a table are alike in that
sense, so every name leads back to its own entry, and case does not touch what is no letter.
-/

namespace InstallScript.Text

variable {c d : Char}

theorem isAlpha_iff : c.isAlpha = true ↔ (65 ≤ c.toNat ∧ c.toNat ≤ 90) ∨
    (97 ≤ c.toNat ∧ c.toNat ≤ 122) := by
  change (decide (c.val ≥ 'A'.val ∧ c.val ≤ 'Z'.val) ||
    (decide (c.val ≥ 'a'.val) && decide (c.val ≤ 'z'.val))) = true ↔ _
  simp only [Bool.or_eq_true, Bool.and_eq_true, decide_eq_true_eq, ge_iff_le,
    UInt32.le_iff_toNat_le]
  rfl

theorem toNat_toLower (c : Char) :
    c.toLower.toNat = if 65 ≤ c.toNat ∧ c.toNat ≤ 90 then c.toNat + 32 else c.toNat := by
  have hupper : c.val ≥ 'A'.val ∧ c.val ≤ 'Z'.val ↔ 65 ≤ c.toNat ∧ c.toNat ≤ 90 := by
    simp only [ge_iff_le, UInt32.le_iff_toNat_le]
    rfl
  unfold Char.toLower
  split
  · rename_i h
    have hbound := hupper.mp h
    rw [if_pos hbound]
    change (c.val + 32).toNat = c.val.toNat + 32
    change 65 ≤ c.val.toNat ∧ c.val.toNat ≤ 90 at hbound
    rw [UInt32.toNat_add]
    change (c.val.toNat + 32) % 2 ^ 32 = _
    omega
  · rename_i h
    rw [if_neg (mt hupper.mpr h)]

theorem isBlank_of_isAlpha (h : c.isAlpha = true) : isBlank c = false := by
  rw [isAlpha_iff] at h
  simp only [isBlank, Bool.or_eq_false_iff, Bool.and_eq_false_iff, decide_eq_false_iff_not,
    beq_eq_false_iff_ne]
  omega

/-- Only a letter has another spelling. -/
theorem toLower_eq_iff (h : d.isAlpha = false) : c.toLower = d ↔ c = d := by
  rw [← Bool.not_eq_true, isAlpha_iff] at h
  rw [← Char.toNat_inj, ← Char.toNat_inj, toNat_toLower]
  split <;> omega

theorem count_nameKey (h : d.isAlpha = false) (s : String) :
    (nameKey s).count d = s.toList.count d := by
  rw [nameKey, List.count_eq_countP, List.countP_map, List.count_eq_countP]
  apply List.countP_congr
  intro c _
  simp [toLower_eq_iff h]

/-- Texts that differ only in the case of letters agree on all other characters. -/
theorem count_of_nameKeys {xs ys : List String} (h : d.isAlpha = false)
    (hkeys : xs.map nameKey = ys.map nameKey) :
    (xs.flatMap String.toList).count d = (ys.flatMap String.toList).count d := by
  have hcount : ∀ zs : List String, (zs.flatMap String.toList).count d =
      (zs.map nameKey).flatten.count d := by
    intro zs
    induction zs with
    | nil => rfl
    | cons z rest ih => simp [ih, count_nameKey h]
  rw [hcount xs, hcount ys, hkeys]

theorem not_mem_of_nameKeys {xs ys : List String} (h : d.isAlpha = false)
    (hkeys : xs.map nameKey = ys.map nameKey) (hys : ∀ y ∈ ys, d ∉ y.toList) :
    ∀ x ∈ xs, d ∉ x.toList := by
  have hzero : (ys.flatMap String.toList).count d = 0 := by
    refine List.count_eq_zero_of_not_mem fun hmem => ?_
    obtain ⟨y, hy, hd⟩ := List.mem_flatMap.mp hmem
    exact hys y hy hd
  rw [← count_of_nameKeys h hkeys, List.count_eq_zero] at hzero
  exact fun x hx hd => hzero (List.mem_flatMap.mpr ⟨x, hx, hd⟩)

end InstallScript.Text

namespace InstallScript.Script

open Text

/-- In a table without two alike names, what is found for a word is the entry that is named like
    it. -/
theorem find?_sameName_iff {α : Type} {name : α → String} {table : List α} {a : α}
    {word : String} (hnames : (table.map fun b => nameKey (name b)).Nodup) (ha : a ∈ table) :
    table.find? (fun b => sameName (name b) word) = some a ↔ sameName (name a) word = true := by
  constructor
  · exact fun h => (List.find?_eq_some_iff_append.mp h).1
  · intro h
    obtain ⟨front, back, rfl⟩ := List.append_of_mem ha
    refine List.find?_eq_some_iff_append.mpr ⟨h, front, back, rfl, ?_⟩
    intro b hb
    rw [Bool.not_eq_true', ← Bool.not_eq_true, sameName_iff, ← sameName_iff.mp h]
    rw [List.map_append, List.nodup_append] at hnames
    exact hnames.2.2 _ (List.mem_map_of_mem hb) _ (by simp)

namespace Keyword

theorem mem_all (k : Keyword) : k ∈ all := by
  cases k <;> decide

/-- No two keywords are alike, and all are made of letters. The names are spelled out once for
    both. -/
theorem spelling :
    (all.map fun k => nameKey k.name).Nodup ∧
      ∀ k ∈ all, k.name.toList.all Char.isAlpha = true := by
  decide +kernel

theorem ofWord?_eq_some_iff {word : String} {k : Keyword} : ofWord? word = some k ↔
    sameName k.name word = true :=
  find?_sameName_iff spelling.1 k.mem_all

@[simp] theorem ofWord?_name (k : Keyword) : ofWord? k.name = some k :=
  ofWord?_eq_some_iff.mpr (sameName_refl _)

theorem nameKey_of_ofWord? {word : String} {k : Keyword} (h : ofWord? word = some k) :
    nameKey k.name = nameKey word :=
  sameName_iff.mp (ofWord?_eq_some_iff.mp h)

theorem isAlpha_of_mem_name {k : Keyword} {c : Char} (h : c ∈ k.name.toList) : c.isAlpha = true :=
  List.all_eq_true.mp (spelling.2 k k.mem_all) c h

theorem name_ne_empty (k : Keyword) : k.name ≠ "" := by
  cases k <;> simp [name]

end Keyword

namespace Condition

theorem mem_all (c : Condition) : c ∈ all := by
  cases c <;> decide

theorem nodup_names : (all.map fun c => nameKey c.name).Nodup := by
  decide +kernel

theorem ofName?_eq_some_iff {word : String} {c : Condition} : ofName? word = some c ↔
    sameName c.name word = true :=
  find?_sameName_iff nodup_names c.mem_all

@[simp] theorem ofName?_name (c : Condition) : ofName? c.name = some c :=
  ofName?_eq_some_iff.mpr (sameName_refl _)

end Condition

namespace Enumeration

theorem mem_all (e : Enumeration) : e ∈ all := by
  cases e <;> decide

theorem nodup_names : (all.map fun e => nameKey e.name).Nodup := by
  decide +kernel

theorem ofName?_eq_some_iff {word : String} {e : Enumeration} : ofName? word = some e ↔
    sameName e.name word = true :=
  find?_sameName_iff nodup_names e.mem_all

@[simp] theorem ofName?_name (e : Enumeration) : ofName? e.name = some e :=
  ofName?_eq_some_iff.mpr (sameName_refl _)

end Enumeration

end InstallScript.Script
