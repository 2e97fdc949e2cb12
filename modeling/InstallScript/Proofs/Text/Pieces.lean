import InstallScript.Text.Blank
import InstallScript.Text.Pieces

/-!
How cutting a text into pieces, joining pieces and trimming a text interact.
-/

namespace InstallScript.Text

variable {sep : Char → Bool} {cs xs ys bs : List Char} {pieces : List (List Char)} {c : Char}

theorem splitAt_eq_splitOnP (sep : Char → Bool) (cs : List Char) :
    splitAt sep cs = cs.splitOnP sep := by
  induction cs with
  | nil => rfl
  | cons c rest ih =>
    rw [List.splitOnP_cons_eq_if_modifyHead, splitAt, ih]
    cases hsep : sep c with
    | true => simp
    | false =>
      obtain ⟨piece, pieces, hpieces⟩ :=
        List.exists_cons_of_ne_nil (List.splitOnP_ne_nil sep rest)
      simp [hpieces]

theorem splitAt_ne_nil (sep : Char → Bool) (cs : List Char) : splitAt sep cs ≠ [] := by
  rw [splitAt_eq_splitOnP]
  exact List.splitOnP_ne_nil sep cs

/-- A separator divides the pieces of a text into those before it and those after it. -/
theorem splitAt_append_cons (hsep : sep c = true) (xs ys : List Char) :
    splitAt sep (xs ++ c :: ys) = splitAt sep xs ++ splitAt sep ys := by
  simp only [splitAt_eq_splitOnP]
  exact List.splitOnP_append_cons xs ys hsep

theorem splitAt_eq_singleton (h : ∀ c ∈ cs, sep c = false) : splitAt sep cs = [cs] := by
  rw [splitAt_eq_splitOnP]
  exact List.splitOnP_eq_singleton h

theorem splitAt_cons_of_false (hsep : sep c = false) (cs : List Char) :
    ∃ piece rest, splitAt sep cs = piece :: rest ∧ splitAt sep
    (c :: cs) = (c :: piece) :: rest := by
  obtain ⟨piece, rest, hpieces⟩ := List.exists_cons_of_ne_nil (splitAt_ne_nil sep cs)
  exact ⟨piece, rest, hpieces, by simp [splitAt, hsep, hpieces]⟩

/-- What is written behind a text without a separator goes into its last piece. -/
theorem splitAt_append (sep : Char → Bool) (cs : List Char) (h : ∀ c ∈ bs, sep c = false) :
    ∃ front last, splitAt sep cs = front ++ [last] ∧
      splitAt sep (cs ++ bs) = front ++ [last ++ bs] := by
  induction cs with
  | nil => exact ⟨[], [], rfl, splitAt_eq_singleton h⟩
  | cons c rest ih =>
    obtain ⟨front, last, hrest, happend⟩ := ih
    cases hsep : sep c with
    | true =>
      exact ⟨[] :: front,
        last, by simp [splitAt, hsep, hrest], by simp [splitAt, hsep, happend]⟩
    | false =>
      cases front with
      | nil =>
        exact ⟨[], c :: last, by simp [splitAt, hsep, hrest], by simp [splitAt, hsep, happend]⟩
      | cons piece front =>
        exact ⟨(c :: piece) :: front,
          last, by simp [splitAt, hsep, hrest], by simp [splitAt, hsep, happend]⟩

theorem dropLast_splitAt_append (cs : List Char) (h : ∀ c ∈ bs, sep c = false) :
    (splitAt sep (cs ++ bs)).dropLast = (splitAt sep cs).dropLast := by
  obtain ⟨front, last, hpieces, happend⟩ := splitAt_append sep cs h
  rw [hpieces, happend, List.dropLast_concat, List.dropLast_concat]

/-- The pieces of a text have no separators, and only characters of the text. -/
theorem of_mem_splitAt {piece : List Char} (h : piece ∈ splitAt sep cs) :
    ∀ c ∈ piece, sep c = false ∧ c ∈ cs := by
  induction cs generalizing piece with
  | nil =>
    cases List.mem_singleton.mp h
    simp
  | cons d rest ih =>
    have hrest : ∀ p ∈ splitAt sep rest, ∀ c ∈ p, sep c = false ∧ c ∈ d :: rest :=
      fun p hp c hc => ⟨(ih hp c hc).1, List.mem_cons_of_mem d (ih hp c hc).2⟩
    cases hsep : sep d with
    | true =>
      simp only [splitAt, hsep, List.mem_cons] at h
      rcases h with rfl | h
      · simp
      · exact hrest piece h
    | false =>
      obtain ⟨first, others, hpieces, hcons⟩ := splitAt_cons_of_false hsep rest
      rw [hcons] at h
      rw [hpieces] at hrest
      rcases List.mem_cons.mp h with rfl | h
      · intro c hc
        rcases List.mem_cons.mp hc with rfl | hc
        · exact ⟨hsep, List.mem_cons_self⟩
        · exact hrest first List.mem_cons_self c hc
      · exact hrest piece (List.mem_cons_of_mem first h)

theorem joinWith_cons {rest : List (List Char)} (h : rest ≠ []) (sep piece : List Char) :
    joinWith sep (piece :: rest) = piece ++ sep ++ joinWith sep rest := by
  obtain ⟨next, others, rfl⟩ := List.exists_cons_of_ne_nil h
  rfl

theorem joinWith_append {xs ys : List (List Char)} (hxs : xs ≠ []) (hys : ys ≠ [])
    (sep : List Char) :
    joinWith sep (xs ++ ys) = joinWith sep xs ++ (sep ++ joinWith sep ys) := by
  induction xs with
  | nil => exact absurd rfl hxs
  | cons x rest ih =>
    by_cases hrest : rest = []
    · subst hrest
      rw [List.singleton_append, joinWith_cons hys, List.append_assoc]
      rfl
    · rw [List.cons_append, joinWith_cons (by simp [hrest]), joinWith_cons hrest, ih hrest]
      simp only [List.append_assoc]

theorem joinWith_ne_nil (hne : pieces ≠ []) (h : ∀ piece ∈ pieces, piece ≠ [])
    (sep : List Char) :
    joinWith sep pieces ≠ [] := by
  cases pieces with
  | nil => exact absurd rfl hne
  | cons piece rest =>
    have hpiece := h piece List.mem_cons_self
    cases rest with
    | nil => exact hpiece
    | cons next others => simp [joinWith, hpiece]

theorem joinWith_eq_intercalate (sep : List Char) (pieces : List (List Char)) :
    joinWith sep pieces = sep.intercalate pieces := by
  fun_induction joinWith sep pieces with
  | case1 => rfl
  | case2 piece => simp
  | case3 piece rest hrest ih =>
    obtain ⟨next, others, rfl⟩ := List.exists_cons_of_ne_nil hrest
    rw [ih, List.intercalate_cons_cons]

theorem joinWith_splitAt (c : Char) (cs : List Char) :
    joinWith [c] (splitAt (· == c) cs) = cs := by
  rw [joinWith_eq_intercalate, splitAt_eq_splitOnP]
  exact List.intercalate_splitOn c

theorem mem_joinWith {sep : List Char} {pieces : List (List Char)} (h : c ∈ joinWith sep pieces) :
    c ∈ sep ∨ ∃ piece ∈ pieces, c ∈ piece := by
  fun_induction joinWith sep pieces with
  | case1 => cases h
  | case2 piece => exact .inr ⟨piece, by simp, h⟩
  | case3 piece rest _ ih =>
    rcases List.mem_append.mp h with h | h
    · rcases List.mem_append.mp h with h | h
      · exact .inr ⟨piece, by simp, h⟩
      · exact .inl h
    · rcases ih h with h | ⟨other, hother, h⟩
      · exact .inl h
      · exact .inr ⟨other, by simp [hother], h⟩

theorem infix_joinWith {piece : List Char} (h : piece ∈ pieces) (sep : List Char) :
    piece <:+: joinWith sep pieces := by
  obtain ⟨front, back, rfl⟩ := List.append_of_mem h
  have hback : piece <:+: joinWith sep (piece :: back) := by
    by_cases hnil : back = []
    · subst hnil
      exact List.infix_rfl
    · rw [joinWith_cons hnil, List.append_assoc]
      exact (List.prefix_append _ _).isInfix
  by_cases hnil : front = []
  · subst hnil
    exact hback
  · rw [joinWith_append hnil (by simp)]
    exact hback.trans ((List.suffix_append _ _).trans (List.suffix_append _ _)).isInfix

/-- Pieces without separators that are joined with one are cut apart again. -/
theorem splitAt_joinWith (hsep : sep c = true) {pieces : List (List Char)} (hne : pieces ≠ [])
    (h : ∀ piece ∈ pieces, ∀ d ∈ piece, sep d = false) :
    splitAt sep (joinWith [c] pieces) = pieces := by
  fun_induction joinWith [c] pieces with
  | case1 => exact absurd rfl hne
  | case2 piece => exact splitAt_eq_singleton (h piece (by simp))
  | case3 piece rest hrest ih =>
    rw [List.append_assoc, List.singleton_append, splitAt_append_cons hsep,
      splitAt_eq_singleton (h piece (by simp)),
        ih hrest fun other hother => h other (by simp [hother])]
    rfl

theorem splitOnce_eq_some {sep : Char} {before after : List Char}
    (h : splitOnce sep cs = some (before, after)) :
    cs = before ++ sep :: after ∧ sep ∉ before := by
  induction cs generalizing before with
  | nil => cases h
  | cons c rest ih =>
    rw [splitOnce] at h
    split at h
    · cases h
      subst c
      simp
    · rename_i hne
      obtain ⟨⟨head, tail⟩, hrest, heq⟩ := Option.map_eq_some_iff.mp h
      cases heq
      obtain ⟨hsplit, hnot⟩ := ih hrest
      refine ⟨by rw [hsplit, List.cons_append], ?_⟩
      rintro (_ | ⟨_, hmem⟩)
      · exact hne rfl
      · exact hnot hmem

theorem splitOnce_append_cons {sep : Char} {before : List Char} (h : sep ∉ before)
    (after : List Char) :
    splitOnce sep (before ++ sep :: after) = some (before, after) := by
  induction before with
  | nil => simp [splitOnce]
  | cons c before ih =>
    rw [List.mem_cons, not_or] at h
    rw [List.cons_append, splitOnce, if_neg (Ne.symm h.1), ih h.2]
    rfl

theorem splitOnce_eq_none {sep : Char} (h : splitOnce sep cs = none) : sep ∉ cs := by
  induction cs with
  | nil => simp
  | cons c rest ih =>
    rw [splitOnce] at h
    split at h
    · cases h
    · rename_i hne
      rintro (_ | ⟨_, hmem⟩)
      · exact hne rfl
      · exact ih (Option.map_eq_none_iff.mp h) hmem

theorem splitLast_eq_some {sep : Char} {before after : List Char}
    (h : splitLast sep cs = some (before, after)) :
    cs = before ++ sep :: after ∧ sep ∉ after := by
  obtain ⟨⟨tail, head⟩, hsplit, heq⟩ := Option.map_eq_some_iff.mp h
  cases heq
  obtain ⟨hcs, hnot⟩ := splitOnce_eq_some hsplit
  refine ⟨?_, by simpa using hnot⟩
  rw [← List.reverse_reverse cs, hcs]
  simp

theorem splitLast_eq_none {sep : Char} (h : splitLast sep cs = none) : sep ∉ cs := by
  have hnot := splitOnce_eq_none (Option.map_eq_none_iff.mp h)
  simpa using hnot

section Trim

/-- What trimming drops at the start of a text. -/
theorem exists_trimStart (cs : List Char) : ∃ bs, cs = bs ++ trimStart cs ∧
    ∀ c ∈ bs, isBlank c = true :=
  ⟨cs.takeWhile isBlank, List.takeWhile_append_dropWhile.symm,
    List.all_eq_true.mp List.all_takeWhile⟩

/-- What trimming drops at the end of a text. -/
theorem exists_trimEnd (cs : List Char) : ∃ bs, cs = trimEnd cs ++ bs ∧
    ∀ c ∈ bs, isBlank c = true := by
  obtain ⟨bs, hcs, hblank⟩ := exists_trimStart cs.reverse
  refine ⟨bs.reverse, ?_, fun c hc => hblank c (List.mem_reverse.mp hc)⟩
  rw [trimEnd, ← List.reverse_append]
  exact (List.reverse_eq_iff.mp hcs)

theorem trimStart_cons (h : isBlank c = false) (cs : List Char) :
    trimStart (c :: cs) = c :: cs := by
  simp [trimStart, h]

/-- A character that is not white space keeps what is behind it from being trimmed. -/
theorem trimStart_append_cons (h : isBlank c = false) (xs ys : List Char) :
    trimStart (xs ++ c :: ys) = trimStart xs ++ c :: ys := by
  rw [trimStart, List.dropWhile_append, trimStart]
  split
  · rename_i hempty
    rw [List.isEmpty_iff.mp hempty, List.nil_append, ← trimStart, trimStart_cons h]
  · rfl

/-- A character that is not white space keeps what is before it from being trimmed. -/
theorem trimEnd_append_cons (h : isBlank c = false) (xs ys : List Char) :
    trimEnd (xs ++ c :: ys) = xs ++ c :: trimEnd ys := by
  have hreverse : (xs ++ c :: ys).reverse = ys.reverse ++ c :: xs.reverse := by simp
  rw [trimEnd, hreverse, ← trimStart, trimStart_append_cons h, trimStart, trimEnd]
  simp

theorem isBlank_head_trimStart (h : (trimStart cs).head? = some c) : isBlank c = false := by
  have hnot := List.head?_dropWhile_not isBlank cs
  unfold trimStart at h
  rw [h] at hnot
  simpa using hnot

theorem isBlank_head_trim (h : (trim cs).head? = some c) : isBlank c = false := by
  obtain ⟨bs, hcs, -⟩ := exists_trimEnd (trimStart cs)
  have hhead : (trimStart cs).head? = some c := by
    rw [hcs, List.head?_append]
    unfold trim at h
    rw [h]
    rfl
  exact isBlank_head_trimStart hhead

theorem isBlank_getLast_trim (h : (trim cs).getLast? = some c) : isBlank c = false := by
  rw [trim, trimEnd, List.getLast?_reverse] at h
  exact isBlank_head_trimStart h

/-- There is nothing to trim exactly if neither the first nor the last character is white space. -/
theorem trim_eq_self_iff : trim cs = cs ↔
    (∀ c, cs.head? = some c → isBlank c = false) ∧ ∀ c, cs.getLast? = some c →
      isBlank c = false := by
  constructor
  · intro h
    rw [← h]
    exact ⟨fun c hc => isBlank_head_trim hc, fun c hc => isBlank_getLast_trim hc⟩
  · rintro ⟨hhead, hlast⟩
    have hkept : ∀ xs : List Char, (∀ c, xs.head? = some c → isBlank c = false) →
        trimStart xs = xs := by
      intro xs hxs
      cases xs with
      | nil => rfl
      | cons c rest => exact trimStart_cons (hxs c rfl) rest
    have hreverse := hkept cs.reverse fun c hc => hlast c (List.head?_reverse ▸ hc)
    rw [trim, hkept cs hhead, trimEnd]
    rw [trimStart] at hreverse
    rw [hreverse, List.reverse_reverse]

/-- There is nothing to trim from a text without white space. -/
theorem trim_eq_self (h : ∀ c ∈ cs, isBlank c = false) : trim cs = cs :=
  trim_eq_self_iff.mpr ⟨fun c hc => h c (List.mem_of_head? hc),
    fun c hc => h c (List.mem_of_getLast? hc)⟩

theorem trim_trim (cs : List Char) : trim (trim cs) = trim cs :=
  trim_eq_self_iff.mpr ⟨fun _ hc => isBlank_head_trim hc, fun _ hc => isBlank_getLast_trim hc⟩

/-- Trimmed texts stay trimmed with anything between them. -/
theorem trim_append_append (hxs : trim xs = xs) (hys : trim ys = ys) (hxne : xs ≠ [])
    (hyne : ys ≠ []) (middle : List Char) :
    trim (xs ++ (middle ++ ys)) = xs ++ (middle ++ ys) := by
  rw [trim_eq_self_iff] at hxs hys ⊢
  obtain ⟨first, hfirst⟩ := Option.ne_none_iff_exists'.mp (mt List.head?_eq_none_iff.mp hxne)
  obtain ⟨last, hlast⟩ := Option.ne_none_iff_exists'.mp (mt List.getLast?_eq_none_iff.mp hyne)
  simp only [List.head?_append, List.getLast?_append, hfirst, hlast, Option.some_or] at hxs hys ⊢
  exact ⟨hxs.1, hys.2⟩

/-- Joining pieces that are trimmed and not empty leaves nothing to trim. -/
theorem trim_joinWith (h : ∀ piece ∈ pieces, piece ≠ [] ∧ trim piece = piece)
    (sep : List Char) :
    trim (joinWith sep pieces) = joinWith sep pieces := by
  induction pieces with
  | nil => rfl
  | cons piece rest ih =>
    obtain ⟨⟨hne, htrim⟩, hrest⟩ := List.forall_mem_cons.mp h
    by_cases hnil : rest = []
    · subst hnil
      exact htrim
    · rw [joinWith_cons hnil, List.append_assoc]
      have hlast := joinWith_ne_nil hnil (fun p hp => (hrest p hp).1) sep
      exact trim_append_append htrim (ih hrest) hne hlast sep

/-- A text is its trimmed form between two runs of white space. -/
theorem exists_trim (cs : List Char) : ∃ xs ys, cs = xs ++ trim cs ++ ys ∧
    (∀ c ∈ xs, isBlank c = true) ∧ ∀ c ∈ ys, isBlank c = true := by
  obtain ⟨xs, hstart, hxs⟩ := exists_trimStart cs
  obtain ⟨ys, hend, hys⟩ := exists_trimEnd (trimStart cs)
  refine ⟨xs, ys, ?_, hxs, hys⟩
  rw [List.append_assoc, trim, ← hend, ← hstart]

/-- White space at the end of a text does not matter to what is left of it. -/
theorem trim_append_blank (xs : List Char) (hbs : ∀ c ∈ bs, isBlank c = true) :
    trim (xs ++ bs) = trim xs := by
  have hend : ∀ ys : List Char, trimEnd (ys ++ bs) = trimEnd ys := by
    intro ys
    have hreverse : ∀ c ∈ bs.reverse, isBlank c = true :=
      fun c hc => hbs c (List.mem_reverse.mp hc)
    rw [trimEnd, List.reverse_append, List.dropWhile_append_of_pos hreverse, trimEnd]
  rw [trim, trimStart, List.dropWhile_append]
  split
  · rename_i hempty
    have hnil : trimStart xs = [] := List.isEmpty_iff.mp hempty
    have hblank : (bs ++ []).dropWhile isBlank = [] := List.dropWhile_append_of_pos hbs
    rw [List.append_nil] at hblank
    rw [hblank, trim, hnil]
  · exact hend _

theorem mem_of_mem_trimEnd (h : c ∈ trimEnd cs) : c ∈ cs := by
  obtain ⟨bs, hcs, -⟩ := exists_trimEnd cs
  rw [hcs]
  exact List.mem_append_left bs h

theorem mem_of_mem_trim (h : c ∈ trim cs) : c ∈ cs := by
  obtain ⟨bs, hcs, -⟩ := exists_trimStart cs
  rw [hcs]
  exact List.mem_append_right bs (mem_of_mem_trimEnd h)

theorem count_eq_zero_of_blank (h : isBlank c = false) (hbs : ∀ d ∈ bs, isBlank d = true) :
    bs.count c = 0 := by
  refine List.count_eq_zero_of_not_mem fun hc => ?_
  rw [hbs c hc] at h
  cases h

/-- Trimming keeps every character that is not white space. -/
theorem count_trimEnd (h : isBlank c = false) (cs : List Char) :
    (trimEnd cs).count c = cs.count c := by
  obtain ⟨bs, hcs, hblank⟩ := exists_trimEnd cs
  conv => rhs; rw [hcs, List.count_append, count_eq_zero_of_blank h hblank, Nat.add_zero]

theorem count_trim (h : isBlank c = false) (cs : List Char) : (trim cs).count c = cs.count c := by
  obtain ⟨bs, hcs, hblank⟩ := exists_trimStart cs
  rw [trim, count_trimEnd h]
  conv => rhs; rw [hcs, List.count_append, count_eq_zero_of_blank h hblank, Nat.zero_add]

end Trim

end InstallScript.Text
