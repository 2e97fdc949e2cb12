import InstallScript.Proofs.Text.Pieces
import InstallScript.Script.Word

/-!
Words of a line and their quoting. Splitting a line loses only quotes and white space, and words
that are written with quotes where they need them are read back as they were.
-/

namespace InstallScript.Script

open Text

variable {word : Option (List Char)} {quoted : Bool} {cs acc rest : List Char}
  {words : List String} {c : Char}

theorem splitFrom_quote (word : Option (List Char)) (quoted : Bool) (rest : List Char) :
    splitFrom word quoted ('"' :: rest) = splitFrom (some (word.getD [])) (!quoted) rest := by
  cases word <;> simp [splitFrom]

theorem splitFrom_char (hquote : c ≠ '"') (hblank : (isBlank c && !quoted) = false)
    (word : Option (List Char)) (rest : List Char) :
    splitFrom word quoted (c :: rest) = splitFrom (some (c :: word.getD [])) quoted rest := by
  cases word <;> simp [splitFrom, hquote, hblank]

theorem ne_quote_of_isBlank (hblank : isBlank c = true) : c ≠ '"' := by
  rintro rfl
  cases hblank

theorem splitFrom_blank (hblank : isBlank c = true) (word : Option (List Char)) (rest : List Char) :
    splitFrom word false (c :: rest) =
      (splitFrom none false rest).map
        ((word.map fun acc => String.ofList acc.reverse).toList ++ ·) := by
  have hquote := ne_quote_of_isBlank hblank
  cases word <;> simp [splitFrom, hquote, hblank]

/-- The words of a line are made of its characters, in their order and without the quotes. -/
theorem sublist_of_splitFrom (h : splitFrom word quoted cs = some words) :
    (words.flatMap String.toList).Sublist ((word.getD []).reverse ++ cs.filter (· != '"')) := by
  fun_induction splitFrom word quoted cs generalizing words with
  | case1 => cases h
  | case2 word =>
    cases h
    cases word <;> simp
  | case3 word quoted rest ih => simpa using ih h
  | case4 quoted c rest hquote hblank acc ih =>
    obtain ⟨others, hothers, rfl⟩ := Option.map_eq_some_iff.mp h
    have hrest := (ih hothers).trans (List.sublist_cons_self c _)
    simpa [hquote] using (List.Sublist.refl acc.reverse).append hrest
  | case5 quoted c rest hquote hblank ih =>
    have hrest := (ih h).trans (List.sublist_cons_self c _)
    simpa [hquote] using hrest
  | case6 word quoted c rest hquote hblank ih => simpa [hquote] using ih h

/-- Every character of a line is in one of its words, quotes and white space apart. -/
theorem filter_of_splitFrom (h : splitFrom word quoted cs = some words) :
    (words.flatMap String.toList).filter (!isBlank ·) =
      ((word.getD []).reverse ++ cs.filter (· != '"')).filter (!isBlank ·) := by
  fun_induction splitFrom word quoted cs generalizing words with
  | case1 => cases h
  | case2 word =>
    cases h
    cases word <;> simp
  | case3 word quoted rest ih => simpa using ih h
  | case4 quoted c rest hquote hblank acc ih =>
    obtain ⟨others, hothers, rfl⟩ := Option.map_eq_some_iff.mp h
    have hrest := ih hothers
    simp_all
  | case5 quoted c rest hquote hblank ih =>
    have hrest := ih h
    simp_all
  | case6 word quoted c rest hquote hblank ih => simpa [hquote] using ih h

theorem mem_of_splitWords {text w : String} {c : Char} (h : splitWords text = some words)
    (hw : w ∈ words) (hc : c ∈ w.toList) : c ∈ text.toList ∧ c ≠ '"' := by
  have hmem := (sublist_of_splitFrom h).mem (List.mem_flatMap.mpr ⟨w, hw, hc⟩)
  simpa using hmem

/-- A character that is neither a quote nor white space stands as often in a line as in its
    words. -/
theorem count_of_splitWords {text : String} {c : Char} (h : splitWords text = some words)
    (hquote : c ≠ '"') (hblank : isBlank c = false) :
    (words.flatMap String.toList).count c = text.toList.count c := by
  have hfilter := congrArg (List.count c) (filter_of_splitFrom h)
  simpa [hquote, hblank] using hfilter

/-- Between quotes, and outside of them without white space, characters go on with the word before
    them. -/
theorem splitFrom_append (h : ∀ c ∈ cs, c ≠ '"' ∧ (isBlank c && !quoted) = false)
    (acc rest : List Char) :
    splitFrom (some acc) quoted (cs ++ rest) =
      splitFrom (some (cs.reverse ++ acc)) quoted rest := by
  induction cs generalizing acc with
  | nil => rfl
  | cons c cs ih =>
    obtain ⟨hquote, hblank⟩ := h c List.mem_cons_self
    rw [List.cons_append, splitFrom_char hquote hblank]
    simpa using ih (fun d hd => h d (List.mem_cons_of_mem c hd)) (c :: acc)

/-- A character that is not white space starts a word. -/
theorem splitFrom_none_cons (h : isBlank c = false) (rest : List Char) :
    splitFrom none false (c :: rest) = splitFrom (some []) false (c :: rest) := by
  simp [splitFrom, h]

theorem splitFrom_quoteWord {w : String} (h : '"' ∉ w.toList) (rest : List Char) :
    splitFrom none false ((quoteWord w).toList ++ rest) =
      splitFrom (some w.toList.reverse) false rest := by
  have hquote : ∀ c ∈ w.toList, c ≠ '"' := fun c hc heq => h (heq ▸ hc)
  unfold quoteWord
  split
  · have hinside : ∀ c ∈ w.toList, c ≠ '"' ∧ (isBlank c && !true) = false :=
      fun c hc => ⟨hquote c hc, by simp⟩
    have happend := splitFrom_append hinside [] ('"' :: rest)
    simpa [splitFrom] using happend
  · rename_i hplain
    simp only [hasBlank, Bool.or_eq_true, List.any_eq_true, not_or, not_exists, not_and,
      Bool.not_eq_true] at hplain
    obtain ⟨hne, hblank⟩ := hplain
    have hunquoted : ∀ c ∈ w.toList, c ≠ '"' ∧ (isBlank c && !false) = false :=
      fun c hc => ⟨hquote c hc, by simp [hblank c hc]⟩
    have happend := splitFrom_append hunquoted [] rest
    cases hw : w.toList with
    | nil => simp_all
    | cons c cs =>
      rw [hw, List.append_nil, List.cons_append] at happend
      rw [List.cons_append, splitFrom_none_cons (hblank c (by simp [hw])), happend]

/-- A word ends where white space follows, or nothing. -/
theorem splitFrom_some_of_head (h : ∀ c, rest.head? = some c → isBlank c = true)
    (acc : List Char) :
    splitFrom (some acc) false rest =
      (splitFrom none false rest).map (String.ofList acc.reverse :: ·) := by
  cases rest with
  | nil => rfl
  | cons c rest =>
    have hc := h c rfl
    rw [splitFrom_blank hc, splitFrom_blank hc]
    simp

/-- Words without quotes read back after they have been written with a blank between each two. -/
theorem splitWords_intercalate (h : ∀ w ∈ words, '"' ∉ w.toList) :
    splitWords (String.intercalate " " (words.map quoteWord)) = some words := by
  rw [splitWords, String.toList_intercalate]
  induction words with
  | nil => rfl
  | cons w rest ih =>
    have hw := h w List.mem_cons_self
    have hrest := ih fun v hv => h v (List.mem_cons_of_mem w hv)
    cases rest with
    | nil =>
      have hsplit := splitFrom_quoteWord hw []
      simpa [splitFrom] using hsplit
    | cons v rest =>
      have hblank : ∀ cs : List Char, " ".toList ++ cs = ' ' :: cs := fun _ => rfl
      simp only [List.map_cons, List.intercalate_cons_cons, List.append_assoc] at hrest ⊢
      rw [splitFrom_quoteWord hw, hblank, splitFrom_blank rfl, hrest]
      simp

/-! ### Written words -/

theorem mem_quoteWord {w : String} {c : Char} (h : c ∈ (quoteWord w).toList) :
    c = '"' ∨ c ∈ w.toList := by
  unfold quoteWord at h
  split at h
  · simp only [String.toList_append, List.mem_append] at h
    rcases h with (h | h) | h
    · exact .inl (List.mem_singleton.mp h)
    · exact .inr h
    · exact .inl (List.mem_singleton.mp h)
  · exact .inr h

theorem quoteWord_ne_nil (w : String) : (quoteWord w).toList ≠ [] := by
  unfold quoteWord
  split
  · simp
  · rename_i hplain
    simp only [Bool.or_eq_true, not_or] at hplain
    simpa using hplain.1

/-- A word is written without white space at its ends, since quotes stand around any it holds. -/
theorem trim_quoteWord (w : String) : trim (quoteWord w).toList = (quoteWord w).toList := by
  unfold quoteWord
  split
  · have hquote : trim ['"'] = ['"'] := by decide
    have happend := trim_append_append hquote hquote (by simp) (by simp) w.toList
    simpa using happend
  · rename_i hplain
    simp only [hasBlank, Bool.or_eq_true, List.any_eq_true, not_or, not_exists, not_and,
      Bool.not_eq_true] at hplain
    refine trim_eq_self_iff.mpr ⟨fun c hc => ?_, fun c hc => ?_⟩
    · exact hplain.2 c (List.mem_of_mem_head? hc)
    · exact hplain.2 c (List.mem_of_getLast? hc)

theorem trim_intercalate (hne : words ≠ []) :
    (String.intercalate " " (words.map quoteWord)).toList ≠ [] ∧
      trim (String.intercalate " " (words.map quoteWord)).toList =
        (String.intercalate " " (words.map quoteWord)).toList := by
  rw [String.toList_intercalate]
  induction words with
  | nil => exact absurd rfl hne
  | cons w rest ih =>
    have hw := quoteWord_ne_nil w
    cases rest with
    | nil =>
      simp only [List.map_cons, List.map_nil, List.intercalate_singleton]
      exact ⟨hw, trim_quoteWord w⟩
    | cons v rest =>
      obtain ⟨hnonempty, htrim⟩ := ih (by simp)
      simp only [List.map_cons, List.intercalate_cons_cons, List.append_assoc]
        at htrim hnonempty ⊢
      exact ⟨List.append_ne_nil_of_left_ne_nil hw _,
        trim_append_append (trim_quoteWord w) htrim hw hnonempty _⟩

theorem mem_intercalate {c : Char}
    (h : c ∈ (String.intercalate " " (words.map quoteWord)).toList) :
    c = ' ' ∨ c = '"' ∨ ∃ w ∈ words, c ∈ w.toList := by
  rw [String.toList_intercalate, ← joinWith_eq_intercalate] at h
  rcases mem_joinWith h with h | ⟨piece, hpiece, hc⟩
  · exact .inl (List.mem_singleton.mp h)
  · simp only [List.map_map, List.mem_map, Function.comp_apply] at hpiece
    obtain ⟨w, hw, rfl⟩ := hpiece
    rcases mem_quoteWord hc with rfl | hc
    · exact .inr (.inl rfl)
    · exact .inr (.inr ⟨w, hw, hc⟩)

end InstallScript.Script
