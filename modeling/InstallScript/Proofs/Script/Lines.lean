import InstallScript.Proofs.Text.Pieces
import InstallScript.Script.Line

/-!
Physical and logical lines. Texts of one line each come back from the text that has them line by
line; a text that ends in a backslash runs on into the next one, which then is no line of its own.
-/

namespace InstallScript.Text

/-- A text that stands on a line of its own: trimmed and not empty, without a line feed, and without
    a byte-order mark in front. -/
structure OneLine (cs : List Char) : Prop where
  ne_nil : cs ≠ []
  trimmed : trim cs = cs
  noFeed : '\n' ∉ cs
  noMark : cs.head? ≠ some '\uFEFF'

variable {cs last : List Char} {texts front : List (List Char)}

theorem dropReturn_eq_self (h : trim cs = cs) : dropReturn cs = cs := by
  unfold dropReturn
  split
  · rename_i rest hreverse
    have hlast : cs.getLast? = some '\r' := by
      rw [← List.head?_reverse, hreverse, List.head?_cons]
    have hblank := (trim_eq_self_iff.mp h).2 _ hlast
    simp [isBlank] at hblank
  · rfl

theorem lines_of_splitAt (h : splitAt (· == '\n') cs = front ++ [last]) :
    lines cs = front.map dropReturn ++ if last.isEmpty then [] else [last] := by
  simp only [lines, h, List.reverse_append, List.reverse_cons, List.reverse_nil, List.nil_append,
    List.singleton_append, List.reverse_reverse]
  split <;> simp

theorem map_dropReturn (h : ∀ t ∈ texts, OneLine t) : texts.map dropReturn = texts := by
  have hkept : ∀ t ∈ texts, dropReturn t = t := fun t ht => dropReturn_eq_self (h t ht).trimmed
  rw [List.map_congr_left hkept, List.map_id']

theorem ne_feed_of_mem (h : '\n' ∉ cs) : ∀ c ∈ cs, (c == '\n') = false := by
  intro c hc
  rw [beq_eq_false_iff_ne]
  rintro rfl
  exact h hc

theorem splitAt_feeds (hne : texts ≠ []) (h : ∀ t ∈ texts, '\n' ∉ t) :
    splitAt (· == '\n') (joinWith ['\n'] texts) = texts :=
  splitAt_joinWith (by decide) hne fun t ht => ne_feed_of_mem (h t ht)

theorem lines_joinWith (h : ∀ t ∈ texts, OneLine t) :
    lines (joinWith ['\n'] texts) = texts := by
  obtain rfl | ⟨front, last, htexts⟩ := List.eq_nil_or_concat texts
  · rfl
  · rw [List.concat_eq_append] at htexts
    subst htexts
    have hsplit := splitAt_feeds (by simp) fun t ht => (h t ht).noFeed
    have hfront := map_dropReturn fun t ht => h t (List.mem_append_left [last] ht)
    have hlast := (h last (by simp)).ne_nil
    simp [lines_of_splitAt hsplit, hfront, hlast]

/-- A line feed after each text, rather than between each two, makes no difference. -/
theorem flatMap_feed (texts : List (List Char)) :
    texts.flatMap (· ++ ['\n']) = joinWith ['\n'] (texts ++ [[]]) := by
  induction texts with
  | nil => rfl
  | cons t rest ih =>
    rw [List.flatMap_cons, ih, List.cons_append, joinWith_cons (by simp)]

theorem lines_flatMap_feed (h : ∀ t ∈ texts, OneLine t) :
    lines (texts.flatMap (· ++ ['\n'])) = texts := by
  have hfeeds : ∀ t ∈ texts ++ [[]], '\n' ∉ t := by
    intro t ht
    rcases List.mem_append.mp ht with ht | ht
    · exact (h t ht).noFeed
    · rw [List.mem_singleton.mp ht]
      simp
  rw [flatMap_feed, lines_of_splitAt (splitAt_feeds (by simp) hfeeds), map_dropReturn h]
  simp

theorem mem_of_mem_dropReturn {c : Char} (h : c ∈ dropReturn cs) : c ∈ cs := by
  unfold dropReturn at h
  split at h
  · rename_i rest hreverse
    rw [← List.mem_reverse, hreverse]
    exact List.mem_cons_of_mem _ (List.mem_reverse.mp h)
  · exact h

theorem noFeed_of_mem_splitAt {piece : List Char} (h : piece ∈ splitAt (· == '\n') cs) :
    '\n' ∉ piece := by
  intro hmem
  have hsep := (of_mem_splitAt h _ hmem).1
  simp at hsep

theorem noFeed_of_mem_lines {raw : List Char} (h : raw ∈ lines cs) : '\n' ∉ raw := by
  obtain ⟨front, last, hsplit⟩ :=
    (List.eq_nil_or_concat _).resolve_left (splitAt_ne_nil (· == '\n') cs)
  rw [List.concat_eq_append] at hsplit
  have hpieces : ∀ piece ∈ front ++ [last], '\n' ∉ piece :=
    fun piece hpiece => noFeed_of_mem_splitAt (hsplit ▸ hpiece)
  rw [lines_of_splitAt hsplit] at h
  rcases List.mem_append.mp h with h | h
  · obtain ⟨piece, hpiece, rfl⟩ := List.mem_map.mp h
    exact fun hmem => hpieces piece (by simp [hpiece]) (mem_of_mem_dropReturn hmem)
  · split at h
    · cases h
    · rw [List.mem_singleton.mp h]
      exact hpieces last (by simp)

end InstallScript.Text

namespace InstallScript.Script

open Text

namespace Line

variable {raw : List Char} {raws : List (List Char)} {pending : Option (Nat × List Char)}
  {index : Nat}

/-- Whether a physical line goes on in the next one: it ends in a backslash once it is trimmed. -/
def goesOn (raw : List Char) : Bool :=
  (trim raw).getLast? == some '\\'

/-- What a physical line adds to the logical line it belongs to. -/
def body (raw : List Char) : List Char :=
  if goesOn raw then trimEnd (trim raw).dropLast else trim raw

theorem contents_eq (raw : List Char) : contents raw = (body raw, goesOn raw) := by
  unfold contents body goesOn
  split
  · rename_i rest hreverse
    have htrim : trim raw = rest.reverse ++ ['\\'] := by
      rw [← List.reverse_reverse (trim raw), hreverse, List.reverse_cons]
    simp [htrim]
  · rename_i hnot
    have hlast : (trim raw).getLast? ≠ some '\\' := by
      intro hlast
      obtain ⟨front, htrim⟩ := List.getLast?_eq_some_iff.mp hlast
      exact hnot front.reverse (by rw [htrim, List.reverse_append]; rfl)
    simp [hlast]

/-- A trimmed text that ends in no backslash is all there is to its line. -/
theorem contents_of_ends (htrim : trim raw = raw) (hlast : raw.getLast? ≠ some '\\') :
    contents raw = (raw, false) := by
  rw [contents_eq, body, goesOn, htrim, beq_eq_false_iff_ne.mpr hlast]
  rfl

theorem contents_of_continues (htrim : trim raw = raw) (hlast : raw.getLast? = some '\\') :
    contents raw = (trimEnd raw.dropLast, true) := by
  rw [contents_eq, body, goesOn, htrim, hlast]
  rfl

/-- A logical line that has been begun, with one more physical line at its end. -/
def extend (index : Nat) (raw : List Char) : Option (Nat × List Char) → Nat × List Char
  | some (number, start) => (number, glue start (body raw))
  | none => (index, body raw)

theorem joinFrom_cons (index : Nat) (pending : Option (Nat × List Char)) (raw : List Char)
    (raws : List (List Char)) :
    joinFrom index pending (raw :: raws) =
      if goesOn raw then joinFrom (index + 1) (some (extend index raw pending)) raws
      else emit (extend index raw pending).1 (extend index raw pending).2 ++
        joinFrom (index + 1) none raws := by
  rw [joinFrom, contents_eq]
  cases pending <;> rfl

theorem joinFrom_of_ends (h : OneLine raw) (hlast : raw.getLast? ≠ some '\\') (index : Nat)
    (raws : List (List Char)) :
    joinFrom index none
    (raw :: raws) = ⟨index, String.ofList raw⟩ :: joinFrom (index + 1) none raws := by
  simp [joinFrom, contents_of_ends h.trimmed hlast, emit, h.ne_nil]

theorem joinFrom_of_continues (h : OneLine raw) (hlast : raw.getLast? = some '\\') (index : Nat)
    (raws : List (List Char)) :
    joinFrom index none
    (raw :: raws) = joinFrom (index + 1) (some (index, trimEnd raw.dropLast)) raws := by
  simp [joinFrom, contents_of_continues h.trimmed hlast]

theorem length_emit_le (number : Nat) (text : List Char) : (emit number text).length ≤ 1 := by
  unfold emit
  split <;> simp

theorem mem_of_mem_body {c : Char} (h : c ∈ body raw) : c ∈ raw := by
  unfold body at h
  split at h
  · exact mem_of_mem_trim ((List.dropLast_sublist _).mem (mem_of_mem_trimEnd h))
  · exact mem_of_mem_trim h

theorem mem_of_mem_glue {a b : List Char} {c : Char} (h : c ∈ glue a b) :
    c = ' ' ∨ c ∈ a ∨ c ∈ b := by
  unfold glue at h
  split at h
  · exact .inr (List.mem_append.mp h)
  · rcases List.mem_append.mp h with h | h
    · exact .inr (.inl h)
    · rcases List.mem_cons.mp h with h | h
      · exact .inl h
      · exact .inr (.inr h)

/-- The text so far is made of the text before, of the physical line, and of the blanks between
    them. -/
theorem mem_of_mem_extend {c : Char} (h : c ∈ (extend index raw pending).2) :
    c = ' ' ∨ c ∈ raw ∨ ∃ start, pending = some start ∧ c ∈ start.2 := by
  cases pending with
  | none => exact .inr (.inl (mem_of_mem_body h))
  | some start =>
    rcases mem_of_mem_glue h with hc | hc | hc
    · exact .inl hc
    · exact .inr (.inr ⟨start, rfl, hc⟩)
    · exact .inr (.inl (mem_of_mem_body hc))

/-- Joining makes no more lines than there are. A line that goes on adds one only at the end of the
    text. -/
theorem length_joinFrom_le (index : Nat) (pending : Option (Nat × List Char))
    (raws : List (List Char)) :
    (joinFrom index pending raws).length ≤ max raws.length pending.isSome.toNat := by
  induction raws generalizing index pending with
  | nil =>
    cases pending with
    | none => simp [joinFrom]
    | some start => simpa [joinFrom] using length_emit_le start.1 start.2
  | cons raw rest ih =>
    rw [joinFrom_cons, List.length_cons]
    split
    · have hrest := ih (index + 1) (some (extend index raw pending))
      simp only [Option.isSome_some, Bool.toNat_true] at hrest
      omega
    · have hrest := ih (index + 1) none
      have hemit := length_emit_le (extend index raw pending).1 (extend index raw pending).2
      rw [List.length_append]
      simp only [Option.isSome_none, Bool.toNat_false] at hrest
      omega

theorem text_of_mem_emit {number : Nat} {text : List Char} {line : Line}
    (h : line ∈ emit number text) :
    line.text.toList = text := by
  unfold emit at h
  split at h
  · cases h
  · rw [List.mem_singleton.mp h, String.toList_ofList]

/-- A character that is in none of the physical lines is in none of the logical ones, the blank
    apart. -/
theorem not_mem_of_mem_joinFrom {c : Char} (hblank : c ≠ ' ')
    (hpending : ∀ start, pending = some start → c ∉ start.2)
    (hraws : ∀ raw ∈ raws, c ∉ raw) :
    ∀ line ∈ joinFrom index pending raws, c ∉ line.text.toList := by
  induction raws generalizing index pending with
  | nil =>
    intro line hline
    cases pending with
    | none => cases hline
    | some start =>
      rw [text_of_mem_emit hline]
      exact hpending start rfl
  | cons raw rest ih =>
    obtain ⟨hraw, hrest⟩ := List.forall_mem_cons.mp hraws
    have hnot : c ∉ (extend index raw pending).2 := by
      intro hc
      rcases mem_of_mem_extend hc with h | h | ⟨start, hstart, h⟩
      · exact hblank h
      · exact hraw h
      · exact hpending start hstart h
    rw [joinFrom_cons]
    split
    · refine ih ?_ hrest
      rintro start ⟨⟩
      exact hnot
    · intro line hline
      rcases List.mem_append.mp hline with hline | hline
      · rw [text_of_mem_emit hline]
        exact hnot
      · exact ih (by simp) hrest line hline

end Line

/-- No logical line of a script has a line feed in it. -/
theorem noFeed_of_mem_logicalLines {script : String} {line : Line}
    (h : line ∈ logicalLines script) :
    '\n' ∉ line.text.toList :=
  Line.not_mem_of_mem_joinFrom (by decide) (by simp) (fun _ hraw => noFeed_of_mem_lines hraw) line h

theorem dropMark_eq_self {cs : List Char} (h : cs.head? ≠ some '\uFEFF') : dropMark cs = cs := by
  unfold dropMark
  split
  · exact absurd rfl h
  · rfl

theorem dropMark_append {text : List Char} (h : OneLine text) (rest : List Char) :
    dropMark (text ++ rest) = text ++ rest := by
  obtain ⟨c, cs, rfl⟩ := List.exists_cons_of_ne_nil h.ne_nil
  exact dropMark_eq_self h.noMark

variable {script : String} {texts : List (List Char)}

/-- The physical lines of a script that is made of given lines are these. -/
theorem logicalLines_of_joinWith (h : ∀ t ∈ texts, OneLine t)
    (hscript : script.toList = joinWith ['\n'] texts) :
    logicalLines script = Line.joinFrom 1 none texts := by
  have hmark : dropMark (joinWith ['\n'] texts) = joinWith ['\n'] texts := by
    match texts with
    | [] => rfl
    | [t] => simpa [joinWith] using dropMark_append (h t (by simp)) []
    | t :: next :: rest =>
      rw [joinWith_cons (by simp), List.append_assoc]
      exact dropMark_append (h t (by simp)) _
  rw [logicalLines, hscript, hmark, lines_joinWith h]

theorem logicalLines_of_feeds (h : ∀ t ∈ texts, OneLine t)
    (hscript : script.toList = texts.flatMap (· ++ ['\n'])) :
    logicalLines script = Line.joinFrom 1 none texts := by
  have hmark : dropMark (texts.flatMap (· ++ ['\n'])) = texts.flatMap (· ++ ['\n']) := by
    cases texts with
    | nil => rfl
    | cons t rest =>
      rw [List.flatMap_cons, List.append_assoc]
      exact dropMark_append (h t (by simp)) _
  rw [logicalLines, hscript, hmark, lines_flatMap_feed h]

end InstallScript.Script
