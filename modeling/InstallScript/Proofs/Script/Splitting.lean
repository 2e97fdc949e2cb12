import InstallScript.Proofs.Script.Words
import InstallScript.Script.Parser

/-!
Words as pieces of a line. White space with an even number of quotes before it separates the pieces;
each that is not empty is a word once its quotes are taken out. Words that are written with quotes
where they need them are found again, whatever white space is put between them.
-/

namespace InstallScript.Script

open Text

/-- Whether the character at an index of a text is white space with an even number of quotes before
    it. -/
def separates (cs : List Char) (p : Char × Nat) : Bool :=
  isBlank p.1 && (cs.take p.2).count '"' % 2 == 0

/-- The characters of a piece of a text without its quotes. -/
def unquoted (piece : List (Char × Nat)) : List Char :=
  (piece.map Prod.fst).filter (· != '"')

/-- The words that pieces of a text stand for. There is one for each piece that is not empty. -/
def pieceWords (pieces : List (List (Char × Nat))) : List String :=
  (pieces.filter (!·.isEmpty)).map fun piece => String.ofList (unquoted piece)

/-- The words of a text, cut apart at the white space outside of quotes. -/
def wordsOf (text : String) : List String :=
  pieceWords (text.toList.zipIdx.splitOnP (separates text.toList))

section Pieces

variable {cs before rest : List Char} {c : Char} {word : Option (List Char)}
  {piece : List (Char × Nat)}

theorem unquoted_append (xs ys : List (Char × Nat)) :
    unquoted (xs ++ ys) = unquoted xs ++ unquoted ys := by
  simp [unquoted]

/-- The word being read when a piece has been read so far, last character first. -/
def wordSoFar (piece : List (Char × Nat)) : Option (List Char) :=
  if piece.isEmpty then none else some (unquoted piece).reverse

theorem getD_wordSoFar (piece : List (Char × Nat)) :
    (wordSoFar piece).getD [] = (unquoted piece).reverse := by
  cases piece <;> simp [wordSoFar, unquoted]

theorem wordSoFar_concat (piece : List (Char × Nat)) (p : Char × Nat) :
    wordSoFar (piece ++ [p]) = some ((unquoted [p]).reverse ++ (wordSoFar piece).getD []) := by
  rw [getD_wordSoFar, ← List.reverse_append, ← unquoted_append]
  simp [wordSoFar]

theorem pieceWords_cons (piece : List (Char × Nat)) (pieces : List (List (Char × Nat))) :
    pieceWords (piece :: pieces) =
      ((wordSoFar piece).map fun acc => String.ofList acc.reverse).toList ++ pieceWords pieces := by
  cases piece <;> simp [pieceWords, wordSoFar]

theorem splitOnP_cons_of_separates {sep : Char × Nat → Bool} {p : Char × Nat} (h : sep p = true)
    (piece ps : List (Char × Nat)) :
    ((p :: ps).splitOnP sep).modifyHead (piece ++ ·) = piece :: ps.splitOnP sep := by
  rw [List.splitOnP_cons_eq_if_modifyHead, if_pos h, List.modifyHead_cons, List.append_nil]

theorem splitOnP_cons_of_not_separates {sep : Char × Nat → Bool} {p : Char × Nat}
    (h : sep p = false) (piece ps : List (Char × Nat)) :
    ((p :: ps).splitOnP sep).modifyHead (piece ++ ·) =
      (ps.splitOnP sep).modifyHead (piece ++ [p] ++ ·) := by
  rw [List.splitOnP_cons_eq_if_modifyHead, if_neg (by simp [h]), List.modifyHead_modifyHead]
  congr 1
  funext xs
  simp

theorem separates_eq (h : cs.take before.length = before) (c : Char) :
    separates cs (c, before.length) = (isBlank c && !(before.count '"' % 2 == 1)) := by
  rw [separates, h]
  rcases Nat.mod_two_eq_zero_or_one (before.count '"') with hcount | hcount <;> simp [hcount]

/-- Reading on in a piece splits the rest of a text as its separators do. What has been read of the
    piece goes in front of the first one, and the number of quotes before it tells whether it stands
    between quotes. -/
theorem splitFrom_wordSoFar (hcs : cs = before ++ rest) (piece : List (Char × Nat)) :
    splitFrom (wordSoFar piece) (before.count '"' % 2 == 1) rest =
      if cs.count '"' % 2 = 0 then
        some (pieceWords (((rest.zipIdx before.length).splitOnP (separates cs)).modifyHead
          (piece ++ ·)))
      else none := by
  induction rest generalizing before piece with
  | nil =>
    rw [List.append_nil] at hcs
    subst hcs
    rcases Nat.mod_two_eq_zero_or_one (cs.count '"') with heven | hodd
    · simp only [splitFrom, heven, List.zipIdx_nil, List.splitOnP_nil, List.modifyHead_cons,
        List.append_nil, pieceWords_cons]
      cases wordSoFar piece <;> rfl
    · simp [splitFrom, hodd]
  | cons c rest ih =>
    have hnext : cs = before ++ [c] ++ rest := by simp [hcs]
    have hrest := ih hnext
    have hseparates := separates_eq (show cs.take before.length = before by simp [hcs]) c
    rw [List.length_append, List.length_singleton] at hrest
    rw [List.zipIdx_cons]
    by_cases hquote : c = '"'
    · subst hquote
      have hflip : ((before ++ ['"']).count '"' % 2 == 1) = !(before.count '"' % 2 == 1) := by
        rw [List.count_append, List.count_singleton_self]
        rcases Nat.mod_two_eq_zero_or_one (before.count '"') with h | h <;> simp [h, Nat.add_mod]
      rw [splitFrom_quote, splitOnP_cons_of_not_separates hseparates, ← hflip, ← hrest,
        wordSoFar_concat]
      rfl
    · have hsame : (before ++ [c]).count '"' = before.count '"' := by simp [hquote]
      rw [hsame] at hrest
      cases hblank : isBlank c && !(before.count '"' % 2 == 1) with
      | false =>
        have hchar : unquoted [(c, before.length)] = [c] := by simp [unquoted, hquote]
        rw [hblank] at hseparates
        rw [splitFrom_char hquote hblank, splitOnP_cons_of_not_separates hseparates, ← hrest,
          wordSoFar_concat, hchar]
        rfl
      | true =>
        -- The piece ends here, and the next one starts with nothing read of it.
        have hstart : splitFrom none (before.count '"' % 2 == 1) rest = _ := hrest []
        rw [hblank] at hseparates
        rw [Bool.and_eq_true, Bool.not_eq_true'] at hblank
        rw [hblank.2] at hstart ⊢
        rw [splitFrom_blank hblank.1, splitOnP_cons_of_separates hseparates,
          pieceWords_cons, hstart, show (fun xs : List (Char × Nat) => [] ++ xs) = id from rfl,
            List.modifyHead_id]
        split <;> rfl

/-- A text splits into words exactly if its quotes pair up, and then into those that its separators
    cut it into. -/
theorem splitWords_eq (text : String) :
    splitWords text = if text.toList.count '"' % 2 = 0 then some (wordsOf text) else none := by
  have hsplit := splitFrom_wordSoFar (List.nil_append text.toList).symm []
  rw [show (fun xs : List (Char × Nat) => [] ++ xs) = id from rfl, List.modifyHead_id] at hsplit
  exact hsplit

theorem splitWords_eq_some_iff {text : String} {words : List String} :
    splitWords text = some words ↔ text.toList.count '"' % 2 = 0 ∧ wordsOf text = words := by
  rw [splitWords_eq]
  split
  · rename_i heven
    simp [heven]
  · rename_i hodd
    simp [hodd]

end Pieces

section Gaps

variable {gap rest trail : List Char} {entries : List (List Char × String)}

/-- Words written one after the other, each behind a gap of its own. -/
def writeWords (entries : List (List Char × String)) : List Char :=
  entries.flatMap fun (gap, word) => gap ++ (quoteWord word).toList

/-- White space before a word makes no difference. -/
theorem splitFrom_gap (hgap : ∀ c ∈ gap, isBlank c = true) (rest : List Char) :
    splitFrom none false (gap ++ rest) = splitFrom none false rest := by
  induction gap with
  | nil => rfl
  | cons c gap ih =>
    obtain ⟨hc, hgap⟩ := List.forall_mem_cons.mp hgap
    rw [List.cons_append, splitFrom_blank hc, ih hgap]
    simp

/-- Behind a gap that may not be left out there is white space, and at the end nothing else. -/
theorem isBlank_head_writeWords (hgaps : ∀ e ∈ entries, ∀ c ∈ e.1, isBlank c = true)
    (hne : ∀ e ∈ entries, e.1 ≠ []) (htrail : ∀ c ∈ trail, isBlank c = true) (c : Char)
    (hc : (writeWords entries ++ trail).head? = some c) :
    isBlank c = true := by
  cases entries with
  | nil => exact htrail c (List.mem_of_mem_head? hc)
  | cons e rest =>
    obtain ⟨gap, word⟩ := e
    obtain ⟨first, others, rfl⟩ := List.exists_cons_of_ne_nil (hne _ List.mem_cons_self)
    cases hc
    exact hgaps _ List.mem_cons_self _ List.mem_cons_self

/-- Words behind gaps are found again. Only the gap before the first one and the one after the last
    may be empty. -/
theorem splitFrom_writeWords (hquotes : ∀ e ∈ entries, '"' ∉ e.2.toList)
    (hgaps : ∀ e ∈ entries, ∀ c ∈ e.1, isBlank c = true)
    (hne : ∀ e ∈ entries.tail, e.1 ≠ []) (htrail : ∀ c ∈ trail, isBlank c = true) :
    splitFrom none false (writeWords entries ++ trail) = some (entries.map Prod.snd) := by
  induction entries with
  | nil =>
    have hend := splitFrom_gap htrail []
    rw [List.append_nil] at hend
    exact hend
  | cons e rest ih =>
    obtain ⟨gap, word⟩ := e
    obtain ⟨hquote, hquotes⟩ := List.forall_mem_cons.mp hquotes
    obtain ⟨hgap, hgaps⟩ := List.forall_mem_cons.mp hgaps
    have hrest := ih hquotes hgaps fun e he => hne e (List.mem_of_mem_tail he)
    have hwrite : writeWords ((gap, word) :: rest) ++ trail =
        gap ++ ((quoteWord word).toList ++ (writeWords rest ++ trail)) := by
      simp [writeWords]
    rw [hwrite, splitFrom_gap hgap, splitFrom_quoteWord hquote,
      splitFrom_some_of_head (isBlank_head_writeWords hgaps hne htrail), hrest]
    simp

end Gaps

/-- A line has words exactly if its quotes pair up, and then those that its separators cut it into;
    a line whose quotes do not pair up is refused, unless it is a comment. Any words without quotes
    of their own are the words of the text that has them one after the other, in quotes where they
    are empty or hold white space, with some white space between each two and any around them. -/
theorem splitWords_of_line (line : Line) :
    splitWords line.text = (if line.text.toList.count '"' % 2 = 0
      then some (wordsOf line.text) else none) ∧
      (line.text.toList.count '"' % 2 = 1 → line.comment = none →
        line.parse = .error ⟨line.number, .unterminatedQuote line.text⟩) ∧
      ∀ (entries : List (List Char × String)) (trail : List Char),
        (∀ e ∈ entries, '"' ∉ e.2.toList) →
        (∀ e ∈ entries, ∀ c ∈ e.1, isBlank c = true) →
          (∀ e ∈ entries.tail, e.1 ≠ []) →
        (∀ c ∈ trail, isBlank c = true) →
        splitWords (String.ofList (writeWords entries ++ trail)) = some (entries.map Prod.snd) := by
  have hsplit := splitWords_eq line.text
  refine ⟨hsplit, fun hodd hcomment => ?_, fun entries trail hquotes hgaps hne htrail => ?_⟩
  · rw [hodd, if_neg (by decide)] at hsplit
    rw [Line.parse, hcomment, hsplit]
    rfl
  · rw [splitWords, String.toList_ofList]
    exact splitFrom_writeWords hquotes hgaps hne htrail

/-- An empty word, and one with a line break in it, between white space of several kinds. -/
theorem splitWords_of_empty_word_and_line_break :
    splitWords " SetVar\t\u00a0\"\"  \"a\nb\" " = some ["SetVar", "", "a\nb"] := by
  have hwords := (splitWords_of_line ⟨1, ""⟩).2.2
    [([' '], "SetVar"), (['\t', '\u00a0'], ""), ([' ', ' '], "a\nb")] [' ']
    (by decide) (by simp [isBlank]) (by decide) (by simp [isBlank])
  have htext : String.ofList
      (writeWords [([' '], "SetVar"), (['\t', '\u00a0'], ""), ([' ', ' '], "a\nb")] ++ [' ']) =
      " SetVar\t\u00a0\"\"  \"a\nb\" " := by decide
  rw [htext] at hwords
  exact hwords

end InstallScript.Script
