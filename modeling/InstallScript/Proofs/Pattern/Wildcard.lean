import InstallScript.Pattern.Wildcard
import Mathlib.Data.List.Forall2
import Mathlib.Data.List.Infix

/-!
What wildcards match. A text is matched exactly if it can be cut into pieces, one for each character
of the pattern, such that each character takes its piece. A pattern is read from its end, and what
is kept after each step says of every end part of the text whether the rest of the pattern matches
it.
-/

namespace InstallScript.Wildcard

/-- Whether a character of a pattern takes a piece of a text. -/
def Takes (p : Char) (piece : List Char) : Prop :=
  if p = '*' then '\n' ∉ piece
  else if p = '?' then ∃ c, piece = [c] ∧ c ≠ '\n'
  else ∃ c, piece = [c] ∧ Text.fold p = Text.fold c

/-- Whether a text can be cut into pieces that the characters of a pattern take, one each. -/
def Cuts (pattern cs : List Char) : Prop :=
  ∃ pieces, List.Forall₂ Takes pattern pieces ∧ pieces.flatten = cs

variable {cs : List Char} {after : List Bool} {rests : List Char → Prop}

theorem cuts_nil_iff : Cuts [] cs ↔ cs = [] := by
  constructor
  · rintro ⟨pieces, hpieces, rfl⟩
    cases hpieces
    rfl
  · rintro rfl
    exact ⟨[], .nil, rfl⟩

theorem cuts_cons_iff {p : Char} {pattern : List Char} :
    Cuts (p :: pattern) cs ↔ ∃ piece tail, cs = piece ++ tail ∧ Takes p piece ∧
      Cuts pattern tail := by
  constructor
  · rintro ⟨pieces, hpieces, rfl⟩
    cases hpieces with
    | cons hpiece hrest => exact ⟨_, _, List.flatten_cons, hpiece, _, hrest, rfl⟩
  · rintro ⟨piece, tail, rfl, hpiece, pieces, hrest, rfl⟩
    exact ⟨piece :: pieces, .cons hpiece hrest, List.flatten_cons⟩

/-- Whether truth values say of each end part of a text, the whole text first, whether something
    holds of it. -/
def Marks (rests : List Char → Prop) (cs : List Char) (after : List Bool) : Prop :=
  List.Forall₂ (fun rest mark => mark = true ↔ rests rest) cs.tails after

theorem marks_nil_iff : Marks rests [] after ↔ ∃ mark, after = [mark] ∧
    (mark = true ↔ rests []) := by
  rw [Marks, List.tails, List.forall₂_cons_left_iff]
  constructor
  · rintro ⟨mark, others, hmark, hothers, rfl⟩
    cases hothers
    exact ⟨mark, rfl, hmark⟩
  · rintro ⟨mark, rfl, hmark⟩
    exact ⟨mark, [], hmark, .nil, rfl⟩

theorem marks_cons_iff {c : Char} : Marks rests (c :: cs) after ↔
    ∃ mark others, after = mark :: others ∧ (mark = true ↔ rests (c :: cs)) ∧
      Marks rests cs others := by
  rw [Marks, List.tails_cons, List.forall₂_cons_left_iff]
  constructor
  · rintro ⟨mark, others, hmark, hothers, rfl⟩
    exact ⟨mark, others, rfl, hmark, hothers⟩
  · rintro ⟨mark, others, rfl, hmark, hothers⟩
    exact ⟨mark, others, hmark, hothers, rfl⟩

namespace Marks

theorem headD_iff (h : Marks rests cs after) : after.headD false = true ↔ rests cs := by
  cases cs with
  | nil =>
    obtain ⟨mark, rfl, hmark⟩ := marks_nil_iff.mp h
    exact hmark
  | cons c cs =>
    obtain ⟨mark, others, rfl, hmark, -⟩ := marks_cons_iff.mp h
    exact hmark

theorem atEnd (cs : List Char) : Marks (· = []) cs (atEnd cs) := by
  induction cs with
  | nil => exact marks_nil_iff.mpr ⟨true, rfl, by simp⟩
  | cons c cs ih => exact marks_cons_iff.mpr ⟨false, _, rfl, by simp, ih⟩

/-- A single character goes in front of the end parts that are accepted. -/
theorem single (h : Marks rests cs after) (takes : Char → Bool) :
    Marks (fun rest => ∃ piece tail, rest = piece ++ tail ∧
      (∃ c, piece = [c] ∧ takes c = true) ∧ rests tail) cs
      (Piece.single takes cs after) := by
  induction cs generalizing after with
  | nil => exact marks_nil_iff.mpr ⟨false, by simp [Piece.single], by simp⟩
  | cons c cs ih =>
    obtain ⟨mark, others, rfl, -, hothers⟩ := marks_cons_iff.mp h
    refine marks_cons_iff.mpr ⟨_, _, rfl, ?_, ih hothers⟩
    rw [Bool.and_eq_true, hothers.headD_iff]
    constructor
    · rintro ⟨htakes, hrest⟩
      exact ⟨[c], cs, rfl, ⟨c, rfl, htakes⟩, hrest⟩
    · rintro ⟨piece, tail, heq, ⟨d, rfl, htakes⟩, hrest⟩
      cases heq
      exact ⟨htakes, hrest⟩

/-- Any number of characters goes in front of the end parts that are accepted. -/
theorem many (h : Marks rests cs after) (takes : Char → Bool) :
    Marks (fun rest => ∃ run tail, rest = run ++ tail ∧ (∀ c ∈ run, takes c = true) ∧
      rests tail) cs
      (Piece.many takes cs after) := by
  induction cs generalizing after with
  | nil =>
    obtain ⟨mark, rfl, hmark⟩ := marks_nil_iff.mp h
    refine marks_nil_iff.mpr ⟨mark, rfl,
      hmark.trans ⟨fun hrest => ⟨[], [], rfl, by simp, hrest⟩, ?_⟩⟩
    rintro ⟨run, tail, heq, -, htail⟩
    rwa [(List.append_eq_nil_iff.mp heq.symm).2] at htail
  | cons c cs ih =>
    obtain ⟨mark, others, rfl, hmark, hothers⟩ := marks_cons_iff.mp h
    have hrest := ih hothers
    refine marks_cons_iff.mpr ⟨_, _, rfl, ?_, hrest⟩
    rw [Bool.or_eq_true, Bool.and_eq_true, hrest.headD_iff, hmark]
    constructor
    · rintro (hhere | ⟨htakes, run, tail, rfl, hrun, htail⟩)
      · exact ⟨[], c :: cs, rfl, by simp, hhere⟩
      · exact ⟨c :: run, tail, rfl, List.forall_mem_cons.mpr ⟨htakes, hrun⟩, htail⟩
    · rintro ⟨run, tail, heq, hrun, htail⟩
      cases run with
      | nil =>
        rw [List.nil_append] at heq
        exact .inl (heq ▸ htail)
      | cons d run =>
        cases heq
        obtain ⟨htakes, hrun⟩ := List.forall_mem_cons.mp hrun
        exact .inr ⟨htakes, run, tail, rfl, hrun, htail⟩

theorem congr {others : List Char → Prop} (h : Marks rests cs after)
    (hsame : ∀ rest, rests rest ↔ others rest) :
    Marks others cs after :=
  List.Forall₂.imp (fun rest _ hmark => hmark.trans (hsame rest)) h

/-- A character of a pattern puts a piece that it takes in front of the end parts that are
    accepted. -/
theorem before (h : Marks rests cs after) (p : Char) :
    Marks (fun rest => ∃ piece tail, rest = piece ++ tail ∧ Takes p piece ∧ rests tail) cs
      ((Piece.ofChar p).before cs after) := by
  have hpiece : ∀ takes : List Char → Prop, (∀ piece, takes piece ↔ Takes p piece) →
      ∀ rest,
      (∃ piece tail, rest = piece ++ tail ∧ takes piece ∧ rests tail) ↔
        ∃ piece tail, rest = piece ++ tail ∧ Takes p piece ∧ rests tail :=
    fun takes htakes rest => by simp only [htakes]
  rw [Piece.ofChar]
  by_cases hrun : p = '*'
  · rw [if_pos hrun]
    refine (h.many Piece.run.takes).congr (hpiece _ fun piece => ?_)
    rw [Takes, if_pos hrun]
    simp [Piece.takes, List.forall_mem_ne']
  · rw [if_neg hrun]
    by_cases hany : p = '?'
    · rw [if_pos hany]
      refine (h.single Piece.any.takes).congr (hpiece _ fun piece => ?_)
      rw [Takes, if_neg hrun, if_pos hany]
      simp [Piece.takes]
    · rw [if_neg hany]
      refine (h.single (Piece.like p).takes).congr (hpiece _ fun piece => ?_)
      rw [Takes, if_neg hrun, if_neg hany]
      simp [Piece.takes]

end Marks

/-- A wildcard accepts exactly the texts that it can cut into pieces. -/
theorem accepts_iff_cuts (pattern cs : List Char) : accepts pattern cs = true ↔
    Cuts pattern cs := by
  have hmarks : Marks (Cuts pattern) cs
      ((pattern.map Piece.ofChar).foldr (fun p after => p.before cs after) (atEnd cs)) := by
    induction pattern with
    | nil => exact (Marks.atEnd cs).congr fun rest => cuts_nil_iff.symm
    | cons p pattern ih => exact (ih.before p).congr fun rest => cuts_cons_iff.symm
  exact hmarks.headD_iff

end InstallScript.Wildcard
