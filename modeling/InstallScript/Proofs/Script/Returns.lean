import InstallScript.Proofs.Script.Lines

/-!
Line ends. A carriage return before a line feed is white space at the end of a physical line, so
logical lines are the same with and without it.
-/

namespace InstallScript.Text

variable {cs : List Char}

/-- A text with a carriage return before each line feed. -/
def addReturns (cs : List Char) : List Char :=
  cs.flatMap fun c => if c = '\n' then ['\r', '\n'] else [c]

theorem addReturns_append (xs ys : List Char) :
    addReturns (xs ++ ys) = addReturns xs ++ addReturns ys :=
  List.flatMap_append

theorem addReturns_eq_self (h : '\n' ∉ cs) : addReturns cs = cs := by
  induction cs with
  | nil => rfl
  | cons c rest ih =>
    rw [List.mem_cons, not_or] at h
    rw [← List.singleton_append, addReturns_append, ih h.2, addReturns, List.flatMap_singleton,
      if_neg (Ne.symm h.1)]

/-- The carriage returns are put at the end of every line that ends in a line feed. -/
theorem splitAt_addReturns {front : List (List Char)} {last : List Char}
    (h : splitAt (· == '\n') cs = front ++ [last]) :
    splitAt (· == '\n') (addReturns cs) = front.map (· ++ ['\r']) ++ [last] := by
  have hfeeds : ∀ piece ∈ front ++ [last], '\n' ∉ piece :=
    fun piece hpiece => noFeed_of_mem_splitAt (h ▸ hpiece)
  rw [← joinWith_splitAt '\n' cs, h]
  clear h
  induction front with
  | nil =>
    have hlast : '\n' ∉ last := hfeeds last (by simp)
    rw [List.nil_append, joinWith, addReturns_eq_self hlast]
    exact splitAt_eq_singleton (ne_feed_of_mem hlast)
  | cons piece front ih =>
    obtain ⟨hpiece, hfront⟩ := List.forall_mem_cons.mp hfeeds
    have hreturn : '\n' ∉ piece ++ ['\r'] := by simpa using hpiece
    have hwhole : addReturns (joinWith ['\n'] (piece :: front ++ [last])) =
        (piece ++ ['\r']) ++ '\n' :: addReturns (joinWith ['\n'] (front ++ [last])) := by
      rw [List.cons_append, joinWith_cons (by simp), addReturns_append, addReturns_append,
        addReturns_eq_self hpiece]
      simp [addReturns]
    rw [hwhole, splitAt_append_cons (by decide), splitAt_eq_singleton (ne_feed_of_mem hreturn),
      ih hfront]
    rfl

theorem isBlank_of_mem_return : ∀ c ∈ ['\r'], isBlank c = true :=
  List.forall_mem_singleton.mpr rfl

theorem trim_dropReturn (cs : List Char) : trim (dropReturn cs) = trim cs := by
  unfold dropReturn
  split
  · rename_i rest hreverse
    have hcs : cs = rest.reverse ++ ['\r'] := by
      rw [← List.reverse_reverse cs, hreverse, List.reverse_cons]
    rw [hcs, trim_append_blank _ isBlank_of_mem_return]
  · rfl

theorem map_trim_lines_addReturns (cs : List Char) :
    (lines (addReturns cs)).map trim = (lines cs).map trim := by
  obtain ⟨front, last, hsplit⟩ :=
    (List.eq_nil_or_concat _).resolve_left (splitAt_ne_nil (· == '\n') cs)
  rw [List.concat_eq_append] at hsplit
  have hfront : ∀ piece : List Char, trim (dropReturn (piece ++ ['\r'])) =
      trim (dropReturn piece) := by
    intro piece
    rw [trim_dropReturn, trim_dropReturn, trim_append_blank _ isBlank_of_mem_return]
  rw [lines_of_splitAt hsplit, lines_of_splitAt (splitAt_addReturns hsplit)]
  simp [hfront]

end InstallScript.Text

namespace InstallScript.Script

open Text

theorem dropMark_addReturns (cs : List Char) :
    dropMark (addReturns cs) = addReturns (dropMark cs) := by
  cases cs with
  | nil => rfl
  | cons c rest =>
    by_cases hmark : c = '\uFEFF'
    · subst hmark
      rfl
    · have hhead : (addReturns (c :: rest)).head? ≠ some '\uFEFF' := by
        by_cases hfeed : c = '\n'
        · simp [addReturns, hfeed]
        · simp [addReturns, hfeed, hmark]
      rw [dropMark_eq_self hhead, dropMark_eq_self (by simpa using hmark)]

/-- White space around physical lines does not matter to the logical ones. -/
theorem Line.joinFrom_congr {raws others : List (List Char)} (h : raws.map trim = others.map trim)
    (index : Nat) (pending : Option (Nat × List Char)) :
    joinFrom index pending raws = joinFrom index pending others := by
  induction raws generalizing others index pending with
  | nil =>
    obtain rfl := List.map_eq_nil_iff.mp h.symm
    rfl
  | cons raw rest ih =>
    obtain ⟨other, others, rfl, hfirst, hrest⟩ := List.map_eq_cons_iff.mp h.symm
    have hcontents : contents other = contents raw := by rw [contents, hfirst, contents]
    have hjoin := fun index pending => ih hrest.symm index pending
    rw [joinFrom, joinFrom, hcontents]
    simp only [hjoin]

/-- The logical lines of a script do not depend on whether there are carriage returns before its
    line feeds. -/
theorem logicalLines_addReturns (script : String) :
    logicalLines (String.ofList (addReturns script.toList)) = logicalLines script := by
  rw [logicalLines, String.toList_ofList, dropMark_addReturns, logicalLines]
  exact Line.joinFrom_congr (map_trim_lines_addReturns _) 1 none

end InstallScript.Script
