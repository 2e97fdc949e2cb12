import InstallScript.Machine.Step
import InstallScript.Proofs.Nesting.Accepted

/-!
The blocks that are open while a program runs, seen as blocks around statements. Closing blocks up
to one of them leaves those around it.
-/

namespace InstallScript

open Script

/-- A frame as a block around the statements that run in it. -/
def Frame.enclosure : Frame → Enclosure
  | .ifBlock start => ⟨.branch, start⟩
  | .forBlock start .. => ⟨.loop, start⟩
  | .selectBlock start .. => ⟨.select, start⟩
  | .caseBlock start => ⟨.arm, start⟩

@[simp] theorem Frame.start_enclosure (f : Frame) : f.enclosure.start = f.start := by
  cases f <;> rfl

/-- Whether an open loop knows where it ends. -/
def Frame.Linked (p : Program) : Frame → Prop
  | .forBlock start stop .. => p.link start = .loop stop
  | _ => True

namespace Frame

/-- The blocks that frames stand for. -/
def path (frames : List Frame) : List Enclosure :=
  frames.map Frame.enclosure

@[simp] theorem path_nil : path [] = [] := rfl

theorem starts_path (frames : List Frame) :
    Enclosure.starts (path frames) = frames.map Frame.start := by
  simp [Enclosure.starts, path]

section Inversion

variable {frames : List Frame} {start : Nat} {outer : List Enclosure}

theorem of_path_branch (h : path frames = ⟨.branch, start⟩ :: outer) :
    ∃ rest, frames = .ifBlock start :: rest ∧ path rest = outer := by
  obtain ⟨f, rest, rfl, hf, hrest⟩ := List.map_eq_cons_iff.mp h
  cases f with
  | ifBlock => cases hf; exact ⟨rest, rfl, hrest⟩
  | forBlock | selectBlock | caseBlock => cases hf

theorem of_path_loop (h : path frames = ⟨.loop, start⟩ :: outer) :
    ∃ stop variableName state rest, frames = .forBlock start stop variableName state :: rest ∧
      path rest = outer := by
  obtain ⟨f, rest, rfl, hf, hrest⟩ := List.map_eq_cons_iff.mp h
  cases f with
  | forBlock => cases hf; exact ⟨_, _, _, rest, rfl, hrest⟩
  | ifBlock | selectBlock | caseBlock => cases hf

theorem of_path_select (h : path frames = ⟨.select, start⟩ :: outer) :
    ∃ results matched rest, frames = .selectBlock start results matched :: rest ∧
      path rest = outer := by
  obtain ⟨f, rest, rfl, hf, hrest⟩ := List.map_eq_cons_iff.mp h
  cases f with
  | selectBlock => cases hf; exact ⟨_, _, rest, rfl, hrest⟩
  | ifBlock | forBlock | caseBlock => cases hf

theorem of_path_arm (h : path frames = ⟨.arm, start⟩ :: outer) :
    ∃ rest, frames = .caseBlock start :: rest ∧ path rest = outer := by
  obtain ⟨f, rest, rfl, hf, hrest⟩ := List.map_eq_cons_iff.mp h
  cases f with
  | caseBlock => cases hf; exact ⟨rest, rfl, hrest⟩
  | ifBlock | forBlock | selectBlock => cases hf

/-- A case that is open on top of a select is closed, and nothing else is. -/
theorem path_closeCase {select : Nat} (h : path frames = ⟨.select, select⟩ :: outer ∨
    ∃ start, path frames = ⟨.arm, start⟩ :: ⟨.select, select⟩ :: outer) :
    ∃ results matched rest, closeCase frames = .selectBlock select results matched :: rest ∧
      path rest = outer ∧ .selectBlock select results matched :: rest <:+ frames := by
  rcases h with h | ⟨start, h⟩
  · obtain ⟨results, matched, rest, rfl, hrest⟩ := of_path_select h
    exact ⟨results, matched, rest, rfl, hrest, List.suffix_refl _⟩
  · obtain ⟨more, rfl, hmore⟩ := of_path_arm h
    obtain ⟨results, matched, rest, rfl, hrest⟩ := of_path_select hmore
    exact ⟨results, matched, rest, rfl, hrest, List.suffix_cons _ _⟩

end Inversion

/-- Dropping the frames of inner blocks leaves those of the others. -/
theorem exists_dropWhile {frames : List Frame} {inner outer : List Enclosure} {q : Nat → Bool}
    (h : path frames = inner ++ outer) (hinner : ∀ e ∈ inner, q e.start = true)
    (houter : ∀ e, outer.head? = some e → q e.start = false) :
    ∃ before rest, frames = before ++ rest ∧ path before = inner ∧ path rest = outer ∧
      frames.dropWhile (fun f => q f.start) = rest := by
  obtain ⟨before, rest, rfl, hbefore, hrest⟩ := List.map_eq_append_iff.mp h
  refine ⟨before, rest, rfl, hbefore, hrest, ?_⟩
  have hdrop : ∀ f ∈ before, q f.start = true := by
    intro f hf
    rw [← start_enclosure]
    exact hinner _ (hbefore ▸ List.mem_map_of_mem hf)
  rw [List.dropWhile_append_of_pos hdrop]
  cases rest with
  | nil => rfl
  | cons f rest =>
    have hstop := houter f.enclosure (by rw [← hrest]; rfl)
    rw [start_enclosure] at hstop
    exact List.dropWhile_cons_of_neg (by simp [hstop])

section Unwind

variable {all : List Cell} {frames : List Frame} {inner outer : List Enclosure} {j : Nat}

/-- Closing the blocks inside one that is open leaves it open with those around it. -/
theorem exists_unwind (keyword : Keyword) {e : Enclosure} (h : path frames = inner ++ e :: outer)
    (hpath : Surrounds all (inner ++ e :: outer) j) :
    ∃ before rest, frames = before ++ rest ∧ path before = inner ∧ path rest = e :: outer ∧
      unwind keyword e.start frames = .ok rest := by
  have hinner : ∀ i ∈ inner, (i.start != e.start) = true := by
    intro i hi
    have hlt := hpath.start_lt hi List.mem_cons_self
    exact bne_iff_ne.mpr (by omega)
  have houter : ∀ o, (e :: outer).head? = some o → (o.start != e.start) = false := by
    intro o ho
    cases ho
    exact bne_self_eq_false _
  obtain ⟨before, rest, hsplit, hbefore, hrest, hdrop⟩ :=
    exists_dropWhile (q := (· != e.start)) h hinner houter
  refine ⟨before, rest, hsplit, hbefore, hrest, ?_⟩
  have hany : frames.any (·.start == e.start) = true := by
    have hmem : e ∈ path frames := h ▸ List.mem_append_right inner List.mem_cons_self
    obtain ⟨f, hf, rfl⟩ := List.mem_map.mp hmem
    exact List.any_eq_true.mpr ⟨f, hf, by simp⟩
  rw [unwind, if_pos hany, hdrop]

/-- Jumping to where only outer blocks are open closes the inner ones. -/
theorem path_leaveTo {p : Program} {target : Nat} (h : path frames = inner ++ outer)
    (hpath : Surrounds all (inner ++ outer) j)
    (htarget : p.ancestors target = Enclosure.starts outer) :
    path (leaveTo p target frames) = outer ∧ leaveTo p target frames <:+ frames := by
  have hinner : ∀ i ∈ inner, (!(p.ancestors target).contains i.start) = true := by
    intro i hi
    have hnot : i.start ∉ p.ancestors target := by
      rw [htarget]
      intro hmem
      obtain ⟨o, ho, heq⟩ := List.mem_map.mp hmem
      have hlt := hpath.start_lt hi ho
      omega
    simpa using hnot
  have houter : ∀ o, outer.head? = some o →
      (!(p.ancestors target).contains o.start) = false := by
    intro o ho
    have hmem : o.start ∈ p.ancestors target := by
      rw [htarget]
      exact List.mem_map_of_mem (List.mem_of_mem_head? ho)
    simpa using hmem
  obtain ⟨before, rest, rfl, -, hrest, hdrop⟩ :=
    exists_dropWhile (q := fun n => !(p.ancestors target).contains n) h hinner houter
  rw [leaveTo, hdrop]
  exact ⟨hrest, List.suffix_append _ _⟩

/-- The innermost open loop is the innermost loop around. -/
theorem exists_unwind_loop (keyword : Keyword) {path' : List Enclosure} {start : Nat}
    (h : path frames = path') (hpath : Surrounds all path' j)
    (hloop : Enclosure.loop? path' = some start) :
    ∃ before stop variableName state rest,
      frames = before ++ .forBlock start stop variableName state :: rest ∧
      (∀ e ∈ path before, e.kind ≠ .loop) ∧
        path' = path before ++ ⟨.loop, start⟩ :: path rest ∧
      unwind keyword start frames = .ok (.forBlock start stop variableName state :: rest) := by
  obtain ⟨⟨kind, start⟩, hfind, rfl⟩ := Option.map_eq_some_iff.mp hloop
  obtain ⟨hkind, inner, outer, rfl, hinner⟩ := List.find?_eq_some_iff_append.mp hfind
  obtain rfl : kind = .loop := by simpa using hkind
  obtain ⟨before, opened, hsplit, rfl, hopened, hunwind⟩ := exists_unwind keyword h hpath
  obtain ⟨stop, variableName, state, rest, rfl, rfl⟩ := of_path_loop hopened
  exact ⟨before, stop, variableName, state, rest, hsplit, by simpa using hinner, rfl, hunwind⟩

/-- The case that a `Break` ends is open, and only `If` blocks are open inside it. -/
theorem exists_unwind_arm (keyword : Keyword) {path' : List Enclosure} {start : Nat}
    (h : path frames = path') (hpath : Surrounds all path' j)
    (harm : Enclosure.arm? path' = some start) :
    ∃ before rest, frames = before ++ .caseBlock start :: rest ∧
      (∀ e ∈ path before, e.kind = .branch) ∧
      path' = path before ++ ⟨.arm, start⟩ :: path rest ∧
      unwind keyword start frames = .ok (.caseBlock start :: rest) := by
  unfold Enclosure.arm? at harm
  split at harm
  · rename_i first hfind
    obtain rfl : first = start := by simpa using harm
    obtain ⟨-, inner, outer, rfl, hinner⟩ := List.find?_eq_some_iff_append.mp hfind
    obtain ⟨before, opened, hsplit, rfl, hopened, hunwind⟩ := exists_unwind keyword h hpath
    obtain ⟨rest, rfl, rfl⟩ := of_path_arm hopened
    exact ⟨before, rest, hsplit, by simpa using hinner, rfl, hunwind⟩
  · cases harm

end Unwind

end Frame

end InstallScript
