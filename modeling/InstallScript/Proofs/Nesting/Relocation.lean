import InstallScript.Proofs.Nesting.Accepted

/-!
Programs at another place. A block that starts later has the same layout with all indices moved up,
and a block behind another one has the layouts of both. So a loaded program is found again, with its
links and the blocks around its statements moved up, in every program that it is a part of.
-/

namespace InstallScript.Script

/-- A block around a statement, moved up by `k` statements. -/
def Enclosure.shift (k : Nat) (e : Enclosure) : Enclosure :=
  ⟨e.kind, e.start + k⟩

/-- A link, moved up by `k` statements. -/
def Link.shift (k : Nat) : Link → Link
  | .none => .none
  | .ifTest elseAt stop => .ifTest (elseAt.map (· + k)) (stop + k)
  | .otherwise stop => .otherwise (stop + k)
  | .loop stop => .loop (stop + k)
  | .loopControl start => .loopControl (start + k)
  | .select firstCase stop => .select (firstCase + k) (stop + k)
  | .caseOf next selectAt => .caseOf (next + k) (selectAt + k)
  | .breakCase caseAt => .breakCase (caseAt + k)
  | .goto target => .goto (target + k)

/-- A statement with the blocks around it and where it leads, moved up by `k` statements. -/
def Cell.shift (k : Nat) (c : Cell) : Cell :=
  ⟨c.statement, c.path.map (Enclosure.shift k), c.link.shift k⟩

@[simp] theorem Cell.statement_shift (k : Nat) (c : Cell) : (c.shift k).statement = c.statement :=
  rfl

theorem Enclosure.starts_shift (k : Nat) (path : List Enclosure) :
    starts (path.map (shift k)) = (starts path).map (· + k) := by
  simp [starts, shift, Function.comp_def]

theorem Cell.shift_zero (c : Cell) : c.shift 0 = c := by
  obtain ⟨statement, path, link⟩ := c
  have hpath : path.map (Enclosure.shift 0) = path := List.map_id path
  have hlink : link.shift 0 = link := by
    cases link with
    | ifTest elseAt stop => cases elseAt <;> rfl
    | _ => rfl
  rw [Cell.shift, hpath, hlink]

theorem Enclosure.find?_shift (q : BlockKind → Bool) (k : Nat) (path : List Enclosure) :
    (path.map (shift k)).find? (fun e => q e.kind) =
      (path.find? fun e => q e.kind).map (shift k) := by
  rw [List.find?_map]
  rfl

theorem Enclosure.loop?_shift (k : Nat) (path : List Enclosure) :
    loop? (path.map (shift k)) = (loop? path).map (· + k) := by
  have hfind := find?_shift (fun kind => kind = .loop) k path
  rw [loop?, loop?, hfind]
  cases path.find? (fun e => decide (e.kind = .loop)) <;> rfl

theorem Enclosure.arm?_shift (k : Nat) (path : List Enclosure) :
    arm? (path.map (shift k)) = (arm? path).map (· + k) := by
  have hfind := find?_shift (fun kind => kind ≠ .branch) k path
  rw [arm?, arm?, hfind]
  cases path.find? (fun e => decide (e.kind ≠ .branch)) with
  | none => rfl
  | some e =>
    obtain ⟨kind, start⟩ := e
    cases kind <;> rfl

theorem Enclosure.plainLink_shift (k : Nat) (path : List Enclosure) (c : Command) :
    plainLink (path.map (shift k)) c = (plainLink path c).shift k := by
  cases c with
  | continueLoop | exitLoop =>
    simp only [plainLink, loop?_shift]
    cases loop? path <;> rfl
  | breakCase =>
    simp only [plainLink, arm?_shift]
    cases arm? path <;> rfl
  | _ => rfl

mutual

/-- A block that starts `k` statements later is laid out with all indices moved up. -/
theorem Block.layout_shift (b : Block) (path : List Enclosure) {i j k : Nat} (hj : j = i + k) :
    b.layout (path.map (Enclosure.shift k)) j = (b.layout path i).map (Cell.shift k) := by
  subst hj
  match b with
  | .nil => rfl
  | .plain line c rest =>
    have hrest : rest.layout (path.map (Enclosure.shift k)) (i + k + 1) = _ :=
      rest.layout_shift path (show _ = i + 1 + k by omega)
    simp only [Block.layout, List.map_cons, Cell.shift, Enclosure.plainLink_shift, hrest]
  | .ifThen line test body stopLine rest =>
    have hstop : i + k + 1 + body.size = i + 1 + body.size + k := by omega
    have hbody : body.layout (⟨.branch, i + k⟩ :: path.map (Enclosure.shift k))
        (i + k + 1) = _ :=
      body.layout_shift (⟨.branch, i⟩ :: path) (show _ = i + 1 + k by omega)
    have hrest : rest.layout (path.map (Enclosure.shift k)) (i + 1 + body.size + k + 1) = _ :=
      rest.layout_shift path (show _ = i + 1 + body.size + 1 + k by omega)
    simp only [Block.layout, List.map_cons, List.map_append, hstop, hbody, hrest]
    rfl
  | .ifElse line test body elseLine other stopLine rest =>
    have hmiddle : i + k + 1 + body.size = i + 1 + body.size + k := by omega
    have hstop : i + 1 + body.size + k + 1 + other.size = i + 1 + body.size + 1 +
      other.size + k := by omega
    have hbody : body.layout (⟨.branch, i + k⟩ :: path.map (Enclosure.shift k))
        (i + k + 1) = _ :=
      body.layout_shift (⟨.branch, i⟩ :: path) (show _ = i + 1 + k by omega)
    have hother : other.layout (⟨.branch, i + k⟩ :: path.map (Enclosure.shift k))
        (i + 1 + body.size + k + 1) = _ :=
      other.layout_shift (⟨.branch, i⟩ :: path) (show _ = i + 1 + body.size + 1 + k by omega)
    have hrest : rest.layout (path.map (Enclosure.shift k))
        (i + 1 + body.size + 1 + other.size + k + 1) = _ :=
      rest.layout_shift path (show _ = i + 1 + body.size + 1 + other.size + 1 + k by omega)
    simp only [Block.layout, List.map_cons, List.map_append, hmiddle, hstop, hbody, hother, hrest]
    rfl
  | .loop line header body stopLine rest =>
    have hstop : i + k + 1 + body.size = i + 1 + body.size + k := by omega
    have hbody : body.layout (⟨.loop, i + k⟩ :: path.map (Enclosure.shift k)) (i + k + 1) = _ :=
      body.layout_shift (⟨.loop, i⟩ :: path) (show _ = i + 1 + k by omega)
    have hrest : rest.layout (path.map (Enclosure.shift k)) (i + 1 + body.size + k + 1) = _ :=
      rest.layout_shift path (show _ = i + 1 + body.size + 1 + k by omega)
    simp only [Block.layout, List.map_cons, List.map_append, hstop, hbody, hrest]
    rfl
  | .select line selector skipped arms stopLine rest =>
    have hfirst : i + k + 1 + skipped.size = i + 1 + skipped.size + k := by omega
    have hstop : i + 1 + skipped.size + k + arms.size = i + 1 + skipped.size + arms.size + k := by
      omega
    have hskipped : skipped.layout (⟨.select, i + k⟩ :: path.map (Enclosure.shift k))
        (i + k + 1) = _ :=
      skipped.layout_shift (⟨.select, i⟩ :: path) (show _ = i + 1 + k by omega)
    have harms : arms.layout (⟨.select, i + k⟩ :: path.map (Enclosure.shift k)) (i + k)
        (i + 1 + skipped.size + k) = _ := arms.layout_shift (⟨.select, i⟩ :: path) i rfl
    have hrest : rest.layout (path.map (Enclosure.shift k))
        (i + 1 + skipped.size + arms.size + k + 1) = _ :=
      rest.layout_shift path (show _ = i + 1 + skipped.size + arms.size + 1 + k by omega)
    simp only [Block.layout, List.map_cons, List.map_append, hfirst, hstop, hskipped, harms, hrest]
    rfl

theorem Arms.layout_shift (a : Arms) (path : List Enclosure) (start : Nat) {i j k : Nat}
    (hj : j = i + k) :
    a.layout (path.map (Enclosure.shift k)) (start + k) j =
      (a.layout path start i).map (Cell.shift k) := by
  subst hj
  match a with
  | .nil => rfl
  | .cons line guard body rest =>
    have hnext : i + k + 1 + body.size = i + 1 + body.size + k := by omega
    have hbody : body.layout (⟨.arm, i + k⟩ :: path.map (Enclosure.shift k)) (i + k + 1) = _ :=
      body.layout_shift (⟨.arm, i⟩ :: path) (show _ = i + 1 + k by omega)
    have hrest : rest.layout (path.map (Enclosure.shift k)) (start + k) (i + 1 + body.size + k) =
        _ :=
      rest.layout_shift path start rfl
    simp only [Arms.layout, List.map_cons, List.map_append, hnext, hbody, hrest]
    rfl

end

theorem Block.layout_append (a b : Block) (path : List Enclosure) (i : Nat) :
    (a.append b).layout path i = a.layout path i ++ b.layout path (i + a.size) := by
  match a with
  | .nil => rfl
  | .plain line c rest =>
    have hsize : i + 1 + rest.size = i + (rest.size + 1) := by omega
    simp only [append, layout, rest.layout_append b, Block.size_plain, List.cons_append, hsize]
  | .ifThen line test body stopLine rest =>
    have hsize : i + 1 + body.size + 1 + rest.size = i + (body.size + rest.size + 2) := by omega
    simp only [append, layout, rest.layout_append b, Block.size_ifThen, List.cons_append,
      List.append_assoc, hsize]
  | .ifElse line test body elseLine other stopLine rest =>
    have hsize : i + 1 + body.size + 1 + other.size + 1 + rest.size =
        i + (body.size + other.size + rest.size + 3) := by omega
    simp only [append, layout, rest.layout_append b, Block.size_ifElse, List.cons_append,
      List.append_assoc, hsize]
  | .loop line header body stopLine rest =>
    have hsize : i + 1 + body.size + 1 + rest.size = i + (body.size + rest.size + 2) := by omega
    simp only [append, layout, rest.layout_append b, Block.size_loop, List.cons_append,
      List.append_assoc, hsize]
  | .select line selector skipped arms stopLine rest =>
    have hsize : i + 1 + skipped.size + arms.size + 1 + rest.size =
        i + (skipped.size + arms.size + rest.size + 2) := by omega
    simp only [append, layout, rest.layout_append b, Block.size_select, List.cons_append,
      List.append_assoc, hsize]

/-- A block behind another one is laid out with its indices moved up by the statements before it. -/
theorem Block.layout_append_shift (a b : Block) :
    (a.append b).layout [] 0 = a.layout [] 0 ++ (b.layout [] 0).map (Cell.shift a.size) := by
  rw [layout_append, ← b.layout_shift [] rfl]
  rfl

theorem labelNames_append (xs ys : List Statement) :
    labelNames (xs ++ ys) = labelNames xs ++ labelNames ys :=
  List.filterMap_append

namespace Block.Loadable

variable {a b : Block}

/-- If two blocks can be loaded and declare no label twice, one can be put behind the other. -/
theorem append (ha : a.Loadable) (hb : b.Loadable)
    (hlabels : ∀ name ∈ labelNames a.statements, name ∉ labelNames b.statements) :
    (a.append b).Loadable := by
  have hmem : ∀ c, c ∈ (a.append b).layout [] 0 ↔
      c ∈ a.layout [] 0 ∨ ∃ d ∈ b.layout [] 0, d.shift a.size = c := by
    intro c
    rw [layout_append_shift, List.mem_append, List.mem_map]
  constructor
  · intro c hc hcommand
    rcases (hmem c).mp hc with hc | ⟨d, hd, rfl⟩
    · exact ha.loops c hc hcommand
    · obtain ⟨e, he, hkind⟩ := hb.loops d hd hcommand
      exact ⟨e.shift a.size, List.mem_map_of_mem he, hkind⟩
  · intro c hc hcommand
    rcases (hmem c).mp hc with hc | ⟨d, hd, rfl⟩
    · exact ha.breaks c hc hcommand
    · obtain ⟨e, he, hkind⟩ := hb.breaks d hd hcommand
      refine ⟨e.shift a.size, ?_, hkind⟩
      have hfind := Enclosure.find?_shift (fun kind => kind ≠ .branch) a.size d.path
      rw [he] at hfind
      exact hfind
  · rw [statements_append, labelNames_append, List.nodup_append]
    refine ⟨ha.labels, hb.labels, fun x hx y hy heq => ?_⟩
    subst heq
    exact hlabels x hx hy
  · intro c hc name hcommand
    rcases (hmem c).mp hc with hc | ⟨d, hd, rfl⟩
    · obtain ⟨target, htarget, hlabel, hpath⟩ := ha.jumps c hc name hcommand
      exact ⟨target, (hmem target).mpr (.inl htarget), hlabel, hpath⟩
    · obtain ⟨target, htarget, hlabel, hpath⟩ := hb.jumps d hd name hcommand
      refine ⟨target.shift a.size, (hmem _).mpr (.inr ⟨target, htarget, rfl⟩), hlabel,
        fun e he => ?_⟩
      obtain ⟨inner, hinner, rfl⟩ := Option.map_eq_some_iff.mp (List.head?_map.symm.trans he)
      exact List.mem_map_of_mem (hpath inner hinner)

end Block.Loadable

/-- Whether a program is found in another one from index `k` on. -/
structure Program.Embeds (q p : Program) (k : Nat) : Prop where
  statement : ∀ j < q.size, p.statements[j + k]? = q.statements[j]?
  link : ∀ j < q.size, p.link (j + k) = (q.link j).shift k
  ancestors : ∀ j < q.size, p.ancestors (j + k) = (q.ancestors j).map (· + k)

/-- A program is found in another one if its layout is. Jumps lead to the same labels, since no
    label is declared twice. -/
theorem Program.embeds_of_layout {p q : Program} {a b : Block} {k : Nat}
    (hq : q.LaidOut (b.layout [] 0)) (hp : p.LaidOut (a.layout [] 0))
    (hlabels : (labelNames a.statements).Nodup)
    (hcells : ∀ j c, (b.layout [] 0)[j]? = some c →
      (a.layout [] 0)[j + k]? = some (c.shift k)) :
    q.Embeds p k := by
  have hcell : ∀ j < q.size, ∃ c, (b.layout [] 0)[j]? = some c ∧
      (a.layout [] 0)[j + k]? = some (c.shift k) := by
    intro j hj
    rw [hq.size_eq] at hj
    exact ⟨_, List.getElem?_eq_getElem hj, hcells j _ (List.getElem?_eq_getElem hj)⟩
  constructor
  · intro j hj
    obtain ⟨c, hc, hshifted⟩ := hcell j hj
    rw [hp.statement_eq hshifted, hq.statement_eq hc, Cell.statement_shift]
  · intro j hj
    obtain ⟨c, hc, hshifted⟩ := hcell j hj
    by_cases hgoto : ∃ name, c.statement.command = .goto name
    · obtain ⟨name, hname⟩ := hgoto
      obtain ⟨target, d, hlink, hd, hlabel, -⟩ := hq.goto j c name hc hname
      obtain ⟨target', d', hlink', hd', hlabel', -⟩ := hp.goto (j + k) _ name hshifted hname
      have hstatement : ∀ {i : Nat} {x : Cell}, (a.layout [] 0)[i]? = some x →
          a.statements[i]? = some x.statement := by
        intro i x hx
        rw [← a.map_statement_layout [] 0, List.getElem?_map, hx]
        rfl
      have htarget : target' = target + k :=
        eq_of_nodup_labelNames hlabels (hstatement hd') (hstatement (hcells target d hd))
          hlabel' hlabel
      rw [hlink, hlink', htarget]
      rfl
    · have hne : ∀ name, c.statement.command ≠ .goto name :=
        fun name hname => hgoto ⟨name, hname⟩
      rw [hq.link j c hc hne, hp.link (j + k) _ hshifted hne]
      rfl
  · intro j hj
    obtain ⟨c, hc, hshifted⟩ := hcell j hj
    rw [hq.ancestors_eq hc (b.sound_layout hc).1,
      hp.ancestors_eq hshifted (a.sound_layout hshifted).1, ← Enclosure.starts_shift]
    rfl

end InstallScript.Script
