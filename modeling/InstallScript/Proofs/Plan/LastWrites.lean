import InstallScript.Proofs.Plan.WellKept
import InstallScript.Proofs.Plan.Writes
import Mathlib.Data.List.Induction

/-!
Merging edits one after the other. What is listed in the end is the last edit of each target, at the
place of the first: an edit of a new target goes to the end, and one of a target that is listed
replaces what is listed for it.
-/

namespace InstallScript

/-- Whether a target was merged before another one: there was a time when only the first of them had
    been. -/
def MergedFirst {α : Type} (same : α → α → Prop) (merged : List α) (a b : α) : Prop :=
  ∃ before after, merged = before ++ after ∧ (∃ e ∈ before, same e a) ∧
    ∀ e ∈ before, ¬same e b

theorem MergedFirst.append {α : Type} {same : α → α → Prop} {merged : List α} {a b : α}
    (h : MergedFirst same merged a b) (e : α) : MergedFirst same (merged ++ [e]) a b := by
  obtain ⟨before, after, rfl, hbefore⟩ := h
  exact ⟨before, after ++ [e], List.append_assoc before after [e], hbefore⟩

/-- Whether a record is the last one of its target that was merged. -/
def LastMerged {α : Type} (same : α → α → Prop) (merged : List α) (l : α) : Prop :=
  ∃ before after, merged = before ++ l :: after ∧ ∀ e ∈ after, ¬same e l

theorem LastMerged.append {α : Type} {same : α → α → Prop} {merged : List α} {l e : α}
    (h : LastMerged same merged l) (hne : ¬same e l) : LastMerged same (merged ++ [e]) l := by
  obtain ⟨before, after, rfl, hafter⟩ := h
  refine ⟨before, after ++ [e], by simp, fun d hd => ?_⟩
  rcases List.mem_append.mp hd with hd | hd
  · exact hafter d hd
  · rwa [List.mem_singleton.mp hd]

theorem lastMerged_concat {α : Type} (same : α → α → Prop) (merged : List α) (e : α) :
    LastMerged same (merged ++ [e]) e :=
  ⟨merged, [], rfl, by simp⟩

/-- Whether a list has the last record of each target that was merged, in the order in which the
    targets were merged first. -/
structure LastWrites {α : Type} (same : α → α → Prop) (merged listed : List α) : Prop where
  complete : ∀ e ∈ merged, ∃ l ∈ listed, same e l
  last : ∀ l ∈ listed, LastMerged same merged l
  once : listed.Pairwise fun a b => ¬same a b
  ordered : listed.Pairwise (MergedFirst same merged)

namespace LastWrites

variable {α : Type} {same other : α → α → Prop} {merged listed : List α}

theorem mem_merged (h : LastWrites same merged listed) {l : α} (hl : l ∈ listed) :
    l ∈ merged := by
  obtain ⟨before, after, rfl, -⟩ := h.last l hl
  simp

/-- Only what a relation says of the merged records matters. -/
theorem congr (h : LastWrites same merged listed)
    (hsame : ∀ a ∈ merged, ∀ b ∈ merged, same a b ↔ other a b) :
    LastWrites other merged listed where
  complete := by
    intro e he
    obtain ⟨l, hl, hel⟩ := h.complete e he
    exact ⟨l, hl, (hsame e he l (h.mem_merged hl)).mp hel⟩
  last := by
    intro l hl
    obtain ⟨before, after, hmerged, hafter⟩ := h.last l hl
    refine ⟨before, after, hmerged, fun e he => ?_⟩
    rw [← hsame e (by simp [hmerged, he]) l (h.mem_merged hl)]
    exact hafter e he
  once := by
    refine h.once.imp_of_mem fun ha hb hnot => ?_
    rwa [← hsame _ (h.mem_merged ha) _ (h.mem_merged hb)]
  ordered := by
    refine h.ordered.imp_of_mem fun {a b} ha hb hfirst => ?_
    obtain ⟨before, after, rfl, ⟨e, he, hea⟩, hbefore⟩ := hfirst
    have hleft : ∀ d ∈ before, d ∈ before ++ after :=
      fun d hd => List.mem_append_left after hd
    refine ⟨before, after, rfl, ⟨e, he, (hsame e (hleft e he) a (h.mem_merged ha)).mp hea⟩,
      fun d hd => ?_⟩
    rw [← hsame d (hleft d hd) b (h.mem_merged hb)]
    exact hbefore d hd

section Keyed

variable {β : Type} {key : α → β} {e : α}

/-- A record of a new target goes to the end. -/
theorem append_new (h : LastWrites (fun a b => key a = key b) merged listed)
    (hnew : ∀ l ∈ listed, key l ≠ key e) :
    LastWrites (fun a b => key a = key b) (merged ++ [e]) (listed ++ [e]) where
  complete := by
    intro d hd
    rcases List.mem_append.mp hd with hd | hd
    · obtain ⟨l, hl, hdl⟩ := h.complete d hd
      exact ⟨l, List.mem_append_left _ hl, hdl⟩
    · exact ⟨e, by simp, by rw [List.mem_singleton.mp hd]⟩
  last := by
    intro l hl
    rcases List.mem_append.mp hl with hl | hl
    · exact (h.last l hl).append (Ne.symm (hnew l hl))
    · rw [List.mem_singleton.mp hl]
      exact lastMerged_concat _ merged e
  once := by
    rw [List.pairwise_append]
    refine ⟨h.once, List.pairwise_singleton _ _, fun l hl d hd => ?_⟩
    rw [List.mem_singleton.mp hd]
    exact hnew l hl
  ordered := by
    rw [List.pairwise_append]
    refine ⟨h.ordered.imp fun hfirst => hfirst.append e, List.pairwise_singleton _ _,
      fun l hl d hd => ?_⟩
    rw [List.mem_singleton.mp hd]
    refine ⟨merged, [e], rfl, ⟨l, h.mem_merged hl, rfl⟩, fun d hd hde => ?_⟩
    obtain ⟨l', hl', hdl⟩ := h.complete d hd
    exact hnew l' hl' (hdl.symm.trans hde)

/-- An element can be replaced by one that is related to the others in the same way. -/
theorem pairwise_replace {r : α → α → Prop} {front back : List α} {old : α}
    (hright : ∀ a, r old a → r e a) (hleft : ∀ a, r a old → r a e)
    (h : (front ++ old :: back).Pairwise r) :
    (front ++ e :: back).Pairwise r := by
  rw [List.pairwise_append, List.pairwise_cons] at h ⊢
  obtain ⟨hfront, ⟨hold, hback⟩, hacross⟩ := h
  refine ⟨hfront, ⟨fun b hb => hright b (hold b hb), hback⟩, fun a ha b hb => ?_⟩
  rcases List.mem_cons.mp hb with rfl | hb
  · exact hleft a (hacross a ha old List.mem_cons_self)
  · exact hacross a ha b (List.mem_cons_of_mem old hb)

/-- A record of a target that is listed takes the place of the one that is listed for it. -/
theorem append_old {front back : List α} {old : α}
    (h : LastWrites (fun a b => key a = key b) merged (front ++ old :: back))
    (hold : key old = key e) :
    LastWrites (fun a b => key a = key b) (merged ++ [e]) (front ++ e :: back) where
  complete := by
    intro d hd
    rcases List.mem_append.mp hd with hd | hd
    · obtain ⟨l, hl, hdl⟩ := h.complete d hd
      by_cases heq : key l = key e
      · exact ⟨e, by simp, hdl.trans heq⟩
      · have hother : l ≠ old := fun hlold => heq (hlold ▸ hold)
        have hkept : l ∈ front ∨ l ∈ back := by simpa [hother] using hl
        exact ⟨l, by simp [or_left_comm, hkept], hdl⟩
    · exact ⟨e, by simp, by rw [List.mem_singleton.mp hd]⟩
  last := by
    intro l hl
    have hcases : l = e ∨ l ∈ front ∨ l ∈ back := by simpa [or_left_comm] using hl
    rcases hcases with rfl | hother
    · exact lastMerged_concat _ merged l
    · have hlisted : l ∈ front ++ old :: back := by
        rcases hother with hother | hother <;> simp [hother]
      have hne : key l ≠ key e := by
        obtain ⟨-, hback, hfront⟩ := List.pairwise_append.mp h.once
        rw [← hold]
        rcases hother with hother | hother
        · exact hfront l hother old List.mem_cons_self
        · exact Ne.symm (List.rel_of_pairwise_cons hback hother)
      exact (h.last l hlisted).append hne.symm
  once := pairwise_replace (fun a => by rw [hold]; exact id)
    (fun a => by rw [hold]; exact id) h.once
  ordered := by
    refine pairwise_replace ?_ ?_ (h.ordered.imp fun hfirst => hfirst.append e)
    · rintro a ⟨before, after, hmerged, ⟨d, hd, hdold⟩, hbefore⟩
      exact ⟨before, after, hmerged, ⟨d, hd, hdold.trans hold⟩, hbefore⟩
    · rintro a ⟨before, after, hmerged, hfirst, hbefore⟩
      exact ⟨before, after, hmerged, hfirst, fun d hd hde => hbefore d hd (hde.trans hold.symm)⟩

end Keyed

end LastWrites

namespace OrderedMap

variable {α : Type} [HasTarget α] {edits : OrderedMap α}

/-- Whether every edit is filed under its target. -/
def Filed (edits : OrderedMap α) : Prop :=
  edits.Each fun key edit => key = HasTarget.target edit

theorem Filed.keys_eq (h : edits.Filed) : edits.keys = edits.values.map HasTarget.target := by
  rw [keys, values, List.map_map]
  exact List.map_congr_left fun e he => h e he

end OrderedMap

namespace EditSet

variable {α : Type} [HasTarget α]

/-- Merges edits one after the other. -/
def mergeAll (edits : List α) : EditSet α :=
  edits.foldl EditSet.merge OrderedMap.empty

theorem mergeAll_append (edits : List α) (e : α) :
    mergeAll (edits ++ [e]) = EditSet.merge (mergeAll edits) e := by
  rw [mergeAll, List.foldl_append]
  rfl

theorem filed_mergeAll (edits : List α) : (mergeAll edits).Filed := by
  induction edits using List.reverseRecOn with
  | nil => exact OrderedMap.each_empty
  | append_singleton merged e ih =>
    rw [mergeAll_append]
    exact ih.insert rfl

/-- Merging one more edit keeps what is listed the last writes. -/
theorem lastWrites_merge {edits : EditSet α} {merged : List α} (hfiled : OrderedMap.Filed edits)
    (h : LastWrites (fun a b => HasTarget.target a = HasTarget.target b) merged
      (OrderedMap.values edits)) (e : α) :
    LastWrites (fun a b => HasTarget.target a = HasTarget.target b) (merged ++ [e])
      (OrderedMap.values (EditSet.merge edits e)) := by
  rw [EditSet.merge, OrderedMap.values]
  rcases OrderedMap.insert_cases edits (HasTarget.target e) e with ⟨hnew, hinsert⟩ | ⟨front,
    old, back, hold, hinsert⟩
  · rw [hinsert, List.map_append]
    rw [hfiled.keys_eq] at hnew
    exact h.append_new fun l hl heq => hnew (List.mem_map.mpr ⟨l, hl, heq⟩)
  · have htarget : HasTarget.target e = HasTarget.target old := hfiled (_, old) (by simp [hold])
    rw [OrderedMap.values, hold, List.map_append, List.map_cons] at h
    rw [hinsert, List.map_append, List.map_cons]
    exact h.append_old htarget.symm

theorem lastWrites_mergeAll (edits : List α) :
    LastWrites (fun a b => HasTarget.target a = HasTarget.target b) edits
      (mergeAll edits).values := by
  induction edits using List.reverseRecOn with
  | nil => exact ⟨by simp, nofun, .nil, .nil⟩
  | append_singleton merged e ih =>
    rw [mergeAll_append]
    exact lastWrites_merge (filed_mergeAll merged) ih e

theorem replaces_mergeAll_iff (edits : List α) (e : α) :
    EditSet.replaces (mergeAll edits) e = true ↔
    ∃ earlier ∈ edits, HasTarget.target earlier = HasTarget.target e := by
  rw [EditSet.replaces, OrderedMap.contains, List.contains_iff_mem, (filed_mergeAll edits).keys_eq,
    List.mem_map]
  have hlast := lastWrites_mergeAll edits
  constructor
  · rintro ⟨l, hl, htarget⟩
    exact ⟨l, hlast.mem_merged hl, htarget⟩
  · rintro ⟨earlier, hearlier, htarget⟩
    obtain ⟨l, hl, heq⟩ := hlast.complete earlier hearlier
    exact ⟨l, hl, heq.symm.trans htarget⟩

end EditSet

end InstallScript
