/-!
Computations that can fail, taken apart.
-/

namespace Except

/-- A sequence succeeds exactly if both of its parts do. -/
theorem bind_eq_ok_iff {ε α β : Type} {x : Except ε α} {f : α → Except ε β} {b : β} :
    x >>= f = .ok b ↔ ∃ a, x = .ok a ∧ f a = .ok b := by
  cases x with
  | error e => simp [bind, Except.bind]
  | ok a => simp [bind, Except.bind]

theorem map_eq_ok_iff {ε α β : Type} {x : Except ε α} {f : α → β} {b : β} :
    x.map f = .ok b ↔ ∃ a, x = .ok a ∧ f a = b := by
  cases x with
  | error e => simp [Except.map]
  | ok a => simp [Except.map]

theorem toOption_eq_some_iff {ε α : Type} {x : Except ε α} {a : α} :
    x.toOption = some a ↔ x = .ok a := by
  cases x <;> simp [Except.toOption]

/-- The error of a computation that fails. -/
def error? {ε α : Type} : Except ε α → Option ε
  | .ok _ => none
  | .error e => some e

theorem error?_eq_some_iff {ε α : Type} {x : Except ε α} {e : ε} : x.error? = some e ↔
    x = .error e := by
  cases x <;> simp [error?]

/-- Whether something holds of whatever a computation gives. -/
def Ensures {ε α : Type} (x : Except ε α) (P : α → Prop) : Prop :=
  ∀ a, x = .ok a → P a

section Ensures

variable {ε α β : Type} {P : β → Prop}

@[simp] theorem ensures_pure (b : β) : (pure b : Except ε β).Ensures P ↔ P b := by
  constructor
  · exact fun h => h b rfl
  · rintro h _ ⟨⟩
    exact h

@[simp] theorem ensures_throw (e : ε) : (throw e : Except ε β).Ensures P := by
  rintro _ ⟨⟩

@[simp] theorem ensures_bind (x : Except ε α) (f : α → Except ε β) :
    (x >>= f).Ensures P ↔ ∀ a, x = .ok a → (f a).Ensures P := by
  constructor
  · exact fun h a ha b hb => h b (bind_eq_ok_iff.mpr ⟨a, ha, hb⟩)
  · intro h b hb
    obtain ⟨a, ha, hb⟩ := bind_eq_ok_iff.mp hb
    exact h a ha b hb

@[simp] theorem ensures_map (x : Except ε α) (f : α → β) : (f <$> x).Ensures P ↔
    ∀ a, x = .ok a → P (f a) := by
  rw [map_eq_pure_bind, ensures_bind]
  simp only [ensures_pure]

end Ensures

section MapM

variable {ε α β : Type} {f : α → Except ε β} {xs : List α} {ys : List β}

theorem mapM_cons_eq_ok_iff {x : α} :
    (x :: xs).mapM f = .ok ys ↔ ∃ y rest, f x = .ok y ∧ xs.mapM f = .ok rest ∧
      ys = y :: rest := by
  rw [List.mapM_cons, bind_eq_ok_iff]
  constructor
  · rintro ⟨y, hy, h⟩
    obtain ⟨rest, hrest, heq⟩ := bind_eq_ok_iff.mp h
    cases heq
    exact ⟨y, rest, hy, hrest, rfl⟩
  · rintro ⟨y, rest, hy, hrest, rfl⟩
    exact ⟨y, hy, bind_eq_ok_iff.mpr ⟨rest, hrest, rfl⟩⟩

theorem length_of_mapM (h : xs.mapM f = .ok ys) : ys.length = xs.length := by
  induction xs generalizing ys with
  | nil =>
    cases h
    rfl
  | cons x xs ih =>
    obtain ⟨y, rest, -, hrest, rfl⟩ := mapM_cons_eq_ok_iff.mp h
    simp [ih hrest]

theorem exists_mem_of_mapM (h : xs.mapM f = .ok ys) : ∀ y ∈ ys, ∃ x ∈ xs, f x = .ok y := by
  induction xs generalizing ys with
  | nil =>
    cases h
    simp
  | cons x xs ih =>
    obtain ⟨y, rest, hy, hrest, rfl⟩ := mapM_cons_eq_ok_iff.mp h
    refine List.forall_mem_cons.mpr ⟨⟨x, List.mem_cons_self, hy⟩, fun z hz => ?_⟩
    obtain ⟨w, hw, hwz⟩ := ih hrest z hz
    exact ⟨w, List.mem_cons_of_mem x hw, hwz⟩

end MapM

end Except
