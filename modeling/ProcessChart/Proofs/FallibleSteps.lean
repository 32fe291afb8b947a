import Mathlib.Data.List.Forall2

/-!
Steps that may fail. A sequence of steps succeeds when each of them does, and
fails with the first that fails.
-/

namespace ProcessChart

theorem bind_eq_ok_iff {ε α β : Type} {x : Except ε α} {f : α → Except ε β} {b : β} :
    (x >>= f) = .ok b ↔ ∃ a, x = .ok a ∧ f a = .ok b := by
  cases x with
  | error e => simp [bind, Except.bind]
  | ok a => simp [bind, Except.bind]

theorem bind_eq_error_iff {ε α β : Type} {x : Except ε α} {f : α → Except ε β} {e : ε} :
    (x >>= f) = .error e ↔ x = .error e ∨ ∃ a, x = .ok a ∧ f a = .error e := by
  cases x with
  | error e => simp [bind, Except.bind]
  | ok a => simp [bind, Except.bind]

theorem eq_ok_of_toOption {ε α : Type} {x : Except ε α} {a : α} (h : x.toOption = some a) :
    x = .ok a := by
  cases x with
  | error e => cases h
  | ok b => exact congrArg Except.ok (Option.some.inj h)

theorem mapM_eq_ok_iff {ε α β : Type} {f : α → Except ε β} {xs : List α} {ys : List β} :
    xs.mapM f = .ok ys ↔ List.Forall₂ (fun x y => f x = .ok y) xs ys := by
  induction xs generalizing ys with
  | nil =>
    rw [List.mapM_nil, List.forall₂_nil_left_iff]
    exact ⟨fun h => (Except.ok.inj h).symm, fun h => congrArg Except.ok h.symm⟩
  | cons x rest ih =>
    simp only [List.mapM_cons, bind_eq_ok_iff, List.forall₂_cons_left_iff, ih]
    constructor
    · rintro ⟨y, hy, zs, hzs, h⟩
      exact ⟨y, zs, hy, hzs, (Except.ok.inj h).symm⟩
    · rintro ⟨y, zs, hy, hzs, rfl⟩
      exact ⟨y, hy, zs, hzs, rfl⟩

theorem mapM_cons_eq_error_iff {ε α β : Type} {f : α → Except ε β} {x : α} {rest : List α} {e : ε} :
    (x :: rest).mapM f = .error e ↔
      f x = .error e ∨ (∃ y, f x = .ok y) ∧ rest.mapM f = .error e := by
  rw [List.mapM_cons]
  cases f x with
  | error e' => simp [bind, Except.bind]
  | ok y => cases rest.mapM f <;> simp [bind, Except.bind, pure, Except.pure]

/-- The first step that fails decides the failure. -/
theorem mapM_eq_error_iff {ε α β : Type} {f : α → Except ε β} {xs : List α} {e : ε} :
    xs.mapM f = .error e ↔
      ∃ i, ∃ hi : i < xs.length, f xs[i] = .error e ∧ ∀ j (hj : j < i), ∃ y, f xs[j] = .ok y := by
  induction xs with
  | nil => simp [pure, Except.pure]
  | cons x rest ih =>
    rw [mapM_cons_eq_error_iff, ih]
    constructor
    · rintro (hx | ⟨hx, i, hi, hfail, hbefore⟩)
      · exact ⟨0, Nat.zero_lt_succ _, hx, fun j hj => absurd hj (Nat.not_lt_zero j)⟩
      · refine ⟨i + 1, Nat.succ_lt_succ hi, hfail, fun j hj => ?_⟩
        cases j with
        | zero => exact hx
        | succ j => exact hbefore j (Nat.lt_of_succ_lt_succ hj)
    · rintro ⟨i, hi, hfail, hbefore⟩
      cases i with
      | zero => exact Or.inl hfail
      | succ i =>
        refine Or.inr ⟨hbefore 0 (Nat.zero_lt_succ i), i, Nat.lt_of_succ_lt_succ hi, hfail, ?_⟩
        exact fun j hj => hbefore (j + 1) (Nat.succ_lt_succ hj)

/-- The first item of a kind parts the list into what stands before and after it. -/
theorem exists_getElem_iff_append {α : Type} {P Q : α → Prop} {xs : List α} :
    (∃ i, ∃ hi : i < xs.length, P xs[i] ∧ ∀ j (hj : j < i), Q xs[j]) ↔
      ∃ before x after, xs = before ++ x :: after ∧ P x ∧ ∀ y ∈ before, Q y := by
  constructor
  · rintro ⟨i, hi, hP, hQ⟩
    have hsplit : xs = xs.take i ++ xs[i] :: xs.drop (i + 1) := by
      rw [List.getElem_cons_drop, List.take_append_drop]
    refine ⟨xs.take i, xs[i], xs.drop (i + 1), hsplit, hP, fun y hy => ?_⟩
    obtain ⟨j, hj, rfl⟩ := List.mem_take_iff_getElem.mp hy
    exact hQ j (by omega)
  · rintro ⟨before, x, after, rfl, hP, hQ⟩
    refine ⟨before.length, by simp, by simpa using hP, fun j hj => ?_⟩
    rw [List.getElem_append_left hj]
    exact hQ _ (List.getElem_mem hj)

/-- A list is mapped as a whole when every single step succeeds, and only then. -/
theorem exists_mapM_eq_ok_iff {ε α β : Type} {f : α → Except ε β} {xs : List α} :
    (∃ ys, xs.mapM f = .ok ys) ↔ ∀ x ∈ xs, ∃ y, f x = .ok y := by
  simp only [mapM_eq_ok_iff]
  induction xs with
  | nil => simp
  | cons x rest ih =>
    rw [List.forall_mem_cons, ← ih]
    constructor
    · rintro ⟨_, h⟩
      obtain ⟨y, ys, hy, hys, -⟩ := List.forall₂_cons_left_iff.mp h
      exact ⟨⟨y, hy⟩, ys, hys⟩
    · rintro ⟨⟨y, hy⟩, ys, hys⟩
      exact ⟨y :: ys, .cons hy hys⟩

end ProcessChart
