import Mathlib.Algebra.Order.BigOperators.Group.List
import Mathlib.Algebra.Ring.Int.Defs
import Mathlib.Algebra.Ring.Nat
import Mathlib.Data.List.Count
import Mathlib.Logic.Function.Basic

/-! Lists and functions that change in one place: which elements are the old ones, and what a
count over the list and a sum with limits say about the single elements. -/

namespace AdTerminal.ListUpdate

/-- What the new value has if the old one had it, every value keeps. -/
theorem update_imp {α β : Type*} [DecidableEq α] (P : β → Prop) {f : α → β} {a b : α} {new : β} (own : P (f a) → P new)
    (held : P (f b)) : P (Function.update f a new b) := by
  by_cases same : b = a
  · subst same
    rw [Function.update_self]
    exact own held
  · rw [Function.update_of_ne same]
    exact held

theorem sublist_update {α β : Type*} [DecidableEq α] {f : α → List β} {a : α} {new : List β}
    (shorter : new.Sublist (f a)) (b : α) : (Function.update f a new b).Sublist (f b) := by
  by_cases same : b = a
  · subst same
    rwa [Function.update_self]
  · rw [Function.update_of_ne same]

theorem mem_set_cases {α : Type*} {l : List α} {i j : Nat} {a b : α} (found : (l.set i a)[j]? = some b) :
    (j = i ∧ b = a) ∨ (j ≠ i ∧ l[j]? = some b) := by
  by_cases same : j = i
  · subst same
    rw [List.getElem?_set_self', Option.map_eq_map, Option.map_eq_some_iff] at found
    obtain ⟨_, _, equal⟩ := found
    exact Or.inl ⟨rfl, equal.symm⟩
  · rw [List.getElem?_set_ne (Ne.symm same)] at found
    exact Or.inr ⟨same, found⟩

theorem mem_append_cases {α : Type*} {l : List α} {j : Nat} {a b : α} (found : (l ++ [a])[j]? = some b) :
    l[j]? = some b ∨ (j = l.length ∧ b = a) := by
  rcases Nat.lt_or_ge j l.length with old | new
  · exact Or.inl (by rwa [List.getElem?_append_left old] at found)
  · rw [List.getElem?_append_right new, List.getElem?_singleton, Option.ite_none_right_eq_some] at found
    exact Or.inr ⟨by omega, (Option.some.inj found.2).symm⟩

theorem mem_of_erased {α : Type*} {l : List α} {n : Nat} {a b : α} (erased : l[n]? = some a)
    (member : b ∈ l) : b = a ∨ b ∈ l.eraseIdx n := by
  obtain ⟨bound, rfl⟩ := List.getElem?_eq_some_iff.mp erased
  exact List.mem_cons.mp ((List.getElem_cons_eraseIdx_perm bound).mem_iff.mpr member)

theorem set_ne_nil {α : Type*} {l : List α} {i : Nat} {a b : α} (present : l[i]? = some a) :
    l.set i b ≠ [] := by
  intro empty
  have length := congrArg List.length empty
  rw [List.length_set] at length
  rw [List.eq_nil_of_length_eq_zero length] at present
  simp at present

theorem map_set_eq {α β : Type*} {l : List α} {i : Nat} {old new : α} {f : α → β} (present : l[i]? = some old)
    (same : f new = f old) : (l.set i new).map f = l.map f := by
  obtain ⟨bound, rfl⟩ := List.getElem?_eq_some_iff.mp present
  have inside : i < (l.map f).length := by rwa [List.length_map]
  have own : f l[i] = (l.map f)[i] := (List.getElem_map f).symm
  rw [List.map_set, same, own, List.set_getElem_self]

theorem countP_eraseIdx {α : Type*} {l : List α} {i : Nat} {a : α} (present : l[i]? = some a)
    (p : α → Bool) : (l.eraseIdx i).countP p + (if p a then 1 else 0) = l.countP p := by
  obtain ⟨bound, rfl⟩ := List.getElem?_eq_some_iff.mp present
  rw [← (List.getElem_cons_eraseIdx_perm bound).countP_eq p, List.countP_cons]

/-- How a count over a list changes with one element. -/
theorem countP_set_add {α : Type*} {l : List α} {i : Nat} {old : α} (present : l[i]? = some old) (new : α)
    (p : α → Bool) : (l.set i new).countP p + (if p old then 1 else 0) = l.countP p +
    (if p new then 1 else 0) := by
  obtain ⟨bound, same⟩ := List.getElem?_eq_some_iff.mp present
  have included := List.boole_getElem_le_countP (p := p) bound
  rw [List.countP_set bound]
  rw [same] at included ⊢
  omega

/-- How a count over the concatenated parts of the elements changes with one element. -/
theorem countP_flatMap_set_add {α β : Type*} {l : List α} {i : Nat} {old : α} (present : l[i]? = some old)
    (new : α) (f : α → List β) (p : β → Bool) :
    ((l.set i new).flatMap f).countP p + (f old).countP p = (l.flatMap f).countP p + (f new).countP p := by
  induction l generalizing i with
  | nil => simp at present
  | cons a l ih =>
    cases i with
    | zero =>
      simp only [List.getElem?_cons_zero, Option.some.injEq] at present
      subst present
      simp only [List.set_cons_zero, List.flatMap_cons, List.countP_append]
      omega
    | succ i =>
      have rest := ih (by simpa using present)
      simp only [List.set_cons_succ, List.flatMap_cons, List.countP_append]
      omega

/-- A smaller element makes a smaller sum. -/
theorem sum_set_lt {l : List Nat} {i old new : Nat} (present : l[i]? = some old) (less : new < old) :
    (l.set i new).sum < l.sum := by
  induction l generalizing i with
  | nil =>
    rw [List.getElem?_nil] at present
    cases present
  | cons a l ih =>
    cases i with
    | zero =>
      rw [List.getElem?_cons_zero, Option.some_inj] at present
      subst present
      rw [List.set_cons_zero, List.sum_cons, List.sum_cons]
      omega
    | succ i =>
      rw [List.getElem?_cons_succ] at present
      have rest := ih present
      rw [List.set_cons_succ, List.sum_cons, List.sum_cons]
      omega

/-- Counts that are nowhere above their limits and add up to no less are at their limits. -/
theorem eq_of_sum_le {counts limits : List Int} (below : List.Forall₂ (· ≤ ·) counts limits)
    (sum : limits.sum ≤ counts.sum) : counts = limits := by
  induction below with
  | nil => rfl
  | cons head tail ih =>
    have rest := tail.sum_le_sum
    simp only [List.sum_cons] at sum
    rw [ih (by omega)]
    congr 1
    omega

end AdTerminal.ListUpdate
