import Mathlib.Algebra.BigOperators.Group.List.Basic
import Mathlib.Algebra.Order.BigOperators.Group.List

/-! Tables of slots and what they hold together.
A table is a list; slot `i` of it belongs to party `i`. `total f` adds up what
the slots are worth under `f`, in any commutative monoid: a bag of resources, a
count, a pair of both. A step of one party rewrites one slot, so a conservation
law is proved from the worth of that slot before and after. -/

namespace Table

variable {α A : Type*} [AddCommMonoid A]

def total (f : α → A) (table : List α) : A := (table.map f).sum

@[simp] theorem total_nil (f : α → A) : total f [] = 0 := rfl

@[simp] theorem total_cons (f : α → A) (x : α) (table : List α) :
    total f (x :: table) = f x + total f table := by
  simp [total]

theorem total_add (f g : α → A) (table : List α) :
    total (fun x => f x + g x) table = total f table + total g table :=
  List.sum_map_add

@[simp] theorem total_replicate_zero (f : α → A) (x : α) (n : ℕ) (empty : f x = 0) :
    total f (List.replicate n x) = 0 := by
  simp [total, empty]

theorem total_split (f : α → A) {table : List α} {i : ℕ} {x : α} (at_i : table[i]? = some x) :
    total f table = f x + total f (table.eraseIdx i) := by
  induction table generalizing i with
  | nil => simp at at_i
  | cons y table ih =>
    cases i with
    | zero =>
      simp only [List.getElem?_cons_zero, Option.some.injEq] at at_i
      simp [at_i]
    | succ i =>
      simp only [List.getElem?_cons_succ] at at_i
      simp only [total_cons, List.eraseIdx_cons_succ, ih at_i]
      exact add_left_comm _ _ _

theorem total_set (f : α → A) {table : List α} {i : ℕ} {x : α} (at_i : table[i]? = some x)
    (y : α) : total f (table.set i y) = f y + total f (table.eraseIdx i) := by
  have bound : i < table.length := (List.getElem?_eq_some_iff.mp at_i).1
  have new : (table.set i y)[i]? = some y := by simp [bound]
  rw [total_split f new, List.eraseIdx_set_eq]

theorem count_flatMap {β : Type*} [BEq β] (tokens : α → List β) (table : List α) (x : β) :
    (table.flatMap tokens).count x = total (fun slot => (tokens slot).count x) table := by
  rw [List.count_flatMap]
  rfl

theorem forall_set {P : α → Prop} {table : List α} (all : ∀ x ∈ table, P x) {i : ℕ} {y : α}
    (new : P y) : ∀ x ∈ table.set i y, P x := by
  intro x member
  rcases List.mem_or_eq_of_mem_set member with old | rfl
  · exact all x old
  · exact new

theorem getElem?_set_of_some {table : List α} {i : ℕ} {x : α} (at_i : table[i]? = some x)
    (y : α) (j : ℕ) : (table.set i y)[j]? = if i = j then some y else table[j]? := by
  have bound : i < table.length := (List.getElem?_eq_some_iff.mp at_i).1
  rw [List.getElem?_set]
  split
  · next eq => subst eq; simp
  · rfl

theorem mem_set_of_ne {table : List α} {i : ℕ} {x y : α} (at_i : table[i]? = some y) (z : α)
    (member : x ∈ table) (other : x ≠ y) : x ∈ table.set i z := by
  obtain ⟨j, at_j⟩ := List.mem_iff_getElem?.mp member
  have apart : i ≠ j := by
    rintro rfl
    exact other (Option.some.inj (at_j.symm.trans at_i))
  refine List.mem_iff_getElem?.mpr ⟨j, ?_⟩
  rw [getElem?_set_of_some at_i, if_neg apart, at_j]

theorem mem_eraseIdx_of_ne {table : List α} {i : ℕ} {x y : α} (at_i : table[i]? = some y)
    (member : x ∈ table) (other : x ≠ y) : x ∈ table.eraseIdx i := by
  obtain ⟨j, at_j⟩ := List.mem_iff_getElem?.mp member
  refine List.mem_eraseIdx_iff_getElem?.mpr ⟨j, ?_, at_j⟩
  rintro rfl
  exact other (Option.some.inj (at_j.symm.trans at_i))

section Count

variable (weight : α → ℕ)

theorem weight_le_total {table : List α} {i : ℕ} {x : α} (at_i : table[i]? = some x) :
    weight x ≤ total weight table := by
  rw [total_split weight at_i]
  exact Nat.le_add_right _ _

theorem weight_add_le_total {table : List α} {i j : ℕ} {x y : α} (at_i : table[i]? = some x)
    (at_j : table[j]? = some y) (apart : j ≠ i) : weight x + weight y ≤ total weight table := by
  have rest : y ∈ table.eraseIdx i := List.mem_eraseIdx_iff_getElem?.mpr ⟨j, apart, at_j⟩
  obtain ⟨k, at_k⟩ := List.mem_iff_getElem?.mp rest
  rw [total_split weight at_i]
  exact Nat.add_le_add_left (weight_le_total weight at_k) _

theorem total_eq_zero {table : List α} :
    total weight table = 0 ↔ ∀ x ∈ table, weight x = 0 := by
  induction table with
  | nil => simp
  | cons x table ih => simp [ih]

end Count

end Table
