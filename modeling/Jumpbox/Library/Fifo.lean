import Mathlib.Data.List.Perm.Basic

/-! First-in first-out lists searched from the front.
`takeFirst` is the one primitive: it takes out the first entry a test accepts.
Taking the head and looking an entry up by its contents are both cases of it. -/

namespace Fifo

variable {α : Type*}

def takeFirst (test : α → Bool) : List α → Option (α × List α)
  | [] => none
  | x :: xs =>
    if test x then some (x, xs)
    else (takeFirst test xs).map fun found => (found.1, x :: found.2)

theorem takeFirst_eq_none {test : α → Bool} {xs : List α} :
    takeFirst test xs = none ↔ ∀ x ∈ xs, test x = false := by
  induction xs with
  | nil => simp [takeFirst]
  | cons x xs ih => by_cases h : test x <;> simp [takeFirst, h, ih]

theorem takeFirst_test {test : α → Bool} {xs rest : List α} {x : α}
    (found : takeFirst test xs = some (x, rest)) : test x = true := by
  induction xs generalizing rest with
  | nil => simp [takeFirst] at found
  | cons y xs ih =>
    by_cases h : test y
    · simp only [takeFirst, h, if_true, Option.some.injEq, Prod.mk.injEq] at found
      exact found.1 ▸ h
    · simp only [takeFirst, h, Bool.false_eq_true, if_false, Option.map_eq_some_iff] at found
      obtain ⟨⟨z, tail⟩, inner, eq⟩ := found
      cases eq
      exact ih inner

theorem takeFirst_perm {test : α → Bool} {xs rest : List α} {x : α}
    (found : takeFirst test xs = some (x, rest)) : xs.Perm (x :: rest) := by
  induction xs generalizing rest with
  | nil => simp [takeFirst] at found
  | cons y xs ih =>
    by_cases h : test y
    · simp only [takeFirst, h, if_true, Option.some.injEq, Prod.mk.injEq] at found
      rw [found.1, found.2]
    · simp only [takeFirst, h, Bool.false_eq_true, if_false, Option.map_eq_some_iff] at found
      obtain ⟨⟨z, tail⟩, inner, eq⟩ := found
      cases eq
      exact ((ih inner).cons y).trans (List.Perm.swap _ _ _)

end Fifo
