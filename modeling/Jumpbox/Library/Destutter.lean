import Mathlib.Data.List.Destutter

/-! Streams without immediate repetitions. A stream that is shown entry by entry, among
others, by whoever skips what is shown already, is all there but for the repetitions. -/

namespace Destutter

variable {α : Type*} [DecidableEq α]

theorem destutter'_concat (a m : α) (l : List α) :
    (l ++ [m]).destutter' (· ≠ ·) a =
      if (a :: l).getLast? = some m then l.destutter' (· ≠ ·) a
      else l.destutter' (· ≠ ·) a ++ [m] := by
  induction l generalizing a with
  | nil => by_cases same : a = m <;> simp [same]
  | cons b l ih =>
    have last : (a :: b :: l).getLast? = (b :: l).getLast? := List.getLast?_cons_cons
    rw [last, List.cons_append]
    by_cases other : a ≠ b
    · rw [List.destutter'_cons_pos (h := other), List.destutter'_cons_pos (h := other), ih b]
      split <;> rfl
    · rw [List.destutter'_cons_neg (h := other), List.destutter'_cons_neg (h := other), ih a]
      rw [not_not.mp other]

theorem destutter_concat (l : List α) (m : α) :
    (l ++ [m]).destutter (· ≠ ·) =
      if l.getLast? = some m then l.destutter (· ≠ ·) else l.destutter (· ≠ ·) ++ [m] := by
  cases l with
  | nil => rfl
  | cons a l => exact destutter'_concat a m l

/-- All of `stream` is shown, but for its repetitions, in what was shown `earlier` and `now`;
what was shown last can stand for the last of the stream. -/
def Shown (stream earlier : List α) (now : α) : Prop :=
  (stream.destutter (· ≠ ·)).Sublist earlier ∨
    stream.getLast? = some now ∧ (stream.destutter (· ≠ ·)).Sublist (earlier ++ [now])

variable {stream earlier : List α} {now : α}

theorem Shown.sublist (h : Shown stream earlier now) :
    (stream.destutter (· ≠ ·)).Sublist (earlier ++ [now]) := by
  rcases h with all | ⟨_, all⟩
  · exact all.trans (List.sublist_append_left _ _)
  · exact all

theorem Shown.other (h : Shown stream earlier now) (next : α) :
    Shown stream (earlier ++ [now]) next := .inl h.sublist

theorem Shown.next (h : Shown stream earlier now) (m : α) :
    Shown (stream ++ [m]) (earlier ++ [now]) m := by
  refine .inr ⟨List.getLast?_concat, ?_⟩
  rw [destutter_concat]
  split
  · exact h.sublist.trans (List.sublist_append_left _ _)
  · exact h.sublist.append_right _

theorem Shown.again (h : Shown stream earlier now) : Shown (stream ++ [now]) earlier now := by
  refine .inr ⟨List.getLast?_concat, ?_⟩
  rw [destutter_concat]
  rcases h with all | ⟨last, all⟩
  · split
    · exact all.trans (List.sublist_append_left _ _)
    · exact all.append_right _
  · rwa [if_pos last]

end Destutter
