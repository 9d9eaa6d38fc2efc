import Jumpbox.Proxy.Accounts

/-! What becomes of an accepted request.
A request leaves the custody of the daemon by a push, and on one branch of
`djb_handle_forward` without one: the puller is found closed and the request
is put nowhere. That branch is the only leak. -/

namespace Jumpbox.Proxy

open Table

/-- Answered by a push, or found by the push with its own connection closed. -/
def Completed (s : State) (p : Ptr) : Prop := p ∈ s.hist.completed.map Prod.fst

instance (s : State) (p : Ptr) : Decidable (Completed s p) :=
  inferInstanceAs (Decidable (_ ∈ _))

def NoneLost (s : State) : Prop := ∀ p ∈ s.hist.accepted, Completed s p ∨ Held s p

instance (s : State) : Decidable (NoneLost s) :=
  inferInstanceAs (Decidable (∀ _ ∈ _, _))

/-- No worker enters `djb_handle_forward` with a puller whose connection closed. -/
def PullerOpen (s : State) : Event → Prop
  | .worker t => ∀ pr ar, s.workers[t]? = some (.forward pr ar) → s.connIsValid (s.mem ar).hcl
  | _ => True

theorem completed_iff {s : State} {p : Ptr} :
    Completed s p ↔ 0 < (s.hist.completed.map Prod.fst).count p := by
  rw [Completed, List.count_pos_iff]

theorem custody {s : State} (h : Balanced s) {p : Ptr} (accepted : p ∈ s.hist.accepted) :
    Completed s p ∨ Held s p ∨ p ∈ s.hist.dropped := by
  have books := h.requests p
  have := List.count_pos_iff.mpr accepted
  rw [completed_iff, held_iff, ← List.count_pos_iff (l := s.hist.dropped)]
  simp only [requestBook] at books
  omega

theorem dropped_is_lost {s : State} (h : Booked s) {p : Ptr} (dropped : p ∈ s.hist.dropped) :
    p ∈ s.hist.accepted ∧ ¬Completed s p ∧ ¬Held s p := by
  have books := h.requests p
  have once := h.accepted_once p
  have := List.count_pos_iff.mpr dropped
  rw [completed_iff, held_iff, ← List.count_pos_iff]
  simp only [requestBook] at books
  omega

theorem noneLost_iff {s : State} (h : Booked s) : NoneLost s ↔ s.hist.dropped = [] := by
  constructor
  · intro kept
    by_contra some_dropped
    obtain ⟨p, dropped⟩ := List.exists_mem_of_ne_nil _ some_dropped
    obtain ⟨accepted, not_completed, not_held⟩ := dropped_is_lost h dropped
    exact (kept p accepted).elim not_completed not_held
  · intro none_dropped p accepted
    rcases custody h.toBalanced accepted with done | held | dropped
    · exact .inl done
    · exact .inr held
    · simp [none_dropped] at dropped

theorem dropped_step {s s' : State} {e : Event} (none_dropped : s.hist.dropped = [])
    (guard : PullerOpen s e) (st : Step s e s') : s'.hist.dropped = [] := by
  cases st with
  | drop pc shut => exact absurd shut (State.connIsValid_iff.mp (guard _ _ pc))
  | _ => exact none_dropped

theorem dropped_of_not_pullerOpen {s s' : State} {e : Event} (broken : ¬PullerOpen s e)
    (st : Step s e s') : s'.hist.dropped ≠ [] := by
  cases st with
  | drop pc shut => simp
  | pair pc valid =>
    refine absurd (fun pr ar pc' => ?_) broken
    rw [pc] at pc'
    cases pc'
    exact State.connIsValid_iff.mpr valid
  | takeNew pc | takePull pc | enlist pc | handBody pc | handPlain pc | release pc =>
    exact absurd (fun pr ar pc' => by rw [pc] at pc'; cases pc') broken
  | _ => exact absurd trivial broken

/-- In a run of the daemon no accepted request is ever lost, in any state it
passes through, exactly when no worker hands a request to a closed puller. -/
theorem none_lost_iff_pullers_open (workers handlers : ℕ) (es : List Event) (s : State)
    (run : machine.exec (init workers handlers) es = some s) :
    machine.Always NoneLost (init workers handlers) es ↔
      machine.Meets PullerOpen (init workers handlers) es := by
  refine machine.always_iff_meets (I := fun s => Booked s ∧ s.hist.dropped = [])
    (fun s h => (noneLost_iff h.1).mpr h.2) ?_ ?_ ⟨booked_init _ _, rfl⟩ run
  · intro s e s' h guard st
    exact ⟨booked_step h.1 (step_cases st), dropped_step h.2 guard (step_cases st)⟩
  · intro s e s' h broken st lost
    have booked := booked_step h.1 (step_cases st)
    exact dropped_of_not_pullerOpen broken (step_cases st) ((noneLost_iff booked).mp lost)

/-- The pull is queued, its connection closes, and a worker takes both. -/
def closedPullerRun : List Event :=
  [.request 0 clientGet none, .request 0 circuitPull none, .disconnect 2,
    .worker 0, .worker 0, .worker 0]

theorem none_lost_in_handOverRun :
    ∃ s, machine.exec (init 1 1) handOverRun = some s ∧
      (machine.Always NoneLost (init 1 1) handOverRun ↔
        machine.Meets PullerOpen (init 1 1) handOverRun) :=
  ⟨_, rfl, none_lost_iff_pullers_open 1 1 handOverRun _ rfl⟩

theorem request_lost_to_closed_puller :
    ¬∀ (workers handlers : ℕ) (es : List Event) (s : State),
      machine.exec (init workers handlers) es = some s → NoneLost s := by
  intro never
  have lost := never 1 1 closedPullerRun _ rfl
  revert lost
  decide

end Jumpbox.Proxy
