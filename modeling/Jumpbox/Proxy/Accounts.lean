import Jumpbox.Proxy.Cases
import Jumpbox.Library.Table
import Mathlib.Data.List.Nodup

/-! The books of the daemon: every `djb_req_t` ever allocated is in one place.
For each pointer the allocations are balanced against the lists, the slots of
the threads and the ways out of the daemon. Pulls are booked twice, until they
are freed and until they have been handed a request. -/

namespace Jumpbox.Proxy

open Table

/-- The proxied requests a worker has taken off a list and not appended again. -/
def WorkerPc.requests : WorkerPc → List Ptr
  | .getPull pr | .forward pr _ | .enlist pr _ => [pr]
  | _ => []

def WorkerPc.pulls : WorkerPc → List Ptr
  | .forward _ ar | .enlist _ ar | .handOver _ ar | .release ar => [ar]
  | _ => []

def WorkerPc.unpaired : WorkerPc → List Ptr
  | .forward _ ar => [ar]
  | _ => []

def HandlerPc.requests : HandlerPc → List Ptr
  | .found _ pr | .callback _ pr | .putBack _ pr | .closeAdd _ pr => [pr]
  | _ => []

def requestBook (s : State) (p : Ptr) : ℕ :=
  s.lstProxyNew.count p + s.lstProxyOut.count p +
    (s.hist.completed.map Prod.fst).count p + s.hist.dropped.count p

def pullBook (s : State) (p : Ptr) : ℕ := s.lstApiPull.count p + s.hist.released.count p

def pairBook (s : State) (p : Ptr) : ℕ :=
  s.lstApiPull.count p + (s.hist.handed.map Prod.snd).count p + s.hist.refused.count p

structure Balanced (s : State) : Prop where
  requests : ∀ p, s.hist.accepted.count p = requestBook s p +
    total (fun pc => pc.requests.count p) s.workers +
    total (fun pc => pc.requests.count p) s.handlers
  pulls : ∀ p, s.hist.pulls.count p =
    pullBook s p + total (fun pc => pc.pulls.count p) s.workers
  pairs : ∀ p, s.hist.pulls.count p =
    pairBook s p + total (fun pc => pc.unpaired.count p) s.workers

theorem balanced_init (workers handlers : ℕ) : Balanced (init workers handlers) := by
  have worker (p : Ptr) (f : WorkerPc → List Ptr) (none_held : f .getNew = []) :
      total (fun pc => (f pc).count p) (List.replicate workers .getNew) = 0 :=
    total_replicate_zero _ _ _ (by simp [none_held])
  have handler (p : Ptr) :
      total (fun pc : HandlerPc => pc.requests.count p) (List.replicate handlers .idle) = 0 :=
    total_replicate_zero _ _ _ rfl
  refine ⟨fun p => ?_, fun p => ?_, fun p => ?_⟩
  · simp [init, requestBook, worker p WorkerPc.requests rfl, handler p]
  · simp [init, pullBook, worker p WorkerPc.pulls rfl]
  · simp [init, pairBook, worker p WorkerPc.unpaired rfl]

theorem Balanced.worker {s s' : State} {t : ℕ} {old new : WorkerPc} (h : Balanced s)
    (pc : s.workers[t]? = some old) (workers : s'.workers = s.workers.set t new)
    (handlers : s'.handlers = s.handlers)
    (accepted : s'.hist.accepted = s.hist.accepted) (pulls : s'.hist.pulls = s.hist.pulls)
    (trade : ∀ p, requestBook s p + old.requests.count p = requestBook s' p + new.requests.count p ∧
      pullBook s p + old.pulls.count p = pullBook s' p + new.pulls.count p ∧
      pairBook s p + old.unpaired.count p = pairBook s' p + new.unpaired.count p) :
    Balanced s' := by
  refine ⟨fun p => ?_, fun p => ?_, fun p => ?_⟩
  · have books := h.requests p
    rw [total_split _ pc] at books
    rw [accepted, workers, handlers, total_set _ pc]
    have := (trade p).1
    omega
  · have books := h.pulls p
    rw [total_split _ pc] at books
    rw [pulls, workers, total_set _ pc]
    have := (trade p).2.1
    omega
  · have books := h.pairs p
    rw [total_split _ pc] at books
    rw [pulls, workers, total_set _ pc]
    have := (trade p).2.2
    omega

theorem Balanced.handler {s s' : State} {t : ℕ} {old new : HandlerPc} (h : Balanced s)
    (pc : s.handlers[t]? = some old) (handlers : s'.handlers = s.handlers.set t new)
    (workers : s'.workers = s.workers)
    (accepted : s'.hist.accepted = s.hist.accepted) (pulls : s'.hist.pulls = s.hist.pulls)
    (pullsBooked : pullBook s' = pullBook s) (pairsBooked : pairBook s' = pairBook s)
    (trade : ∀ p,
      requestBook s p + old.requests.count p = requestBook s' p + new.requests.count p) :
    Balanced s' := by
  refine ⟨fun p => ?_, fun p => ?_, fun p => ?_⟩
  · have books := h.requests p
    rw [total_split _ pc] at books
    rw [accepted, workers, handlers, total_set _ pc]
    have := trade p
    omega
  · rw [pulls, workers, pullsBooked]
    exact h.pulls p
  · rw [pulls, workers, pairsBooked]
    exact h.pairs p

theorem Balanced.proxyAdd {s : State} (h : Balanced s) (hcl : HttpsrvClient) :
    Balanced (djbProxyAdd s hcl) := by
  refine ⟨fun p => ?_, h.pulls, h.pairs⟩
  have books := h.requests p
  simp only [djbProxyAdd, requestBook, List.count_append] at books ⊢
  omega

theorem Balanced.pullPost {s : State} (h : Balanced s) (hcl : HttpsrvClient) :
    Balanced (djbPullPost s hcl) := by
  refine ⟨h.requests, fun p => ?_, fun p => ?_⟩
  · have books := h.pulls p
    simp only [djbPullPost, pullBook, List.count_append] at books ⊢
    omega
  · have books := h.pairs p
    simp only [djbPullPost, pairBook, List.count_append] at books ⊢
    omega

theorem count_of_perm {xs rest : List Ptr} {x : Ptr} (h : xs.Perm (x :: rest)) (p : Ptr) :
    xs.count p = rest.count p + [x].count p := by
  rw [h.count_eq, ← List.singleton_append, List.count_append, Nat.add_comm]

theorem balanced_step {s s' : State} {e : Event} (h : Balanced s) (st : Step s e s') :
    Balanced s' := by
  cases st with
  | accept =>
    refine Balanced.proxyAdd ?_ _
    exact ⟨h.requests, h.pulls, h.pairs⟩
  | pull =>
    refine Balanced.pullPost ?_ _
    exact ⟨h.requests, h.pulls, h.pairs⟩
  | internal =>
    refine Balanced.proxyAdd ?_ _
    exact ⟨h.requests, h.pulls, h.pairs⟩
  | push _ _ _ pc => exact h.handler pc rfl rfl rfl rfl rfl rfl fun p => rfl
  | refuse | elsewhere => exact ⟨h.requests, h.pulls, h.pairs⟩
  | takeNew pc lst =>
    refine h.worker pc rfl rfl rfl rfl fun p => ⟨?_, rfl, rfl⟩
    have := count_of_perm (List.Perm.of_eq lst) p
    simp only [requestBook, State.setWorker, WorkerPc.requests, List.count_nil] at this ⊢
    omega
  | takePull pc lst =>
    have := count_of_perm (List.Perm.of_eq lst)
    refine h.worker pc rfl rfl rfl rfl fun p => ⟨rfl, ?_, ?_⟩
    · simp only [pullBook, State.setWorker, WorkerPc.pulls, List.count_nil, this p]
      omega
    · simp only [pairBook, State.setWorker, WorkerPc.unpaired, List.count_nil, this p]
      omega
  | pair pc =>
    refine h.worker pc rfl rfl rfl rfl fun p => ⟨rfl, rfl, ?_⟩
    simp only [pairBook, State.setWorker, State.writes, WorkerPc.unpaired, List.count_nil,
      List.map_append, List.count_append, List.map_cons, List.map_nil]
    omega
  | drop pc =>
    refine h.worker pc rfl rfl rfl rfl fun p => ⟨?_, rfl, ?_⟩
    · simp only [requestBook, State.setWorker, State.replies, State.writes, WorkerPc.requests,
        List.count_nil, List.count_append]
      omega
    · simp only [pairBook, State.setWorker, State.replies, State.writes, WorkerPc.unpaired,
        List.count_nil, List.count_append]
      omega
  | enlist pc =>
    refine h.worker pc rfl rfl rfl rfl fun p => ⟨?_, rfl, rfl⟩
    simp only [requestBook, State.setWorker, WorkerPc.requests, List.count_nil, List.count_append]
    omega
  | handBody pc => exact h.worker pc rfl rfl rfl rfl fun p => ⟨rfl, rfl, rfl⟩
  | handPlain pc => exact h.worker pc rfl rfl rfl rfl fun p => ⟨rfl, rfl, rfl⟩
  | release pc =>
    refine h.worker pc rfl rfl rfl rfl fun p => ⟨rfl, ?_, rfl⟩
    simp only [pullBook, State.setWorker, WorkerPc.pulls, List.count_nil, List.count_append]
    omega
  | miss _ pc => exact h.handler pc rfl rfl rfl rfl rfl rfl fun p => rfl
  | find pc _ lst =>
    refine h.handler pc rfl rfl rfl rfl rfl rfl fun p => ?_
    have := count_of_perm lst p
    simp only [requestBook, State.setHandler, HandlerPc.requests, List.count_nil] at this ⊢
    omega
  | enter pc => exact h.handler pc rfl rfl rfl rfl rfl rfl fun p => rfl
  | answerClosed pc =>
    refine h.handler pc rfl rfl rfl rfl rfl rfl fun p => ?_
    simp only [requestBook, State.setHandler, State.replies, State.writes, HandlerPc.requests,
      List.count_nil, List.map_append, List.count_append, List.map_cons, List.map_nil]
    omega
  | answerPlain pc =>
    refine h.handler pc rfl rfl rfl rfl rfl rfl fun p => ?_
    simp only [requestBook, State.setHandler, State.replies, State.writes, HandlerPc.requests,
      List.count_nil, List.map_append, List.count_append, List.map_cons, List.map_nil]
    omega
  | answerBody pc =>
    refine h.handler pc rfl rfl rfl rfl rfl rfl fun p => ?_
    simp only [requestBook, State.setHandler, State.writes, State.httpsrvForward,
      HandlerPc.requests, List.count_nil, List.map_append, List.count_append, List.map_cons,
      List.map_nil]
    omega
  | putBack pc =>
    refine h.handler pc rfl rfl rfl rfl rfl rfl fun p => ?_
    simp only [requestBook, State.setHandler, HandlerPc.requests, List.count_nil, List.count_append]
    omega
  | closeNone pc => exact h.handler pc rfl rfl rfl rfl rfl rfl fun p => rfl
  | closeSome pc _ lst =>
    refine h.handler pc rfl rfl rfl rfl rfl rfl fun p => ?_
    have := count_of_perm lst p
    simp only [requestBook, State.setHandler, HandlerPc.requests, List.count_nil] at this ⊢
    omega
  | reschedule pc =>
    refine h.handler pc rfl rfl rfl rfl rfl rfl fun p => ?_
    simp only [requestBook, State.setHandler, HandlerPc.requests, List.count_nil, List.count_append]
    omega
  | callbackDone pc =>
    refine h.handler pc rfl rfl rfl rfl rfl rfl fun p => ?_
    simp only [requestBook, State.setHandler, State.replies, State.writes, HandlerPc.requests,
      List.count_nil, List.map_append, List.count_append, List.map_cons, List.map_nil]
    omega
  | callbackWait pc => exact h.handler pc rfl rfl rfl rfl rfl rfl fun p => rfl
  | again pc => exact h.handler pc rfl rfl rfl rfl rfl rfl fun p => rfl
  | disconnect => exact ⟨h.requests, h.pulls, h.pairs⟩
  | close pc => exact h.handler pc rfl rfl rfl rfl rfl rfl fun p => rfl
  | move => exact ⟨h.requests, h.pulls, h.pairs⟩
  | finish => exact ⟨h.requests, h.pulls, h.pairs⟩
  | abort => exact ⟨h.requests, h.pulls, h.pairs⟩

/-- The pointers that `djb_proxy_add` and `djb_pull_post` have appended. -/
def allocated (s : State) : List Ptr := s.hist.accepted ++ s.hist.pulls

structure Fresh (s : State) : Prop where
  nodup : (allocated s).Nodup
  old : ∀ p ∈ allocated s, p < s.next

structure Booked (s : State) : Prop extends Balanced s, Fresh s

theorem fresh_allocate {s s' : State} (h : Fresh s) (next : s'.next = s.next + 1)
    (perm : (allocated s').Perm (s.next :: allocated s)) : Fresh s' := by
  refine ⟨perm.nodup_iff.mpr (List.nodup_cons.mpr ⟨fun member => ?_, h.nodup⟩), ?_⟩
  · exact Nat.lt_irrefl s.next (h.old s.next member)
  · intro p member
    rw [next]
    rcases List.mem_cons.mp (perm.mem_iff.mp member) with rfl | earlier
    · exact Nat.lt_succ_self s.next
    · exact Nat.lt_succ_of_lt (h.old p earlier)

theorem fresh_step {s s' : State} {e : Event} (h : Fresh s) (st : Step s e s') : Fresh s' := by
  cases st with
  | accept =>
    refine fresh_allocate h rfl ?_
    simp [allocated, djbProxyAdd, List.perm_middle]
  | internal =>
    refine fresh_allocate h rfl ?_
    simp [allocated, djbProxyAdd, List.perm_middle]
  | pull =>
    refine fresh_allocate h rfl ?_
    simp only [allocated, djbPullPost, ← List.append_assoc]
    exact List.perm_append_singleton _ _
  | _ => exact ⟨h.nodup, h.old⟩

theorem booked_init (workers handlers : ℕ) : Booked (init workers handlers) :=
  { balanced_init workers handlers with
    nodup := List.nodup_nil
    old := fun _ member => absurd member List.not_mem_nil }

theorem booked_step {s s' : State} {e : Event} (h : Booked s) (st : Step s e s') : Booked s' :=
  { balanced_step h.toBalanced st, fresh_step h.toFresh st with }

theorem Booked.accepted_once {s : State} (h : Booked s) (p : Ptr) :
    s.hist.accepted.count p ≤ 1 :=
  List.nodup_iff_count_le_one.mp (List.nodup_append.mp h.nodup).1 p

theorem Booked.completed_once {s : State} (h : Booked s) :
    (s.hist.completed.map Prod.fst).Nodup := by
  rw [List.nodup_iff_count_le_one]
  intro p
  have once := h.accepted_once p
  have books := h.requests p
  simp only [requestBook] at books
  omega

theorem Booked.pulled_once {s : State} (h : Booked s) (p : Ptr) : s.hist.pulls.count p ≤ 1 :=
  List.nodup_iff_count_le_one.mp (List.nodup_append.mp h.nodup).2.1 p

theorem count_pos_of_mem_slot {α : Type*} (slots : List α) (tokens : α → List Ptr) (p : Ptr) :
    0 < total (fun pc => (tokens pc).count p) slots ↔ ∃ pc ∈ slots, p ∈ tokens pc := by
  rw [Nat.pos_iff_ne_zero, ne_eq, total_eq_zero]
  simp [List.count_eq_zero]

/-- On `lst_proxy_new` or `lst_proxy_out`, or taken off one of them by a thread. -/
def Held (s : State) (p : Ptr) : Prop :=
  p ∈ s.lstProxyNew ∨ p ∈ s.lstProxyOut ∨
    (∃ pc ∈ s.workers, p ∈ pc.requests) ∨ ∃ pc ∈ s.handlers, p ∈ pc.requests

instance (s : State) (p : Ptr) : Decidable (Held s p) :=
  inferInstanceAs (Decidable (_ ∨ _ ∨ _ ∨ _))

theorem held_iff {s : State} {p : Ptr} : Held s p ↔
    0 < s.lstProxyNew.count p + s.lstProxyOut.count p +
      total (fun pc => pc.requests.count p) s.workers +
      total (fun pc => pc.requests.count p) s.handlers := by
  have workers := count_pos_of_mem_slot s.workers WorkerPc.requests p
  have handlers := count_pos_of_mem_slot s.handlers HandlerPc.requests p
  rw [Held, ← workers, ← handlers, ← List.count_pos_iff, ← List.count_pos_iff]
  omega

theorem Booked.accepted_of_held {s : State} (h : Booked s) {p : Ptr} (held : Held s p) :
    p ∈ s.hist.accepted := by
  have books := h.requests p
  have := held_iff.mp held
  rw [← List.count_pos_iff]
  simp only [requestBook] at books
  omega

theorem Booked.old_of_held {s : State} (h : Booked s) {p : Ptr} (held : Held s p) : p < s.next :=
  h.old p (List.mem_append_left _ (h.accepted_of_held held))

theorem Booked.pulled_of_listed {s : State} (h : Booked s) {p : Ptr} (listed : p ∈ s.lstApiPull) :
    p ∈ s.hist.pulls := by
  have books := h.pulls p
  have := List.count_pos_iff.mpr listed
  rw [← List.count_pos_iff]
  simp only [pullBook] at books
  omega

end Jumpbox.Proxy
