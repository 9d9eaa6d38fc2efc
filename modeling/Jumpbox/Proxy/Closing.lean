import Jumpbox.Proxy.Accounts

/-! What `djb_close` leaves behind. It looks through `lst_proxy_out` once, and
takes the first request paired with the connection that closed. A second one on
the list stays there, and so does one that a thread holds at that moment and
appends later. -/

namespace Jumpbox.Proxy

open Table

def WorkerPc.appends : WorkerPc → List Ptr
  | .enlist pr _ => [pr]
  | _ => []

def HandlerPc.appends : HandlerPc → List Ptr
  | .putBack _ pr => [pr]
  | _ => []

def HandlerPc.lookups : HandlerPc → List UInt64
  | .closeFind id => [id]
  | _ => []

def HandlerPc.closing : HandlerPc → Bool
  | .closeFind _ | .closeAdd _ _ => true
  | _ => false

def arriving (s : State) : List Ptr :=
  s.workers.flatMap WorkerPc.appends ++ s.handlers.flatMap HandlerPc.appends

def awaiting (s : State) : List Ptr := s.lstProxyOut ++ arriving s

/-- The request is paired with a puller that is gone: its `djb_close` has looked
for requests already. -/
def PullerGone (s : State) (p : Ptr) : Prop :=
  (s.mem p).phclId ∈ s.hist.closed ∧ .closeFind (s.mem p).phclId ∉ s.handlers

/-- No entry of `lst_proxy_out` is paired with a connection that has closed,
whenever no `djb_close` is in progress. -/
def NoneAwaitsGone (s : State) : Prop :=
  (∀ pc ∈ s.handlers, pc.closing = false) → ∀ p ∈ s.lstProxyOut, (s.mem p).phclId ∉ s.hist.closed

instance (s : State) : Decidable (NoneAwaitsGone s) :=
  inferInstanceAs (Decidable (_ → _))

/-- What a lookup for `id` would find: at most one entry, and none that is still
about to be appended. -/
def FindsAll (s : State) (id : UInt64) : Prop :=
  s.lstProxyOut.countP (fun p => (s.mem p).phclId = id) ≤ 1 ∧
    ∀ p ∈ arriving s, (s.mem p).phclId ≠ id

/-- Every lookup of `djb_close` finds all there is, and no internal push is left
unfinished after its puller is gone. -/
def CloseFindsAll (s : State) : Event → Prop
  | .handler t => ∀ pc ∈ s.handlers[t]?, ∀ id ∈ pc.lookups, FindsAll s id
  | .callback t false => ∀ pc ∈ s.handlers[t]?, ∀ pr ∈ pc.requests, ¬PullerGone s pr
  | _ => True

instance (s : State) (id : UInt64) : Decidable (FindsAll s id) :=
  inferInstanceAs (Decidable (_ ∧ _))

instance (s : State) (p : Ptr) : Decidable (PullerGone s p) :=
  inferInstanceAs (Decidable (_ ∧ _))

instance (s : State) : ∀ e, Decidable (CloseFindsAll s e)
  | .handler t =>
    have (pc : HandlerPc) : Decidable (∀ id ∈ pc.lookups, FindsAll s id) :=
      List.decidableBAll (FindsAll s) pc.lookups
    inferInstanceAs (Decidable (∀ pc ∈ s.handlers[t]?, ∀ id ∈ pc.lookups, FindsAll s id))
  | .callback t false => inferInstanceAs (Decidable (∀ pc ∈ s.handlers[t]?, _))
  | .callback _ true | .request .. | .internal _ | .worker _ | .again .. | .disconnect _
  | .close .. | .move .. | .finish _ | .abort _ => isTrue trivial

structure Watched (s : State) : Prop where
  awaits : ∀ p ∈ awaiting s, ¬PullerGone s p
  closed : ∀ id ∈ s.hist.closed, id ∈ s.shut

theorem Watched.noneAwaitsGone {s : State} (h : Watched s) : NoneAwaitsGone s := by
  intro quiet p member gone
  refine h.awaits p (List.mem_append_left _ member) ⟨gone, fun looking => ?_⟩
  have := quiet _ looking
  simp [HandlerPc.closing] at this

theorem mem_awaiting {s : State} {p : Ptr} : p ∈ awaiting s ↔ p ∈ s.lstProxyOut ∨
    (∃ pc ∈ s.workers, p ∈ pc.appends) ∨ ∃ pc ∈ s.handlers, p ∈ pc.appends := by
  simp only [awaiting, arriving, List.mem_append, List.mem_flatMap]

theorem held_of_awaiting {s : State} {p : Ptr} (awaits : p ∈ awaiting s) : Held s p := by
  rcases mem_awaiting.mp awaits with listed | ⟨pc, member, appends⟩ | ⟨pc, member, appends⟩
  · exact .inr (.inl listed)
  · refine .inr (.inr (.inl ⟨pc, member, ?_⟩))
    cases pc <;> simp_all [WorkerPc.appends, WorkerPc.requests]
  · refine .inr (.inr (.inr ⟨pc, member, ?_⟩))
    cases pc <;> simp_all [HandlerPc.appends, HandlerPc.requests]

theorem arriving_worker {s s' : State} {t : ℕ} {new : WorkerPc} {p : Ptr}
    (held : p ∈ arriving s') (workers : s'.workers = s.workers.set t new)
    (handlers : s'.handlers = s.handlers) : p ∈ arriving s ∨ p ∈ new.appends := by
  simp only [arriving, workers, handlers, List.mem_append, List.mem_flatMap] at held ⊢
  rcases held with ⟨slot, member, appends⟩ | held
  · rcases List.mem_or_eq_of_mem_set member with before | rfl
    · exact .inl (.inl ⟨slot, before, appends⟩)
    · exact .inr appends
  · exact .inl (.inr held)

theorem arriving_handler {s s' : State} {t : ℕ} {new : HandlerPc} {p : Ptr}
    (held : p ∈ arriving s') (workers : s'.workers = s.workers)
    (handlers : s'.handlers = s.handlers.set t new) : p ∈ arriving s ∨ p ∈ new.appends := by
  simp only [arriving, workers, handlers, List.mem_append, List.mem_flatMap] at held ⊢
  rcases held with held | ⟨slot, member, appends⟩
  · exact .inl (.inl held)
  · rcases List.mem_or_eq_of_mem_set member with before | rfl
    · exact .inl (.inr ⟨slot, before, appends⟩)
    · exact .inr appends

theorem gone_handler {s s' : State} {t : ℕ} {old new : HandlerPc} {p : Ptr}
    (pc : s.handlers[t]? = some old) (handlers : s'.handlers = s.handlers.set t new)
    (mem : s'.mem p = s.mem p) (closed : s'.hist.closed = s.hist.closed)
    (other : old ≠ .closeFind (s.mem p).phclId) (gone : PullerGone s' p) : PullerGone s p := by
  obtain ⟨shut, not_looking⟩ := gone
  rw [mem] at shut not_looking
  refine ⟨closed ▸ shut, fun looking => not_looking ?_⟩
  rw [handlers]
  exact mem_set_of_ne pc new looking (Ne.symm other)

theorem Watched.worker {s s' : State} {t : ℕ} {old new : WorkerPc} (h : Watched s)
    (pc : s.workers[t]? = some old) (workers : s'.workers = s.workers.set t new)
    (handlers : s'.handlers = s.handlers) (mem : s'.mem = s.mem)
    (closed : s'.hist.closed = s.hist.closed) (shut : s'.shut = s.shut)
    (listed : ∀ q ∈ s'.lstProxyOut, q ∈ s.lstProxyOut ∨ q ∈ old.appends)
    (appends : new.appends = []) : Watched s' := by
  refine ⟨fun p awaits gone => ?_, by rw [closed, shut]; exact h.closed⟩
  have before : PullerGone s p := by rwa [PullerGone, mem, handlers, closed] at gone
  refine h.awaits p ?_ before
  rcases List.mem_append.mp awaits with member | held
  · rcases listed p member with earlier | appended
    · exact List.mem_append_left _ earlier
    · exact mem_awaiting.mpr (.inr (.inl ⟨old, List.mem_of_getElem? pc, appended⟩))
  · rcases arriving_worker held workers handlers with earlier | impossible
    · exact List.mem_append_right _ earlier
    · simp [appends] at impossible

theorem Watched.handler {s s' : State} {t : ℕ} {old new : HandlerPc} (h : Watched s)
    (pc : s.handlers[t]? = some old) (workers : s'.workers = s.workers)
    (handlers : s'.handlers = s.handlers.set t new) (mem : s'.mem = s.mem)
    (closed : s'.hist.closed = s.hist.closed) (shut : s'.shut = s.shut)
    (listed : ∀ q ∈ s'.lstProxyOut, q ∈ s.lstProxyOut ∨ q ∈ old.appends)
    (other : ∀ p ∈ awaiting s', old ≠ .closeFind (s.mem p).phclId)
    (appends : ∀ p ∈ new.appends, ¬PullerGone s p) : Watched s' := by
  refine ⟨fun p awaits gone => ?_, by rw [closed, shut]; exact h.closed⟩
  have before := gone_handler pc handlers (by rw [mem]) closed (other p awaits) gone
  rcases List.mem_append.mp awaits with member | held
  · refine h.awaits p ?_ before
    rcases listed p member with earlier | appended
    · exact List.mem_append_left _ earlier
    · exact mem_awaiting.mpr (.inr (.inr ⟨old, List.mem_of_getElem? pc, appended⟩))
  · rcases arriving_handler held workers handlers with earlier | appended
    · exact h.awaits p (List.mem_append_right _ earlier) before
    · exact appends p appended before

theorem Watched.allocation {s s' : State} (h : Watched s) (booked : Booked s)
    (workers : s'.workers = s.workers) (handlers : s'.handlers = s.handlers)
    (listed : s'.lstProxyOut = s.lstProxyOut) (mem : ∀ p < s.next, s'.mem p = s.mem p)
    (closed : s'.hist.closed = s.hist.closed) (shut : s'.shut = s.shut) : Watched s' := by
  refine ⟨fun p awaits gone => ?_, by rw [closed, shut]; exact h.closed⟩
  have before : p ∈ awaiting s := by rwa [awaiting, arriving, workers, handlers, listed] at awaits
  rw [PullerGone, mem p (booked.old_of_held (held_of_awaiting before)), handlers, closed] at gone
  exact h.awaits p before gone

theorem watched_step {s s' : State} {e : Event} (h : Watched s) (booked : Booked s)
    (guard : CloseFindsAll s e) (st : Step s e s') : Watched s' := by
  cases st with
  | accept | internal | pull =>
    refine h.allocation booked rfl rfl rfl (fun p old => ?_) rfl rfl
    simp [djbProxyAdd, djbPullPost, Function.update_of_ne (Nat.ne_of_lt old)]
  | refuse | elsewhere | move | finish | abort => exact ⟨h.awaits, h.closed⟩
  | disconnect => exact ⟨h.awaits, fun id member => List.mem_cons_of_mem _ (h.closed id member)⟩
  | takeNew pc | takePull pc | drop pc | handBody pc | handPlain pc | release pc =>
    exact h.worker pc rfl rfl rfl rfl rfl (fun q => .inl) rfl
  | enlist pc =>
    refine h.worker pc rfl rfl rfl rfl rfl (fun q member => ?_) rfl
    simpa [WorkerPc.appends] using member
  | @pair t pr ar pc valid =>
    refine ⟨fun p awaits gone => ?_, h.closed⟩
    by_cases paired : p = pr
    · -- the puller is still open, so its `djb_close` has not begun
      subst paired
      have := h.closed _ gone.1
      simp at this
      exact valid this
    · have before : PullerGone s p := by
        simpa [PullerGone, Function.update_of_ne paired] using gone
      refine h.awaits p ?_ before
      rcases List.mem_append.mp awaits with member | held
      · exact List.mem_append_left _ member
      · rcases arriving_worker (s := s) (t := t) held rfl rfl with earlier | appended
        · exact List.mem_append_right _ earlier
        · exact absurd (List.mem_singleton.mp appended) paired
  | push _ _ _ pc | miss _ pc | enter pc | answerClosed pc | answerPlain pc | answerBody pc
  | reschedule pc | callbackDone pc | again pc =>
    exact h.handler pc rfl rfl rfl rfl rfl (fun q => .inl) (by simp) (by simp [HandlerPc.appends])
  | find pc _ lst =>
    refine h.handler pc rfl rfl rfl rfl rfl (fun q member => .inl ?_) (by simp)
      (by simp [HandlerPc.appends])
    exact lst.mem_iff.mpr (List.mem_cons_of_mem _ member)
  | putBack pc =>
    refine h.handler pc rfl rfl rfl rfl rfl (fun q member => ?_) (by simp)
      (by simp [HandlerPc.appends])
    simpa [HandlerPc.appends] using member
  | callbackWait pc =>
    refine h.handler pc rfl rfl rfl rfl rfl (fun q => .inl) (by simp) ?_
    simpa [HandlerPc.appends, HandlerPc.requests] using guard _ pc
  | @closeNone t id pc unpaired =>
    obtain ⟨_, none_arrives⟩ := guard _ pc id (List.mem_singleton.mpr rfl)
    refine h.handler pc rfl rfl rfl rfl rfl (fun q => .inl) (fun p awaits same => ?_)
      (by simp [HandlerPc.appends])
    cases same
    rcases List.mem_append.mp awaits with member | held
    · exact unpaired p member rfl
    · rcases arriving_handler (s := s) (t := t) held rfl rfl with earlier | impossible
      · exact none_arrives p earlier rfl
      · simp [HandlerPc.appends] at impossible
  | @closeSome t id pr rest pc paired lst =>
    obtain ⟨one, none_arrives⟩ := guard _ pc id (List.mem_singleton.mpr rfl)
    refine h.handler pc rfl rfl rfl rfl rfl
      (fun q member => .inl (lst.mem_iff.mpr (List.mem_cons_of_mem _ member)))
      (fun p awaits same => ?_) (by simp [HandlerPc.appends])
    cases same
    rcases List.mem_append.mp awaits with member | held
    · rw [lst.countP_eq, List.countP_cons_of_pos (by simpa using paired)] at one
      have another : 0 < rest.countP fun q => (s.mem q).phclId = (s.mem p).phclId :=
        List.countP_pos_iff.mpr ⟨p, member, by simp⟩
      omega
    · rcases arriving_handler (s := s) (t := t) held rfl rfl with earlier | impossible
      · exact none_arrives p earlier rfl
      · simp [HandlerPc.appends] at impossible
  | @close t id pc shut first =>
    have shut_closed : ∀ i ∈ s.hist.closed ++ [id], i ∈ s.shut :=
      List.forall_mem_append.mpr ⟨h.closed, by simpa using shut⟩
    refine ⟨fun p awaits gone => ?_, shut_closed⟩
    obtain ⟨closed, not_looking⟩ := gone
    have looking : HandlerPc.closeFind id ∈ s.handlers.set t (.closeFind id) :=
      List.mem_iff_getElem?.mpr ⟨t, by rw [getElem?_set_of_some pc, if_pos rfl]⟩
    rcases List.mem_append.mp closed with earlier | this_one
    · have before : PullerGone s p :=
        ⟨earlier, fun inside => not_looking (mem_set_of_ne pc _ inside (by simp))⟩
      refine h.awaits p ?_ before
      rcases List.mem_append.mp awaits with member | held
      · exact List.mem_append_left _ member
      · rcases arriving_handler (s := s) (t := t) held rfl rfl with earlier | impossible
        · exact List.mem_append_right _ earlier
        · simp [HandlerPc.appends] at impossible
    · simp only [List.mem_singleton] at this_one
      exact not_looking (this_one ▸ looking)

theorem watched_init (workers handlers : ℕ) : Watched (init workers handlers) where
  awaits p _ gone := by simp [PullerGone, init] at gone
  closed id member := by simp [init] at member

/-- No request waits for the answer of a puller that is gone, in any run in
which every `djb_close` finds all there is to find. -/
theorem none_awaits_gone (workers handlers : ℕ) (es : List Event)
    (finds : machine.Meets CloseFindsAll (init workers handlers) es) :
    machine.Always NoneAwaitsGone (init workers handlers) es := by
  have start : Watched (init workers handlers) := watched_init workers handlers
  have invariant := machine.always_of_meets (I := fun s => Booked s ∧ Watched s)
    (fun s e s' h guard moved => ⟨booked_step h.1 (step_cases moved),
      watched_step h.2 h.1 guard (step_cases moved)⟩)
    ⟨booked_init _ _, start⟩ finds
  exact invariant.imp machine fun s h => h.2.noneAwaitsGone

def secondPull : HttpsrvClient := { circuitPull with reqid := 2 }

def secondGet : HttpsrvClient := { clientGet with reqid := 2 }

def closeRun : List Event :=
  handOverRun ++ [.disconnect 2, .close 0 2, .handler 0, .handler 0]

/-- A puller is handed two requests over one connection, and closes. -/
def closeAfterTwoRun : List Event :=
  handOverRun ++ [.request 0 secondGet none, .request 0 secondPull none, .worker 0, .worker 0,
    .worker 0, .worker 0, .worker 0, .worker 0, .disconnect 2, .close 0 2, .handler 0, .handler 0]

theorem none_awaits_gone_in_closeRun : machine.Always NoneAwaitsGone (init 1 1) closeRun :=
  none_awaits_gone 1 1 closeRun (by decide)

theorem second_request_awaits_gone :
    ¬∀ (workers handlers : ℕ) (es : List Event) (s : State),
      machine.exec (init workers handlers) es = some s → NoneAwaitsGone s := by
  intro never
  have none := never 1 1 closeAfterTwoRun _ rfl
  revert none
  decide

end Jumpbox.Proxy
