import Jumpbox.Proxy.Keys

/-! Who answers whom. A push holds only a request whose number its `DJB-SeqNo`
decodes to, and no two requests share a number. What is written on behalf of a
push therefore reaches that client alone. -/

namespace Jumpbox.Proxy

open Table

def HandlerPc.matching : HandlerPc → List (Ptr × HttpsrvClient)
  | .found hcl pr | .callback hcl pr | .putBack hcl pr => [(pr, hcl)]
  | _ => []

def Matches (s : State) (m : Ptr × HttpsrvClient) : Prop :=
  m.1 < s.next ∧ scanSeqNo m.2.user.seqno = some (keyOf s m.1)

def Addressed (cause : Cause) (dst : Key) : Prop :=
  ∀ hcl, cause = .answer hcl → scanSeqNo hcl.user.seqno = some dst

def Sends (f : Forward) : Prop :=
  ∀ hcl, f.cause = .answer hcl → f.src = hcl ∧ scanSeqNo hcl.user.seqno = some f.dst.key

structure Routed (s : State) : Prop where
  holds : ∀ pc ∈ s.handlers, ∀ m ∈ pc.matching, Matches s m
  completes : ∀ m ∈ s.hist.completed, Matches s m
  forwards : ∀ f ∈ s.forwards, Sends f
  forwarded : ∀ f ∈ s.hist.forwarded, Sends f
  writes : ∀ w ∈ s.log, Addressed w.cause w.dst

theorem addressed_request (pr ar : Ptr) (dst : Key) : Addressed (.request pr ar) dst :=
  fun _ impossible => nomatch impossible

theorem addressed_reply (hcl : HttpsrvClient) (dst : Key) : Addressed (.reply hcl) dst :=
  fun _ impossible => nomatch impossible

theorem Sends.addressed {f : Forward} (h : Sends f) : Addressed f.cause f.dst.key :=
  fun hcl push => (h hcl push).2

theorem sends_request (pr ar : Ptr) (src dst : HttpsrvClient) (start : ℕ) :
    Sends ⟨.request pr ar, src, dst, start⟩ :=
  fun _ impossible => nomatch impossible

theorem Matches.addressed {s : State} {pr : Ptr} {hcl : HttpsrvClient} (h : Matches s (pr, hcl)) :
    Addressed (.answer hcl) (keyOf s pr) := by
  intro push same
  cases same
  exact h.2

theorem Matches.sends {s : State} {pr : Ptr} {hcl : HttpsrvClient} (h : Matches s (pr, hcl))
    (start : ℕ) : Sends ⟨.answer hcl, hcl, (s.mem pr).hcl, start⟩ := by
  intro push same
  cases same
  exact ⟨rfl, h.2⟩

theorem Matches.step {s s' : State} {e : Event} (st : Step s e s') {m : Ptr × HttpsrvClient}
    (h : Matches s m) : Matches s' m := by
  obtain ⟨old, named⟩ := h
  refine ⟨Nat.lt_of_lt_of_le old (next_of_step st), ?_⟩
  rw [named, keyOf, keyOf, mem_of_step st old]

theorem routed_init (workers handlers : ℕ) : Routed (init workers handlers) := by
  refine ⟨fun pc member => ?_, ?_, ?_, ?_, ?_⟩
  · rw [List.eq_of_mem_replicate member]
    simp [HandlerPc.matching]
  all_goals simp [init]

theorem routed_step {s s' : State} {e : Event} (h : Routed s) (booked : Booked s)
    (st : Step s e s') : Routed s' := by
  have holds : ∀ pc ∈ s.handlers, ∀ m ∈ pc.matching, Matches s' m :=
    fun pc member m inside => (h.holds pc member m inside).step st
  have completes : ∀ m ∈ s.hist.completed, Matches s' m :=
    fun m member => (h.completes m member).step st
  have quiet (cause : Cause) (dst : Key) (outs : List Out) (addressed : Addressed cause dst) :
      ∀ w ∈ s.log ++ outs.map (fun out => ⟨cause, dst, out⟩), Addressed w.cause w.dst := by
    refine List.forall_mem_append.mpr ⟨h.writes, fun w member => ?_⟩
    obtain ⟨out, _, rfl⟩ := List.mem_map.mp member
    exact addressed
  have reply (hcl : HttpsrvClient) (outs : List Out) := quiet _ hcl.key outs (addressed_reply hcl _)
  have started {fs : List Forward} (f : Forward) (old : ∀ g ∈ fs, Sends g) (new : Sends f) :
      ∀ g ∈ fs ++ [f], Sends g :=
    List.forall_mem_append.mpr ⟨old, List.forall_mem_singleton.mpr new⟩
  cases st with
  | pair pc valid =>
    exact ⟨holds, completes, h.forwards, h.forwarded, quiet _ _ _ (addressed_request _ _ _)⟩
  | drop | refuse => exact ⟨holds, completes, h.forwards, h.forwarded, reply _ _⟩
  | handBody pc body =>
    refine ⟨holds, completes, started _ h.forwards (sends_request _ _ _ _ _),
      started _ h.forwarded (sends_request _ _ _ _ _), h.writes⟩
  | handPlain pc plain =>
    exact ⟨holds, completes, h.forwards, h.forwarded, quiet _ _ _ (addressed_request _ _ _)⟩
  | push _ _ _ pc | closeNone pc | closeSome pc | reschedule pc | close pc | again pc
  | putBack pc =>
    exact ⟨forall_set holds (by simp [HandlerPc.matching]), completes, h.forwards, h.forwarded,
      h.writes⟩
  | miss outs pc =>
    exact ⟨forall_set holds (by simp [HandlerPc.matching]), completes, h.forwards, h.forwarded,
      reply _ _⟩
  | @find t hcl pr rest pc seqno lst =>
    have old := booked.old_of_held (.inr (.inl (lst.mem_iff.mpr List.mem_cons_self)))
    refine ⟨forall_set holds fun m member => ?_, completes, h.forwards, h.forwarded, h.writes⟩
    obtain rfl := List.mem_singleton.mp member
    exact ⟨old, seqno⟩
  | enter pc | callbackWait pc =>
    refine ⟨forall_set holds ?_, completes, h.forwards, h.forwarded, h.writes⟩
    exact fun m => holds _ (List.mem_of_getElem? pc) m
  | answerClosed pc | callbackDone pc =>
    have held := List.forall_mem_append.mpr ⟨completes, holds _ (List.mem_of_getElem? pc)⟩
    exact ⟨forall_set holds (by simp [HandlerPc.matching]), held, h.forwards, h.forwarded,
      reply _ _⟩
  | answerPlain pc =>
    have held := List.forall_mem_append.mpr ⟨completes, holds _ (List.mem_of_getElem? pc)⟩
    have matched := h.holds _ (List.mem_of_getElem? pc) _ (List.mem_singleton.mpr rfl)
    refine ⟨forall_set holds (by simp [HandlerPc.matching]), held, h.forwards, h.forwarded,
      List.forall_mem_append.mpr ⟨quiet _ _ _ matched.addressed, fun w member => ?_⟩⟩
    obtain ⟨out, _, rfl⟩ := List.mem_map.mp member
    exact addressed_reply _ _
  | answerBody pc =>
    have held := List.forall_mem_append.mpr ⟨completes, holds _ (List.mem_of_getElem? pc)⟩
    have matched := h.holds _ (List.mem_of_getElem? pc) _ (List.mem_singleton.mpr rfl)
    exact ⟨forall_set holds (by simp [HandlerPc.matching]), held,
      started _ h.forwards (matched.sends _), started _ h.forwarded (matched.sends _),
      quiet _ _ _ matched.addressed⟩
  | move active =>
    have addressed := (h.forwards _ (List.mem_of_getElem? active)).addressed
    exact ⟨holds, completes, h.forwards, h.forwarded, quiet _ _ _ addressed⟩
  | finish active =>
    exact ⟨holds, completes, fun f member => h.forwards f (List.mem_of_mem_eraseIdx member),
      h.forwarded, reply _ _⟩
  | abort active =>
    exact ⟨holds, completes, fun f member => h.forwards f (List.mem_of_mem_eraseIdx member),
      h.forwarded, h.writes⟩
  | _ => exact ⟨holds, completes, h.forwards, h.forwarded, h.writes⟩

theorem routed_of_exec {workers handlers : ℕ} {es : List Event} {s : State}
    (run : machine.exec (init workers handlers) es = some s) :
    Booked s ∧ Keyed s ∧ Routed s := by
  refine machine.invariant (I := fun s => Booked s ∧ Keyed s ∧ Routed s) ?_
    ⟨booked_init _ _, keyed_init _ _, routed_init _ _⟩ run
  intro s e s' ⟨booked, keyed, routed⟩ moved
  have st := step_cases moved
  exact ⟨booked_step booked st, keyed_step keyed booked.toFresh st, routed_step routed booked st⟩

/-- Every place a `djb_req_t` can be: on a list, or taken off one by a thread. -/
def holdings (s : State) : List Ptr :=
  s.lstProxyNew ++ s.lstProxyOut ++ s.lstApiPull ++
    s.workers.flatMap (fun pc => pc.requests ++ pc.pulls) ++ s.handlers.flatMap HandlerPc.requests

/-- No `djb_req_t` is in two places, and every answer goes where it belongs. -/
structure Exclusive (s : State) : Prop where
  one_place : (holdings s).Nodup
  one_request : (s.hist.handed.map Prod.snd).Nodup
  one_push : (s.hist.completed.map Prod.fst).Nodup
  one_key : (s.hist.accepted.map (keyOf s)).Nodup
  completes : ∀ c ∈ s.hist.completed, scanSeqNo c.2.user.seqno = some (keyOf s c.1)
  answers : ∀ w ∈ s.log, ∀ hcl, w.cause = .answer hcl → scanSeqNo hcl.user.seqno = some w.dst
  bodies : ∀ f ∈ s.hist.forwarded, ∀ hcl, f.cause = .answer hcl →
    f.src = hcl ∧ scanSeqNo hcl.user.seqno = some f.dst.key

theorem exclusive {s : State} (booked : Booked s) (keyed : Keyed s) (routed : Routed s) :
    Exclusive s where
  one_place := by
    rw [List.nodup_iff_count_le_one]
    intro p
    have once := List.nodup_iff_count_le_one.mp booked.nodup p
    have requests := booked.requests p
    have pulls := booked.pulls p
    simp only [allocated, holdings, List.count_append, count_flatMap, total_add] at once ⊢
    simp only [requestBook, pullBook] at requests pulls
    omega
  one_request := by
    rw [List.nodup_iff_count_le_one]
    intro p
    have once := booked.pulled_once p
    have books := booked.pairs p
    simp only [pairBook] at books
    omega
  one_push := booked.completed_once
  one_key := by
    have keys := keyed.keys
    rw [allocated, List.map_append] at keys
    exact (List.nodup_append.mp keys).1
  completes := fun c member => (routed.completes c member).2
  answers := routed.writes
  bodies := routed.forwarded

theorem unmatched_push {s s' : State} {t : ℕ} {hcl : HttpsrvClient}
    (pc : s.handlers[t]? = some (.find hcl)) (moved : step s (.handler t) = some s')
    (unmatched : ∀ p ∈ s.lstProxyOut, scanSeqNo hcl.user.seqno ≠ some (keyOf s p)) :
    s'.lstProxyNew = s.lstProxyNew ∧ s'.lstProxyOut = s.lstProxyOut ∧
      s'.lstApiPull = s.lstApiPull := by
  have st := step_cases moved
  cases st with
  | miss => exact ⟨rfl, rfl, rfl⟩
  | find pc' seqno lst =>
    rw [pc] at pc'
    cases pc'
    exact absurd seqno (unmatched _ (lst.mem_iff.mpr List.mem_cons_self))
  | enter pc' | answerClosed pc' | answerPlain pc' | answerBody pc' | putBack pc' | closeNone pc'
  | closeSome pc' | reschedule pc' =>
    rw [pc] at pc'
    cases pc'

/-- The push `hcl` completes the request `pr`: its status, its cookie and its headers are told
to the client, and its body is forwarded there. -/
structure Answered (s s' : State) (pr : Ptr) (hcl : HttpsrvClient) : Prop where
  completes : s'.hist.completed = s.hist.completed ++ [(pr, hcl)]
  tells : ∃ own, s'.log = s.log ++
      (([.answer (atoi hcl.user.httpcode) hcl.user.httptext none] ++
        (if hcl.user.setcookie = [] then []
          else [.header "Set-Cookie".toList hcl.user.setcookie]) ++
        [.headers hcl.theHeaders] ++ (if hcl.contentLength = 0 then [.done] else []) :
          List Out).map fun out => ⟨.answer hcl, keyOf s pr, out⟩) ++ own ∧
    ∀ w ∈ own, w.cause = .reply hcl
  sends : s'.forwards = s.forwards ++ (if hcl.contentLength = 0 then []
    else [⟨.answer hcl, hcl, (s.mem pr).hcl, s.consumed hcl.key⟩])

theorem answer_sent {s s' : State} {t : ℕ} {hcl : HttpsrvClient} {pr : Ptr}
    (pc : s.handlers[t]? = some (.found hcl pr)) (moved : step s (.handler t) = some s')
    (outside : (s.mem pr).hcl.user.push = none) (valid : s.connIsValid (s.mem pr).hcl) :
    Answered s s' pr hcl := by
  have open_conn := State.connIsValid_iff.mp valid
  have st := step_cases moved
  cases st with
  | answerPlain pc' _ _ plain =>
    rw [pc] at pc'
    cases pc'
    refine ⟨rfl, ⟨_, rfl, fun w member => ?_⟩, ?_⟩
    · obtain ⟨out, _, rfl⟩ := List.mem_map.mp member
      rfl
    · rw [if_pos plain, List.append_nil]
      rfl
  | answerBody pc' _ _ body =>
    rw [pc] at pc'
    cases pc'
    refine ⟨rfl, ⟨[], (List.append_nil _).symm, fun w member => ?_⟩, ?_⟩
    · cases member
    · rw [if_neg body]
      rfl
  | enter pc' inside =>
    rw [pc] at pc'
    cases pc'
    simp [outside] at inside
  | answerClosed pc' _ shut =>
    rw [pc] at pc'
    cases pc'
    exact absurd shut open_conn
  | miss _ pc' | find pc' | putBack pc' | closeNone pc' | closeSome pc' | reschedule pc' =>
    rw [pc] at pc'
    cases pc'

end Jumpbox.Proxy
