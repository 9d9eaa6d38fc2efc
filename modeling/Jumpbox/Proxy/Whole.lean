import Jumpbox.Proxy.Bodies

/-! The whole of a body, for every puller that a request with one is handed to. After the
hand-over `httpsrv_forward` is at work for the puller, until the puller is gone or the
body has been read to its end. -/

namespace Jumpbox.Proxy

open Table

/-- Every puller that a POST with a body was handed to, and that stays open, is sent the
whole body: as much of it as has been read, and the rest is being forwarded. -/
def WholeBodies (s : State) : Prop :=
  ∀ h ∈ s.hist.handed, (s.mem h.1).hcl.method = .post → (s.mem h.1).hcl.contentLength ≠ 0 →
    (∀ pc ∈ s.workers, pc.pairing ≠ some h) → (s.mem h.2).hcl.id ∉ s.shut →
    OnCourse s h ∧ (unreadBody s h.1 = [] ∨ ∃ f ∈ s.forwards, f.cause = .request h.1 h.2 ∧
      f.src = (s.mem h.1).hcl ∧ f.dst = (s.mem h.2).hcl)

instance (s : State) : Decidable (WholeBodies s) :=
  inferInstanceAs (Decidable (∀ h ∈ s.hist.handed, (s.mem h.1).hcl.method = .post →
    (s.mem h.1).hcl.contentLength ≠ 0 → (∀ pc ∈ s.workers, pc.pairing ≠ some h) →
    (s.mem h.2).hcl.id ∉ s.shut → OnCourse s h ∧ (_ ∨ ∃ f ∈ s.forwards, _)))

/-- When a body is forwarded to an open puller, none of it has been read, and
none of it is read for another puller afterwards. -/
def SourceUnread (s : State) : Event → Prop
  | .worker t => ∀ pr ar, s.workers[t]? = some (.handOver pr ar) → forwardsBody (s.mem pr).hcl →
      (s.mem ar).hcl.id ∉ s.shut → s.consumed (keyOf s pr) = 0
  | .move i _ => ∀ f ∈ s.forwards[i]?, ∀ own ∈ f.cause.handOver, ∀ h ∈ handOvers s,
      h.1 = own.1 → (s.mem h.2).hcl.id ∉ s.shut → h.2 = own.2
  | _ => True

theorem WholeBodies.complete {s : State} (h : WholeBodies s) {pr ar : Ptr}
    (handed : (pr, ar) ∈ s.hist.handed) (post : (s.mem pr).hcl.method = .post)
    (body : (s.mem pr).hcl.contentLength ≠ 0)
    (left : ∀ pc ∈ s.workers, pc.pairing ≠ some (pr, ar)) (valid : (s.mem ar).hcl.id ∉ s.shut)
    (read : s.consumed (keyOf s pr) = (s.mem pr).hcl.contentLength) :
    sentBody s (pr, ar) = (s.mem pr).hcl.body := by
  have whole := (h (pr, ar) handed post body left valid).1
  have none_left : unreadBody s pr = [] := by
    rw [unreadBody, read, HttpsrvClient.contentLength, List.drop_length]
  rwa [OnCourse, none_left, List.append_nil] at whole

/-! What becomes of a hand-over. -/

def WorkerPc.announced : WorkerPc → Option (Ptr × Ptr)
  | .enlist pr ar | .handOver pr ar => some (pr, ar)
  | _ => none

structure Handing (s : State) : Prop where
  announced : ∀ pc ∈ s.workers, ∀ h ∈ pc.announced, h ∈ s.hist.handed
  carried : ∀ h ∈ handOvers s, h ∈ s.hist.handed
  posts : ∀ h ∈ handOvers s, forwardsBody (s.mem h.1).hcl = true
  handed : ∀ h ∈ s.hist.handed, h.1 ∈ s.hist.accepted ∧ h.2 ∈ s.hist.pulls
  passed : ∀ h ∈ s.hist.handed, forwardsBody (s.mem h.1).hcl = true →
    h ∈ handOvers s ∨ ∃ pc ∈ s.workers, pc.announced = some h
  going : ∀ h ∈ handOvers s, (∃ f ∈ s.forwards, f.cause.handOver = some h) ∨
    (s.mem h.2).hcl.id ∈ s.shut ∨ unreadBody s h.1 = []

theorem handOvers_handBody {s : State} {t : ℕ} {pr ar : Ptr} {src dst : HttpsrvClient} :
    handOvers ((s.httpsrvForward (.request pr ar) src dst).setWorker t (.release ar)) =
      handOvers s ++ [(pr, ar)] := by
  simp [handOvers, Cause.handOver]

theorem cause_of_handOver {cause : Cause} {h : Ptr × Ptr} (named : cause.handOver = some h) :
    cause = .request h.1 h.2 := by
  cases cause <;> cases named
  rfl

section Step

variable {s s' : State} {e : Event}

theorem announced_step (h : Handing s) (st : Step s e s') :
    ∀ pc ∈ s'.workers, ∀ pair ∈ pc.announced, pair ∈ s'.hist.handed := by
  have before := h.announced
  cases st with
  | takeNew pc | takePull pc | drop pc | handBody pc | handPlain pc | release pc =>
    exact forall_set before (by simp [WorkerPc.announced])
  | pair pc =>
    refine forall_set (fun pc member pair inside => ?_) fun pair inside => ?_
    · exact List.mem_append_left _ (before pc member pair inside)
    · obtain rfl := Option.some.inj inside
      exact List.mem_append_right _ (List.mem_singleton.mpr rfl)
  | enlist pc =>
    exact forall_set before fun pair inside => before _ (List.mem_of_getElem? pc) pair inside
  | _ => exact before

theorem handOvers_cases (st : Step s e s') {pair : Ptr × Ptr} (member : pair ∈ handOvers s') :
    pair ∈ handOvers s ∨ ∃ t : ℕ, s.workers[t]? = some (.handOver pair.1 pair.2) ∧
      forwardsBody (s.mem pair.1).hcl = true ∧ ∃ f ∈ s'.forwards, f.cause.handOver = some pair := by
  obtain ⟨f, issued, cause⟩ := mem_handOvers.mp member
  have before (earlier : f ∈ s.hist.forwarded) : pair ∈ handOvers s :=
    mem_handOvers.mpr ⟨f, earlier, cause⟩
  cases st with
  | @handBody t pr ar pc body =>
    rcases List.mem_append.mp issued with earlier | this_one
    · exact .inl (before earlier)
    · obtain rfl := List.mem_singleton.mp this_one
      cases cause
      refine .inr ⟨t, pc, body, _, List.mem_append_right _ (List.mem_singleton.mpr rfl), rfl⟩
  | answerBody pc =>
    rcases List.mem_append.mp issued with earlier | this_one
    · exact .inl (before earlier)
    · obtain rfl := List.mem_singleton.mp this_one
      cases cause
  | _ => exact .inl (before issued)

theorem handed_of_step (st : Step s e s') : ∀ h ∈ s.hist.handed, h ∈ s'.hist.handed := by
  intro pair member
  cases st with
  | pair => exact List.mem_append_left _ member
  | _ => exact member

theorem carried_step (h : Handing s) (st : Step s e s') :
    ∀ pair ∈ handOvers s', pair ∈ s'.hist.handed := by
  intro pair member
  rcases handOvers_cases st member with before | ⟨t, pc, _⟩
  · exact handed_of_step st pair (h.carried pair before)
  · exact handed_of_step st pair (h.announced _ (List.mem_of_getElem? pc) _ rfl)

theorem handed_step (h : Handing s) (transfers : Transfers s) (st : Step s e s') :
    ∀ pair ∈ s'.hist.handed, pair.1 ∈ s'.hist.accepted ∧ pair.2 ∈ s'.hist.pulls := by
  have accepted := accepted_of_step st
  have pulls := pulls_of_step st
  have before : ∀ pair ∈ s.hist.handed, pair.1 ∈ s'.hist.accepted ∧ pair.2 ∈ s'.hist.pulls :=
    fun pair member => ⟨accepted _ (h.handed pair member).1, pulls _ (h.handed pair member).2⟩
  cases st with
  | pair pc =>
    refine List.forall_mem_append.mpr ⟨before, fun pair member => ?_⟩
    obtain rfl := List.mem_singleton.mp member
    exact transfers.pending _ (List.mem_of_getElem? pc) _ rfl
  | _ => exact before

theorem Handing.mem_step (h : Handing s) (m : Moving s) (st : Step s e s') {pair : Ptr × Ptr}
    (member : pair ∈ s.hist.handed) :
    (s'.mem pair.1).hcl = (s.mem pair.1).hcl ∧ (s'.mem pair.2).hcl = (s.mem pair.2).hcl := by
  obtain ⟨accepted, pulled⟩ := h.handed pair member
  exact ⟨mem_of_step st (m.booked.old _ (List.mem_append_left _ accepted)),
    mem_of_step st (m.booked.old _ (List.mem_append_right _ pulled))⟩

theorem posts_step (h : Handing s) (m : Moving s) (st : Step s e s') :
    ∀ pair ∈ handOvers s', forwardsBody (s'.mem pair.1).hcl = true := by
  intro pair member
  rcases handOvers_cases st member with before | ⟨t, pc, body, _⟩
  · rw [(h.mem_step m st (h.carried pair before)).1]
    exact h.posts pair before
  · rw [(h.mem_step m st (h.announced _ (List.mem_of_getElem? pc) _ rfl)).1]
    exact body

theorem passed_step (h : Handing s) (m : Moving s) (st : Step s e s') :
    ∀ pair ∈ s'.hist.handed, forwardsBody (s'.mem pair.1).hcl = true →
      pair ∈ handOvers s' ∨ ∃ pc ∈ s'.workers, pc.announced = some pair := by
  have begun := handOvers_of_step st
  have request {pair : Ptr × Ptr} (member : pair ∈ s.hist.handed) := (h.mem_step m st member).1
  -- the worker that moves lets go of no pair but one whose forward has begun
  have worker {t : ℕ} {old : WorkerPc} (new : WorkerPc) (pc : s.workers[t]? = some old)
      (left : ∀ pair, old.announced = some pair → forwardsBody (s.mem pair.1).hcl = true →
        pair ∈ handOvers s' ∨ new.announced = some pair) : ∀ pair ∈ s.hist.handed,
      forwardsBody (s'.mem pair.1).hcl = true →
        pair ∈ handOvers s' ∨ ∃ pc ∈ s.workers.set t new, pc.announced = some pair := by
    intro pair member body
    rw [request member] at body
    rcases h.passed pair member body with before | ⟨slot, held, named⟩
    · exact .inl (begun pair before)
    · by_cases same : slot = old
      · subst same
        refine (left pair named body).imp_right fun still => ⟨new, ?_, still⟩
        exact List.mem_set (List.getElem?_eq_some_iff.mp pc).1 new
      · exact .inr ⟨slot, mem_set_of_ne pc new held same, named⟩
  have st' := st
  cases st with
  | takeNew pc | takePull pc | drop pc | release pc =>
    exact worker _ pc fun pair named => nomatch named
  | @pair t pr ar pc =>
    have old := worker (.enlist pr ar) pc fun pair named => nomatch named
    refine List.forall_mem_append.mpr ⟨old, fun pair member _ => ?_⟩
    obtain rfl := List.mem_singleton.mp member
    exact .inr ⟨_, List.mem_set (List.getElem?_eq_some_iff.mp pc).1 _, rfl⟩
  | enlist pc => exact worker _ pc fun pair named _ => .inr named
  | handBody pc =>
    refine worker _ pc fun pair named _ => ?_
    cases named
    exact .inl (handOvers_handBody ▸ List.mem_append_right _ (List.mem_singleton.mpr rfl))
  | handPlain pc plain =>
    refine worker _ pc fun pair named body => ?_
    cases named
    exact absurd (plain.symm.trans body) nofun
  | _ =>
    intro pair member body
    rw [request member] at body
    exact (h.passed pair member body).imp_left (begun pair)

theorem unreadBody_step (m : Moving s) (st : Step s e s') {pr : Ptr}
    (accepted : pr ∈ s.hist.accepted) (read : unreadBody s pr = []) : unreadBody s' pr = [] := by
  by_cases still : ∀ i n, e ≠ .move i n
  · obtain ⟨consumed, _⟩ := log_of_step st still
    have client := mem_of_step st (m.booked.old _ (List.mem_append_left _ accepted))
    rw [unreadBody, consumed, keyOf, client]
    exact read
  · have st' := st
    cases st with
    | @move i n f active =>
      rw [unreadBody_move st' active, read]
      split <;> simp
    | _ => exact absurd (fun _ _ => by simp) still

theorem going_step (h : Handing s) (m : Moving s) (st : Step s e s') :
    ∀ pair ∈ handOvers s', (∃ f ∈ s'.forwards, f.cause.handOver = some pair) ∨
      (s'.mem pair.2).hcl.id ∈ s'.shut ∨ unreadBody s' pair.1 = [] := by
  intro pair member
  rcases handOvers_cases st member with before | ⟨t, _, _, begun⟩
  · have member := h.carried pair before
    have puller := (h.mem_step m st member).2
    have read := unreadBody_step m st (h.handed pair member).1
    rw [puller]
    rcases h.going pair before with ⟨f, active, named⟩ | shut | none_left
    · have issued := m.transfers.active f active
      obtain ⟨source, dest, _⟩ := m.transfers.sources f issued pair named
      cases st with
      | @handBody | answerBody =>
        exact .inl ⟨f, List.mem_append_left _ active, named⟩
      | @finish i g active' ended =>
        by_cases same : f = g
        · subst same
          refine .inr (.inr ?_)
          rw [source] at ended
          exact List.drop_eq_nil_of_le (Nat.le_of_eq ended.symm)
        · exact .inl ⟨f, mem_eraseIdx_of_ne active' active same, named⟩
      | @abort i g active' gone =>
        by_cases same : f = g
        · subst same
          exact .inr (.inl (dest ▸ gone))
        · exact .inl ⟨f, mem_eraseIdx_of_ne active' active same, named⟩
      | _ => exact .inl ⟨f, active, named⟩
    · exact .inr (.inl (shut_of_step st _ shut))
    · exact .inr (.inr (read none_left))
  · exact .inl begun

theorem handing_step (h : Handing s) (m : Moving s) (st : Step s e s') : Handing s' where
  announced := announced_step h st
  carried := carried_step h st
  posts := posts_step h m st
  handed := handed_step h m.transfers st
  passed := passed_step h m st
  going := going_step h m st

end Step

theorem handing_init (workers handlers : ℕ) : Handing (init workers handlers) := by
  refine ⟨fun pc member => ?_, ?_, ?_, ?_, ?_, ?_⟩
  · simp [List.eq_of_mem_replicate member, WorkerPc.announced]
  all_goals simp [init, handOvers]

/-! The bytes. -/

def Coursed (s : State) : Prop :=
  ∀ h ∈ handOvers s, (s.mem h.2).hcl.id ∉ s.shut → OnCourse s h

theorem announced_pairing {pc : WorkerPc} {pair : Ptr × Ptr} (named : pc.announced = some pair) :
    pc.pairing = some pair := by
  cases pc <;> cases named <;> rfl

theorem wholeBodies_iff_coursed {s : State} (m : Moving s) (h : Handing s) :
    WholeBodies s ↔ Coursed s := by
  constructor
  · intro whole pair member valid
    have body := h.posts pair member
    simp only [forwardsBody, Bool.and_eq_true, decide_eq_true_eq] at body
    refine (whole pair (h.carried pair member) body.1 body.2 (fun pc slot named => ?_) valid).1
    obtain ⟨t, at_t⟩ := List.mem_iff_getElem?.mp slot
    exact pairing_of_handOvers m.transfers m.booked at_t named member
  · intro course pair handed post body left valid
    have forwards : forwardsBody (s.mem pair.1).hcl = true := by
      simp [forwardsBody, post, body]
    have member : pair ∈ handOvers s := by
      rcases h.passed pair handed forwards with member | ⟨pc, slot, named⟩
      · exact member
      · exact absurd (announced_pairing named) (left pc slot)
    refine ⟨course pair member valid, ?_⟩
    rcases h.going pair member with ⟨f, active, named⟩ | shut | none_left
    · obtain ⟨source, dest, _⟩ :=
        m.transfers.sources f (m.transfers.active f active) pair named
      exact .inr ⟨f, active, cause_of_handOver named, source, dest⟩
    · exact absurd shut valid
    · exact .inl none_left

theorem coursed_old {s s' : State} {e : Event} (m : Moving s) (whole : Coursed s)
    (st : Step s e s') (still : ∀ i n, e ≠ .move i n) {h : Ptr × Ptr} (handed : h ∈ handOvers s)
    (valid : (s'.mem h.2).hcl.id ∉ s'.shut) : OnCourse s' h := by
  obtain ⟨accepted, pulled⟩ := m.transfers.handed h handed
  have puller := mem_of_step st (m.booked.old _ (List.mem_append_right _ pulled))
  rw [puller] at valid
  rw [onCourse_still m st still accepted pulled]
  exact whole h handed fun shut => valid (shut_of_step st _ shut)

theorem coursed_step {s s' : State} {e : Event} (m : Moving s) (whole : Coursed s)
    (guard : SourceUnread s e) (st : Step s e s') : Coursed s' := by
  have st' := st
  cases st with
  | @handBody t pr ar pc body =>
    intro h member valid
    rcases List.mem_append.mp (handOvers_handBody ▸ member) with handed | this_one
    · exact coursed_old m whole st' (by simp) handed valid
    · obtain rfl := List.mem_singleton.mp this_one
      have unread := (onCourse_handBody m pc body).mpr (guard pr ar pc body valid)
      exact unread
  | @answerBody t hcl pr pc =>
    intro h member valid
    obtain ⟨f, issued, cause⟩ := mem_handOvers.mp member
    rcases List.mem_append.mp issued with earlier | this_one
    · exact coursed_old m whole st' (by simp) (mem_handOvers.mpr ⟨f, earlier, cause⟩) valid
    · obtain rfl := List.mem_singleton.mp this_one
      cases cause
  | @move i n f active =>
    intro h handed valid
    have course := whole h handed valid
    by_cases same : keyOf s h.1 = f.src.key
    · obtain ⟨ar, named⟩ :=
        handOver_of_source m active (m.transfers.handed h handed).1 same
      have puller : h.2 = ar := guard f active _ named h handed rfl valid
      exact onCourse_own_move m st' active (by rw [named, ← puller]) course
    · exact onCourse_foreign_move m st' active handed same course
  | _ => exact fun h handed valid => coursed_old m whole st' (by simp) handed valid

theorem not_coursed_step {s s' : State} {e : Event} (m : Moving s) (whole : Coursed s)
    (broken : ¬SourceUnread s e) (st : Step s e s') : ¬Coursed s' := by
  have st' := st
  intro after
  refine broken ?_
  cases st with
  | @handBody t pr ar pc body =>
    intro pr' ar' pc' _ valid
    rw [pc] at pc'
    cases pc'
    refine (onCourse_handBody m pc body).mp (after (pr, ar) ?_ valid)
    rw [handOvers_handBody]
    exact List.mem_append_right _ (List.mem_singleton.mpr rfl)
  | @move i n f active =>
    intro g active' own named h handed same valid
    rw [active] at active'
    cases active'
    by_contra differ
    refine onCourse_other_move m st' active ?_ handed differ (whole h handed valid)
      (after h handed valid)
    rw [same]
    exact named
  | handPlain pc plain =>
    intro pr' ar' pc' body
    rw [pc] at pc'
    cases pc'
    simp [plain] at body
  | takeNew pc | takePull pc | pair pc | drop pc | enlist pc | release pc =>
    intro pr' ar' pc'
    rw [pc] at pc'
    cases pc'
  | _ => trivial

/-- A proxied POST reaches every puller that stays open as a whole, in every
state of a run, exactly when its body is read for that puller alone. -/
theorem whole_bodies_iff_source_unread (workers handlers : ℕ) (es : List Event) (s : State)
    (run : machine.exec (init workers handlers) es = some s) :
    machine.Always WholeBodies (init workers handlers) es ↔
      machine.Meets SourceUnread (init workers handlers) es := by
  refine machine.always_iff_meets (I := fun s => Moving s ∧ Handing s ∧ Coursed s)
    (fun s h => (wholeBodies_iff_coursed h.1 h.2.1).mpr h.2.2) ?_ ?_
    ⟨moving_init _ _, handing_init _ _, ?_⟩ run
  · intro s e s' ⟨m, h, course⟩ guard moved
    have st := step_cases moved
    exact ⟨moving_step m st, handing_step h m st, coursed_step m course guard st⟩
  · intro s e s' ⟨m, h, course⟩ broken moved
    have st := step_cases moved
    rw [wholeBodies_iff_coursed (moving_step m st) (handing_step h m st)]
    exact not_coursed_step m course broken st
  · intro h handed
    simp [handOvers, init] at handed

def postRun : List Event :=
  [.request 0 clientPost none, .request 0 circuitPull none, .worker 0, .worker 0, .worker 0,
    .worker 0, .worker 0, .worker 0, .move 0 1]

def otherPull : HttpsrvClient := { circuitPull with id := 3 }

/-- The puller closes after the first byte, and another one is handed the request. -/
def rescheduledPostRun : List Event :=
  postRun ++ [.disconnect 2, .abort 0, .close 0 2, .handler 0, .handler 0,
    .request 0 otherPull none, .worker 0, .worker 0, .worker 0, .worker 0, .worker 0, .worker 0,
    .move 0 2, .finish 0]

theorem whole_bodies_in_postRun :
    ∃ s, machine.exec (init 1 1) postRun = some s ∧ s.hist.handed = [(0, 1)] ∧
      sentBody s (0, 1) = [1] ∧
      (machine.Always WholeBodies (init 1 1) postRun ↔
        machine.Meets SourceUnread (init 1 1) postRun) :=
  ⟨_, rfl, rfl, by decide, whole_bodies_iff_source_unread 1 1 postRun _ rfl⟩

theorem second_puller_misses_bytes :
    ¬∀ (workers handlers : ℕ) (es : List Event) (s : State),
      machine.exec (init workers handlers) es = some s → WholeBodies s := by
  intro always
  have whole := always 1 1 rescheduledPostRun _ rfl
  revert whole
  decide

end Jumpbox.Proxy
