import Jumpbox.Proxy.Accounts

/-! What a thread uses of a `djb_req_t`, and whose it is by then.
To append a request is to publish it: from then on it belongs to whoever takes
it off the list. Two branches go on with a request they have appended. A worker
forwards the body of a POST that is on `lst_proxy_out` already, and in a DEBUG
build `djb_close` logs the request it has rescheduled. `djb_proxy_add` and
`djb_pull_post` keep a copy of the id for the same log line. -/

namespace Jumpbox.Proxy

open Table

inductive Thread
  | worker (t : ℕ)
  | http (t : ℕ)
  deriving DecidableEq

/-- What a worker's code reads of the requests until its next list operation or
`free`, that one included. -/
def WorkerPc.uses (mem : Ptr → DjbReq) : WorkerPc → List Ptr
  | .getNew => []
  | .getPull pr => [pr]
  | .forward pr ar | .enlist pr ar => [pr, ar]
  | .handOver pr ar => if forwardsBody (mem pr).hcl then [pr, ar] else [ar]
  | .release ar => [ar]

def WorkerPc.holds (pc : WorkerPc) : List Ptr := pc.requests ++ pc.pulls

def State.uses (s : State) : Thread → List Ptr
  | .worker t => s.workers[t]?.elim [] (WorkerPc.uses s.mem)
  | .http t => s.handlers[t]?.elim [] HandlerPc.requests

def State.holds (s : State) : Thread → List Ptr
  | .worker t => s.workers[t]?.elim [] WorkerPc.holds
  | .http t => s.handlers[t]?.elim [] HandlerPc.requests

inductive ReqList
  | proxyNew
  | proxyOut
  | apiPull
  deriving DecidableEq

def State.list (s : State) : ReqList → List Ptr
  | .proxyNew => s.lstProxyNew
  | .proxyOut => s.lstProxyOut
  | .apiPull => s.lstApiPull

def listed (s : State) : List Ptr := s.lstProxyNew ++ s.lstProxyOut ++ s.lstApiPull

/-- Which thread can do this. libfutil's own work, and `acs_request`, are done on
any HTTP thread. -/
def Event.runsOn : Event → Thread → Bool
  | .worker t, who => who = .worker t
  | .request t _ _, who | .handler t, who | .callback t _, who | .again t _, who
  | .close t _, who => who = .http t
  | _, .http _ => true
  | _, .worker _ => false

def touches (s : State) : Event → List Ptr
  | .worker t => s.uses (.worker t)
  | .handler t | .callback t _ => s.uses (.http t)
  | _ => []

def walks (s : State) : Event → List Ptr
  | .handler t => match s.handlers[t]? with
    | some (.find _) | some (.closeFind _) => s.lstProxyOut
    | _ => []
  | _ => []

structure Use where
  thread : Thread
  ptr : Ptr
  /-- Under the lock of the list the request is on. -/
  walk : Bool
  /-- The thread has appended it and not taken it off a list since. -/
  published : Bool
  freed : Bool
  deriving DecidableEq

structure Watch where
  daemon : State
  /-- The log lines of `djb_close` still to come, each by its thread. -/
  logs : List (ℕ × Ptr) := []
  published : List (Thread × Ptr) := []
  uses : List Use := []

inductive Act
  | run (who : Thread) (e : Event)
  /-- One of the uses before the next list operation. -/
  | touch (who : Thread) (p : Ptr)
  | log (t : ℕ) (p : Ptr)
  /-- `djb_status_list`. -/
  | status (t : ℕ) (lst : ReqList)

namespace Watch

def start (workers handlers : ℕ) : Watch where
  daemon := init workers handlers

def record (w : Watch) (who : Thread) (walk : Bool) (ps : List Ptr) : Watch :=
  { w with uses := w.uses ++ ps.map fun ptr =>
      { thread := who, ptr, walk, published := (who, ptr) ∈ w.published,
        freed := ptr ∈ w.daemon.freed } }

def ready (w : Watch) (who : Thread) : Bool := ∀ entry ∈ w.logs, who ≠ .http entry.1

def logsAfter (s : State) : Event → List (ℕ × Ptr)
  | .handler t => match s.handlers[t]? with
    | some (.closeAdd _ pr) => [(t, pr)]
    | _ => []
  | _ => []

def publish (published : List (Thread × Ptr)) (who : Thread) (s s' : State) :
    List (Thread × Ptr) :=
  (published.filter fun entry =>
    ¬(entry.1 = who ∧ entry.2 ∈ listed s ∧ entry.2 ∉ listed s')) ++
  ((listed s').filter fun p => p ∉ listed s).map fun p => (who, p)

def step (debug : Bool) (w : Watch) : Act → Option Watch
  | .run who e =>
    if e.runsOn who ∧ w.ready who then
      (Proxy.step w.daemon e).map fun s' =>
        { (w.record who true (walks w.daemon e)).record who false (touches w.daemon e) with
          daemon := s'
          logs := w.logs ++ logsAfter w.daemon e
          published := publish w.published who w.daemon s' }
    else none
  | .touch who p =>
    if p ∈ w.daemon.uses who then some (w.record who false [p]) else none
  -- without DEBUG `log_dbg` expands to nothing
  | .log t p =>
    if (t, p) ∈ w.logs then
      some { w.record (.http t) false (if debug then [p] else []) with
        logs := w.logs.erase (t, p) }
    else none
  | .status t lst =>
    if w.ready (.http t) then some (w.record (.http t) true (w.daemon.list lst)) else none

def machine (debug : Bool) : Machine Watch Act := ⟨step debug⟩

/-- Every use is of a request the thread has not given away, or under the lock
of the list it is on, and none is of a request already released. -/
def Untouched (w : Watch) : Prop :=
  ∀ use ∈ w.uses, use.freed = false ∧ (use.walk = true ∨ use.published = false)

instance (w : Watch) : Decidable (Untouched w) := inferInstanceAs (Decidable (∀ _ ∈ _, _))

/-- No thread goes on after its append in one of the two branches that do: no
worker hands over a POST that has a body, and in a DEBUG build `djb_close` does
not get to log what it has rescheduled. -/
def StopsAtAppend (debug : Bool) (w : Watch) : Act → Prop
  | .run _ (.worker t) => ∀ pr ar, w.daemon.workers[t]? = some (.handOver pr ar) →
      forwardsBody (w.daemon.mem pr).hcl = false
  | .touch (.worker t) p => ∀ ar, w.daemon.workers[t]? = some (.handOver p ar) →
      forwardsBody (w.daemon.mem p).hcl = false
  | .log _ _ => debug = false
  | _ => True

end Watch

/-! Whoever holds a request is alone with it. -/

theorem mem_listed {s : State} {p : Ptr} :
    p ∈ listed s ↔ 0 < s.lstProxyNew.count p + s.lstProxyOut.count p + s.lstApiPull.count p := by
  rw [← List.count_append, ← List.count_append, List.count_pos_iff, listed]

def holders (s : State) (p : Ptr) : ℕ :=
  total (fun pc => pc.requests.count p) s.workers +
    total (fun pc => pc.requests.count p) s.handlers +
    total (fun pc => pc.pulls.count p) s.workers

theorem holders_pos {s : State} {who : Thread} {p : Ptr} (held : p ∈ s.holds who) :
    0 < holders s p := by
  cases who with
  | worker t =>
    cases at_t : s.workers[t]? with
    | none => simp [State.holds, at_t] at held
    | some pc =>
      simp only [State.holds, at_t, Option.elim_some, WorkerPc.holds, ← List.count_pos_iff,
        List.count_append] at held
      have requests := weight_le_total (fun pc => pc.requests.count p) at_t
      have pulls := weight_le_total (fun pc => pc.pulls.count p) at_t
      rw [holders]
      omega
  | http t =>
    cases at_t : s.handlers[t]? with
    | none => simp [State.holds, at_t] at held
    | some pc =>
      simp only [State.holds, at_t, Option.elim_some, ← List.count_pos_iff] at held
      have requests := weight_le_total (fun pc => pc.requests.count p) at_t
      rw [holders]
      omega

theorem Booked.one_place {s : State} (h : Booked s) (p : Ptr) :
    s.lstProxyNew.count p + s.lstProxyOut.count p + s.lstApiPull.count p + holders s p +
      (s.hist.completed.map Prod.fst).count p + s.hist.released.count p ≤ 1 := by
  have once := List.nodup_iff_count_le_one.mp h.nodup p
  have requests := h.requests p
  have pulls := h.pulls p
  simp only [allocated, List.count_append, requestBook, pullBook] at once requests pulls
  rw [holders]
  omega

theorem Booked.unlisted {s : State} (h : Booked s) {who : Thread} {p : Ptr}
    (held : p ∈ s.holds who) : p ∉ listed s := by
  have one := h.one_place p
  have := holders_pos held
  rw [mem_listed]
  omega

def FreedGone (s : State) : Prop :=
  ∀ p ∈ s.freed, p ∈ s.hist.released ∨ p ∈ s.hist.completed.map Prod.fst

theorem freedGone_step {s s' : State} {e : Event} (h : FreedGone s) (st : Step s e s') :
    FreedGone s' := by
  have more {p q : Ptr} (freed : p ∈ s.freed ++ [q]) : p ∈ s.freed ∨ p = q := by
    simpa using freed
  have kept {p q : Ptr} {hcl : HttpsrvClient} (completed : p ∈ s.hist.completed.map Prod.fst) :
      p ∈ (s.hist.completed ++ [(q, hcl)]).map Prod.fst := by
    rw [List.map_append]
    exact List.mem_append_left _ completed
  have new (p : Ptr) (hcl : HttpsrvClient) :
      p ∈ (s.hist.completed ++ [(p, hcl)]).map Prod.fst := by simp
  cases st with
  | release pc =>
    intro p freed
    rcases more freed with old | rfl
    · exact (h p old).imp (List.mem_append_left _) id
    · exact .inl (List.mem_append_right _ (List.mem_singleton_self _))
  | answerPlain pc | answerBody pc | callbackDone pc =>
    intro p freed
    rcases more freed with old | rfl
    · exact (h p old).imp id kept
    · exact .inr (new p _)
  | answerClosed pc =>
    intro p freed
    exact (h p freed).imp id kept
  | _ => exact h

theorem Booked.not_freed {s : State} (h : Booked s) (gone : FreedGone s) {p : Ptr}
    (here : p ∈ listed s ∨ ∃ who, p ∈ s.holds who) : p ∉ s.freed := by
  intro freed
  have one := h.one_place p
  have left : 0 < (s.hist.completed.map Prod.fst).count p + s.hist.released.count p := by
    rcases gone p freed with released | completed
    · exact Nat.add_pos_right _ (List.count_pos_iff.mpr released)
    · exact Nat.add_pos_left (List.count_pos_iff.mpr completed) _
  rcases here with listed | ⟨who, held⟩
  · have := mem_listed.mp listed
    omega
  · have := holders_pos held
    omega

/-! A thread comes to hold a request only by taking it off a list. -/

theorem holds_of_worker {s s' : State} {i : ℕ} {old new : WorkerPc} {t : Thread} {p : Ptr}
    (held : p ∈ s'.holds t) (pc : s.workers[i]? = some old)
    (workers : s'.workers = s.workers.set i new) (handlers : s'.handlers = s.handlers)
    (trade : ∀ p ∈ new.holds, p ∈ old.holds ∨ p ∈ listed s) :
    p ∈ s.holds t ∨ t = .worker i ∧ p ∈ listed s := by
  cases t with
  | http t => exact .inl (by rwa [State.holds, handlers] at held)
  | worker t =>
    rw [State.holds, workers, getElem?_set_of_some pc] at held
    by_cases own : i = t
    · subst own
      rw [if_pos rfl, Option.elim_some] at held
      rw [State.holds, pc, Option.elim_some]
      exact (trade p held).imp id fun taken => ⟨rfl, taken⟩
    · rw [if_neg own] at held
      exact .inl held

theorem holds_of_handler {s s' : State} {i : ℕ} {old new : HandlerPc} {t : Thread} {p : Ptr}
    (held : p ∈ s'.holds t) (pc : s.handlers[i]? = some old)
    (handlers : s'.handlers = s.handlers.set i new) (workers : s'.workers = s.workers)
    (trade : ∀ p ∈ new.requests, p ∈ old.requests ∨ p ∈ listed s) :
    p ∈ s.holds t ∨ t = .http i ∧ p ∈ listed s := by
  cases t with
  | worker t => exact .inl (by rwa [State.holds, workers] at held)
  | http t =>
    rw [State.holds, handlers, getElem?_set_of_some pc] at held
    by_cases own : i = t
    · subst own
      rw [if_pos rfl, Option.elim_some] at held
      rw [State.holds, pc, Option.elim_some]
      exact (trade p held).imp id fun taken => ⟨rfl, taken⟩
    · rw [if_neg own] at held
      exact .inl held

theorem holds_step {s s' : State} {e : Event} (st : Step s e s') {who : Thread}
    (runs : e.runsOn who = true) {t : Thread} {p : Ptr} (held : p ∈ s'.holds t) :
    p ∈ s.holds t ∨ t = who ∧ p ∈ listed s := by
  have on_out {q : Ptr} {rest : List Ptr} (lst : s.lstProxyOut.Perm (q :: rest)) :
      q ∈ listed s :=
    List.mem_append_left _ (List.mem_append_right _ (lst.mem_iff.mpr List.mem_cons_self))
  cases st with
  | takeNew pc lst =>
    obtain rfl : who = .worker _ := of_decide_eq_true runs
    refine holds_of_worker held pc rfl rfl fun p new => .inr ?_
    obtain rfl : p = _ := List.mem_singleton.mp new
    exact List.mem_append_left _ (List.mem_append_left _ (lst ▸ List.mem_cons_self))
  | takePull pc lst =>
    obtain rfl : who = .worker _ := of_decide_eq_true runs
    refine holds_of_worker held pc rfl rfl fun p new => ?_
    rcases List.mem_cons.mp new with rfl | pulled
    · exact .inl List.mem_cons_self
    · obtain rfl : p = _ := List.mem_singleton.mp pulled
      exact .inr (List.mem_append_right _ (lst ▸ List.mem_cons_self))
  | pair pc | drop pc | enlist pc | handBody pc | handPlain pc | release pc =>
    obtain rfl : who = .worker _ := of_decide_eq_true runs
    refine holds_of_worker held pc rfl rfl fun p new => .inl ?_
    simp_all [WorkerPc.holds, WorkerPc.requests, WorkerPc.pulls]
  | find pc _ lst | closeSome pc _ lst =>
    obtain rfl : who = .http _ := of_decide_eq_true runs
    refine holds_of_handler held pc rfl rfl fun p new => .inr ?_
    obtain rfl : p = _ := List.mem_singleton.mp new
    exact on_out lst
  | enter pc | callbackWait pc =>
    obtain rfl : who = .http _ := of_decide_eq_true runs
    exact holds_of_handler held pc rfl rfl fun p new => .inl new
  | push _ _ _ pc | miss _ pc | answerClosed pc | answerPlain pc | answerBody pc | putBack pc
  | closeNone pc | reschedule pc | callbackDone pc | again pc | close pc =>
    obtain rfl : who = .http _ := of_decide_eq_true runs
    exact holds_of_handler held pc rfl rfl fun p new => absurd new List.not_mem_nil
  | _ => exact .inl held

theorem handOver_step {s s' : State} {e : Event} (st : Step s e s') {t : ℕ} {pr ar : Ptr}
    (at_t : s'.workers[t]? = some (.handOver pr ar)) :
    s.workers[t]? = some (.handOver pr ar) ∧ e ≠ .worker t ∨
      s.workers[t]? = some (.enlist pr ar) ∧ e = .worker t ∧ pr ∈ s'.lstProxyOut := by
  have moved {i : ℕ} {old new : WorkerPc} (pc : s.workers[i]? = some old)
      (at_t : (s.workers.set i new)[t]? = some (.handOver pr ar)) :
      i = t ∧ new = .handOver pr ar ∨
        s.workers[t]? = some (.handOver pr ar) ∧ Event.worker i ≠ .worker t := by
    rw [getElem?_set_of_some pc] at at_t
    split at at_t
    · next own => exact .inl ⟨own, Option.some.inj at_t⟩
    · next other => exact .inr ⟨at_t, fun same => other (Event.worker.inj same)⟩
  cases st with
  | enlist pc =>
    rcases moved pc at_t with ⟨rfl, new⟩ | kept
    · cases new
      exact .inr ⟨pc, rfl, List.mem_append_right _ (List.mem_singleton_self _)⟩
    · exact .inl kept
  | takeNew pc | takePull pc | pair pc | drop pc | handBody pc | handPlain pc | release pc =>
    rcases moved pc at_t with ⟨_, new⟩ | kept
    · cases new
    · exact .inl kept
  | _ => exact .inl ⟨at_t, Event.noConfusion⟩

theorem reschedule_step {s s' : State} {t : ℕ} (st : Step s (.handler t) s') {id : UInt64}
    {p : Ptr} (at_t : s.handlers[t]? = some (.closeAdd id p)) : p ∈ listed s' := by
  cases st with
  | reschedule pc =>
    cases Option.some.inj (pc.symm.trans at_t)
    exact List.mem_append_left _ (List.mem_append_left _ (by simp))
  | miss _ pc | find pc | enter pc | answerClosed pc | answerPlain pc | answerBody pc | putBack pc
  | closeNone pc | closeSome pc => cases Option.some.inj (pc.symm.trans at_t)

theorem runsOn_worker {e : Event} {t : ℕ} (runs : e.runsOn (.worker t) = true) :
    e = .worker t := by
  cases e <;> simp_all [Event.runsOn]

/-! What has been published stays so until its thread takes it off a list. -/

namespace Watch

theorem mem_publish {published : List (Thread × Ptr)} {who t : Thread} {s s' : State} {p : Ptr} :
    (t, p) ∈ publish published who s s' ↔
      (t, p) ∈ published ∧ ¬(t = who ∧ p ∈ listed s ∧ p ∉ listed s') ∨
        t = who ∧ p ∈ listed s' ∧ p ∉ listed s := by
  simp only [publish, List.mem_append, List.mem_filter, List.mem_map, decide_eq_true_eq,
    Prod.mk.injEq]
  constructor
  · rintro (kept | ⟨q, new, rfl, rfl⟩)
    · exact .inl kept
    · exact .inr ⟨rfl, new⟩
  · rintro (kept | ⟨rfl, new⟩)
    · exact .inl kept
    · exact .inr ⟨p, new, rfl, rfl⟩

theorem mem_logsAfter {s : State} {e : Event} {t : ℕ} {p : Ptr} (new : (t, p) ∈ logsAfter s e) :
    e = .handler t ∧ ∃ id, s.handlers[t]? = some (.closeAdd id p) := by
  unfold logsAfter at new
  split at new
  · split at new
    next at_t =>
      cases List.mem_singleton.mp new
      exact ⟨rfl, _, at_t⟩
    · exact absurd new List.not_mem_nil
  · exact absurd new List.not_mem_nil

structure Kept (w : Watch) : Prop where
  booked : Booked w.daemon
  gone : FreedGone w.daemon
  unpublished : ∀ who, ∀ p ∈ w.daemon.holds who, (who, p) ∉ w.published
  enlisted : ∀ t pr ar, w.daemon.workers[t]? = some (.handOver pr ar) →
    (.worker t, pr) ∈ w.published
  rescheduled : ∀ t p, (t, p) ∈ w.logs → (.http t, p) ∈ w.published

theorem kept_start (workers handlers : ℕ) : Kept (start workers handlers) where
  booked := booked_init workers handlers
  gone := fun _ freed => absurd freed List.not_mem_nil
  unpublished := fun _ _ _ => List.not_mem_nil
  enlisted := fun t pr ar at_t => by
    simp [start, init, List.getElem?_replicate] at at_t
  rescheduled := fun _ _ pending => absurd pending List.not_mem_nil

inductive Acted (debug : Bool) (w : Watch) : Act → Watch → Prop
  | run {who e s'} (runs : e.runsOn who = true) (ready : w.ready who = true)
      (next : Proxy.step w.daemon e = some s') :
      Acted debug w (.run who e)
        { (w.record who true (walks w.daemon e)).record who false (touches w.daemon e) with
          daemon := s'
          logs := w.logs ++ logsAfter w.daemon e
          published := publish w.published who w.daemon s' }
  | touch {who p} (use : p ∈ w.daemon.uses who) :
      Acted debug w (.touch who p) (w.record who false [p])
  | log {t p} (pending : (t, p) ∈ w.logs) :
      Acted debug w (.log t p)
        { w.record (.http t) false (if debug then [p] else []) with logs := w.logs.erase (t, p) }
  | status {t lst} (ready : w.ready (.http t) = true) :
      Acted debug w (.status t lst) (w.record (.http t) true (w.daemon.list lst))

theorem acted_of_step {debug : Bool} {w w' : Watch} {a : Act} (run : step debug w a = some w') :
    Acted debug w a w' := by
  cases a with
  | run who e =>
    simp only [step, Option.ite_none_right_eq_some, Option.map_eq_some_iff] at run
    obtain ⟨⟨runs, ready⟩, s', next, rfl⟩ := run
    exact .run runs ready next
  | touch who p =>
    simp only [step, Option.ite_none_right_eq_some, Option.some.injEq] at run
    obtain ⟨use, rfl⟩ := run
    exact .touch use
  | log t p =>
    simp only [step, Option.ite_none_right_eq_some, Option.some.injEq] at run
    obtain ⟨pending, rfl⟩ := run
    exact .log pending
  | status t lst =>
    simp only [step, Option.ite_none_right_eq_some, Option.some.injEq] at run
    obtain ⟨ready, rfl⟩ := run
    exact .status ready

theorem kept_run {w : Watch} (h : Kept w) {who : Thread} {e : Event} {s' : State}
    (runs : e.runsOn who = true) (ready : w.ready who = true)
    (run : Proxy.step w.daemon e = some s') (uses : List Use) :
    Kept ⟨s', w.logs ++ logsAfter w.daemon e, publish w.published who w.daemon s', uses⟩ := by
  have st := step_cases run
  have booked := booked_step h.booked st
  refine ⟨booked, freedGone_step h.gone st, fun t p held => ?_, fun t pr ar at_t => ?_,
    fun t p pending => ?_⟩
  · have unlisted := booked.unlisted held
    rw [mem_publish]
    rintro (⟨old, kept⟩ | ⟨rfl, new, _⟩)
    · rcases holds_step st runs held with before | ⟨own, taken⟩
      · exact h.unpublished t p before old
      · exact kept ⟨own, taken, unlisted⟩
    · exact unlisted new
  · rw [mem_publish]
    rcases handOver_step st at_t with ⟨before, other⟩ | ⟨before, rfl, out⟩
    · refine .inl ⟨h.enlisted t pr ar before, fun taken => other ?_⟩
      exact runsOn_worker (taken.1 ▸ runs)
    · have held : pr ∈ w.daemon.holds (.worker t) := by
        simp [State.holds, before, WorkerPc.holds, WorkerPc.requests]
      have new : pr ∈ listed s' := List.mem_append_left _ (List.mem_append_right _ out)
      exact .inr ⟨(of_decide_eq_true runs : who = .worker t).symm, new, h.booked.unlisted held⟩
  · rw [mem_publish]
    rcases List.mem_append.mp pending with old | new
    · refine .inl ⟨h.rescheduled t p old, fun taken => ?_⟩
      exact of_decide_eq_true ready (t, p) old taken.1.symm
    · obtain ⟨rfl, id, at_t⟩ := mem_logsAfter new
      have held : p ∈ w.daemon.holds (.http t) := by
        simp [State.holds, at_t, HandlerPc.requests]
      exact .inr ⟨(of_decide_eq_true runs : who = .http t).symm, reschedule_step st at_t,
        h.booked.unlisted held⟩

theorem kept_step {debug : Bool} {w w' : Watch} {a : Act} (h : Kept w)
    (act : Acted debug w a w') : Kept w' := by
  cases act with
  | run runs ready next => exact kept_run h runs ready next _
  | touch => exact ⟨h.booked, h.gone, h.unpublished, h.enlisted, h.rescheduled⟩
  | log =>
    exact ⟨h.booked, h.gone, h.unpublished, h.enlisted,
      fun i q pending => h.rescheduled i q (List.mem_of_mem_erase pending)⟩
  | status => exact ⟨h.booked, h.gone, h.unpublished, h.enlisted, h.rescheduled⟩

theorem untouched_record {w : Watch} {who : Thread} {walk : Bool} {ps : List Ptr} :
    Untouched (w.record who walk ps) ↔
      Untouched w ∧ ∀ p ∈ ps, p ∉ w.daemon.freed ∧ (walk = true ∨ (who, p) ∉ w.published) := by
  simp only [Untouched, record, List.forall_mem_append, List.forall_mem_map,
    decide_eq_false_iff_not]

theorem Kept.good {w : Watch} (h : Kept w) {who : Thread} {p : Ptr}
    (held : p ∈ w.daemon.holds who) (walk : Bool) :
    p ∉ w.daemon.freed ∧ (walk = true ∨ (who, p) ∉ w.published) :=
  ⟨h.booked.not_freed h.gone (.inr ⟨who, held⟩), .inr (h.unpublished who p held)⟩

theorem Kept.good_walk {w : Watch} (h : Kept w) (clean : Untouched w) (who : Thread)
    {ps : List Ptr} (on_list : ∀ p ∈ ps, p ∈ listed w.daemon) : Untouched (w.record who true ps) :=
  untouched_record.mpr ⟨clean, fun p walk =>
    ⟨h.booked.not_freed h.gone (.inl (on_list p walk)), .inl rfl⟩⟩

theorem uses_worker {s : State} {t : ℕ} {p : Ptr} (use : p ∈ s.uses (.worker t)) :
    p ∈ s.holds (.worker t) ∨
      ∃ ar, s.workers[t]? = some (.handOver p ar) ∧ forwardsBody (s.mem p).hcl = true := by
  simp only [State.uses, State.holds] at use ⊢
  cases at_t : s.workers[t]? with
  | none => simp [at_t] at use
  | some pc =>
    simp only [at_t, Option.elim_some] at use ⊢
    cases pc with
    | handOver pr ar =>
      simp only [WorkerPc.uses] at use
      split at use
      next body =>
        rcases List.mem_cons.mp use with rfl | puller
        · exact .inr ⟨ar, rfl, body⟩
        · exact .inl puller
      · exact .inl use
    | _ => exact .inl use

theorem handOver_uses {s : State} {t : ℕ} {pr ar : Ptr}
    (at_t : s.workers[t]? = some (.handOver pr ar)) (body : forwardsBody (s.mem pr).hcl = true) :
    pr ∈ s.uses (.worker t) := by
  simp [State.uses, at_t, WorkerPc.uses, body]

theorem touches_held {debug : Bool} {w : Watch} {who : Thread} {e : Event}
    (runs : e.runsOn who = true) (guard : StopsAtAppend debug w (.run who e)) {p : Ptr}
    (use : p ∈ touches w.daemon e) : p ∈ w.daemon.holds who := by
  cases e with
  | worker t =>
    obtain rfl : who = .worker t := of_decide_eq_true runs
    rcases uses_worker use with held | ⟨ar, at_t, body⟩
    · exact held
    · exact absurd body (by simp [guard p ar at_t])
  | handler t | callback t =>
    obtain rfl : who = .http t := of_decide_eq_true runs
    exact use
  | _ => exact absurd use List.not_mem_nil

theorem walks_listed {s : State} {e : Event} {p : Ptr} (walk : p ∈ walks s e) : p ∈ listed s := by
  unfold walks at walk
  split at walk
  · split at walk
    · exact List.mem_append_left _ (List.mem_append_right _ walk)
    · exact List.mem_append_left _ (List.mem_append_right _ walk)
    · exact absurd walk List.not_mem_nil
  · exact absurd walk List.not_mem_nil

theorem list_listed {s : State} {lst : ReqList} {p : Ptr} (member : p ∈ s.list lst) :
    p ∈ listed s := by
  cases lst with
  | proxyNew => exact List.mem_append_left _ (List.mem_append_left _ member)
  | proxyOut => exact List.mem_append_left _ (List.mem_append_right _ member)
  | apiPull => exact List.mem_append_right _ member

theorem untouched_step {debug : Bool} {w w' : Watch} {a : Act} (h : Kept w) (clean : Untouched w)
    (guard : StopsAtAppend debug w a) (act : Acted debug w a w') : Untouched w' := by
  cases act with
  | @run who e _ runs =>
    have walked := h.good_walk clean who fun p walk => walks_listed (e := e) walk
    exact untouched_record.mpr ⟨walked, fun p use => h.good (touches_held runs guard use) false⟩
  | @touch who p use =>
    refine untouched_record.mpr ⟨clean, fun q same => ?_⟩
    obtain rfl : q = p := List.mem_singleton.mp same
    cases who with
    | http t => exact h.good use false
    | worker t =>
      rcases uses_worker use with held | ⟨ar, at_t, body⟩
      · exact h.good held false
      · exact absurd body (by simp [guard ar at_t])
  | log =>
    obtain rfl : debug = false := guard
    exact untouched_record.mpr ⟨clean, fun q use => absurd use List.not_mem_nil⟩
  | status => exact h.good_walk clean _ fun p walk => list_listed walk

theorem touched_record {w : Watch} {who : Thread} {ps : List Ptr} {p : Ptr} (use : p ∈ ps)
    (published : (who, p) ∈ w.published) : ¬Untouched (w.record who false ps) := fun clean =>
  ((untouched_record.mp clean).2 p use).2.elim Bool.noConfusion fun kept => kept published

theorem touched_step {debug : Bool} {w w' : Watch} {a : Act} (h : Kept w)
    (broken : ¬StopsAtAppend debug w a) (act : Acted debug w a w') : ¬Untouched w' := by
  cases act with
  | @run who e s' runs =>
    cases e with
    | worker t =>
      obtain rfl : who = .worker t := of_decide_eq_true runs
      simp only [StopsAtAppend, not_forall, Bool.not_eq_false] at broken
      obtain ⟨pr, ar, at_t, body⟩ := broken
      exact touched_record (handOver_uses at_t body) (h.enlisted t pr ar at_t)
    | _ => exact absurd trivial broken
  | @touch who p =>
    cases who with
    | http t => exact absurd trivial broken
    | worker t =>
      simp only [StopsAtAppend, not_forall] at broken
      obtain ⟨ar, at_t, _⟩ := broken
      exact touched_record (List.mem_singleton_self p) (h.enlisted t p ar at_t)
  | log pending =>
    obtain rfl : debug = true := Bool.eq_true_of_not_eq_false broken
    exact touched_record (List.mem_singleton_self _) (h.rescheduled _ _ pending)
  | status => exact absurd trivial broken

/-- Throughout a run no thread uses a request it has given away, nor one that is
released, exactly when no thread goes on after the append in one of the two
branches that do. -/
theorem untouched_iff_stops_at_append (debug : Bool) (workers handlers : ℕ) (acts : List Act)
    (w : Watch) (run : (machine debug).exec (start workers handlers) acts = some w) :
    (machine debug).Always Untouched (start workers handlers) acts ↔
      (machine debug).Meets (StopsAtAppend debug) (start workers handlers) acts := by
  refine (machine debug).always_iff_meets (I := fun w => Kept w ∧ Untouched w)
    (fun w h => h.2) ?_ ?_ ⟨kept_start _ _, fun _ use => absurd use List.not_mem_nil⟩ run
  · intro w a w' h guard next
    have act := acted_of_step next
    exact ⟨kept_step h.1 act, untouched_step h.1 h.2 guard act⟩
  · intro w a w' h broken next
    exact touched_step h.1 broken (acted_of_step next)

def onOnly : Event → Act
  | .worker t => .run (.worker t) (.worker t)
  | e => .run (.http 0) e

theorem untouched_iff_in_servedRun :
    ∃ w, (machine true).exec (start 1 1) (servedRun.map onOnly) = some w ∧
      ((machine true).Always Untouched (start 1 1) (servedRun.map onOnly) ↔
        (machine true).Meets (StopsAtAppend true) (start 1 1) (servedRun.map onOnly)) :=
  ⟨_, rfl, untouched_iff_stops_at_append true 1 1 (servedRun.map onOnly) _ rfl⟩

/-- The push for a POST comes in while its worker is still to forward the body:
`httpsrv_forward` reads a request that has been freed. -/
def pushedTooSoon : List Act :=
  List.map onOnly
    [.request 0 { clientGet with method := .post, body := [1, 2, 3] } none,
      .request 0 circuitPull none, .worker 0, .worker 0, .worker 0, .worker 0,
      .request 0 circuitPush none, .handler 0, .handler 0, .worker 0]

theorem forwards_freed_request :
    ¬∀ (debug : Bool) (workers handlers : ℕ) (acts : List Act) (w : Watch),
      (machine debug).exec (start workers handlers) acts = some w → Untouched w := by
  intro always
  have untouched := always false 1 1 pushedTooSoon _ rfl
  have used := untouched ⟨.worker 0, 0, false, true, true⟩ (by decide)
  exact absurd used.1 (by decide)

end Watch

end Jumpbox.Proxy
