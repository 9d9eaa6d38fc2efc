import Jumpbox.Proxy.Step

/-! What one step of the daemon can do, once and for all.
`Step s e s'` lists the branches of the code with their guards; every invariant
is proved by cases on it and never unfolds the step function. -/

namespace Jumpbox.Proxy

open State

inductive Step (s : State) : Event → State → Prop
  | accept {t hcl exit} (got : Bool) (exitHostname : Option CStr) (hostname : CStr)
      (fresh : hcl.key ∉ s.seen) (outside : hcl.user.push = none)
      (route : djbHandle hcl = .proxy) :
      Step s (.request t hcl exit)
        (djbProxyAdd { s with
          seen := s.seen ++ [hcl.key], gotHostname := got, lExitHostname := exitHostname }
          { hcl with hostname })
  | pull {t hcl exit} (fresh : hcl.key ∉ s.seen) (outside : hcl.user.push = none)
      (route : djbHandle hcl = .pull) :
      Step s (.request t hcl exit) (djbPullPost { s with seen := s.seen ++ [hcl.key] } hcl)
  | push {t hcl exit} (fresh : hcl.key ∉ s.seen) (outside : hcl.user.push = none)
      (route : djbHandle hcl = .push) (pc : s.handlers[t]? = some .idle) :
      Step s (.request t hcl exit)
        ({ s with seen := s.seen ++ [hcl.key] }.setHandler t (.find hcl))
  | refuse {t hcl exit} (msg : CStr) (fresh : hcl.key ∉ s.seen)
      (route : djbHandle hcl = .error msg) :
      Step s (.request t hcl exit)
        ({ s with seen := s.seen ++ [hcl.key] }.replies hcl (djbError 404 msg))
  | elsewhere {t hcl exit} (fresh : hcl.key ∉ s.seen) :
      Step s (.request t hcl exit) { s with seen := s.seen ++ [hcl.key] }
  | internal {hcl} (fresh : hcl.key ∉ s.seen) (inside : hcl.user.push.isSome)
      (get : hcl.method = .get) (empty : hcl.body = []) :
      Step s (.internal hcl) (djbProxyAdd { s with seen := s.seen ++ [hcl.key] } hcl)
  | takeNew {t pr rest} (pc : s.workers[t]? = some .getNew) (lst : s.lstProxyNew = pr :: rest) :
      Step s (.worker t) ({ s with lstProxyNew := rest }.setWorker t (.getPull pr))
  | takePull {t pr ar rest} (pc : s.workers[t]? = some (.getPull pr))
      (lst : s.lstApiPull = ar :: rest) :
      Step s (.worker t) ({ s with lstApiPull := rest }.setWorker t (.forward pr ar))
  | pair {t pr ar} (pc : s.workers[t]? = some (.forward pr ar))
      (valid : (s.mem ar).hcl.id ∉ s.shut) :
      Step s (.worker t)
        ({ s.writes (.request pr ar) (s.mem ar).hcl.key (forwardHeaders (s.mem pr).hcl) with
          mem := Function.update s.mem pr { s.mem pr with phclId := (s.mem ar).hcl.id }
          hist := { s.hist with handed := s.hist.handed ++ [(pr, ar)] } }.setWorker t
            (.enlist pr ar))
  | drop {t pr ar} (pc : s.workers[t]? = some (.forward pr ar))
      (shut : (s.mem ar).hcl.id ∈ s.shut) :
      Step s (.worker t)
        ({ s.replies (s.mem ar).hcl [.done] with
          hist := { s.hist with
            dropped := s.hist.dropped ++ [pr], refused := s.hist.refused ++ [ar] } }.setWorker t
              (.release ar))
  | enlist {t pr ar} (pc : s.workers[t]? = some (.enlist pr ar)) :
      Step s (.worker t)
        ({ s with lstProxyOut := s.lstProxyOut ++ [pr] }.setWorker t (.handOver pr ar))
  | handBody {t pr ar} (pc : s.workers[t]? = some (.handOver pr ar))
      (body : forwardsBody (s.mem pr).hcl = true) :
      Step s (.worker t)
        ((s.httpsrvForward (.request pr ar) (s.mem pr).hcl (s.mem ar).hcl).setWorker t
          (.release ar))
  | handPlain {t pr ar} (pc : s.workers[t]? = some (.handOver pr ar))
      (plain : forwardsBody (s.mem pr).hcl = false) :
      Step s (.worker t)
        ((s.writes (.request pr ar) (s.mem ar).hcl.key [.done, .handlingDone]).setWorker t
          (.release ar))
  | release {t ar} (pc : s.workers[t]? = some (.release ar)) :
      Step s (.worker t)
        ({ s with
          freed := s.freed ++ [ar]
          hist := { s.hist with released := s.hist.released ++ [ar] } }.setWorker t .getNew)
  | miss {t hcl} (outs : List Out) (pc : s.handlers[t]? = some (.find hcl)) :
      Step s (.handler t) ((s.replies hcl (outs ++ [.done])).setHandler t .idle)
  | find {t hcl pr rest} (pc : s.handlers[t]? = some (.find hcl))
      (seqno : scanSeqNo hcl.user.seqno = some (s.mem pr).hcl.key)
      (lst : s.lstProxyOut.Perm (pr :: rest)) :
      Step s (.handler t) ({ s with lstProxyOut := rest }.setHandler t (.found hcl pr))
  | enter {t hcl pr} (pc : s.handlers[t]? = some (.found hcl pr))
      (inside : (s.mem pr).hcl.user.push.isSome) :
      Step s (.handler t) (s.setHandler t (.callback hcl pr))
  | answerClosed {t hcl pr} (pc : s.handlers[t]? = some (.found hcl pr))
      (outside : (s.mem pr).hcl.user.push = none) (shut : (s.mem pr).hcl.id ∈ s.shut) :
      Step s (.handler t)
        ({ s.replies hcl (pushReply "Remote closed connection\r\n") with
          hist := { s.hist with completed := s.hist.completed ++ [(pr, hcl)] } }.setHandler t .idle)
  | answerPlain {t hcl pr} (pc : s.handlers[t]? = some (.found hcl pr))
      (outside : (s.mem pr).hcl.user.push = none) (valid : (s.mem pr).hcl.id ∉ s.shut)
      (plain : hcl.contentLength = 0) :
      Step s (.handler t)
        ({ (s.writes (.answer hcl) (s.mem pr).hcl.key (pushAnswer hcl)).replies hcl
            (pushReply "Push Forward successful\r\n") with
          freed := s.freed ++ [pr]
          hist := { s.hist with completed := s.hist.completed ++ [(pr, hcl)] } }.setHandler t .idle)
  | answerBody {t hcl pr} (pc : s.handlers[t]? = some (.found hcl pr))
      (outside : (s.mem pr).hcl.user.push = none) (valid : (s.mem pr).hcl.id ∉ s.shut)
      (body : hcl.contentLength ≠ 0) :
      Step s (.handler t)
        (({ s.writes (.answer hcl) (s.mem pr).hcl.key (pushAnswer hcl) with
          freed := s.freed ++ [pr]
          hist := { s.hist with
            completed := s.hist.completed ++ [(pr, hcl)] } }.httpsrvForward (.answer hcl) hcl
              (s.mem pr).hcl).setHandler t .idle)
  | putBack {t hcl pr} (pc : s.handlers[t]? = some (.putBack hcl pr)) :
      Step s (.handler t)
        ({ s with
          lstProxyOut := s.lstProxyOut ++ [pr], reading := s.reading ++ [hcl] }.setHandler t .idle)
  | closeNone {t id} (pc : s.handlers[t]? = some (.closeFind id))
      (unpaired : ∀ p ∈ s.lstProxyOut, (s.mem p).phclId ≠ id) :
      Step s (.handler t) (s.setHandler t .idle)
  | closeSome {t id pr rest} (pc : s.handlers[t]? = some (.closeFind id))
      (paired : (s.mem pr).phclId = id) (lst : s.lstProxyOut.Perm (pr :: rest)) :
      Step s (.handler t) ({ s with lstProxyOut := rest }.setHandler t (.closeAdd id pr))
  | reschedule {t id pr} (pc : s.handlers[t]? = some (.closeAdd id pr)) :
      Step s (.handler t) ({ s with lstProxyNew := s.lstProxyNew ++ [pr] }.setHandler t .idle)
  | callbackDone {t hcl pr} (pc : s.handlers[t]? = some (.callback hcl pr)) :
      Step s (.callback t true)
        ({ s.replies hcl (pushReply "Internal Push Proxy successful\r\n") with
          freed := s.freed ++ [pr]
          hist := { s.hist with completed := s.hist.completed ++ [(pr, hcl)] } }.setHandler t .idle)
  | callbackWait {t hcl pr} (pc : s.handlers[t]? = some (.callback hcl pr)) :
      Step s (.callback t false) (s.setHandler t (.putBack hcl pr))
  | again {t hcl} (pc : s.handlers[t]? = some .idle) (waiting : hcl ∈ s.reading) :
      Step s (.again t hcl)
        ({ s with reading := s.reading.erase hcl }.setHandler t
          (.find { hcl with readbody := true }))
  | disconnect {id} : Step s (.disconnect id) { s with shut := id :: s.shut }
  | close {t id} (pc : s.handlers[t]? = some .idle) (shut : id ∈ s.shut)
      (first : id ∉ s.hist.closed) :
      Step s (.close t id)
        ({ s with hist := { s.hist with closed := s.hist.closed ++ [id] } }.setHandler t
          (.closeFind id))
  | move {i n f} (active : s.forwards[i]? = some f) (some_bytes : 0 < n)
      (unread : s.consumed f.src.key + n ≤ f.src.contentLength) :
      Step s (.move i n)
        { s.writes f.cause f.dst.key
            [.body ((f.src.body.drop (s.consumed f.src.key)).take n)] with
          consumed := Function.update s.consumed f.src.key (s.consumed f.src.key + n) }
  | finish {i f} (active : s.forwards[i]? = some f)
      (read : s.consumed f.src.key = f.src.contentLength) :
      Step s (.finish i)
        { s.replies f.src (djbBodyfwdDone f.src) with forwards := s.forwards.eraseIdx i }
  | abort {i f} (active : s.forwards[i]? = some f) (shut : f.dst.id ∈ s.shut) :
      Step s (.abort i) { s with forwards := s.forwards.eraseIdx i }

theorem djbFindReqDh_ok {s : State} {lst rest : List Ptr} {dh : DjbHeaders} {pr : Ptr}
    (found : djbFindReqDh s lst dh = .ok (pr, rest)) :
    scanSeqNo dh.seqno = some (s.mem pr).hcl.key ∧ lst.Perm (pr :: rest) := by
  unfold djbFindReqDh at found
  split at found
  · cases found
  split at found
  · cases found
  split at found
  · cases found
  next key scanned =>
    split at found
    · cases found
    next hit =>
      cases found
      unfold djbFindReq at hit
      have named := Fifo.takeFirst_test hit
      simp only [beq_iff_eq] at named
      exact ⟨named ▸ scanned, Fifo.takeFirst_perm hit⟩

theorem djbFindPhcl_none {s : State} {lst : List Ptr} {id : UInt64}
    (missing : djbFindPhcl s lst id = none) : ∀ p ∈ lst, (s.mem p).phclId ≠ id := by
  intro p member
  simpa using Fifo.takeFirst_eq_none.mp missing p member

theorem djbFindPhcl_some {s : State} {lst rest : List Ptr} {id : UInt64} {pr : Ptr}
    (found : djbFindPhcl s lst id = some (pr, rest)) :
    (s.mem pr).phclId = id ∧ lst.Perm (pr :: rest) :=
  ⟨by simpa using Fifo.takeFirst_test found, Fifo.takeFirst_perm found⟩

theorem djbRequest_cases {s s' : State} {t : ℕ} {hcl : HttpsrvClient} {exit : Option CStr}
    (h : djbRequest s t hcl exit = some s') : Step s (.request t hcl exit) s' := by
  unfold djbRequest at h
  split at h
  next fresh =>
    obtain ⟨fresh, outside, _⟩ := fresh
    simp only at h
    split at h
    next route =>
      cases h
      unfold djbHandleProxy
      -- the exit hostname is settled on the first proxied request
      cases s.gotHostname <;> cases s.lExitHostname <;> cases exit <;>
        exact .accept _ _ _ fresh outside route
    next route => cases h; exact .pull fresh outside route
    next route =>
      split at h
      next idle => cases h; exact .push fresh outside route idle
      next => cases h
    next msg route => cases h; exact .refuse msg fresh route
    next => cases h; exact .elsewhere fresh
  next => cases h

theorem djbRequest_error {s s' : State} {t : ℕ} {hcl : HttpsrvClient} {exit : Option CStr}
    {msg : CStr} (route : djbHandle hcl = .error msg) (h : djbRequest s t hcl exit = some s') :
    hcl.key ∉ s.seen ∧
      s' = { s with seen := s.seen ++ [hcl.key] }.replies hcl (djbError 404 msg) := by
  unfold djbRequest at h
  split at h
  next fresh =>
    simp only [route] at h
    exact ⟨fresh.1, (Option.some.inj h).symm⟩
  next => cases h

theorem djbWorkerThread_cases {s s' : State} {t : ℕ} (h : djbWorkerThread s t = some s') :
    Step s (.worker t) s' := by
  unfold djbWorkerThread at h
  split at h
  next => cases h
  next pc =>
    split at h
    next => cases h
    next lst => cases h; exact .takeNew pc lst
  next pc =>
    split at h
    next => cases h
    next lst => cases h; exact .takePull pc lst
  next pr ar pc =>
    by_cases valid : s.connIsValid (s.mem ar).hcl
    · simp only [valid, if_true] at h
      cases h
      exact .pair pc (connIsValid_iff.mp valid)
    · simp only [valid, Bool.false_eq_true, if_false] at h
      cases h
      exact .drop pc (by simpa [connIsValid_iff] using valid)
  next pc => cases h; exact .enlist pc
  next pc =>
    split at h
    next body => cases h; exact .handBody pc body
    next plain => cases h; exact .handPlain pc (by simpa using plain)
  next pc => cases h; exact .release pc

theorem djbPushAnswer_cases {s : State} {t : ℕ} {hcl : HttpsrvClient} {pr : Ptr}
    (pc : s.handlers[t]? = some (.found hcl pr)) (outside : (s.mem pr).hcl.user.push = none) :
    Step s (.handler t) (djbPushAnswer s t hcl pr) := by
  unfold djbPushAnswer
  by_cases valid : (s.mem pr).hcl.id ∈ s.shut
  · have := Step.answerClosed pc outside valid
    simpa [connIsValid_iff, valid] using this
  by_cases plain : hcl.contentLength = 0
  · have := Step.answerPlain pc outside valid plain
    simpa [connIsValid_iff, valid, plain] using this
  · have := Step.answerBody pc outside valid plain
    simpa [connIsValid_iff, valid, plain] using this

theorem djbHandler_cases {s s' : State} {t : ℕ} (h : djbHandler s t = some s') :
    Step s (.handler t) s' := by
  unfold djbHandler at h
  split at h
  next pc =>
    split at h
    next outs _ => cases h; exact .miss outs pc
    next found =>
      cases h
      obtain ⟨seqno, lst⟩ := djbFindReqDh_ok found
      exact .find pc seqno lst
  next pc =>
    split at h
    next inside => cases h; exact .enter pc inside
    next outside =>
      cases h
      exact djbPushAnswer_cases pc (by simpa using outside)
  next pc => cases h; exact .putBack pc
  next pc =>
    split at h
    next missing => cases h; exact .closeNone pc (djbFindPhcl_none missing)
    next found =>
      cases h
      obtain ⟨paired, lst⟩ := djbFindPhcl_some found
      exact .closeSome pc paired lst
  next pc => cases h; exact .reschedule pc
  next => cases h

theorem djbCallback_cases {s s' : State} {t : ℕ} {done : Bool}
    (h : djbCallback s t done = some s') : Step s (.callback t done) s' := by
  unfold djbCallback at h
  split at h
  next pc =>
    cases done
    · cases h; exact .callbackWait pc
    · cases h; exact .callbackDone pc
  next => cases h

theorem httpsrvMove_cases {s s' : State} {i n : ℕ} (h : httpsrvMove s i n = some s') :
    Step s (.move i n) s' := by
  unfold httpsrvMove at h
  split at h
  next => cases h
  next active =>
    simp only at h
    split at h
    next room => cases h; exact .move active room.1 room.2
    next => cases h

theorem httpsrvFinish_cases {s s' : State} {i : ℕ} (h : httpsrvFinish s i = some s') :
    Step s (.finish i) s' := by
  unfold httpsrvFinish at h
  split at h
  next => cases h
  next active =>
    split at h
    next read => cases h; exact .finish active read
    next => cases h

theorem httpsrvAbort_cases {s s' : State} {i : ℕ} (h : httpsrvAbort s i = some s') :
    Step s (.abort i) s' := by
  unfold httpsrvAbort at h
  split at h
  next => cases h
  next active =>
    split at h
    next shut => cases h; exact .abort active shut
    next => cases h

theorem step_cases {s s' : State} {e : Event} (h : step s e = some s') : Step s e s' := by
  cases e with
  | request t hcl exit => exact djbRequest_cases h
  | internal hcl =>
    simp only [step] at h
    split at h
    next room => cases h; exact .internal room.1 room.2.1 room.2.2.1 room.2.2.2
    next => cases h
  | worker t => exact djbWorkerThread_cases h
  | handler t => exact djbHandler_cases h
  | callback t done => exact djbCallback_cases h
  | again t hcl =>
    simp only [step] at h
    split at h
    next room => cases h; exact .again room.1 room.2
    next => cases h
  | disconnect id => cases h; exact .disconnect
  | close t id =>
    simp only [step] at h
    split at h
    next room => cases h; exact .close room.1 room.2.1 room.2.2
    next => cases h
  | move i n => exact httpsrvMove_cases h
  | finish i => exact httpsrvFinish_cases h
  | abort i => exact httpsrvAbort_cases h

end Jumpbox.Proxy
