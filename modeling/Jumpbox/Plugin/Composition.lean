import Jumpbox.Plugin.Circuit
import Jumpbox.Proxy.Hearing

/-! The circuits of the plugin running against the daemon. A circuit asks under
`/next/` and the preferences are posted to `/preferences/`; `djb_handle_api` knows
neither URL, so each question is answered 404 and no circuit gets a request to serve. -/

namespace Jumpbox.Plugin

open Proxy (Moving Step timesUsed)

def Request.header (r : Request) (name : CStr) : CStr :=
  ((r.headers.find? fun header => strcaseEq header.1 name).map Prod.snd).getD []

/-- The path of a URL on the daemon's own address. -/
def daemonPath (url : CStr) : CStr := url.drop jbHost.length

/-- A question of a circuit as `djb_handle` sees it, under the number libfutil gives it. -/
def arrives (key : Key) (r : Request) : HttpsrvClient where
  id := key.1
  reqid := key.2
  method := .post
  hostname := "127.0.0.1:6543".toList
  uri := daemonPath r.url
  rawuri := daemonPath r.url
  contentType := r.header "Content-Type".toList
  theHeaders := r.headers
  body := r.body.getD []
  user := {
    httpcode := r.header "DJB-HTTPCode".toList
    httptext := r.header "DJB-HTTPText".toList
    seqno := r.header "DJB-SeqNo".toList
    setcookie := r.header "DJB-Set-Cookie".toList
    cookie := r.header "Cookie".toList }

def Response.hears (r : Response) : Out → Response
  | .answer code text _ => { r with status := code.toNat, statusText := text }
  | .error code msg => { r with status := code, statusText := msg }
  | .header name value => { r with headers := r.headers ++ [(name, value)] }
  | .headers block => { r with headers := r.headers ++ block }
  | .put text =>
    { r with response := some (r.response.getD [] ++ text.map fun c => UInt8.ofNat c.toNat) }
  | .body bytes => { r with response := some (r.response.getD [] ++ bytes) }
  | _ => r

def respond (outs : List Out) : Response := outs.foldl Response.hears { status := 0 }

structure State where
  daemon : Proxy.State
  circuits : List Circuit

def init (workers handlers : ℕ) (circuitIds : List CStr) : State where
  daemon := Proxy.init workers handlers
  circuits := circuitIds.map fun id => { id }

inductive Event
  /-- The daemon takes a step, or some other program asks it something. -/
  | daemon (e : Proxy.Event)
  | jbNext (i t : ℕ) (key : Key) (time : ℕ)
  | nextResponse (i : ℕ)
  /-- The connection to the daemon fails before any of the answer arrives. -/
  | nextFailed (i : ℕ)
  | serverResponse (i t : ℕ) (key : Key) (time : ℕ) (response : Response)

namespace State

def setCircuit (s : State) (i : ℕ) (c : Circuit) : State :=
  { s with circuits := s.circuits.set i c }

def ask (s : State) (i t : ℕ) (key : Key) (c : Circuit) (request : Request) : Option State :=
  (Proxy.step s.daemon (.request t (arrives key request) none)).map fun daemon =>
    { s with daemon }.setCircuit i (c.asked key)

end State

def step (opens : CStr → Bool) (s : State) : Event → Option State
  | .daemon e => (Proxy.step s.daemon e).map fun daemon => { s with daemon }
  | .jbNext i t key time =>
    match s.circuits[i]? with
    | none => none
    | some c => match c.pending with
      | .restart => s.ask i t key c (c.jbNext time)
      | _ => none
  | .nextResponse i =>
    match s.circuits[i]? with
    | none => none
    | some c => match c.pending with
      | .next key =>
        if s.daemon.writesTo key = [] then none
        else some (s.setCircuit i
          (c.handleJbNextResponse opens (respond (s.daemon.writesTo key))))
      | _ => none
  | .nextFailed i =>
    match s.circuits[i]? with
    | none => none
    | some c => match c.pending with
      | .next _ => some (s.setCircuit i (c.handleJbNextResponse opens { status := 0 }))
      | _ => none
  | .serverResponse i t key time response =>
    match s.circuits[i]? with
    | none => none
    | some c => match c.pending with
      | .server request =>
        match ssResponse2request response request.djbSeqno c.id c.cntRequestsOut time with
        | .ok next => s.ask i t key c next
        | .error _ => some (s.setCircuit i { c with pending := .nothing })
      | _ => none

def machine (opens : CStr → Bool) : Machine State Event := ⟨step opens⟩

def noSuchRequest : CStr := "No such DJB API request".toList

theorem daemonPath_nextUrl (id : CStr) (cntRequestsOut time : ℕ) :
    ∃ rest, daemonPath (nextUrl id cntRequestsOut time) = jbNextPath ++ rest := by
  refine ⟨id ++ "/".toList ++ Nat.toDigits 10 cntRequestsOut ++ "/".toList ++
    Nat.toDigits 10 time, ?_⟩
  simp only [daemonPath, nextUrl, jbNextUrl, List.append_assoc, List.drop_left]

theorem djbHandleApi_next (rest : CStr) :
    djbHandleApi (jbNextPath ++ rest) = .error noSuchRequest := rfl

theorem djbHandleApi_nextUrl (id : CStr) (cntRequestsOut time : ℕ) :
    djbHandleApi (daemonPath (nextUrl id cntRequestsOut time)) = .error noSuchRequest := by
  obtain ⟨rest, path⟩ := daemonPath_nextUrl id cntRequestsOut time
  rw [path, djbHandleApi_next]

theorem djbHandleApi_preferencesUrl :
    djbHandleApi (daemonPath jbPreferencesUrl) =
      .error "No such DJB API request (Preferences)".toList := rfl

/-- A question that has been answered and that nothing in the daemon is about any more. -/
structure Refused (d : Proxy.State) (key : Key) : Prop where
  seen : key ∈ d.seen
  unused : timesUsed d key = 0
  answer : d.writesTo key = djbError 404 noSuchRequest

structure Unserved (c : Circuit) : Prop where
  noneIn : c.cntRequestsIn = 0
  noServer : ∀ request, c.pending ≠ .server request

structure Turned (d : Proxy.State) (c : Circuit) : Prop extends Unserved c where
  refused : ∀ key, c.pending = .next key → Refused d key

structure AllTurned (s : State) : Prop where
  moving : Moving s.daemon
  addressed : ∀ w ∈ s.daemon.log, w.dst ∈ s.daemon.seen
  turned : ∀ c ∈ s.circuits, Turned s.daemon c

theorem refused_step {d d' : Proxy.State} {e : Proxy.Event} {key : Key} (h : Refused d key)
    (m : Moving d) (st : Step d e d') : Refused d' key := by
  obtain ⟨ws, log, written⟩ := Proxy.writes_of_step m st
  have elsewhere : ∀ w ∈ ws, w.dst ≠ key := by
    intro w member same
    rcases written w member with used | ⟨unseen, _⟩
    · rw [same, h.unused] at used
      exact Nat.lt_irrefl 0 used
    · rw [same] at unseen
      exact unseen h.seen
  exact ⟨Proxy.seen_of_step st key h.seen,
    Proxy.not_uses_step m.keyed m.booked.toFresh st h.seen h.unused,
    by rw [Proxy.writesTo_other log elsewhere, h.answer]⟩

theorem turned_step {d d' : Proxy.State} {e : Proxy.Event} {c : Circuit} (h : Turned d c)
    (m : Moving d) (st : Step d e d') : Turned d' c :=
  ⟨h.toUnserved, fun key asked => refused_step (h.refused key asked) m st⟩

theorem refused_question {d d' : Proxy.State} {t : ℕ} {key : Key} {r : Request}
    (m : Moving d) (addressed : ∀ w ∈ d.log, w.dst ∈ d.seen)
    (url : djbHandleApi (daemonPath r.url) = .error noSuchRequest)
    (moved : Proxy.step d (.request t (arrives key r) none) = some d') :
    Step d (.request t (arrives key r) none) d' ∧ Refused d' key := by
  have route : djbHandle (arrives key r) = .error noSuchRequest := url
  obtain ⟨fresh, rfl⟩ := Proxy.djbRequest_error route moved
  have refuse : Step d (.request t (arrives key r) none) _ := .refuse noSuchRequest fresh route
  have unused : timesUsed d key = 0 := by
    by_contra used
    exact fresh (m.keyed.seen_of_uses (Nat.pos_of_ne_zero used))
  refine ⟨refuse, List.mem_append_right _ (List.mem_singleton.mpr rfl), ?_, ?_⟩
  · exact (Proxy.uses_quiet m.booked.toFresh refuse rfl rfl rfl key).trans unused
  · have silent : d.writesTo key = [] := Proxy.writesTo_unseen addressed fresh
    have log := Proxy.writesTo_replies { d with seen := d.seen ++ [key] } (arrives key r)
      (djbError 404 noSuchRequest)
    calc _ = d.writesTo key ++ djbError 404 noSuchRequest := log
      _ = _ := by rw [silent, List.nil_append]

theorem allTurned_setCircuit {s : State} {i : ℕ} {c : Circuit} (h : AllTurned s)
    (turned : Turned s.daemon c) : AllTurned (s.setCircuit i c) :=
  ⟨h.moving, h.addressed, fun c' member => by
    rcases List.mem_or_eq_of_mem_set member with old | rfl
    · exact h.turned c' old
    · exact turned⟩

theorem allTurned_daemon {s : State} {d : Proxy.State} {e : Proxy.Event} (h : AllTurned s)
    (st : Step s.daemon e d) : AllTurned { s with daemon := d } :=
  ⟨Proxy.moving_step h.moving st, Proxy.addressed_step h.addressed h.moving st,
    fun c member => turned_step (h.turned c member) h.moving st⟩

theorem allTurned_ask {s s' : State} {i t : ℕ} {key : Key} {c : Circuit} {r : Request}
    (h : AllTurned s) (unserved : Unserved c)
    (url : djbHandleApi (daemonPath r.url) = .error noSuchRequest)
    (moved : s.ask i t key c r = some s') : AllTurned s' := by
  obtain ⟨d, asked, rfl⟩ := Option.map_eq_some_iff.mp moved
  obtain ⟨st, refused⟩ := refused_question h.moving h.addressed url asked
  refine allTurned_setCircuit (allTurned_daemon h st) ⟨⟨unserved.noneIn, ?_⟩, ?_⟩
  · intro request pending
    cases pending
  · intro k pending
    cases pending
    exact refused

theorem respond_noSuchRequest : (respond (djbError 404 noSuchRequest)).status = 404 := rfl

theorem turned_response {d : Proxy.State} {c : Circuit} (h : Turned d c) (opens : CStr → Bool)
    {response : Response} (not_ok : response.status ≠ 200) :
    Turned d (c.handleJbNextResponse opens response) := by
  unfold Circuit.handleJbNextResponse
  rw [if_neg not_ok]
  split
  all_goals exact ⟨⟨h.noneIn, by simp⟩, by simp⟩

theorem allTurned_step {opens : CStr → Bool} {s s' : State} {e : Event} (h : AllTurned s)
    (moved : step opens s e = some s') : AllTurned s' := by
  cases e with
  | daemon e =>
    obtain ⟨d, st, rfl⟩ := Option.map_eq_some_iff.mp moved
    exact allTurned_daemon h (Proxy.step_cases st)
  | jbNext i t key time =>
    simp only [step] at moved
    split at moved
    next => cases moved
    next c at_i =>
      split at moved
      next =>
        have turned := h.turned c (List.mem_of_getElem? at_i)
        have url : (c.jbNext time).url = nextUrl c.id c.cntRequestsOut time := rfl
        refine allTurned_ask h turned.toUnserved ?_ moved
        rw [url, djbHandleApi_nextUrl]
      next => cases moved
  | nextResponse i =>
    simp only [step] at moved
    split at moved
    next => cases moved
    next c at_i =>
      split at moved
      next key pending =>
        split at moved
        next => cases moved
        next =>
          cases moved
          have turned := h.turned c (List.mem_of_getElem? at_i)
          rw [(turned.refused key pending).answer]
          have not_ok : (respond (djbError 404 noSuchRequest)).status ≠ 200 := by
            rw [respond_noSuchRequest]
            decide
          exact allTurned_setCircuit h (turned_response turned opens not_ok)
      next => cases moved
  | nextFailed i =>
    simp only [step] at moved
    split at moved
    next => cases moved
    next c at_i =>
      split at moved
      next =>
        cases moved
        have turned := h.turned c (List.mem_of_getElem? at_i)
        exact allTurned_setCircuit h (turned_response turned opens (by simp))
      next => cases moved
  | serverResponse i t key time response =>
    simp only [step] at moved
    split at moved
    next => cases moved
    next c at_i =>
      split at moved
      next request pending =>
        exact absurd pending ((h.turned c (List.mem_of_getElem? at_i)).noServer request)
      next => cases moved

theorem allTurned_init (workers handlers : ℕ) (circuitIds : List CStr) :
    AllTurned (init workers handlers circuitIds) where
  moving := Proxy.moving_init workers handlers
  addressed w member := by simp [init, Proxy.init] at member
  turned c member := by
    obtain ⟨id, _, rfl⟩ := List.mem_map.mp member
    exact ⟨⟨rfl, fun request pending => by cases pending⟩, fun key pending => by cases pending⟩

def Dispatched (id : CStr) (cntRequestsOut time : ℕ) : Prop :=
  djbHandleApi (daemonPath (nextUrl id cntRequestsOut time)) = .pull ∨
    djbHandleApi (daemonPath (nextUrl id cntRequestsOut time)) = .push

theorem pushReply_not_request (opens : CStr → Bool) (text : String) (r : Request) :
    jbResponse2request opens (respond (Proxy.pushReply text)) ≠ .ok r := by
  have no_header (name : CStr) :
      (respond (Proxy.pushReply text)).getResponseHeader name = none := rfl
  unfold jbResponse2request
  simp only [no_header]
  rw [if_pos ⟨by simp, by simp⟩]
  intro translated
  cases translated

/-- In no run of plugin and daemon does a circuit get a request to serve: its questions
reach no handler, and neither do the preferences. -/
theorem circuits_never_served (opens : CStr → Bool) (workers handlers : ℕ)
    (circuitIds : List CStr) (es : List Event) :
    (∀ id cntRequestsOut time, ¬Dispatched id cntRequestsOut time) ∧
      djbHandleApi (daemonPath jbPreferencesUrl) ≠ .prfSet ∧
      (∀ text r, jbResponse2request opens (respond (Proxy.pushReply text)) ≠ .ok r) ∧
      (machine opens).Always (fun s => ∀ c ∈ s.circuits, Unserved c)
        (init workers handlers circuitIds) es := by
  refine ⟨fun id cntRequestsOut time => ?_, ?_, pushReply_not_request opens, ?_⟩
  · simp [Dispatched, djbHandleApi_nextUrl]
  · simp [djbHandleApi_preferencesUrl]
  · have turned := (machine opens).always_of_step (fun s e s' h => allTurned_step h)
      (allTurned_init workers handlers circuitIds) es
    exact turned.imp _ fun s h c member => (h.turned c member).toUnserved

theorem question_not_dispatched :
    ¬∀ (id : CStr) (cntRequestsOut time : ℕ), Dispatched id cntRequestsOut time := by
  intro all
  have dispatched := all "1".toList 0 1350000000000
  revert dispatched
  unfold Dispatched
  decide

end Jumpbox.Plugin
