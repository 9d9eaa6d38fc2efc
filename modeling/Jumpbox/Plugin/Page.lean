import Jumpbox.Plugin.Circuit
import Jumpbox.Library.Machine

/-! The page a circuit lives in (`circuit.js`): the requests it has sent, the restart
timers it has set, and the handlers that run when one of them is through. Nothing
here keeps a page to one of them; that it has exactly one is a matter of its runs. -/

namespace Jumpbox.Plugin

/-- An `XMLHttpRequest` that was sent and is not complete, under its handler's name. -/
inductive Xhr
  | jbNext (request : Request)
  | ssPush (request : Request)

structure Page where
  circuitId : CStr
  cntRequestsIn : ℕ := 0
  cntRequestsOut : ℕ := 0
  cntRestarts : ℕ := 0
  xhrs : List Xhr := []
  /-- The milliseconds that each timer still running was set to. -/
  timers : List ℕ := []

namespace Page

def send (p : Page) (xhr : Xhr) : Page := { p with xhrs := p.xhrs ++ [xhr] }

def addRequestIn (p : Page) : Page := { p with cntRequestsIn := p.cntRequestsIn + 1 }

def addRequestOut (p : Page) : Page := { p with cntRequestsOut := p.cntRequestsOut + 1 }

def restart (p : Page) : Page :=
  let cntRestarts := p.cntRestarts + 1
  { p with cntRestarts, timers := p.timers ++ [2000 + cntRestarts % 10 * 1000] }

def jbNext (p : Page) (time : ℕ) : Page :=
  (p.send (.jbNext {
    method := "POST".toList
    url := nextUrl p.circuitId p.cntRequestsOut time })).addRequestOut

def handleJbNextResponse (p : Page) (opens : CStr → Bool) (response : Response) : Page :=
  if response.status = 200 then
    match jbResponse2request opens response with
    | .ok request => (p.send (.ssPush request)).addRequestIn
    | .error _ => p
  else if response.status = 0 then p.restart
  else p

def handleSsPushResponse (p : Page) (request : Request) (response : Response) (time : ℕ) : Page :=
  match ssResponse2request response request.djbSeqno p.circuitId p.cntRequestsOut time with
  | .ok next => (p.send (.jbNext next)).addRequestOut
  | .error _ => p

def pending (p : Page) : ℕ := p.xhrs.length + p.timers.length

inductive Event
  | timeout (i time : ℕ)
  /-- Request `i` changes its `readyState`; at 4 it is complete. -/
  | readyStateChange (i readyState : ℕ) (response : Response) (time : ℕ)

def step (opens : CStr → Bool) (p : Page) : Event → Option Page
  | .timeout i time =>
    if i < p.timers.length then some (jbNext { p with timers := p.timers.eraseIdx i } time)
    else none
  | .readyStateChange i readyState response time =>
    match p.xhrs[i]? with
    | none => none
    | some xhr =>
      if readyState ≠ 4 then some p
      else
        let p := { p with xhrs := p.xhrs.eraseIdx i }
        match xhr with
        | .jbNext _ => some (p.handleJbNextResponse opens response)
        | .ssPush request => some (p.handleSsPushResponse request response time)

def machine (opens : CStr → Bool) : Machine Page Event := ⟨step opens⟩

def init (circuitId : CStr) (time : ℕ) : Page := jbNext { circuitId } time

end Page

/-- The daemon's answer is a request that the circuit can make. -/
def Response.servable (opens : CStr → Bool) (response : Response) : Bool :=
  (response.getResponseHeader "DJB-URI".toList).any opens &&
  (response.getResponseHeader "DJB-Method".toList = some "GET".toList ||
    (response.getResponseHeader "DJB-Method".toList = some "POST".toList &&
      (response.getResponseHeader "Content-Type".toList).isSome))

/-- The outcome of a request to the server is one that the circuit can report. -/
def Response.reportable (response : Response) : Bool :=
  response.response.isSome ||
    (response.getResponseHeader "Content-Type".toList).any responseIsImage

theorem jbResponse2request_isOk (opens : CStr → Bool) (response : Response) :
    (jbResponse2request opens response).isOk = response.servable opens := by
  have get_ne_post : some "GET".toList ≠ some "POST".toList := by decide
  simp only [jbResponse2request, Response.servable]
  generalize response.getResponseHeader "DJB-Method".toList = djbMethod
  generalize response.getResponseHeader "DJB-URI".toList = djbUri
  by_cases bad : djbMethod ≠ some "GET".toList ∧ djbMethod ≠ some "POST".toList
  · rw [if_pos bad, decide_eq_false bad.1, decide_eq_false bad.2]
    exact (Bool.and_false _).symm
  rw [if_neg bad]
  cases djbUri with
  | none => rfl
  | some url =>
    dsimp only
    by_cases refused : opens url = false
    · rw [if_pos refused, Option.any_some, refused]
      rfl
    have opened : opens url = true := by simpa using refused
    rw [if_neg refused, Option.any_some, opened, Bool.true_and]
    by_cases post : djbMethod = some "POST".toList
    · have not_get : djbMethod ≠ some "GET".toList := fun get => get_ne_post (get.symm.trans post)
      rw [if_pos post, decide_eq_false not_get, decide_eq_true post]
      cases response.getResponseHeader "Content-Type".toList <;> rfl
    · have get : djbMethod = some "GET".toList := by
        by_contra not_get
        exact bad ⟨not_get, post⟩
      rw [if_neg post, decide_eq_true get]
      rfl

theorem ssResponse2request_isOk (response : Response) (djbSeqno : Option CStr) (circuitId : CStr)
    (cntRequestsOut time : ℕ) :
    (ssResponse2request response djbSeqno circuitId cntRequestsOut time).isOk =
      response.reportable := by
  simp only [ssResponse2request, Response.reportable]
  generalize response.getResponseHeader "Content-Type".toList = contentType
  cases image : contentType.any responseIsImage with
  | true =>
    rw [if_pos rfl, Bool.or_true]
    rfl
  | false =>
    rw [if_neg Bool.false_ne_true, Bool.or_false]
    cases response.response <;> rfl

namespace Page

@[simp] theorem pending_send (p : Page) (xhr : Xhr) : (p.send xhr).pending = p.pending + 1 := by
  simp only [pending, send, List.length_append, List.length_singleton]
  omega

@[simp] theorem pending_restart (p : Page) : p.restart.pending = p.pending + 1 := by
  simp only [pending, restart, List.length_append, List.length_singleton]
  omega

@[simp] theorem pending_addRequestIn (p : Page) : p.addRequestIn.pending = p.pending := rfl

@[simp] theorem pending_addRequestOut (p : Page) : p.addRequestOut.pending = p.pending := rfl

@[simp] theorem pending_jbNext (p : Page) (time : ℕ) : (p.jbNext time).pending = p.pending + 1 := by
  simp only [jbNext, pending_addRequestOut, pending_send]

theorem pending_handleJbNextResponse (p : Page) (opens : CStr → Bool) (response : Response) :
    (p.handleJbNextResponse opens response).pending = p.pending +
      if response.status = 0 ∨ response.status = 200 ∧ response.servable opens then 1 else 0 := by
  have translated := jbResponse2request_isOk opens response
  unfold handleJbNextResponse
  by_cases okay : response.status = 200
  · cases made : jbResponse2request opens response with
    | ok request =>
      rw [made] at translated
      have servable : response.servable opens = true := translated.symm
      simp [okay, servable]
    | error _ =>
      rw [made] at translated
      have unservable : response.servable opens = false := translated.symm
      simp [okay, unservable]
  · by_cases failed : response.status = 0
    · simp [failed]
    · simp [okay, failed]

theorem pending_handleSsPushResponse (p : Page) (request : Request) (response : Response)
    (time : ℕ) :
    (p.handleSsPushResponse request response time).pending =
      p.pending + if response.reportable then 1 else 0 := by
  have translated := ssResponse2request_isOk response request.djbSeqno p.circuitId
    p.cntRequestsOut time
  unfold handleSsPushResponse
  cases made : ssResponse2request response request.djbSeqno p.circuitId p.cntRequestsOut time with
  | ok next =>
    rw [made] at translated
    have reportable : response.reportable = true := translated.symm
    simp [reportable]
  | error _ =>
    rw [made] at translated
    have unreportable : response.reportable = false := translated.symm
    simp [unreportable]

theorem pending_eraseXhr {p : Page} {i : ℕ} {xhr : Xhr} (sent : p.xhrs[i]? = some xhr) :
    pending { p with xhrs := p.xhrs.eraseIdx i } + 1 = p.pending := by
  have below : i < p.xhrs.length := (List.getElem?_eq_some_iff.mp sent).1
  simp only [pending, List.length_eraseIdx, below, if_true]
  omega

theorem pending_eraseTimer {p : Page} {i : ℕ} (below : i < p.timers.length) :
    pending { p with timers := p.timers.eraseIdx i } + 1 = p.pending := by
  simp only [pending, List.length_eraseIdx, below, if_true]
  omega

/-- The handler that runs in this step finds something to go on with. -/
def CarriesOn (opens : CStr → Bool) (p : Page) : Event → Prop
  | .timeout _ _ => True
  | .readyStateChange i readyState response _ =>
    readyState = 4 →
      match p.xhrs[i]? with
      | some (.jbNext _) => response.status = 0 ∨ response.status = 200 ∧ response.servable opens
      | some (.ssPush _) => response.reportable
      | none => True

theorem pending_step {opens : CStr → Bool} {p p' : Page} {e : Event}
    (st : step opens p e = some p') :
    CarriesOn opens p e ∧ p'.pending = p.pending ∨
      ¬CarriesOn opens p e ∧ p'.pending + 1 = p.pending := by
  cases e with
  | timeout i time =>
    by_cases below : i < p.timers.length
    · simp only [step, below, ↓reduceIte, Option.some.injEq] at st
      have erased := pending_eraseTimer below
      rw [← st, pending_jbNext]
      exact .inl ⟨trivial, erased⟩
    · simp [step, below] at st
  | readyStateChange i readyState response time =>
    cases sent : p.xhrs[i]? with
    | none => simp [step, sent] at st
    | some xhr =>
      have erased := pending_eraseXhr sent
      simp only [step, sent] at st
      split at st
      case isTrue loading =>
        obtain rfl := Option.some.inj st
        exact .inl ⟨fun complete => absurd complete loading, rfl⟩
      case isFalse complete =>
        have complete : readyState = 4 := not_not.mp complete
        cases xhr with
        | jbNext request =>
          obtain rfl := Option.some.inj st
          rw [pending_handleJbNextResponse]
          simp only [CarriesOn, sent, complete, forall_const]
          split
          case isTrue on => exact .inl ⟨on, erased⟩
          case isFalse off => exact .inr ⟨off, erased⟩
        | ssPush request =>
          obtain rfl := Option.some.inj st
          rw [pending_handleSsPushResponse]
          simp only [CarriesOn, sent, complete, forall_const]
          split
          case isTrue on => exact .inl ⟨on, erased⟩
          case isFalse off => exact .inr ⟨off, erased⟩

theorem pending_init (circuitId : CStr) (time : ℕ) : (init circuitId time).pending = 1 :=
  pending_jbNext { circuitId } time

theorem pending_le_one (opens : CStr → Bool) (circuitId : CStr) (time : ℕ) {es : List Event}
    {p : Page} (run : (machine opens).exec (init circuitId time) es = some p) : p.pending ≤ 1 := by
  refine (machine opens).invariant (I := fun p => p.pending ≤ 1) ?_
    (pending_init circuitId time).le run
  intro p e p' one st
  rcases pending_step st with ⟨_, same⟩ | ⟨_, fewer⟩ <;> omega

/-- A circuit lives as long as its handlers find something to go on with. -/
theorem pending_iff_carriesOn (opens : CStr → Bool) (circuitId : CStr) (time : ℕ)
    {es : List Event} {p : Page}
    (run : (machine opens).exec (init circuitId time) es = some p) :
    (machine opens).Always (fun p => p.pending = 1) (init circuitId time) es ↔
      (machine opens).Meets (CarriesOn opens) (init circuitId time) es := by
  refine (machine opens).always_iff_meets (fun p one => one) ?_ ?_ (pending_init circuitId time) run
  · intro p e p' one carries_on st
    rcases pending_step st with ⟨_, same⟩ | ⟨stops, _⟩
    · rw [same, one]
    · exact absurd carries_on stops
  · intro p e p' one stops st
    rcases pending_step st with ⟨carries_on, _⟩ | ⟨_, fewer⟩
    · exact absurd carries_on stops
    · omega

theorem pending_iff_carriesOn_restart :
    (machine fun _ => true).Always (fun p => p.pending = 1) (init "0".toList 0)
      [.readyStateChange 0 4 { status := 0 } 0, .timeout 0 3000] :=
  (pending_iff_carriesOn (fun _ => true) "0".toList 0 (by rfl)).mpr
    ⟨fun _ => .inl rfl, fun _ _ => ⟨trivial, fun _ _ => trivial⟩⟩

def networkFailure : List Event :=
  [.readyStateChange 0 4 {
      status := 200
      headers := [("DJB-URI".toList, "http://server/".toList), ("DJB-Method".toList, "GET".toList),
        ("DJB-SeqNo".toList, "000000001000000001".toList)] } 0,
    .readyStateChange 0 4 { status := 0 } 0]

theorem circuit_dies_of_networkFailure :
    ¬∀ (opens : CStr → Bool) (circuitId : CStr) (time : ℕ) (es : List Event) (p : Page),
      (machine opens).exec (init circuitId time) es = some p →
      (machine opens).Always (fun p => p.pending = 1) (init circuitId time) es := by
  intro lives
  have always := lives (fun _ => true) "0".toList 0 networkFailure _ rfl
  have one := always.finish _ rfl
  exact absurd one (by decide)

structure Shows (p : Page) (c : Circuit) : Prop where
  id : p.circuitId = c.id
  cntRequestsIn : p.cntRequestsIn = c.cntRequestsIn
  cntRequestsOut : p.cntRequestsOut = c.cntRequestsOut
  cntRestarts : p.cntRestarts = c.cntRestarts
  waits : match c.pending with
    | .restart => p.xhrs = [] ∧ p.timers.length = 1
    | .next _ => (∃ request, p.xhrs = [.jbNext request]) ∧ p.timers = []
    | .server request => p.xhrs = [.ssPush request] ∧ p.timers = []
    | .nothing => p.xhrs = [] ∧ p.timers = []

theorem shows_handleJbNextResponse {p : Page} {c : Circuit} {key : Key} (h : p.Shows c)
    (asked : c.pending = .next key) (opens : CStr → Bool) (response : Response) :
    (handleJbNextResponse { p with xhrs := [] } opens response).Shows
      (c.handleJbNextResponse opens response) := by
  have waits := h.waits
  simp only [asked] at waits
  have no_timer : p.timers = [] := waits.2
  unfold handleJbNextResponse Circuit.handleJbNextResponse
  split
  · cases jbResponse2request opens response with
    | ok request =>
      exact ⟨h.id, congrArg (· + 1) h.cntRequestsIn, h.cntRequestsOut, h.cntRestarts, rfl, no_timer⟩
    | error _ => exact ⟨h.id, h.cntRequestsIn, h.cntRequestsOut, h.cntRestarts, rfl, no_timer⟩
  · split
    · refine ⟨h.id, h.cntRequestsIn, h.cntRequestsOut, congrArg (· + 1) h.cntRestarts, rfl, ?_⟩
      simp [restart, no_timer]
    · exact ⟨h.id, h.cntRequestsIn, h.cntRequestsOut, h.cntRestarts, rfl, no_timer⟩

theorem shows_handleSsPushResponse {p : Page} {c : Circuit} {request : Request} (h : p.Shows c)
    (making : c.pending = .server request) (response : Response) (time : ℕ) (key : Key) :
    (handleSsPushResponse { p with xhrs := [] } request response time).Shows
      (if response.reportable then c.asked key else { c with pending := .nothing }) := by
  have waits := h.waits
  simp only [making] at waits
  have no_timer : p.timers = [] := waits.2
  have translated := ssResponse2request_isOk response request.djbSeqno p.circuitId
    p.cntRequestsOut time
  rw [← translated]
  unfold handleSsPushResponse
  cases ssResponse2request response request.djbSeqno p.circuitId p.cntRequestsOut time with
  | ok next =>
    exact ⟨h.id, h.cntRequestsIn, congrArg (· + 1) h.cntRequestsOut, h.cntRestarts, ⟨next, rfl⟩,
      no_timer⟩
  | error _ => exact ⟨h.id, h.cntRequestsIn, h.cntRequestsOut, h.cntRestarts, rfl, no_timer⟩

end Page

end Jumpbox.Plugin
