import Jumpbox.Plugin.Composition
import Jumpbox.Plugin.Page
import Jumpbox.Proxy.Pulled

/-! A request through a circuit: what the daemon hands out, the request the circuit
makes of it, and the push that reports the outcome, back at `djb_find_req_dh`. -/

namespace Jumpbox.Plugin

open Proxy (Ptr keyOf djbFindReqDh forwardHeaders Pulled Moving trails)

/-- The header callback `djb_header`: `field` is what `misc_map` leaves of a value in a
buffer of the given size. -/
def djbHeader (field : ℕ → CStr → CStr) (hcl : HttpsrvClient) : HttpsrvClient :=
  { hcl with
    user := { hcl.user with
      httpcode := field 64 hcl.user.httpcode
      httptext := field (256 - 64 - 32) hcl.user.httptext
      seqno := field 32 hcl.user.seqno
      setcookie := field 8192 hcl.user.setcookie
      cookie := field 8192 hcl.user.cookie } }

/-- A value that fits is stored whole, of another one at most the front. -/
structure MiscMap (field : ℕ → CStr → CStr) : Prop where
  whole : ∀ size text, text.length < size → field size text = text
  front : ∀ size text, field size text <+: text

theorem hears_trails {out : Out} (trailing : trails out = true) (r : Response) :
    (r.hears out).status = r.status ∧ (r.hears out).headers = r.headers := by
  cases out with
  | body | done | handlingDone => exact ⟨rfl, rfl⟩
  | _ => cases trailing

theorem respond_append (front : List Out) {rest : List Out} (trailing : ∀ out ∈ rest, trails out) :
    (respond (front ++ rest)).status = (respond front).status ∧
      (respond (front ++ rest)).headers = (respond front).headers := by
  induction rest using List.reverseRecOn with
  | nil => simp
  | append_singleton rest out ih =>
    obtain ⟨status, headers⟩ := ih fun earlier member => trailing earlier (by simp [member])
    have last := hears_trails (trailing out (by simp)) (respond (front ++ rest))
    rw [respond, ← List.append_assoc, List.foldl_append]
    exact ⟨last.1.trans status, last.2.trans headers⟩

theorem getResponseHeader_of_single {r : Response} {name value : CStr}
    (single : (r.headers.filter fun header => strcaseEq header.1 name) = [(name, value)]) :
    r.getResponseHeader name = some value := by
  rw [Response.getResponseHeader, single]
  simp

def handedHeaders (hcl : HttpsrvClient) : List (CStr × CStr) :=
  [("DJB-URI".toList, "http://".toList ++ hcl.hostname ++ hcl.rawuri),
    ("DJB-Method".toList, httpsrvMethodname hcl.method),
    ("DJB-SeqNo".toList, printSeqNo hcl.key)] ++
  (if hcl.user.cookie = [] then [] else [("DJB-Cookie".toList, hcl.user.cookie)]) ++
  (if hcl.method = .post then
    [("Content-Type".toList, if hcl.contentType = [] then "text/html".toList else hcl.contentType)]
  else [])

theorem respond_forwardHeaders (hcl : HttpsrvClient) :
    (respond (forwardHeaders hcl)).status = 200 ∧
      (respond (forwardHeaders hcl)).headers = handedHeaders hcl := by
  unfold forwardHeaders handedHeaders
  split <;> split <;> exact ⟨rfl, rfl⟩

section

variable {r : Response} {hcl : HttpsrvClient} (heard : r.headers = handedHeaders hcl)

include heard

theorem handed_uri : r.getResponseHeader "DJB-URI".toList =
    some ("http://".toList ++ hcl.hostname ++ hcl.rawuri) := by
  refine getResponseHeader_of_single ?_
  rw [heard, handedHeaders]
  split_ifs <;> rfl

theorem handed_method :
    r.getResponseHeader "DJB-Method".toList = some (httpsrvMethodname hcl.method) := by
  refine getResponseHeader_of_single ?_
  rw [heard, handedHeaders]
  split_ifs <;> rfl

theorem handed_seqNo :
    r.getResponseHeader "DJB-SeqNo".toList = some (printSeqNo hcl.key) := by
  refine getResponseHeader_of_single ?_
  rw [heard, handedHeaders]
  split_ifs <;> rfl

theorem handed_contentType (post : hcl.method = .post) :
    (r.getResponseHeader "Content-Type".toList).isSome := by
  rw [Response.getResponseHeader, heard, handedHeaders, if_pos post]
  split_ifs <;> rfl

end

theorem servable_handed (opens : CStr → Bool) {r : Response} {hcl : HttpsrvClient}
    (heard : r.headers = handedHeaders hcl) (method : hcl.method = .get ∨ hcl.method = .post) :
    r.servable opens = opens ("http://".toList ++ hcl.hostname ++ hcl.rawuri) := by
  rw [Response.servable, handed_uri heard, handed_method heard, Option.any_some]
  rcases method with get | post
  · rw [get]
    exact Bool.and_true _
  · rw [handed_contentType heard post, post]
    exact Bool.and_true _

theorem djbSeqno_of_ok {opens : CStr → Bool} {r : Response} {request : Request}
    (made : jbResponse2request opens r = .ok request) :
    request.djbSeqno = r.getResponseHeader "DJB-SeqNo".toList := by
  simp only [jbResponse2request] at made
  split at made
  · cases made
  split at made
  · cases made
  split at made
  · cases made
  split at made
  · split at made
    · cases made
    · cases made
      rfl
  · cases made
    rfl

/-- The status line a push reports. -/
def reportedCode (outcome : Response) : CStr :=
  if outcome.status = 0 then "555".toList else Nat.toDigits 10 outcome.status

def reportedText (outcome : Response) : CStr :=
  if outcome.status = 0 then "Request not made".toList else outcome.statusText

theorem reportedCode_ne_nil (outcome : Response) : reportedCode outcome ≠ [] := by
  unfold reportedCode
  split
  · decide
  · exact Nat.toDigits_ne_nil

theorem length_reportedCode {outcome : Response} (short : outcome.status < 2 ^ 16) :
    (reportedCode outcome).length < 64 := by
  unfold reportedCode
  split
  · decide
  · have digits : (Nat.toDigits 10 outcome.status).length ≤ 5 :=
      (Nat.length_toDigits_le_iff (by decide) (by decide)).mpr (by omega)
    omega

theorem push_of_ok {outcome : Response} {djbSeqno : Option CStr} {circuitId : CStr}
    {cntRequestsOut time : ℕ} {push : Request}
    (made : ssResponse2request outcome djbSeqno circuitId cntRequestsOut time = .ok push) :
    push.header "DJB-SeqNo".toList = jsString djbSeqno ∧
      push.header "DJB-HTTPCode".toList = reportedCode outcome ∧
      push.header "DJB-HTTPText".toList = reportedText outcome := by
  simp only [ssResponse2request] at made
  unfold reportedCode reportedText
  split at made
  · cases made
  · cases made
    split <;> exact ⟨rfl, rfl, rfl⟩

theorem exists_ok_of_isOk {α : Type*} {made : Except CStr α} (okay : made.isOk = true) :
    ∃ a, made = .ok a := by
  cases made with
  | ok a => exact ⟨a, rfl⟩
  | error _ => cases okay

theorem found_iff {s : Proxy.State} (m : Moving s) {pr : Ptr} (outstanding : pr ∈ s.lstProxyOut)
    (dh : DjbHeaders) :
    (∃ rest, djbFindReqDh s s.lstProxyOut dh = .ok (pr, rest)) ↔
      dh.httpcode ≠ [] ∧ dh.httptext ≠ [] ∧ scanSeqNo dh.seqno = some (keyOf s pr) := by
  constructor
  · rintro ⟨rest, found⟩
    refine ⟨?_, ?_, (Proxy.djbFindReqDh_ok found).1⟩
    · intro missing
      rw [djbFindReqDh, if_pos missing] at found
      cases found
    · intro missing
      rw [djbFindReqDh] at found
      split at found
      · cases found
      · cases found
  · rintro ⟨httpcode, httptext, scanned⟩
    have listed : ∀ p ∈ s.lstProxyOut, p ∈ Proxy.allocated s := fun p member =>
      List.mem_append_left _ (m.booked.accepted_of_held (.inr (.inl member)))
    rw [djbFindReqDh, if_neg httpcode, if_neg httptext, scanned]
    dsimp only
    cases hit : Proxy.djbFindReq s s.lstProxyOut (keyOf s pr) with
    | none =>
      have missed := Fifo.takeFirst_eq_none.mp hit pr outstanding
      simp [keyOf] at missed
    | some found =>
      obtain ⟨p, rest⟩ := found
      have named := Fifo.takeFirst_test hit
      simp only [beq_iff_eq] at named
      have member : p ∈ s.lstProxyOut := (Fifo.takeFirst_perm hit).mem_iff.mpr (by simp)
      obtain rfl := m.keyed.injective (listed p member) (listed pr outstanding) named
      exact ⟨rest, rfl⟩

/-- From its question on, the page makes the request of `answer` and sends a push about
`outcome`: under the number it was given, and found again by `djb_find_req_dh`. -/
def Reported (field : ℕ → CStr → CStr) (opens : CStr → Bool) (s : Proxy.State) (pr : Ptr)
    (page : Page) (answer outcome : Response) (time : ℕ) (key : Key) : Prop :=
  ∃ page' push rest,
    (Page.machine opens).exec page
      [.readyStateChange 0 4 answer time, .readyStateChange 0 4 outcome time] = some page' ∧
    page'.xhrs = [.jbNext push] ∧
    some (push.header "DJB-SeqNo".toList) = answer.getResponseHeader "DJB-SeqNo".toList ∧
    djbFindReqDh s s.lstProxyOut (djbHeader field (arrives key push)).user = .ok (pr, rest)

theorem page_reports {opens : CStr → Bool} {page : Page} {question : Request}
    (asks : page.xhrs = [.jbNext question]) {answer outcome : Response}
    (okay : answer.status = 200) (time : ℕ) (push : Request) :
    (∃ page', (Page.machine opens).exec page
        [.readyStateChange 0 4 answer time, .readyStateChange 0 4 outcome time] = some page' ∧
      page'.xhrs = [.jbNext push]) ↔
    ∃ request, jbResponse2request opens answer = .ok request ∧
      ssResponse2request outcome request.djbSeqno page.circuitId page.cntRequestsOut time =
        .ok push := by
  have first : Page.step opens page (.readyStateChange 0 4 answer time) =
      some (Page.handleJbNextResponse { page with xhrs := [] } opens answer) := by
    simp [Page.step, asks]
  let asked := Page.handleJbNextResponse { page with xhrs := [] } opens answer
  have both : (Page.machine opens).exec page
      [.readyStateChange 0 4 answer time, .readyStateChange 0 4 outcome time] =
      Page.step opens asked (.readyStateChange 0 4 outcome time) := by
    simp only [Machine.exec, Page.machine, first, Option.bind_some]
    exact Option.bind_fun_some _
  rw [both]
  cases made : jbResponse2request opens answer with
  | error _ =>
    have dies : asked = { page with xhrs := [] } := by
      simp [asked, Page.handleJbNextResponse, okay, made]
    simp [dies, Page.step]
  | ok request =>
    have making : asked = Page.addRequestIn { page with xhrs := [.ssPush request] } := by
      simp [asked, Page.handleJbNextResponse, okay, made, Page.send]
    have second : Page.step opens asked (.readyStateChange 0 4 outcome time) =
        some (Page.handleSsPushResponse (Page.addRequestIn { page with xhrs := [] })
          request outcome time) := by
      simp [making, Page.step, Page.addRequestIn]
    rw [second]
    simp only [Page.handleSsPushResponse, Page.addRequestIn]
    cases reported : ssResponse2request outcome request.djbSeqno page.circuitId
      page.cntRequestsOut time <;> simp [reported, Page.send, Page.addRequestOut]

theorem answer_of_handed {s : Proxy.State} (pulled : Pulled s) {pr ar : Ptr}
    (handed : (pr, ar) ∈ s.hist.handed) :
    (respond (s.writesTo (keyOf s ar))).status = 200 ∧
      (respond (s.writesTo (keyOf s ar))).headers = handedHeaders (s.mem pr).hcl := by
  obtain ⟨rest, text, trailing⟩ := pulled.told _ handed
  obtain ⟨status, headers⟩ := respond_forwardHeaders (s.mem pr).hcl
  obtain ⟨same_status, same_headers⟩ := respond_append (forwardHeaders (s.mem pr).hcl) trailing
  dsimp only at text
  rw [text]
  exact ⟨same_status.trans status, same_headers.trans headers⟩

theorem stored_push {field : ℕ → CStr → CStr} (maps : MiscMap field) {outcome : Response}
    (short : outcome.status < 2 ^ 16) {seqNo circuitId : CStr} {cntRequestsOut time : ℕ}
    {push : Request}
    (made : ssResponse2request outcome (some seqNo) circuitId cntRequestsOut time = .ok push)
    (key : Key) :
    (djbHeader field (arrives key push)).user.httpcode ≠ [] ∧
      ((djbHeader field (arrives key push)).user.httptext ≠ [] ↔
        outcome.status = 0 ∨ field (256 - 64 - 32) outcome.statusText ≠ []) ∧
      (djbHeader field (arrives key push)).user.seqno = field 32 seqNo := by
  obtain ⟨seqno, httpcode, httptext⟩ := push_of_ok made
  have code : (djbHeader field (arrives key push)).user.httpcode = reportedCode outcome := by
    simp only [djbHeader, arrives, httpcode]
    exact maps.whole 64 _ (length_reportedCode short)
  have text : (djbHeader field (arrives key push)).user.httptext =
      field (256 - 64 - 32) (reportedText outcome) := by
    simp only [djbHeader, arrives, httptext]
  refine ⟨code ▸ reportedCode_ne_nil outcome, ?_, ?_⟩
  · rw [text, reportedText]
    split
    case isTrue failed =>
      have fits := maps.whole (256 - 64 - 32) "Request not made".toList (by decide)
      rw [fits]
      exact ⟨fun _ => .inl failed, fun _ => by decide⟩
    case isFalse made_it =>
      exact ⟨.inr, fun either => either.resolve_left made_it⟩
  · simp only [djbHeader, arrives, seqno]
    rfl

/-- In every run, whatever request is on its way and whatever becomes of it: the push of
the circuit finds it again exactly if the request could be made, its outcome has a body to
send and a status line to tell, and its numbers have nine digits at most. -/
theorem reported_iff {field : ℕ → CStr → CStr} (maps : MiscMap field) (opens : CStr → Bool)
    (workers handlers : ℕ) (es : List Proxy.Event) (s : Proxy.State)
    (run : Proxy.machine.exec (Proxy.init workers handlers) es = some s) (pr ar : Ptr)
    (handed : (pr, ar) ∈ s.hist.handed) (outstanding : pr ∈ s.lstProxyOut)
    (method : (s.mem pr).hcl.method = .get ∨ (s.mem pr).hcl.method = .post)
    {page : Page} {question : Request} (asks : page.xhrs = [.jbNext question])
    {outcome : Response} (short : outcome.status < 2 ^ 16) (time : ℕ) (key : Key) :
    Reported field opens s pr page (respond (s.writesTo (keyOf s ar))) outcome time key ↔
      opens ("http://".toList ++ (s.mem pr).hcl.hostname ++ (s.mem pr).hcl.rawuri) ∧
      outcome.reportable ∧
      (outcome.status = 0 ∨ field (256 - 64 - 32) outcome.statusText ≠ []) ∧
      (keyOf s pr).1.toNat < 2 ^ 36 ∧ (keyOf s pr).2.toNat < 2 ^ 36 := by
  obtain ⟨m, pulled⟩ := Proxy.pulled_of_exec run
  obtain ⟨okay, heard⟩ := answer_of_handed pulled handed
  generalize respond (s.writesTo (keyOf s ar)) = answer at okay heard
  have servable := servable_handed opens heard method
  have given := handed_seqNo heard
  constructor
  · rintro ⟨page', push, rest, ran, sent, _, found⟩
    obtain ⟨request, made, reported⟩ := (page_reports asks okay time push).mp ⟨page', ran, sent⟩
    have seqno : request.djbSeqno = some (printSeqNo (keyOf s pr)) :=
      (djbSeqno_of_ok made).trans given
    have opened := jbResponse2request_isOk opens answer
    rw [made, servable] at opened
    have reportable := ssResponse2request_isOk outcome request.djbSeqno page.circuitId
      page.cntRequestsOut time
    rw [reported] at reportable
    rw [seqno] at reported
    obtain ⟨_, text, stored⟩ := stored_push maps short reported key
    obtain ⟨_, httptext, scanned⟩ := (found_iff m outstanding _).mp ⟨rest, found⟩
    have front : field 32 (printSeqNo (keyOf s pr)) <+: printSeqNo (keyOf s pr) := maps.front _ _
    rw [stored] at scanned
    exact ⟨opened.symm, reportable.symm, text.mp httptext, lt_of_scanSeqNo_prefix front scanned⟩
  · rintro ⟨opened, reportable, text, first, second⟩
    obtain ⟨request, made⟩ := exists_ok_of_isOk
      (((jbResponse2request_isOk opens answer).trans servable).trans opened)
    have seqno : request.djbSeqno = some (printSeqNo (keyOf s pr)) :=
      (djbSeqno_of_ok made).trans given
    obtain ⟨push, reported⟩ := exists_ok_of_isOk
      ((ssResponse2request_isOk outcome request.djbSeqno page.circuitId page.cntRequestsOut
        time).trans reportable)
    obtain ⟨page', ran, sent⟩ := (page_reports asks okay time push).mpr ⟨request, made, reported⟩
    rw [seqno] at reported
    obtain ⟨httpcode, httptext, stored⟩ := stored_push maps short reported key
    have fits : field 32 (printSeqNo (keyOf s pr)) = printSeqNo (keyOf s pr) := by
      refine maps.whole 32 _ ?_
      rw [length_printSeqNo first second]
      decide
    have scanned := scanSeqNo_printSeqNo first second
    rw [← fits, ← stored] at scanned
    obtain ⟨rest, found⟩ := (found_iff m outstanding _).mpr
      ⟨httpcode, httptext.mpr text, scanned⟩
    refine ⟨page', push, rest, ran, sent, ?_, found⟩
    rw [given, (push_of_ok reported).1]
    rfl

def truncated (size : ℕ) (text : CStr) : CStr := text.take (size - 1)

theorem miscMap_truncated : MiscMap truncated where
  whole size text fits := List.take_of_length_le (by omega)
  front size text := List.take_prefix _ _

def askingPage : Page := Page.init "0".toList 0

theorem handed_in_handOverRun :
    ∃ s, Proxy.machine.exec (Proxy.init 1 1) Proxy.handOverRun = some s ∧
      (0, 1) ∈ s.hist.handed ∧ 0 ∈ s.lstProxyOut ∧ (s.mem 0).hcl = Proxy.clientGet ∧
      s.writesTo (keyOf s 1) = forwardHeaders Proxy.clientGet ++ [.done, .handlingDone] :=
  ⟨_, rfl, by decide, by decide, rfl, by decide⟩

theorem found_in_handOverRun :
    ∃ s, Proxy.machine.exec (Proxy.init 1 1) Proxy.handOverRun = some s ∧
      Reported truncated (fun _ => true) s 0 askingPage (respond (s.writesTo (keyOf s 1)))
        { status := 200, statusText := "OK".toList, response := some [] } 0 (2, 2) := by
  obtain ⟨s, run, handed, outstanding, client, _⟩ := handed_in_handOverRun
  refine ⟨s, run, (reported_iff miscMap_truncated _ 1 1 _ s run 0 1 handed outstanding ?_ rfl
    (by decide) 0 (2, 2)).mpr ?_⟩
  · rw [client]
    exact .inl rfl
  · rw [keyOf, client]
    decide

theorem failure_not_reported :
    ¬∀ (field : ℕ → CStr → CStr) (opens : CStr → Bool) (workers handlers : ℕ)
      (es : List Proxy.Event) (s : Proxy.State) (pr ar : Ptr) (page : Page) (question : Request)
      (outcome : Response) (time : ℕ) (key : Key), MiscMap field →
      Proxy.machine.exec (Proxy.init workers handlers) es = some s →
      (pr, ar) ∈ s.hist.handed → pr ∈ s.lstProxyOut →
      ((s.mem pr).hcl.method = .get ∨ (s.mem pr).hcl.method = .post) →
      page.xhrs = [.jbNext question] → outcome.status < 2 ^ 16 →
      opens ("http://".toList ++ (s.mem pr).hcl.hostname ++ (s.mem pr).hcl.rawuri) →
      Reported field opens s pr page (respond (s.writesTo (keyOf s ar))) outcome time key := by
  intro every
  obtain ⟨s, run, handed, outstanding, client, told⟩ := handed_in_handOverRun
  have reported := every truncated (fun _ => true) 1 1 _ s 0 1 askingPage _ { status := 0 } 0 (2, 2)
    miscMap_truncated run handed outstanding (by rw [client]; exact .inl rfl) rfl (by decide) rfl
  rw [told] at reported
  obtain ⟨page', push, rest, ran, sent, _⟩ := reported
  have none_left : ((Page.machine fun _ => true).exec askingPage
      [.readyStateChange 0 4 (respond (forwardHeaders Proxy.clientGet ++ [.done, .handlingDone])) 0,
        .readyStateChange 0 4 { status := 0 } 0]).map (fun p => p.xhrs.length) = some 0 := by
    decide
  rw [ran, Option.map_some, sent] at none_left
  cases none_left

end Jumpbox.Plugin
