import Jumpbox.Proxy.State
import Jumpbox.Library.Fifo
import Jumpbox.Library.Machine

/-! The functions of `djb.c` that move requests, cut at their list operations.
Each list operation is one atomic step, as is the code between two of them
that only touches what the thread holds. -/

namespace Jumpbox.Proxy

open State

/-- `djb_find_req`: the first entry of the list with this id and number. -/
def djbFindReq (s : State) (lst : List Ptr) (key : Key) : Option (Ptr × List Ptr) :=
  Fifo.takeFirst (fun p => (s.mem p).hcl.key == key) lst

/-- `djb_find_req_dh`: the request a push is for, or the error it is answered with. -/
def djbFindReqDh (s : State) (lst : List Ptr) (dh : DjbHeaders) :
    Except (List Out) (Ptr × List Ptr) :=
  if dh.httpcode = [] then .error (djbError 504 "Missing DJB-HTTPCode".toList)
  else if dh.httptext = [] then .error (djbError 504 "Missing DJB-HTTPText".toList)
  else match scanSeqNo dh.seqno with
    | none => .error (djbError 504 "Missing or malformed DJB-SeqNo".toList)
    | some key => match djbFindReq s lst key with
      | none => .error (djbError 404 "No such request outstanding".toList)
      | some found => .ok found

def djbFindPhcl (s : State) (lst : List Ptr) (id : UInt64) : Option (Ptr × List Ptr) :=
  Fifo.takeFirst (fun p => (s.mem p).phclId == id) lst

def djbProxyAdd (s : State) (hcl : HttpsrvClient) : State :=
  { s with
    mem := Function.update s.mem s.next { hcl }
    next := s.next + 1
    lstProxyNew := s.lstProxyNew ++ [s.next]
    hist := { s.hist with accepted := s.hist.accepted ++ [s.next] } }

def djbPullPost (s : State) (hcl : HttpsrvClient) : State :=
  { s with
    mem := Function.update s.mem s.next { hcl }
    next := s.next + 1
    lstApiPull := s.lstApiPull ++ [s.next]
    hist := { s.hist with pulls := s.hist.pulls ++ [s.next] } }

/-- `djb_handle_proxy`: the exit hostname is fetched once, ever. -/
def djbHandleProxy (s : State) (hcl : HttpsrvClient) (exit : Option CStr) :
    State × HttpsrvClient :=
  let s := if s.gotHostname then s else { s with gotHostname := true, lExitHostname := exit }
  match s.lExitHostname with
  | some hostname => (s, { hcl with hostname })
  | none => (s, hcl)

/-- What `djb_push` sends to the client whose request a push answers. -/
def pushAnswer (hcl : HttpsrvClient) : List Out :=
  .answer (atoi hcl.user.httpcode) hcl.user.httptext none ::
    (if hcl.user.setcookie = [] then [] else [.header "Set-Cookie".toList hcl.user.setcookie]) ++
    [.headers hcl.theHeaders] ++ (if hcl.contentLength = 0 then [.done] else [])

def pushReply (text : String) : List Out := [httpOk (some .html), .put text.toList, .done]

/-- What `djb_handle_forward` sends to the puller before it pairs the request. -/
def forwardHeaders (hcl : HttpsrvClient) : List Out :=
  [httpOk (if hcl.method = .post then none else some .html),
    .header "DJB-URI".toList ("http://".toList ++ hcl.hostname ++ hcl.rawuri),
    .header "DJB-Method".toList (httpsrvMethodname hcl.method),
    .header "DJB-SeqNo".toList (printSeqNo hcl.key)] ++
  (if hcl.user.cookie = [] then [] else [.header "DJB-Cookie".toList hcl.user.cookie]) ++
  (if hcl.method = .post then
    [.header "Content-Type".toList
      (if hcl.contentType = [] then "text/html".toList else hcl.contentType)]
  else [.put "Non-POST JumpBox response\r\n".toList])

def forwardsBody (hcl : HttpsrvClient) : Bool := hcl.method = .post && hcl.contentLength ≠ 0

def djbBodyfwdDone (hcl : HttpsrvClient) : List Out :=
  if strncaseEq hcl.uri "/push/".toList 6 then
    [httpOk (some .html), .put "Push Body Forward successful\r\n".toList]
  else []

/-- `djb_worker_thread` with `djb_handle_forward`. -/
def djbWorkerThread (s : State) (t : ℕ) : Option State :=
  match s.workers[t]? with
  | none => none
  | some .getNew =>
    match s.lstProxyNew with
    | [] => none
    | pr :: rest => some ({ s with lstProxyNew := rest }.setWorker t (.getPull pr))
  | some (.getPull pr) =>
    match s.lstApiPull with
    | [] => none
    | ar :: rest => some ({ s with lstApiPull := rest }.setWorker t (.forward pr ar))
  | some (.forward pr ar) =>
    let puller := (s.mem ar).hcl
    if s.connIsValid puller then
      let s := s.writes (.request pr ar) puller.key (forwardHeaders (s.mem pr).hcl)
      some ({ s with
        mem := Function.update s.mem pr { s.mem pr with phclId := puller.id }
        hist := { s.hist with handed := s.hist.handed ++ [(pr, ar)] } }.setWorker t (.enlist pr ar))
    else
      -- `fassert(false)` falls through: `pr` goes nowhere
      let s := s.replies puller [.done]
      some ({ s with
        hist := { s.hist with
          dropped := s.hist.dropped ++ [pr], refused := s.hist.refused ++ [ar] } }.setWorker t
            (.release ar))
  | some (.enlist pr ar) =>
    some ({ s with lstProxyOut := s.lstProxyOut ++ [pr] }.setWorker t (.handOver pr ar))
  | some (.handOver pr ar) =>
    if forwardsBody (s.mem pr).hcl then
      some ((s.httpsrvForward (.request pr ar) (s.mem pr).hcl (s.mem ar).hcl).setWorker t
        (.release ar))
    else
      let s := s.writes (.request pr ar) (s.mem ar).hcl.key [.done, .handlingDone]
      some (s.setWorker t (.release ar))
  | some (.release ar) =>
    some ({ s with
      freed := s.freed ++ [ar]
      hist := { s.hist with released := s.hist.released ++ [ar] } }.setWorker t .getNew)

/-- `djb_push`, once it holds the request and has no callback to run. -/
def djbPushAnswer (s : State) (t : ℕ) (hcl : HttpsrvClient) (pr : Ptr) : State :=
  let client := (s.mem pr).hcl
  let s := { s with hist := { s.hist with completed := s.hist.completed ++ [(pr, hcl)] } }
  if s.connIsValid client then
    let s := (s.writes (.answer hcl) client.key (pushAnswer hcl))
    let s := { s with freed := s.freed ++ [pr] }
    if hcl.contentLength = 0 then
      (s.replies hcl (pushReply "Push Forward successful\r\n")).setHandler t .idle
    else
      (s.httpsrvForward (.answer hcl) hcl client).setHandler t .idle
  else
    -- `pr` is not freed on this path
    (s.replies hcl (pushReply "Remote closed connection\r\n")).setHandler t .idle

/-- `djb_push` and `djb_close`, outside the callback. -/
def djbHandler (s : State) (t : ℕ) : Option State :=
  match s.handlers[t]? with
  | some (.find hcl) =>
    match djbFindReqDh s s.lstProxyOut hcl.user with
    | .error outs => some ((s.replies hcl (outs ++ [.done])).setHandler t .idle)
    | .ok (pr, rest) => some ({ s with lstProxyOut := rest }.setHandler t (.found hcl pr))
  | some (.found hcl pr) =>
    if (s.mem pr).hcl.user.push.isSome then some (s.setHandler t (.callback hcl pr))
    else some (djbPushAnswer s t hcl pr)
  | some (.putBack hcl pr) =>
    some ({ s with
      lstProxyOut := s.lstProxyOut ++ [pr], reading := s.reading ++ [hcl] }.setHandler t .idle)
  | some (.closeFind id) =>
    match djbFindPhcl s s.lstProxyOut id with
    | none => some (s.setHandler t .idle)
    | some (pr, rest) => some ({ s with lstProxyOut := rest }.setHandler t (.closeAdd id pr))
  | some (.closeAdd _ pr) =>
    some ({ s with lstProxyNew := s.lstProxyNew ++ [pr] }.setHandler t .idle)
  | _ => none

/-- `djb_push`, when `pdh->push` returns. -/
def djbCallback (s : State) (t : ℕ) (done : Bool) : Option State :=
  match s.handlers[t]? with
  | some (.callback hcl pr) =>
    if done then
      let s := s.replies hcl (pushReply "Internal Push Proxy successful\r\n")
      some ({ s with
        freed := s.freed ++ [pr]
        hist := { s.hist with completed := s.hist.completed ++ [(pr, hcl)] } }.setHandler t .idle)
    else some (s.setHandler t (.putBack hcl pr))
  | _ => none

/-- `djb_handle` and the handler it reaches. A request is new: libfutil numbers
the requests of a connection. Requests to other modules pass by. -/
def djbRequest (s : State) (t : ℕ) (hcl : HttpsrvClient) (exit : Option CStr) : Option State :=
  if hcl.key ∉ s.seen ∧ hcl.user.push = none ∧ hcl.readbody = false then
    let s := { s with seen := s.seen ++ [hcl.key] }
    match djbHandle hcl with
    | .proxy =>
      let (s, hcl) := djbHandleProxy s hcl exit
      some (djbProxyAdd s hcl)
    | .pull => some (djbPullPost s hcl)
    | .push => if s.handlers[t]? = some .idle then some (s.setHandler t (.find hcl)) else none
    | .error msg => some (s.replies hcl (djbError 404 msg))
    | _ => some s
  else none

/-- libfutil's side of `httpsrv_forward`: the bytes of `src` not yet read go to
`dst`, in order, each once; the last one is followed by the `bodyfwd_done` hook. -/
def httpsrvMove (s : State) (i n : ℕ) : Option State :=
  match s.forwards[i]? with
  | none => none
  | some f =>
    let read := s.consumed f.src.key
    if 0 < n ∧ read + n ≤ f.src.contentLength then
      let s := s.writes f.cause f.dst.key [.body ((f.src.body.drop read).take n)]
      some { s with consumed := Function.update s.consumed f.src.key (read + n) }
    else none

def httpsrvFinish (s : State) (i : ℕ) : Option State :=
  match s.forwards[i]? with
  | none => none
  | some f =>
    if s.consumed f.src.key = f.src.contentLength then
      let s := s.replies f.src (djbBodyfwdDone f.src)
      some { s with forwards := s.forwards.eraseIdx i }
    else none

def httpsrvAbort (s : State) (i : ℕ) : Option State :=
  match s.forwards[i]? with
  | none => none
  | some f =>
    if f.dst.id ∈ s.shut then some { s with forwards := s.forwards.eraseIdx i } else none

def step (s : State) : Event → Option State
  | .request t hcl exit => djbRequest s t hcl exit
  | .internal hcl =>
    if hcl.key ∉ s.seen ∧ hcl.user.push.isSome ∧ hcl.method = .get ∧ hcl.body = [] then
      some (djbProxyAdd { s with seen := s.seen ++ [hcl.key] } hcl)
    else none
  | .worker t => djbWorkerThread s t
  | .handler t => djbHandler s t
  | .callback t done => djbCallback s t done
  | .again t hcl =>
    if s.handlers[t]? = some .idle ∧ hcl ∈ s.reading then
      some ({ s with reading := s.reading.erase hcl }.setHandler t
        (.find { hcl with readbody := true }))
    else none
  | .disconnect id => some { s with shut := id :: s.shut }
  | .close t id =>
    if s.handlers[t]? = some .idle ∧ id ∈ s.shut ∧ id ∉ s.hist.closed then
      some ({ s with hist := { s.hist with closed := s.hist.closed ++ [id] } }.setHandler t
        (.closeFind id))
    else none
  | .move i n => httpsrvMove s i n
  | .finish i => httpsrvFinish s i
  | .abort i => httpsrvAbort s i

def machine : Machine State Event := ⟨step⟩

/-- The requests of a client and the pull of a circuit, as they come in. -/
def clientGet : HttpsrvClient where
  id := 1
  reqid := 1
  hostname := "192.0.2.7".toList
  uri := "/".toList
  rawuri := "/".toList

def clientPost : HttpsrvClient := { clientGet with method := .post, body := [1, 2, 3] }

def circuitPull : HttpsrvClient where
  id := 2
  reqid := 1
  hostname := "127.0.0.1:6543".toList
  uri := "/pull/".toList

def handOverRun : List Event :=
  [.request 0 clientGet none, .request 0 circuitPull none, .worker 0, .worker 0, .worker 0,
    .worker 0, .worker 0, .worker 0]

def circuitPush : HttpsrvClient where
  id := 2
  reqid := 2
  hostname := "127.0.0.1:6543".toList
  uri := "/push/".toList
  user := {
    httpcode := "200".toList, httptext := "OK".toList, seqno := "000000001000000001".toList }

def servedRun : List Event :=
  handOverRun ++ [.request 0 circuitPush none, .handler 0, .handler 0]

example : (machine.exec (init 1 1) servedRun).map (fun s => s.writesTo (1, 1)) =
    some [.answer 200 "OK".toList none, .headers [], .done] := by decide

end Jumpbox.Proxy
