import Jumpbox.Libfutil

/-! A circuit of the browser plugin (`circuit.js`): it asks the daemon for a request,
makes that request to the server, and sends the answer back with its next question.
An exception leaves a circuit with nothing pending, as does a branch of a handler
that sends nothing. -/

namespace Jumpbox.Plugin

/-- What an `XMLHttpRequest` brings back; `response` is null when it failed. -/
structure Response where
  status : ℕ
  statusText : CStr := []
  headers : List (CStr × CStr) := []
  response : Option (List UInt8) := none

/-- What an `XMLHttpRequest` sends, with the `djb_seqno` kept on the object. -/
structure Request where
  method : CStr
  url : CStr
  headers : List (CStr × CStr) := []
  body : Option (List UInt8) := none
  djbSeqno : Option CStr := none

/-- Repeated headers of one name are combined. -/
def Response.getResponseHeader (r : Response) (name : CStr) : Option CStr :=
  match r.headers.filter fun header => strcaseEq header.1 name with
  | [] => none
  | found => some (List.intercalate ", ".toList (found.map Prod.snd))

/-- A value where JavaScript wants a string. -/
def jsString : Option CStr → CStr
  | some text => text
  | none => "null".toList

def jbHost : CStr := "http://127.0.0.1:6543".toList
def jbNextPath : CStr := "/next/".toList
def jbPreferencesPath : CStr := "/preferences/".toList
def jbNextUrl : CStr := jbHost ++ jbNextPath
def jbPreferencesUrl : CStr := jbHost ++ jbPreferencesPath

def responseIsImage (contentType : CStr) : Bool := contentType = "image/jpeg".toList

/-- `new Blob([contents])`; a Blob of null is a Blob of the text `null`. -/
def newBlob (contents : Option (List UInt8)) : List UInt8 :=
  contents.getD ("null".toList.map fun c => UInt8.ofNat c.toNat)

/-- `jb_next_url + circuit_id + '/' + cnt_requests_out + '/' + d.getTime()`. -/
def nextUrl (circuitId : CStr) (cntRequestsOut time : ℕ) : CStr :=
  jbNextUrl ++ circuitId ++ "/".toList ++ Nat.toDigits 10 cntRequestsOut ++ "/".toList ++
    Nat.toDigits 10 time

/-- `Translator.jb_response2request`; `opens` says whether the browser takes a URL. -/
def jbResponse2request (opens : CStr → Bool) (response : Response) : Except CStr Request :=
  let djbUri := response.getResponseHeader "DJB-URI".toList
  let djbMethod := response.getResponseHeader "DJB-Method".toList
  let djbSeqno := response.getResponseHeader "DJB-SeqNo".toList
  if djbMethod ≠ some "GET".toList ∧ djbMethod ≠ some "POST".toList then
    .error ("Bad value of DJB-Method: ".toList ++ jsString djbMethod)
  else match djbUri with
    | none => .error "Bad value of DJB-URI object".toList
    | some url =>
      if opens url = false then .error "SyntaxError".toList else
      let cookie := (response.getResponseHeader "DJB-Cookie".toList).toList.map
        fun value => ("DJB-Cookie".toList, value)
      let headers := ("DJB-Server".toList, "true".toList) :: cookie
      if djbMethod = some "POST".toList then
        match response.getResponseHeader "Content-Type".toList with
        | none => .error "No value for Content-Type".toList
        | some contentType => .ok {
            method := "POST".toList, url,
            headers := headers ++ [("Content-Type".toList, contentType)],
            body := if responseIsImage contentType then some (newBlob response.response)
              else response.response
            djbSeqno }
      else .ok { method := "GET".toList, url, headers, djbSeqno }

/-- `Translator.ss_response2request`, on the answer to a request that kept `djbSeqno`. -/
def ssResponse2request (response : Response) (djbSeqno : Option CStr) (circuitId : CStr)
    (cntRequestsOut time : ℕ) : Except CStr Request :=
  let (httpcode, httptext) :=
    if response.status = 0 then ("555".toList, "Request not made".toList)
    else (Nat.toDigits 10 response.status, response.statusText)
  let contentType := response.getResponseHeader "Content-Type".toList
  let contents :=
    if contentType.any responseIsImage then some (newBlob response.response)
    else response.response
  match contents with
  | none => .error "TypeError: djb_contents is null".toList
  | some body => .ok {
      method := "POST".toList, url := nextUrl circuitId cntRequestsOut time
      headers := [("DJB-SeqNo".toList, jsString djbSeqno), ("DJB-HTTPCode".toList, httpcode),
        ("DJB-HTTPText".toList, httptext)] ++
        ((response.getResponseHeader "DJB-Set-Cookie".toList).toList.map
          fun value => ("DJB-Set-Cookie".toList, value)) ++
        contentType.toList.map fun value => ("Content-Type".toList, value)
      body := some body }

/-- What a circuit waits for: its time to ask, the daemon's answer to the question
it sent under `key`, the server's answer, or nothing at all. -/
inductive Pending
  | restart
  | next (key : Key)
  | server (request : Request)
  | nothing

structure Circuit where
  id : CStr
  cntRequestsOut : ℕ := 0
  cntRequestsIn : ℕ := 0
  cntRestarts : ℕ := 0
  pending : Pending := .restart

namespace Circuit

/-- `Circuitous.jb_next`: the question without an answer to go with it. -/
def jbNext (c : Circuit) (time : ℕ) : Request where
  method := "POST".toList
  url := nextUrl c.id c.cntRequestsOut time

def asked (c : Circuit) (key : Key) : Circuit :=
  { c with cntRequestsOut := c.cntRequestsOut + 1, pending := .next key }

def handleJbNextResponse (c : Circuit) (opens : CStr → Bool) (response : Response) : Circuit :=
  if response.status = 200 then
    match jbResponse2request opens response with
    | .ok request => { c with cntRequestsIn := c.cntRequestsIn + 1, pending := .server request }
    | .error _ => { c with pending := .nothing }
  else if response.status = 0 then { c with cntRestarts := c.cntRestarts + 1, pending := .restart }
  else { c with pending := .nothing }

end Circuit

end Jumpbox.Plugin
