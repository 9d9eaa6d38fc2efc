import Jumpbox.CString

/-! What the daemon sees of libfutil: a client's request and the calls that
write to its connection. Only fields that `server/` reads are kept. -/

namespace Jumpbox

inductive HttpMethod
  | none
  | get
  | post
  | other (name : CStr)
  deriving DecidableEq, Repr

def httpsrvMethodname : HttpMethod → CStr
  | .none => "NONE".toList
  | .get => "GET".toList
  | .post => "POST".toList
  | .other name => name

/-- The callbacks `acs_request` puts into `djb_headers_t.push`. -/
inductive DjbPushF
  | acsInitialAnswer
  | acsRedirectAnswer
  deriving DecidableEq, Repr

/-- `djb_headers_t`. -/
structure DjbHeaders where
  push : Option DjbPushF := none
  httpcode : CStr := []
  httptext : CStr := []
  seqno : CStr := []
  setcookie : CStr := []
  cookie : CStr := []
  deriving DecidableEq, Repr

/-- One request on a `httpsrv_client_t`. The connection keeps `id` over all its
requests, `reqid` numbers them. `body` is what follows the headers, so
`content_length` is its length; `readbody` says that libfutil has read it in. -/
structure HttpsrvClient where
  id : UInt64
  reqid : UInt64
  method : HttpMethod := .get
  hostname : CStr := []
  uri : CStr := []
  rawuri : CStr := []
  contentType : CStr := []
  theHeaders : List (CStr × CStr) := []
  body : List UInt8 := []
  readbody : Bool := false
  user : DjbHeaders := {}
  deriving DecidableEq, Repr

namespace HttpsrvClient

def contentLength (hcl : HttpsrvClient) : ℕ := hcl.body.length

/-- What a `DJB-SeqNo` names. -/
def key (hcl : HttpsrvClient) : UInt64 × UInt64 := (hcl.id, hcl.reqid)

end HttpsrvClient

instance : Inhabited HttpsrvClient := ⟨{ id := 0, reqid := 0 }⟩

abbrev Key := UInt64 × UInt64

inductive CType
  | html
  | css
  | json
  deriving DecidableEq, Repr

inductive Expire
  | force
  | short
  | long
  deriving DecidableEq, Repr

/-- A call on a client: what is written to it and how its handling ends.
`body` is a piece of another client's body moved by `httpsrv_forward`. -/
inductive Out
  | answer (code : ℤ) (text : CStr) (ctype : Option CType)
  | error (code : ℕ) (msg : CStr)
  | expire (mode : Expire)
  | header (name value : CStr)
  | headers (block : List (CStr × CStr))
  | put (text : CStr)
  | result (status : CStr) (msg : CStr)
  | sendfile (path : CStr)
  | body (bytes : List UInt8)
  | handlingDone
  | done
  deriving DecidableEq, Repr

def httpOk (ctype : Option CType) : Out := .answer 200 "OK".toList ctype

def djbError (code : ℕ) (msg : CStr) : List Out := [.error code msg, .expire .force, .done]

def djbPresult (msg : CStr) : List Out :=
  [httpOk (some .json), .expire .force, .put msg, .done]

end Jumpbox
