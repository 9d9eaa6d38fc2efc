import Jumpbox.SeqNo
import Jumpbox.Api

/-! The state of `djb.c` while it serves: its three lists, where each thread
stands, and what the connections have been told.
A `djb_req_t` is known by the number of its allocation. Memory keeps the last
contents of a freed one, so a read after `free` is visible as such and does not
stop the model. The history fields record what has happened; no branch of the
code reads them. -/

namespace Jumpbox.Proxy

abbrev Ptr := ℕ

structure DjbReq where
  hcl : HttpsrvClient
  phclId : UInt64 := 0
  deriving DecidableEq, Inhabited

/-- Where a `djb_worker_thread` stands: the next list operation, or the part of
`djb_handle_forward` before and after its append to `lst_proxy_out`. -/
inductive WorkerPc
  | getNew
  | getPull (pr : Ptr)
  | forward (pr ar : Ptr)
  | enlist (pr ar : Ptr)
  | handOver (pr ar : Ptr)
  | release (ar : Ptr)
  deriving DecidableEq

/-- Where an HTTP thread stands in `djb_push` or in `djb_close`. -/
inductive HandlerPc
  | idle
  | find (hcl : HttpsrvClient)
  | found (hcl : HttpsrvClient) (pr : Ptr)
  | callback (hcl : HttpsrvClient) (pr : Ptr)
  | putBack (hcl : HttpsrvClient) (pr : Ptr)
  | closeFind (id : UInt64)
  | closeAdd (id : UInt64) (pr : Ptr)
  deriving DecidableEq

/-- Why something is written: a request handed to a puller, the answer of a push
on its way to the client, or the reply of the API to its own caller. -/
inductive Cause
  | request (pr ar : Ptr)
  | answer (hcl : HttpsrvClient)
  | reply (hcl : HttpsrvClient)
  deriving DecidableEq

/-- A body on its way from `src` to `dst`, with the number of bytes of it that
had been read when `httpsrv_forward` was called. -/
structure Forward where
  cause : Cause
  src : HttpsrvClient
  dst : HttpsrvClient
  start : ℕ
  deriving DecidableEq

structure Write where
  cause : Cause
  dst : Key
  out : Out
  deriving DecidableEq

structure History where
  accepted : List Ptr := []
  pulls : List Ptr := []
  handed : List (Ptr × Ptr) := []
  refused : List Ptr := []
  dropped : List Ptr := []
  released : List Ptr := []
  completed : List (Ptr × HttpsrvClient) := []
  closed : List UInt64 := []
  forwarded : List Forward := []

structure State where
  mem : Ptr → DjbReq := fun _ => default
  next : Ptr := 0
  lstProxyNew : List Ptr := []
  lstProxyOut : List Ptr := []
  lstApiPull : List Ptr := []
  gotHostname : Bool := false
  lExitHostname : Option CStr := none
  workers : List WorkerPc
  handlers : List HandlerPc
  /-- The ids of the connections that are no longer valid. -/
  shut : List UInt64 := []
  seen : List Key := []
  /-- Pushes that returned `false` and whose body libfutil now reads. -/
  reading : List HttpsrvClient := []
  consumed : Key → ℕ := fun _ => 0
  forwards : List Forward := []
  freed : List Ptr := []
  log : List Write := []
  hist : History := {}

def init (workers handlers : ℕ) : State where
  workers := List.replicate workers .getNew
  handlers := List.replicate handlers .idle

inductive Event
  /-- A parsed request reaches `djb_handle` on thread `t`; `exit` is what the
  environment and the preferences offer as exit hostname. -/
  | request (t : ℕ) (hcl : HttpsrvClient) (exit : Option CStr)
  | internal (hcl : HttpsrvClient)
  | worker (t : ℕ)
  | handler (t : ℕ)
  | callback (t : ℕ) (done : Bool)
  /-- The body of a waiting push has been read: it is handled again. -/
  | again (t : ℕ) (hcl : HttpsrvClient)
  | disconnect (id : UInt64)
  | close (t : ℕ) (id : UInt64)
  | move (i n : ℕ)
  | finish (i : ℕ)
  | abort (i : ℕ)
  deriving DecidableEq

namespace State

/-- `conn_is_valid(&hcl->conn)`. -/
def connIsValid (s : State) (hcl : HttpsrvClient) : Bool := hcl.id ∉ s.shut

theorem connIsValid_iff {s : State} {hcl : HttpsrvClient} :
    s.connIsValid hcl = true ↔ hcl.id ∉ s.shut := by simp [connIsValid]

@[simp] def writes (s : State) (cause : Cause) (dst : Key) (outs : List Out) : State :=
  { s with log := s.log ++ outs.map fun out => ⟨cause, dst, out⟩ }

@[simp] def replies (s : State) (hcl : HttpsrvClient) (outs : List Out) : State :=
  s.writes (.reply hcl) hcl.key outs

/-- What client `key` has been told, in order. -/
def writesTo (s : State) (key : Key) : List Out :=
  (s.log.filter fun w => w.dst = key).map Write.out

@[simp] def setWorker (s : State) (t : ℕ) (pc : WorkerPc) : State :=
  { s with workers := s.workers.set t pc }

@[simp] def setHandler (s : State) (t : ℕ) (pc : HandlerPc) : State :=
  { s with handlers := s.handlers.set t pc }

@[simp] def httpsrvForward (s : State) (cause : Cause) (src dst : HttpsrvClient) : State :=
  { s with
    forwards := s.forwards ++ [⟨cause, src, dst, s.consumed src.key⟩]
    hist := { s.hist with
      forwarded := s.hist.forwarded ++ [⟨cause, src, dst, s.consumed src.key⟩] } }

end State

end Jumpbox.Proxy
