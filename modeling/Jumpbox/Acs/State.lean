import Jumpbox.Libfutil
import Jumpbox.Library.Double
import Mathlib.Logic.Function.Basic

/-! The state that `acs.c` shares between threads, and the operations on it.
One operation is one critical section of `acs_status`, `acs_sitdown` or
`acs_progress`, one access of `acs_set_net` under its lock, or one call outside
`acs.c`. Jansson objects have a count of references; the history says which have
been released, and whether one was used afterwards. -/

namespace Jumpbox.Acs

inductive DjbStatus
  | err
  | ok
  | done
  deriving DecidableEq, Repr

/-- `l_statusnames`. -/
def statusName : DjbStatus → CStr
  | .err => "error".toList
  | .ok => "ok".toList
  | .done => "done".toList

def djbMsglen : ℕ := 256

inductive Json
  | null
  | bool (b : Bool)
  | integer (n : ℤ)
  | real (q : ℚ)
  | string (s : CStr)
  | array (items : List Json)
  | object (fields : List (CStr × Json))

namespace Json

/-- `json_object_get`. -/
def get (var : CStr) : Json → Option Json
  | .object fields => (fields.find? fun field => field.1 = var).map Prod.snd
  | _ => none

def isObject : Json → Bool
  | .object _ => true
  | _ => false

def number : Json → Option ℚ
  | .integer n => some n
  | .real q => some q
  | _ => none

/-- `json_number_value` is a double, of an integer as well. -/
def numberValue (json : Json) : Option ℚ := json.number.map Double.ofRat

end Json

/-- A `json_t`, by its address and what was parsed into it. -/
structure Net where
  ptr : ℕ
  value : Json

/-- What `acs.c` uses of jansson, libfutil and libsteg as functions. -/
structure Env where
  jsonLoads : CStr → Option Json
  jsonDumps : Json → CStr
  parseIso8601Interval : CStr → Option (UInt64 × UInt64)
  stegDecode : List UInt8 → CStr → Option CStr
  /-- The conversion of a number that a `uint64_t` cannot hold. -/
  castOutOfRange : ℚ → UInt64

structure AcsMsg where
  status : DjbStatus
  message : CStr
  deriving DecidableEq, Repr

structure AcsRequest where
  client : ℕ
  push : DjbPushF
  hostname : CStr
  rawuri : CStr
  deriving DecidableEq

structure Recorded where
  entry : AcsMsg
  thread : ℕ
  deriving DecidableEq

structure History where
  recorded : List Recorded := []
  /-- What has been recorded since a NET was accepted whose dance is not over. -/
  window : Option (List Recorded) := none
  windows : List (List Recorded × Option ℕ) := []
  ended : Bool := false
  danceNet : Option Net := none
  released : List ℕ := []
  stale : List ℕ := []
  interrupted : ℕ := 0

structure Shared where
  lStatus : DjbStatus := .err
  lMessage : CStr := []
  lMessages : List AcsMsg := []
  lDancing : Bool := false
  lNet : Option Net := none
  /-- Is `l_dancing_mutex` held across operations? -/
  locked : Bool := false
  running : Bool := true
  crashed : Bool := false
  exited : Bool := false
  refs : ℕ → ℕ := fun _ => 0
  nextNet : ℕ := 0
  nextClient : ℕ := 0
  pending : List AcsRequest := []
  closed : List ℕ := []
  destroyed : List ℕ := []
  bridgeAccessList : Option Json := none
  answers : List (HttpsrvClient × List Out) := []
  hist : History := {}

/-- What the environment chooses when an operation is performed. -/
structure Choice where
  ok : Bool := true
  number : UInt64 := 0
  deriving DecidableEq

inductive Start
  | start
  | noNet
  | nothing
  deriving DecidableEq

inductive Op
  /-- `acs_status`; a part of the text may be borrowed from a NET. -/
  | status (st : DjbStatus) (text : CStr) (borrowed : Option Net)
  | sitdown
  | threadKeepRunning
  /-- `acs_set_net` takes its lock, unless a dance goes on, and puts `net` into `l_net`. -/
  | takeNet (net : Option Net)
  | jsonIsObject (net : Net)
  | jsonDumps (net : Net)
  | jsonIncref (net : Net)
  | dropNet
  | unlockNet
  | jsonLoads (text : CStr)
  | jsonDecref (net : Net)
  | lNet
  | httpsrvNewcl
  | djbCreateUserdata
  | httpsrvClose (client : ℕ)
  | httpsrvClientDestroy (client : ℕ)
  | djbProxyAdd (request : AcsRequest) (borrowed : Option Net)
  | httpsrvReadbodyAlloc
  | prfSetBridgeAccessList (br : CStr)
  | generateRandomNumber
  | time
  | modulo (n d : UInt64)
  | threadSleep (msec : UInt64)
  | startDance
  | listPop
  /-- `cond_wait`, over or timed out, and what is reported after it. -/
  | condWait
  | answer (hcl : HttpsrvClient) (outs : List Out)
  /-- The proxy queues a request again whose callback wants the body. -/
  | putBack (request : AcsRequest)
  | listDestroy

def Op.Result : Op → Type
  | .threadKeepRunning | .takeNet _ | .jsonIsObject _ | .djbCreateUserdata | .djbProxyAdd _ _
  | .httpsrvReadbodyAlloc | .prfSetBridgeAccessList _ | .threadSleep _ => Bool
  | .jsonDumps _ => Option CStr
  | .jsonLoads _ | .lNet => Option Net
  | .httpsrvNewcl => Option ℕ
  | .generateRandomNumber | .time | .modulo _ _ => UInt64
  | .startDance => Start
  | .listPop => Option AcsMsg
  | .condWait => AcsMsg
  | _ => Unit

namespace Shared

/-- A NET is used; a use after its release shows in the history. -/
def touch (s : Shared) (net : Option Net) : Shared :=
  let dead := net.toList.filter fun n => s.refs n.ptr = 0
  { s with hist := { s.hist with stale := s.hist.stale ++ dead.map Net.ptr } }

def jsonDecref (s : Shared) (n : Net) : Shared :=
  let last := if s.refs n.ptr ≤ 1 then [n.ptr] else []
  { s.touch (some n) with
    refs := Function.update s.refs n.ptr (s.refs n.ptr - 1)
    hist := { (s.touch (some n)).hist with released := s.hist.released ++ last } }

/-- What `acs_status` makes of a text that does not fit. -/
def acsMsg (st : DjbStatus) (text : CStr) : AcsMsg :=
  if text.length < djbMsglen then ⟨st, text⟩ else ⟨.err, "Message too long".toList⟩

def acsStatus (s : Shared) (t : ℕ) (msg : AcsMsg) (memory : Bool) : Shared :=
  let entry := if memory then [msg] else []
  let recorded := entry.map fun msg => (⟨msg, t⟩ : Recorded)
  { s with
    lStatus := if memory then msg.status else .err
    lMessage := msg.message
    lMessages := s.lMessages ++ entry
    hist := { s.hist with
      recorded := s.hist.recorded ++ recorded
      window := s.hist.window.map fun entries => entries ++ recorded } }

def closeWindow (s : Shared) (endedBy : Option ℕ) : Shared :=
  { s with hist := { s.hist with
      window := none
      windows := s.hist.windows ++ s.hist.window.toList.map fun entries => (entries, endedBy) } }

def acsSitdown (s : Shared) (t : ℕ) : Shared :=
  let s := s.closeWindow (some t)
  { s with lDancing := false, hist := { s.hist with ended := true } }

def replaceNet (s : Shared) (net : Option Net) : Shared :=
  let s := match s.lNet with
    | none => s
    | some old => s.jsonDecref old
  { s.closeWindow none with lNet := net, locked := true }

def accept (s : Shared) : Shared :=
  { s with hist := { s.hist with ended := false, window := some [] } }

end Shared

open Shared in
/-- One operation of thread `t`; none while it has to wait for `l_dancing_mutex`. -/
def exec (env : Env) (t : ℕ) (o : Op) (c : Choice) (s : Shared) : Option (Shared × o.Result) :=
  match o with
  | .status st text borrowed =>
    some ((s.touch borrowed).acsStatus t (acsMsg st text) c.ok, ())
  | .sitdown => if s.locked then none else some (s.acsSitdown t, ())
  | .threadKeepRunning => some (s, s.running)
  | .takeNet net =>
    if s.locked then none
    else if s.lDancing then some (s, false)
    else some (s.replaceNet net, true)
  | .jsonIsObject net =>
    let s := s.touch (some net)
    if net.value.isObject then some (s.accept, true) else some (s, false)
  | .jsonDumps net =>
    some (s.touch (some net), if c.ok then some (env.jsonDumps net.value) else none)
  | .jsonIncref net =>
    let s := s.touch (some net)
    some ({ s with refs := Function.update s.refs net.ptr (s.refs net.ptr + 1) }, ())
  | .dropNet => some ({ s with lNet := none }, ())
  | .unlockNet => some ({ s with locked := false }, ())
  | .jsonLoads text =>
    match if c.ok then env.jsonLoads text else none with
    | none => some (s, none)
    | some value =>
      some ({ s with nextNet := s.nextNet + 1, refs := Function.update s.refs s.nextNet 1 },
        some ⟨s.nextNet, value⟩)
  | .jsonDecref net => some (s.jsonDecref net, ())
  | .lNet => some (s.touch s.lNet, s.lNet)
  | .httpsrvNewcl =>
    if c.ok then some ({ s with nextClient := s.nextClient + 1 }, some s.nextClient)
    else some (s, none)
  | .djbCreateUserdata => some (s, c.ok)
  | .httpsrvClose client => some ({ s with closed := s.closed ++ [client] }, ())
  | .httpsrvClientDestroy client => some ({ s with destroyed := s.destroyed ++ [client] }, ())
  | .djbProxyAdd request borrowed =>
    let s := s.touch borrowed
    if c.ok then some ({ s with pending := s.pending ++ [request] }, true) else some (s, false)
  | .httpsrvReadbodyAlloc => some (s, c.ok)
  | .prfSetBridgeAccessList br =>
    let loaded := if c.ok then env.jsonLoads br else none
    some ({ s with bridgeAccessList := loaded }, loaded.isSome)
  | .generateRandomNumber => some (s, c.number)
  | .time => some (s, c.number)
  -- a division by zero ends the process
  | .modulo n d => some ({ s with crashed := s.crashed || d == 0 }, n % d)
  | .threadSleep _ =>
    if c.ok then some (s, true)
    else some ({ s with hist := { s.hist with interrupted := s.hist.interrupted + 1 } }, false)
  | .startDance =>
    if s.locked then none
    else if s.lDancing = false ∧ s.lStatus = .ok then
      match s.lNet with
      | none => some (s, .noNet)
      | some net =>
        some ({ s with lDancing := true, hist := { s.hist with danceNet := some net } }, .start)
    else some (s, .nothing)
  | .listPop =>
    match s.lMessages with
    | [] => some (s, none)
    | m :: rest => some ({ s with lMessages := rest }, some m)
  | .condWait =>
    match s.lMessages with
    | [] => some (s, ⟨s.lStatus, s.lMessage⟩)
    | m :: rest => some ({ s with lMessages := rest }, m)
  | .answer hcl outs => some ({ s with answers := s.answers ++ [(hcl, outs)] }, ())
  | .putBack request => some ({ s with pending := s.pending ++ [request] }, ())
  | .listDestroy => some ({ s with lMessages := [] }, ())

/-! What an operation leaves alone. -/

def Shared.recorded (s : Shared) : List AcsMsg := s.hist.recorded.map Recorded.entry

def Op.queues : Op → Prop
  | .status _ _ _ | .listPop | .condWait | .listDestroy => True
  | _ => False

structure SameQueue (s s' : Shared) : Prop where
  recorded : s'.recorded = s.recorded
  messages : s'.lMessages = s.lMessages
  status : s'.lStatus = s.lStatus
  message : s'.lMessage = s.lMessage
  exited : s'.exited = s.exited

def Op.handles : Op → Prop
  | .httpsrvNewcl | .djbProxyAdd _ _ | .httpsrvClientDestroy _ | .putBack _ => True
  | _ => False

structure SameClients (s s' : Shared) : Prop where
  pending : s'.pending = s.pending
  destroyed : s'.destroyed = s.destroyed
  nextClient : s'.nextClient = s.nextClient

def Op.stores : Op → Prop
  | .prfSetBridgeAccessList _ => True
  | _ => False

structure Same (o : Op) (s s' : Shared) : Prop where
  queue : ¬o.queues → SameQueue s s'
  clients : ¬o.handles → SameClients s s'
  bridges : ¬o.stores → s'.bridgeAccessList = s.bridgeAccessList

theorem same_of_exec {env : Env} {t : ℕ} {c : Choice} {s s' : Shared} {o : Op} {x : o.Result}
    (performed : exec env t o c s = some (s', x)) : Same o s s' := by
  cases o with
  | status | listDestroy =>
    cases performed
    exact ⟨absurd trivial, fun _ => ⟨rfl, rfl, rfl⟩, fun _ => rfl⟩
  | listPop | condWait =>
    unfold exec at performed
    dsimp only at performed
    split at performed <;> cases performed <;>
      exact ⟨absurd trivial, fun _ => ⟨rfl, rfl, rfl⟩, fun _ => rfl⟩
  | prfSetBridgeAccessList =>
    cases performed
    exact ⟨fun _ => ⟨rfl, rfl, rfl, rfl, rfl⟩, fun _ => ⟨rfl, rfl, rfl⟩, absurd trivial⟩
  | httpsrvClientDestroy | putBack =>
    cases performed
    exact ⟨fun _ => ⟨rfl, rfl, rfl, rfl, rfl⟩, absurd trivial, fun _ => rfl⟩
  | httpsrvNewcl | djbProxyAdd =>
    unfold exec at performed
    dsimp only at performed
    split at performed <;> cases performed <;>
      exact ⟨fun _ => ⟨rfl, rfl, rfl, rfl, rfl⟩, absurd trivial, fun _ => rfl⟩
  | takeNet net =>
    unfold exec at performed
    dsimp only at performed
    split at performed
    · cases performed
    · split at performed
      · cases performed
        exact ⟨fun _ => ⟨rfl, rfl, rfl, rfl, rfl⟩, fun _ => ⟨rfl, rfl, rfl⟩, fun _ => rfl⟩
      · cases performed
        unfold Shared.replaceNet
        cases s.lNet <;>
          exact ⟨fun _ => ⟨rfl, rfl, rfl, rfl, rfl⟩, fun _ => ⟨rfl, rfl, rfl⟩, fun _ => rfl⟩
  | startDance =>
    unfold exec at performed
    dsimp only at performed
    split at performed
    · cases performed
    · split at performed
      · split at performed <;> cases performed <;>
          exact ⟨fun _ => ⟨rfl, rfl, rfl, rfl, rfl⟩, fun _ => ⟨rfl, rfl, rfl⟩, fun _ => rfl⟩
      · cases performed
        exact ⟨fun _ => ⟨rfl, rfl, rfl, rfl, rfl⟩, fun _ => ⟨rfl, rfl, rfl⟩, fun _ => rfl⟩
  | sitdown | jsonIsObject | jsonLoads | threadSleep =>
    unfold exec at performed
    dsimp only at performed
    split at performed <;> cases performed <;>
      exact ⟨fun _ => ⟨rfl, rfl, rfl, rfl, rfl⟩, fun _ => ⟨rfl, rfl, rfl⟩, fun _ => rfl⟩
  | _ =>
    cases performed
    exact ⟨fun _ => ⟨rfl, rfl, rfl, rfl, rfl⟩, fun _ => ⟨rfl, rfl, rfl⟩, fun _ => rfl⟩

end Jumpbox.Acs
