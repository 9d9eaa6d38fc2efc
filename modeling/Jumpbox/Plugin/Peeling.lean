import Jumpbox.Plugin.Composition
import Jumpbox.Plugin.Traffic
import Jumpbox.Rendezvous.Step

/-! The rendezvous page at work with the daemon. Each request of the page but one is
handled by `rdv_handle`; what it sends back is read by the handler of the page. A request
is under way, has been handled, or is complete. -/

namespace Jumpbox.Plugin.RendezvousPage

open JsonText (Plain Layout)
open Rendezvous (Ext Choice Handled rdvHandle rdvOnionName currentType)

def encode (text : CStr) : List UInt8 := text.flatMap String.utf8EncodeChar

/-- What `JSON.stringify` makes of what is posted. -/
def genRequestBody (server : CStr) (secure : Bool) : CStr :=
  JsonText.print JsonText.compact
    [("server".toList, .string server), ("secure".toList, .bool secure)]

def peelBody (action : Option CStr) : CStr :=
  JsonText.print JsonText.compact
    (action.toList.map fun answer => ("action".toList, .string answer))

def toDaemon (method : HttpMethod) (name : CStr) (contentType : CStr := [])
    (body : List UInt8 := []) : HttpsrvClient where
  id := 0
  reqid := 0
  method := method
  hostname := "127.0.0.1:6543".toList
  uri := "/rendezvous/".toList ++ name
  contentType := contentType
  body := body

def genRequestRequest (server : CStr) (secure : Bool) : HttpsrvClient :=
  toDaemon .post "gen_request".toList "application/json".toList
    (encode (genRequestBody server secure))

def peelRequest (action : Option CStr) : HttpsrvClient :=
  toDaemon .post "peel".toList "application/json".toList (encode (peelBody action))

/-- The request as the daemon sees it, unless it goes to the server of an onion. -/
def Call.arrives : Call → Option HttpsrvClient
  | .reset => some (toDaemon .get "reset".toList)
  | .genRequest server secure => some (genRequestRequest server secure)
  | .freedom _ => none
  | .image contentType body => some (toDaemon .post "image".toList contentType body)
  | .peel action => some (peelRequest action)

theorem toDaemon_rendezvous (method : HttpMethod) (name contentType : CStr)
    (body : List UInt8) : djbHandle (toDaemon method name contentType body) = .rendezvous := by
  have own : (toDaemon method name contentType body).hostname ∈ djbHosts := List.mem_cons_self
  rw [djbHandle, if_pos own]
  rfl

theorem arrives_rendezvous {call : Call} {hcl : HttpsrvClient} (arrives : call.arrives = some hcl) :
    djbHandle hcl = .rendezvous := by
  cases call with
  | freedom => cases arrives
  | _ =>
    cases arrives
    exact toDaemon_rendezvous _ _ _ _

/-- The daemon handles a request, and again once the body it wants is read. -/
def served (ext : Ext) (c : Choice) (d : Rendezvous.State) (hcl : HttpsrvClient) : Handled :=
  let first := rdvHandle ext c d hcl
  if first.reads then rdvHandle ext c first.state { hcl with readbody := true } else first

def replyOf (outs : List Out) : Option Reply :=
  if outs = [] then none
  else some {
    respond outs with
    responseText := outs.flatMap fun
      | .put text => text
      | _ => [] }

def Page.Event.own : Page.Event → Bool
  | .click _ _ | .go _ _ | .timeout => true
  | .complete _ _ => false

def ofWorker : Rendezvous.Event → Bool
  | .worker _ | .attempts _ _ => true
  | .request _ _ => false

structure System where
  page : Page
  daemon : Rendezvous.State
  /-- What has been sent back for the requests that were handled. -/
  handled : ℕ → Option (Option Reply) := fun _ => none

namespace System

inductive Event
  | page (e : Page.Event)
  /-- The daemon handles the `i`-th of the requests under way. -/
  | serve (i : ℕ) (c : Choice)
  | deliver (i : ℕ)
  /-- The server of the onion answers, or nothing does. -/
  | network (i : ℕ) (reply : Reply)
  | work (e : Rendezvous.Event)

def under (s : System) (i : ℕ) : Option (ℕ × Call) :=
  s.page.xhrs[i]?.bind fun n => s.page.calls[n]?.map fun call => (n, call)

def step (opens : CStr → Bool) (ext : Ext) (s : System) : Event → Option System
  | .page e =>
    if e.own then (s.page.step opens e).map fun page => { s with page } else none
  | .serve i c =>
    match s.under i with
    | none => none
    | some (n, call) =>
      match call.arrives, s.handled n with
      | some hcl, none =>
        let answer := served ext c s.daemon hcl
        some { s with
          daemon := answer.state
          handled := Function.update s.handled n (some (replyOf answer.outs)) }
      | _, _ => none
  | .deliver i =>
    match s.under i with
    | none => none
    | some (n, _) =>
      match s.handled n with
      | some (some reply) =>
        (s.page.step opens (.complete i reply)).map fun page => { s with page }
      | _ => none
  | .network i reply =>
    match s.under i with
    | some (_, .freedom _) =>
      (s.page.step opens (.complete i reply)).map fun page => { s with page }
    | _ => none
  | .work e =>
    if ofWorker e then (Rendezvous.step ext s.daemon e).map fun daemon => { s with daemon }
    else none

def machine (opens : CStr → Bool) (ext : Ext) : Machine System Event := ⟨step opens ext⟩

/-- The page is loaded; the daemon may have been in use before. -/
def loaded (daemon : Rendezvous.State) : System := { page := .init, daemon }

end System

end Jumpbox.Plugin.RendezvousPage
