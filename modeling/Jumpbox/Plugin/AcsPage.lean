import Jumpbox.Plugin.StatusBar
import Jumpbox.Library.Machine

/-! The ACS page (`acs.js` on `acs.html`): a NET is set up, or taken from the rendezvous, and
then the daemon is polled until it says that it is done, or that it failed. -/

namespace Jumpbox.Plugin.AcsPage

open JsonText (Value)
open RendezvousPage (Reply)
open RendezvousPage.Page (truthy isObject)

inductive Call
  | setup (net : CStr)
  | progress
  deriving DecidableEq

/-- What the page takes from the browser: `==` on what is no text, and what the exception of
`JSON.parse` says. -/
structure Browser where
  loose : Option Value → Option Value → Bool := fun _ _ => false
  syntaxError : CStr → CStr := fun _ => []

structure Page where
  bar : StatusBar := {}
  intro : Bool := true
  launch : Bool := false
  /-- The requests that were made; `xhrs` are the numbers of those not complete. -/
  calls : List Call := []
  xhrs : List ℕ := []
  tabs : ℕ := 0

namespace Page

variable (b : Browser)

def send (p : Page) (call : Call) : Page :=
  { p with calls := p.calls ++ [call], xhrs := p.xhrs ++ [p.calls.length] }

def setStatus (p : Page) (st : CStr) (msg : Option Value) : Page :=
  if sameMessage b.loose msg p.bar.msgPrev then p
  else {
    p with
    bar := p.bar.setStatus b.loose st msg
    intro := p.intro || st = "error".toList
    launch := p.launch || st = "done".toList }

def say (p : Page) (st msg : CStr) : Page := p.setStatus b st (some (.string msg))

def emptyStatus (p : Page) : Page :=
  { p with bar.log := [] }.say b "ok".toList "(Status log reset)".toList

/-- `ACS.setup` and `ACS.progress`. -/
def setup (p : Page) (net : CStr) : Page := p.send (.setup net)

def progress (p : Page) : Page := p.send .progress

def manual (net : CStr) : CStr × CStr :=
  let string (obj : Value) (name : CStr) : Option CStr :=
    match obj.get name with
    | some (.string s) => some s
    | _ => none
  let number (obj : Value) (name : CStr) : Bool := obj.get name matches some (.number _)
  match JsonText.parse net with
  | none =>
    ("ok".toList, "Manually provided NET is invalid: ".toList ++ b.syntaxError net)
  | some obj =>
    if !(truthy (some obj) && isObject obj) then
      ("error".toList, "Manual NET was not parsed into a object".toList)
    else
      match string obj "initial".toList, string obj "redirect".toList with
      | none, _ => ("error".toList, "Manual NET misses initial".toList)
      | _, none => ("error".toList, "Manual NET misses redirect".toList)
      | some initial, some redirect =>
        if !number obj "wait".toList then
          ("error".toList, "Manual NET misses wait".toList)
        else if !number obj "window".toList then
          ("error".toList, "Manual NET misses window".toList)
        else if (string obj "passphrase".toList).isNone then
          ("error".toList, "Manual NET misses passphrase".toList)
        else
          ("ok".toList, "Manually provided NET looks valid (initial: ".toList ++ initial ++
            ", redirect: ".toList ++ redirect ++ ")".toList)

def butDanceNet (p : Page) (net : CStr) : Page :=
  let p := { p with intro := false }.emptyStatus b
  if net = [] then
    p.say b "ok".toList "To dance with a manually provided NET you need to provide one".toList
  else (p.say b (manual b net).1 (manual b net).2).setup net

def butDanceRdv (p : Page) : Page :=
  (({ p with intro := false }.emptyStatus b).say b "ok".toList
    "Using Rendezvous provided NET".toList).progress

def butRestart (p : Page) : Page := { p with launch := false, intro := true }.emptyStatus b

/-- What `ACS.process_response` makes of a request that is complete. -/
def verdict (reply : Reply) : Verdict :=
  if reply.status = 200 then setStatusJson reply.responseText
  else if reply.status = 0 then refused "ACS Setup failed: request not made".toList
  else refused ("ACS Setup failed: HTTP Error ".toList ++ Nat.toDigits 10 reply.status ++
    " : ".toList ++ reply.statusText)

def processResponse (p : Page) (reply : Reply) : Page :=
  let p := p.setStatus b (verdict reply).st (verdict reply).msg
  if (verdict reply).more then p.progress else p

inductive Event
  | dancenet (net : CStr)
  | dancerdv
  | launchtools
  | restart
  | complete (i : ℕ) (reply : Reply)

/-- A button is pressed when its box is displayed. -/
def step (p : Page) : Event → Option Page
  | .dancenet net => if p.intro then some (p.butDanceNet b net) else none
  | .dancerdv => if p.intro then some (p.butDanceRdv b) else none
  | .launchtools => if p.launch then some { p with tabs := p.tabs + 1 } else none
  | .restart => if p.launch then some (p.butRestart b) else none
  | .complete i reply =>
    if i < p.xhrs.length then
      some ({ p with xhrs := p.xhrs.eraseIdx i }.processResponse b reply)
    else none

def machine : Machine Page Event := ⟨step b⟩

def init : Page := ({} : Page).say b "ok".toList "Initialized".toList

end Page

end Jumpbox.Plugin.AcsPage
