import Jumpbox.Library.JsonText
import Jumpbox.Plugin.Circuit
import Jumpbox.Library.Machine
import Mathlib.Logic.Function.Basic

/-! The rendezvous page of the plugin (`rendezvous.js` on `rendezvous.html`): the parts of
the document that it moves and listens to, its requests and its timers. A handler that
throws leaves the page as it was then. -/

namespace Jumpbox.Plugin.RendezvousPage

open JsonText (Value)

structure Reply extends Response where
  responseText : CStr := []

/-- The elements of `#grab_bag` whose names end in `_peeler`, each with one button. -/
inductive Peeler
  | captcha
  | signed
  | base
  | pow
  deriving DecidableEq, Repr

def Peeler.name : Peeler → CStr
  | captcha => "captcha".toList
  | signed => "signed".toList
  | base => "base".toList
  | pow => "pow".toList

def peelers : List Peeler := [.captcha, .signed, .base, .pow]

/-- `document.querySelector("#" + onionType + "_peeler")`, for a plain name. -/
def querySelector (onionType : CStr) : Option Peeler :=
  peelers.find? fun peeler => peeler.name = onionType

inductive Listener
  | peelAway
  | powCommence
  | peelCaptcha
  | dance
  deriving DecidableEq, Repr

inductive Call
  | reset
  | genRequest (server : CStr) (secure : Bool)
  | freedom (uri : CStr)
  | image (contentType : CStr) (body : List UInt8)
  | peel (action : Option CStr)
  deriving DecidableEq

/-- A text, with the value of JavaScript that is appended to it. -/
structure Status where
  text : CStr
  value : Option Value := none

structure Page where
  status : Status := { text := "initializing...".toList }
  onion : CStr := []
  /-- The children of `#onion_peeling_controls`, and the peelers in `#grab_bag`. -/
  controls : List Peeler := []
  grabBag : List Peeler := peelers
  /-- `#onion_fetching_controls` is in `#visible_region`. -/
  fetching : Bool := true
  onionImage : Option CStr := none
  captchaImage : Option CStr := none
  basePeelingIntructions : CStr :=
    "Your NET (network entry ticket) is available. Press OK to perform ACS Dance".toList
  captchaPeelingIntructions : CStr := "Press OK to get your captcha puzzle".toList
  /-- The bar of `UI.progress_bar`: is it in the page, and where does it stand? -/
  rendered : Bool := false
  percent : ℚ := 0
  modFreedomDisabled : Bool := false
  powPeelerDisabled : Bool := false
  powCommenced : Bool := false
  listeners : Peeler → List Listener := fun _ => []
  /-- The requests that were made; `xhrs` are the numbers of those not complete. -/
  calls : List Call := []
  xhrs : List ℕ := []
  /-- How many `setTimeout(UI.peel_away, 50)` are running. -/
  timers : ℕ := 0
  /-- The tabs that were opened for `acs.html`. -/
  dances : ℕ := 0

namespace Page

def send (p : Page) (call : Call) : Page :=
  { p with calls := p.calls ++ [call], xhrs := p.xhrs ++ [p.calls.length] }

/-- Is it true to JavaScript? -/
def truthy : Option Value → Bool
  | none | some .null | some (.bool false) | some (.string []) => false
  | some (.number q) => q ≠ 0
  | _ => true

def setStatus (p : Page) (text : CStr) (value : Option Value := none) : Page :=
  { p with status := { text, value } }

def setStatusValue (p : Page) (msg : Option Value) : Page :=
  if truthy msg then { p with status := { text := [], value := msg } } else p

def addEventListener (p : Page) (button : Peeler) (l : Listener) : Page :=
  if l ∈ p.listeners button then p
  else { p with listeners := Function.update p.listeners button (p.listeners button ++ [l]) }

def removeEventListener (p : Page) (button : Peeler) (l : Listener) : Page :=
  { p with
    listeners := Function.update p.listeners button ((p.listeners button).filter (· ≠ l)) }

/-! `UI`. -/

def peel (p : Page) (action : Option CStr) : Page := p.send (.peel action)

def peelAway (p : Page) : Page := p.peel none

def powCommence (p : Page) : Page := { p with rendered := true }.peelAway

/-- `Progress.bar.update`; the bar is not removed at its end. -/
def update (p : Page) (percent : ℚ) : Page :=
  { p with percent := if 100 < percent then 100 else if percent < 0 then 0 else percent }

def updateBaseDisplay (p : Page) : Page :=
  let p := { p with basePeelingIntructions := "Press OK to start the dance".toList }
  (p.removeEventListener .base .peelAway).addEventListener .base .dance

/-- What `UI.update_POW_display` does when the first number comes. -/
def powCommences (p : Page) : Page :=
  if p.powCommenced then p
  else
    let p := { p with powCommenced := true }
    (p.removeEventListener .pow .powCommence).addEventListener .pow .peelAway

def updatePowDisplay (p : Page) (robj : Value) : Page :=
  match robj.get "info".toList with
  | some (.number info) =>
    let p := p.powCommences
    if info < 100 then
      let p := p.update info
      { p with powPeelerDisabled := true, timers := p.timers + 1 }
    else { p with powPeelerDisabled := false }.peelAway
  | _ => p.addEventListener .pow .powCommence

def displayCaptcha (p : Page) (captchaUrl : CStr) : Page :=
  let p := {
    p with
    captchaImage := some captchaUrl
    captchaPeelingIntructions := "Solve the captcha, and press OK".toList }
  (p.removeEventListener .captcha .peelAway).addEventListener .captcha .peelCaptcha

def updateCaptchaDisplay (p : Page) (robj : Value) : Page :=
  match robj.get "info".toList with
  | some (.string (c :: info)) => p.displayCaptcha (jbHost ++ c :: info)
  | _ => p.addEventListener .captcha .peelAway

def updateCurrent (p : Page) (newState : CStr) (robj : Value) : Page :=
  if newState = Peeler.base.name then p.updateBaseDisplay
  else if newState = Peeler.pow.name then p.updatePowDisplay robj
  else if newState = Peeler.captcha.name then p.updateCaptchaDisplay robj
  else p

/-- `controls.removeChild(ui); grab_bag.appendChild(ui)`; the first throws when there is no
such element, or it is not among the controls. -/
def putAway (p : Page) (ui : Option Peeler) : Except Page Page :=
  match ui with
  | none => .error p
  | some ui =>
    if ui ∈ p.controls then
      .ok { p with controls := p.controls.erase ui, grabBag := p.grabBag ++ [ui] }
    else .error p

def appendChild (p : Page) (ui : Option Peeler) : Except Page Page :=
  match ui with
  | none => .error p
  | some ui =>
    .ok { p with controls := p.controls.erase ui ++ [ui], grabBag := p.grabBag.erase ui }

def updateDisplay (p : Page) (newState : CStr) (robj : Value) : Except Page Page := do
  let p ← if newState ≠ p.onion then do
      let p ← if p.onion ≠ [] then p.putAway (querySelector p.onion) else .ok p
      p.appendChild (querySelector newState)
    else .ok p
  .ok { p.updateCurrent newState robj with onion := newState }

/-- `UI.remove_mod_freedom_controls`, which throws the second time. -/
def removeModFreedomControls (p : Page) : Except Page Page :=
  if p.fetching then .ok { p with fetching := false } else .error p

def prepareForPeeling (p : Page) (robj : Value) : Except Page Page := do
  let p := match robj.get "image".toList with
    | some (.string image) => { p with onionImage := some (jbHost ++ image) }
    | _ => p
  let p ← match robj.get "onion_type".toList with
    | some (.string onionType) => p.updateDisplay onionType robj
    | _ => .ok p
  p.removeModFreedomControls

/-! `Rendezvous`. A handler runs once its request is complete. -/

def resetResponse (p : Page) (reply : Reply) : Page :=
  if reply.status = 200 then
    p.setStatus "Enter the name of a mod_freedom server and press <em>Go!</em>".toList
  else p.setStatus "Rendezvous.reset **NOT** OK".toList

def sendUrl (p : Page) (address : CStr) (ssl : Bool) : Page :=
  if address = [] then p.setStatus "please enter a mod_freedom server address.".toList
  else { p with modFreedomDisabled := true }.send (.genRequest address ssl)

/-- `Rendezvous.handle_response`; `opens` says whether the browser takes a URL. -/
def handleResponse (p : Page) (opens : CStr → Bool) (freedomUri : CStr) : Except Page Page :=
  if opens freedomUri then
    .ok ((p.send (.freedom freedomUri)).setStatus ("Sending request: ".toList ++ freedomUri))
  else .error p

def handleGenResponse (p : Page) (opens : CStr → Bool) (reply : Reply) : Except Page Page :=
  if reply.status = 200 then
    (p.setStatus "Rendezvous.gen_response OK".toList).handleResponse opens reply.responseText
  else .ok (p.setStatus "Rendezvous.gen_response **NOT** OK".toList)

/-- `Rendezvous.process_image` and `Rendezvous.forward_image`. -/
def processImage (p : Page) (reply : Reply) : Page :=
  if reply.status = 200 then
    let contentType := jsString (reply.getResponseHeader "Content-Type".toList)
    (p.setStatus ("Freedom response OK: ".toList ++ contentType)).send
      (.image contentType (reply.response.getD []))
  else p.setStatus "Freedom response  **NOT** OK".toList

def isObject : Value → Bool
  | .null | .object _ | .array _ => true
  | _ => false

/-- What both handlers of JSON do with it: `use` gets an object that is not null. The text
of an exception is not kept. -/
def withObject (p : Page) (reply : Reply) (noParse noObject : CStr)
    (use : Value → Except Page Page) : Except Page Page :=
  match JsonText.parse reply.responseText with
  | none => .ok (p.setStatus noParse)
  | some robj =>
    if truthy (some robj) && isObject robj then use robj
    else if isObject robj then .ok p
    else .ok (p.setStatus noObject)

def imagePostResponse (p : Page) (reply : Reply) : Except Page Page :=
  if reply.status = 200 then
    let p := p.setStatus "This image contains your stegged onion!".toList
    p.withObject reply "Image post response failed to parse as JSON: ".toList
      "Image post is not a JSON object".toList p.prepareForPeeling
  else .ok (p.setStatus "Image post **NOT** OK".toList)

/-- What `Rendezvous.handle_peel_response` does with an object. -/
def peelResponse (p : Page) (robj : Value) : Except Page Page :=
  let p := p.setStatusValue (robj.get "status".toList)
  match robj.get "onion_type".toList with
  | some (.string (c :: onionType)) => p.updateDisplay (c :: onionType) robj
  | other => .ok (p.setStatus "Peel response did not have onion_type: ".toList other)

def handlePeelResponse (p : Page) (reply : Reply) : Except Page Page :=
  if reply.status = 200 then
    p.withObject reply "Peel response failed to parse as JSON: ".toList
      "Peel response is not a JSON object".toList p.peelResponse
  else .ok (p.setStatus "Rendezvous.peel **NOT** OK".toList)

def onreadystatechange (p : Page) (opens : CStr → Bool) (reply : Reply) : Call → Except Page Page
  | .reset => .ok (p.resetResponse reply)
  | .genRequest _ _ => p.handleGenResponse opens reply
  | .freedom _ => .ok (p.processImage reply)
  | .image _ _ => p.imagePostResponse reply
  | .peel _ => p.handlePeelResponse reply

/-- What is left when a handler is through, thrown or not. -/
def settle : Except Page Page → Page
  | .ok p => p
  | .error p => p

def fire (answer : CStr) (p : Page) : Listener → Page
  | .peelAway => p.peelAway
  | .powCommence => p.powCommence
  | .peelCaptcha =>
    if answer = [] then p.setStatus "You need to solve the captcha".toList
    else p.peel (some answer)
  | .dance => { p with dances := p.dances + 1 }

def pressable (p : Page) (button : Peeler) : Bool :=
  button ∈ p.controls && !(button = .pow && p.powPeelerDisabled)

inductive Event
  | click (button : Peeler) (answer : CStr)
  /-- `#mod_freedom` is pressed. -/
  | go (address : CStr) (ssl : Bool)
  | timeout
  | complete (i : ℕ) (reply : Reply)

def step (opens : CStr → Bool) (p : Page) : Event → Option Page
  | .click button answer =>
    if p.pressable button then some ((p.listeners button).foldl (fire answer) p) else none
  | .go address ssl =>
    if p.fetching && !p.modFreedomDisabled then some (p.sendUrl address ssl) else none
  | .timeout =>
    match p.timers with
    | 0 => none
    | timers + 1 => some { p with timers }.peelAway
  | .complete i reply =>
    (p.xhrs[i]?.bind fun n => p.calls[n]?).map fun call =>
      settle ({ p with xhrs := p.xhrs.eraseIdx i }.onreadystatechange opens reply call)

def machine (opens : CStr → Bool) : Machine Page Event := ⟨step opens⟩

inductive Step (opens : CStr → Bool) (p : Page) : Event → Page → Prop
  | click {button answer} : p.pressable button →
      Step opens p (.click button answer) ((p.listeners button).foldl (fire answer) p)
  | go {address ssl} : p.fetching → p.modFreedomDisabled = false →
      Step opens p (.go address ssl) (p.sendUrl address ssl)
  | timeout {timers} : p.timers = timers + 1 →
      Step opens p .timeout { p with timers }.peelAway
  | complete {i n call reply} : p.xhrs[i]? = some n → p.calls[n]? = some call →
      Step opens p (.complete i reply)
        (settle ({ p with xhrs := p.xhrs.eraseIdx i }.onreadystatechange opens reply call))

theorem step_cases {opens : CStr → Bool} {p p' : Page} {e : Event}
    (moved : step opens p e = some p') : Step opens p e p' := by
  cases e with
  | click button answer =>
    simp only [step, Option.ite_none_right_eq_some, Option.some.injEq] at moved
    obtain ⟨pressable, rfl⟩ := moved
    exact .click pressable
  | go address ssl =>
    simp only [step, Option.ite_none_right_eq_some, Option.some.injEq, Bool.and_eq_true,
      Bool.not_eq_true'] at moved
    obtain ⟨⟨fetching, enabled⟩, rfl⟩ := moved
    exact .go fetching enabled
  | timeout =>
    simp only [step] at moved
    split at moved
    next => cases moved
    next running =>
      cases moved
      exact .timeout running
  | complete i reply =>
    obtain ⟨call, made, rfl⟩ := Option.map_eq_some_iff.mp moved
    obtain ⟨n, under_way, made⟩ := Option.bind_eq_some_iff.mp made
    exact .complete under_way made

def init : Page := (({} : Page).send .reset).addEventListener .signed .peelAway

end Page

end Jumpbox.Plugin.RendezvousPage
