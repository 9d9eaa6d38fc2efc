import Jumpbox.Acs.State
import Jumpbox.Library.Prog

/-! The functions of `acs.c`, and of `rdv_peel_base` what concerns the NET, as
programs of the operations. The calls of `log_dbg` and `log_err` are left out. -/

namespace Jumpbox.Acs

open Prog

abbrev AcsM := Prog Op Op.Result

def cstring (bytes : List UInt8) : CStr :=
  (bytes.takeWhile (· ≠ 0)).map fun b => Char.ofNat b.toNat

def printU64 (n : UInt64) : CStr := Nat.toDigits 10 n.toNat

structure Borrowed where
  text : CStr
  net : Option Net

def acsStatus (st : DjbStatus) (text : CStr) (borrowed : Option Net := none) : AcsM Unit :=
  perform (Op.status st text borrowed)

def acsSitdown : AcsM Unit := perform Op.sitdown
def threadKeepRunning : AcsM Bool := perform Op.threadKeepRunning
def takeNet (net : Option Net) : AcsM Bool := perform (Op.takeNet net)
def jsonIsObject (net : Net) : AcsM Bool := perform (Op.jsonIsObject net)
def jsonDumps (net : Net) : AcsM (Option CStr) := perform (Op.jsonDumps net)
def jsonIncref (net : Net) : AcsM Unit := perform (Op.jsonIncref net)
def dropNet : AcsM Unit := perform Op.dropNet
def unlockNet : AcsM Unit := perform Op.unlockNet
def jsonLoads (text : CStr) : AcsM (Option Net) := perform (Op.jsonLoads text)
def jsonDecref (net : Net) : AcsM Unit := perform (Op.jsonDecref net)
def lNet : AcsM (Option Net) := perform Op.lNet
def httpsrvNewcl : AcsM (Option ℕ) := perform Op.httpsrvNewcl
def djbCreateUserdata : AcsM Bool := perform Op.djbCreateUserdata
def httpsrvClose (client : ℕ) : AcsM Unit := perform (Op.httpsrvClose client)
def httpsrvClientDestroy (client : ℕ) : AcsM Unit := perform (Op.httpsrvClientDestroy client)
def httpsrvReadbodyAlloc : AcsM Bool := perform Op.httpsrvReadbodyAlloc
def prfSetBridgeAccessList (br : CStr) : AcsM Bool := perform (Op.prfSetBridgeAccessList br)
def generateRandomNumber : AcsM UInt64 := perform Op.generateRandomNumber
def time : AcsM UInt64 := perform Op.time
def modulo (n d : UInt64) : AcsM UInt64 := perform (Op.modulo n d)
def threadSleep (msec : UInt64) : AcsM Bool := perform (Op.threadSleep msec)
def startDance : AcsM Start := perform Op.startDance
def listPop : AcsM (Option AcsMsg) := perform Op.listPop
def condWait : AcsM AcsMsg := perform Op.condWait
def listDestroy : AcsM Unit := perform Op.listDestroy

def djbProxyAdd (client : ℕ) (push : DjbPushF) (hostname : Borrowed) (rawuri : CStr) : AcsM Bool :=
  perform (Op.djbProxyAdd ⟨client, push, hostname.text, rawuri⟩ hostname.net)

def djbResult (hcl : HttpsrvClient) (st : DjbStatus) (msg : CStr) : AcsM Unit :=
  perform (Op.answer hcl [.result (statusName st) msg, .done])

def djbErrorAnswer (hcl : HttpsrvClient) (code : ℕ) (msg : CStr) : AcsM Unit :=
  perform (Op.answer hcl (djbError code msg))

def acsKeepRunning : AcsM Bool := do
  let keep ← threadKeepRunning
  if keep then return true
  acsStatus .err "ACS Dance slipped, aborting".toList
  acsSitdown
  return false

def acsCheckNet (net : Net) : AcsM Bool := do
  let isObject ← jsonIsObject net
  if isObject then return true
  acsStatus .err "Provided NET is not a JSON object".toList
  return false

def acsSetNet (net : Option Net) : AcsM Bool := do
  let taken ← takeNet net
  if taken then
    match net with
    | none => unlockNet
    | some net =>
      if ← acsCheckNet net then
        let j ← jsonDumps net
        match j with
        | some j => acsStatus .ok ("NET: ".toList ++ j)
        | none => pure ()
        jsonIncref net
        acsStatus .ok "Ready to Dance".toList
        unlockNet
      else
        dropNet
        unlockNet
    return true
  else
    acsStatus .err "Already dancing, can't replace NET".toList
    return false

def acsNetString (var desc : CStr) : AcsM (Option Borrowed) := do
  let net ← lNet
  match net.bind fun n => n.value.get var with
  | some (.string str) => return some ⟨str, net⟩
  | _ =>
    acsStatus .err ("No ".toList ++ desc ++ " in NET".toList)
    acsSitdown
    return none

def toUint64 (env : Env) (q : ℚ) : UInt64 :=
  let whole := q.num.tdiv q.den
  if 0 ≤ whole ∧ whole < 2 ^ 64 then UInt64.ofNat whole.toNat else env.castOutOfRange q

def acsNetNumber (env : Env) (var desc : CStr) : AcsM (Option UInt64) := do
  let net ← lNet
  match (net.bind fun n => n.value.get var).bind Json.numberValue with
  | some q => return some (toUint64 env q)
  | none =>
    acsStatus .err ("No ".toList ++ desc ++ " in NET".toList)
    acsSitdown
    return none

def acsSetup (hcl : HttpsrvClient) : AcsM Bool := do
  if hcl.method ≠ .post then
    djbResult hcl .err "Setup requires a POST to provide the NET".toList
    return true
  else if hcl.readbody = false then
    if hcl.contentLength = 0 then
      djbErrorAnswer hcl 400 "setup requires length".toList
      return true
    else
      let allocated ← httpsrvReadbodyAlloc
      if allocated then return false
      djbResult hcl .err "Out of Memory".toList
      return true
  else
    let root ← jsonLoads (cstring hcl.body)
    match root with
    -- the request is not answered at all
    | none => return true
    | some root =>
      let ok ← acsSetNet (some root)
      jsonDecref root
      if ok then
        djbResult hcl .ok "ACS setup successful".toList
        return true
      else
        djbResult hcl .err "Could not setup NET".toList
        return false

/-- What `rdv_peel_base` does with the onion's data, and what it makes its answer of. -/
def rdvPeelBase (nep : CStr) : AcsM (CStr × CStr) := do
  let root ← jsonLoads nep
  match root with
  | none => return ("Sorry your nep did not parse as JSON".toList, [])
  | some root =>
    let _ ← acsSetNet (some root)
    jsonDecref root
    return ("NET passed to ACS".toList, "Complete".toList)

def acsRequest (callback : DjbPushF) (hostname : Borrowed) (uri : CStr) : AcsM Bool := do
  if ← acsKeepRunning then
    let hcl ← httpsrvNewcl
    match hcl with
    | none =>
      acsStatus .err "Failed to create request".toList
      return false
    | some hcl =>
      let created ← djbCreateUserdata
      if created then
        djbProxyAdd hcl callback hostname uri
      else
        acsStatus .err "Failed to create userdata".toList
        httpsrvClose hcl
        return false
  else return true

def acsRedirectAnswer (env : Env) (shcl : HttpsrvClient) (hcl : ℕ) : AcsM Bool := do
  let i := atoi shcl.user.httpcode
  if i ≠ 200 then
    acsStatus .err
      ("ACS Redirect failed: ".toList ++ printU32 i ++ " ".toList ++ shcl.user.httptext)
    httpsrvClientDestroy hcl
    acsSitdown
    return true
  else if shcl.readbody = false then
    if shcl.contentLength = 0 then
      acsStatus .err "ACS Redirect failed: no length".toList
      acsSitdown
      return true
    else
      let allocated ← httpsrvReadbodyAlloc
      if allocated then return false
      acsStatus .err "ACS Redirect failed: no memory".toList
      acsSitdown
      return true
  else
    match env.stegDecode shcl.body shcl.contentType with
    | none =>
      acsStatus .err "ACS Redirect failed: desteg failed".toList
      acsSitdown
      return true
    | some ans =>
      acsStatus .ok
        ("ACS Redirect success: HTTP ".toList ++ printU32 i ++ " ".toList ++ shcl.user.httptext)
      let ok ← prfSetBridgeAccessList ans
      httpsrvClientDestroy hcl
      if ok then
        acsStatus .ok "ACS Dance complete".toList
        acsStatus .done ("ACS completed successfully, you can ".toList ++
          "launch Tor over StegoTorus over ".toList ++ "JumpBox/DGW".toList)
      else
        acsStatus .err "Unable to parse ACS received Bridge Access List".toList
      acsSitdown
      return true

def acsRedirect : AcsM Unit := do
  let redirect ← acsNetString "redirect".toList "Redirect Gateway".toList
  match redirect with
  | none => return
  | some redirect =>
    if ← acsRequest .acsRedirectAnswer redirect "/".toList then
      acsStatus .ok "Dancing: Redirect Request sent".toList
    else acsSitdown

def acsWait (env : Env) : AcsM Unit := do
  let window ← acsNetNumber env "window".toList "Delay window".toList
  match window with
  | none => return
  | some window =>
    let wait ← acsNetNumber env "wait".toList "Delay wait".toList
    match wait with
    | none => return
    | some wait =>
      let w ← generateRandomNumber
      let delay ← modulo w window
      let w := wait + delay
      acsStatus .ok ("Moonwalking for ".toList ++ printU64 w ++ " seconds...".toList)
      let slept ← threadSleep (w * 1000)
      if slept then
        acsStatus .ok "Moonwalk done".toList
        if ← acsKeepRunning then acsRedirect
      else acsStatus .err "Moonwalking aborted".toList

def acsInitialAnswer (env : Env) (shcl : HttpsrvClient) (hcl : ℕ) : AcsM Bool := do
  let i := atoi shcl.user.httpcode
  if i ≠ 200 then
    acsStatus .err
      ("ACS Initial failed: ".toList ++ printU32 i ++ " ".toList ++ shcl.user.httptext)
    httpsrvClientDestroy hcl
    acsSitdown
    return true
  else
    acsStatus .ok
      ("ACS Initial success: HTTP ".toList ++ printU32 i ++ " ".toList ++ shcl.user.httptext)
    httpsrvClientDestroy hcl
    if ← acsKeepRunning then acsWait env
    return true

def acsInitial : AcsM Unit := do
  let initial ← acsNetString "initial".toList "Initial Gateway".toList
  match initial with
  | none => return
  | some initial =>
    if ← acsRequest .acsInitialAnswer initial "/".toList then
      acsStatus .ok "Dancing: Initial Request sent".toList
    else acsSitdown

def acsWhen (env : Env) : AcsM Bool := do
  let net ← lNet
  match net.bind fun n => n.value.get "when".toList with
  | none =>
    acsStatus .ok "No NET 'when' thus NET is always valid".toList
    return true
  | some (.string text) =>
    match env.parseIso8601Interval text with
    | none =>
      acsStatus .err ("NET when (".toList ++ text ++ ") format is invalid".toList) net
      acsSitdown
      return false
    | some (start, finish) =>
      let now ← time
      if now < start then
        acsStatus .err ("NET when (".toList ++ text ++
          ") makes Discovery Provisioning not valid yet".toList) net
        acsSitdown
        return false
      else if finish ≤ now then
        acsStatus .err ("NET when (".toList ++ text ++
          ") notes that Discovery Provisioning expired".toList) net
        acsSitdown
        return false
      else
        acsStatus .ok ("NET 'when' (".toList ++ text ++
          ") indicates it is currently valid".toList) net
        return true
  | some _ =>
    acsStatus .err "NET 'when' is not a string, thus invalid".toList
    acsSitdown
    return false

/-- `acs_progress`, once it has decided whether to dance. -/
def acsDecided (env : Env) : Start → AcsM Unit
  | .noNet => acsStatus .err "No NET setup thus can't dance".toList
  | .start => do
    if ← acsWhen env then
      acsStatus .ok "Starting to dance...".toList
      acsInitial
  | .nothing => pure ()

def acsReport (hcl : HttpsrvClient) : AcsM Bool := do
  let m ← listPop
  match m with
  | some m => djbResult hcl m.status m.message
  | none =>
    let m ← condWait
    djbResult hcl m.status m.message
  return true

def acsProgress (env : Env) (hcl : HttpsrvClient) : AcsM Bool := do
  let decision ← startDance
  acsDecided env decision
  acsReport hcl

/-- The part of `djb_push` around the callback of an internal request. -/
def djbPushCallback (env : Env) (shcl : HttpsrvClient) (request : AcsRequest) : AcsM Unit := do
  let finished ← match request.push with
    | .acsInitialAnswer => acsInitialAnswer env shcl request.client
    | .acsRedirectAnswer => acsRedirectAnswer env shcl request.client
  if finished then return
  perform (Op.putBack request)

def acsExit : AcsM Unit := do
  acsSitdown
  let _ ← acsSetNet none
  listDestroy

end Jumpbox.Acs
