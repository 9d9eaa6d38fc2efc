import Jumpbox.Proxy.Step
import Jumpbox.Rendezvous.Handle
import Jumpbox.Launch.Stegotorus
import Mathlib.Data.List.ReduceOption

/-! One invocation of `djb_handle_api`: which calls it makes on its client, whether it
hands the request over, and whether it leaves a body to be read. The handlers are those of
the modules; what the threads of a module do meanwhile shows in the results of the
operations it performs. -/

namespace Jumpbox.Answer

open Acs (Json)

/-- What an invocation has done when it returns, its `posthandle` included. -/
structure Invocation where
  outs : List Out := []
  /-- How often the client was queued as a pull, or its body forwarded. -/
  handed : ℕ := 0
  reads : Bool := false
  returned : Bool := false

structure Setting where
  djbRendezvous : Bool
  acs : Acs.Env
  rdv : Rendezvous.Ext
  jsonLoads : CStr → Option Json
  forced : Preferences.Forced
  processCmdline : List CStr → CStr
  djbHtmlCss : CStr

/-- The state of the modules when an invocation begins, and what the calls return that it
makes: memory, reads, and the operations of ACS and of a launch, each by its number. -/
structure Moment where
  proxy : Proxy.State
  mcalloc : Bool
  acs : ℕ → (o : Acs.Op) → o.Result
  rdv : Rendezvous.State
  rdvChoice : Rendezvous.Choice
  prefs : Preferences.Prefs
  memory : Preferences.Memory
  httpsrvReadbodyAlloc : Bool
  lBridgeAccessList : Option Json
  pack : Preferences.Pack
  calloc : Bool
  strdup : ℕ → Bool
  launch : ℕ → (o : Launch.Op) → o.Result
  statusPage : CStr

/-- The process ends when `acs_wait` divides by zero. -/
def ends : ((o : Acs.Op) × o.Result) → Bool
  | ⟨.modulo _ d, _⟩ => d == 0
  | _ => false

/-- What a program of `acs.c` has done on the client, as long as the process lasted. -/
def acsRan (ran : List ((o : Acs.Op) × o.Result) × Bool) : Invocation where
  outs := (ran.1.takeWhile fun e => !ends e).flatMap fun
    | ⟨.answer _ outs, _⟩ => outs
    | _ => []
  reads := (ran.1.takeWhile fun e => !ends e).any fun
    | ⟨.httpsrvReadbodyAlloc, allocated⟩ => allocated
    | _ => false
  returned := ran.2 && !ran.1.any ends

def launched (ran : List ((o : Launch.Op) × o.Result) × Unit) : Invocation where
  outs := ran.1.flatMap fun
    | ⟨.answer _ outs, _⟩ => outs
    | _ => []

def rdvHandled (h : Rendezvous.Handled) : Invocation where
  outs := h.outs
  reads := h.reads

/-! The `fassert`s of `rendezvous.c`. One that fails ends the process. -/

section Asserts

open Rendezvous

def known (onion : Onion) : Bool := onion.type < onionNames.length

def rdvImageAsserts (ext : Ext) (s : State) (body : List UInt8) : Bool :=
  match (ext.extractNSave s.lPassword body).bind (ext.defiantPwdDecrypt s.lPassword) with
  | some (onion, onionSz) => !wellFormed ext onion onionSz || known onion
  | none => true

/-- A response names the onion that is current then: for a captcha that is answered and for a
signature that is verified, what was under it. -/
def rdvPeelAsserts (ext : Ext) (c : Choice) (s : State) (o : Ptr) (root : Json) : Bool :=
  let onion := (s.mem o).onion
  known onion &&
    if onion.type = captcha then
      match s.lCaptchaImagePath, root.get "action".toList with
      | none, _ => s.lCurrentImageDir.isSome
      | some _, some (.string answer) => (ext.peelCaptchaOnion answer onion).all known
      | some _, _ => true
    else if onion.type = signed then
      match c.publicKey with
      | some (some publicKey) =>
        !ext.verifyOnion publicKey onion || (ext.peelSignedOnion onion).all known
      | _ => true
    else true

def rdvAsserts (ext : Ext) (c : Choice) (s : State) (hcl : HttpsrvClient) : Bool :=
  let query := hcl.uri.drop 12
  if hcl.method ≠ .post || hcl.readbody = false then true
  else if strcaseEq query "image".toList then rdvImageAsserts ext s hcl.body
  else if strcaseEq query "peel".toList then
    match jsonLoads ext c.jsonLoads (Acs.cstring hcl.body), s.lCurrentOnion with
    | some root, some o =>
      !root.isObject || !(s.mem o).onion.isOnion || rdvPeelAsserts ext c s o root
    | _, _ => true
  else true

end Asserts

def djbPull (m : Moment) : Invocation :=
  if m.mcalloc then { handed := 1, returned := true }
  else { outs := djbError 500 "Out of memory".toList, returned := true }

/-- `pdh->push(hcl, pr->hcl)`. -/
def push (S : Setting) (callback : DjbPushF) (hcl client : HttpsrvClient) : Acs.AcsM Bool :=
  match callback with
  | .acsInitialAnswer => Acs.acsInitialAnswer S.acs hcl client.id.toNat
  | .acsRedirectAnswer => Acs.acsRedirectAnswer S.acs hcl client.id.toNat

def djbPush (S : Setting) (m : Moment) (hcl : HttpsrvClient) : Invocation :=
  match Proxy.djbFindReqDh m.proxy m.proxy.lstProxyOut hcl.user with
  -- `djb_find_req_dh` has sent the error already
  | .error outs => { outs := outs ++ [.done], returned := true }
  | .ok (pr, _) =>
    let client := (m.proxy.mem pr).hcl
    match client.user.push with
    | some callback =>
      let called := acsRan ((push S callback hcl client).trace m.acs 0)
      if called.returned then
        { called with
          outs := called.outs ++ Proxy.pushReply "Internal Push Proxy successful\r\n" }
      else called
    | none =>
      if m.proxy.connIsValid client then
        if hcl.contentLength = 0 then { outs := Proxy.pushReply "Push Forward successful\r\n" }
        else { handed := 1, returned := true }
      else { outs := Proxy.pushReply "Remote closed connection\r\n", returned := true }

/-- The vector that `djb_launch_st` can go on with. When `prf_get_argv` fails, `argv` has not
been set; a vector too long for its slots has been written past them; and no memory for the
executable leaves a `NULL` where `djb_launch` looks for a `/`. -/
def argvOf : Preferences.GetArgv → Option (List CStr)
  | .failed _ => none
  | .built argv =>
    if argv.argc < argv.slots.length then none
    else match argv.slots with
      | some exe :: rest => some (exe :: (rest.takeWhile Option.isSome).filterMap id)
      | _ => none

/-- What is undefined ends the invocation: nothing can be counted on after it. -/
def djbLaunchSt (S : Setting) (m : Moment) (hcl : HttpsrvClient) : Invocation :=
  match argvOf (Preferences.prfGetArgv m.strdup S.forced m.calloc m.prefs) with
  | none => {}
  | some argv =>
    launched ((Launch.djbLaunch S.processCmdline hcl argv .stegotorus).trace m.launch 0)

def torArgv : List CStr :=
  ["tor".toList, "-f".toList, "/usr/share/saferdefiance/djb.torrc".toList]

def djbLaunchTor (S : Setting) (m : Moment) (hcl : HttpsrvClient) : Invocation :=
  launched ((Launch.djbLaunch S.processCmdline hcl torArgv .tor).trace m.launch 0)

def prfSet (S : Setting) (m : Moment) (hcl : HttpsrvClient) : Invocation :=
  let set := Preferences.prfSet S.jsonLoads m.memory m.httpsrvReadbodyAlloc m.prefs hcl
  { outs := set.2.1, reads := set.2.2 }

def djbHandleApi (S : Setting) (m : Moment) (hcl : HttpsrvClient) : Invocation :=
  match Jumpbox.djbHandleApi hcl.uri with
  | .pull => djbPull m
  | .push => djbPush S m hcl
  | .acsSetup => acsRan ((Acs.acsSetup hcl).trace m.acs 0)
  | .acsProgress => acsRan ((Acs.acsProgress S.acs hcl).trace m.acs 0)
  | .rendezvous =>
    if S.djbRendezvous then
      if rdvAsserts S.rdv m.rdvChoice m.rdv hcl then
        rdvHandled (Rendezvous.rdvHandle S.rdv m.rdvChoice m.rdv hcl)
      else {}
    else { outs := djbError 500 "Rendezvous module not enabled".toList }
  | .prfSet => prfSet S m hcl
  | .prfBrList => { outs := Preferences.prfBrList m.pack m.lBridgeAccessList }
  | .shutdown => { outs := djbError 200 "Shutting down".toList, returned := true }
  | .launchStegotorus => djbLaunchSt S m hcl
  | .launchTor => djbLaunchTor S m hcl
  | .status => { outs := [httpOk (some .html), .put m.statusPage, .done] }
  | .css => { outs := [httpOk (some .css), .put S.djbHtmlCss, .done] }
  -- `acs_handle` returns true, the others false
  | .error msg => { outs := djbError 404 msg, returned := strncaseEq hcl.uri "/acs/".toList 5 }
  | .proxy => {}

/-- The invocations made for one request: a second one, with the body, when the first has
armed a read. -/
def invocations (S : Setting) (m₁ m₂ : Moment) (hcl : HttpsrvClient) : List Invocation :=
  let first := djbHandleApi S m₁ { hcl with readbody := false }
  first :: if first.reads then [djbHandleApi S m₂ { hcl with readbody := true }] else []

/-! A push in one piece and in the steps of the proxy: its client is told the same. -/

section Push

open Proxy

def repliesTo (s : Proxy.State) (hcl : HttpsrvClient) : List Out :=
  (s.log.filter fun w => w.cause = .reply hcl).map Write.out

theorem repliesTo_replies (s : Proxy.State) (hcl : HttpsrvClient) (outs : List Out) :
    repliesTo (s.replies hcl outs) hcl = repliesTo s hcl ++ outs := by
  have own : ∀ w ∈ outs.map fun out => (⟨.reply hcl, hcl.key, out⟩ : Write),
      decide (w.cause = .reply hcl) = true := by simp
  simp only [repliesTo, Proxy.State.replies, Proxy.State.writes, List.filter_append,
    List.map_append, List.filter_eq_self.mpr own, List.map_map]
  exact congrArg (_ ++ ·) (List.map_id outs)

theorem repliesTo_answer (s : Proxy.State) (hcl : HttpsrvClient) (dst : Key) (outs : List Out) :
    repliesTo (s.writes (.answer hcl) dst outs) hcl = repliesTo s hcl := by
  simp [repliesTo, List.filter_map, Function.comp_def]

variable (S : Setting) (m : Moment) (hcl : HttpsrvClient) {pr : Ptr} {rest : List Ptr} (t : ℕ)

theorem repliesTo_find {outs : List Out}
    (failed : djbFindReqDh m.proxy m.proxy.lstProxyOut hcl.user = .error outs)
    (pc : m.proxy.handlers[t]? = some (.find hcl)) :
    (djbHandler m.proxy t).map (repliesTo · hcl) =
      some (repliesTo m.proxy hcl ++ (djbPush S m hcl).outs) := by
  simp only [djbHandler, pc, failed, djbPush, Option.map_some]
  exact congrArg some (repliesTo_replies m.proxy hcl _)

theorem repliesTo_pushAnswer
    (found : djbFindReqDh m.proxy m.proxy.lstProxyOut hcl.user = .ok (pr, rest))
    (outside : (m.proxy.mem pr).hcl.user.push = none) :
    repliesTo (djbPushAnswer m.proxy t hcl pr) hcl =
      repliesTo m.proxy hcl ++ (djbPush S m hcl).outs := by
  have told := repliesTo_answer m.proxy hcl (m.proxy.mem pr).hcl.key (pushAnswer hcl)
  have replied (outs : List Out) := (repliesTo_replies (m.proxy.writes (.answer hcl)
    (m.proxy.mem pr).hcl.key (pushAnswer hcl)) hcl outs).trans (congrArg (· ++ outs) told)
  unfold djbPushAnswer djbPush
  simp only [found, outside]
  by_cases valid : m.proxy.connIsValid (m.proxy.mem pr).hcl = true
  · rw [if_pos valid, if_pos (by exact valid)]
    by_cases empty : hcl.contentLength = 0
    · rw [if_pos empty, if_pos empty]
      exact replied _
    · rw [if_neg empty, if_neg empty, List.append_nil]
      exact told
  · rw [if_neg valid, if_neg (by exact valid)]
    exact repliesTo_replies m.proxy hcl _

end Push

/-! A launch in one piece and as `djb_launch_st`: its client is told the same. -/

section Launch

open Launch

def launchOuts (steps : List ((o : StOp) × o.Result)) : List Out :=
  steps.flatMap fun
    | ⟨.launch (.answer _ outs), _⟩ => outs
    | _ => []

theorem launching_trace {α : Type} (p : LaunchM α) (reply : ℕ → (o : StOp) → o.Result)
    (start : ℕ) : (launching p).trace reply start =
      let ran := p.trace (fun n o => reply n (.launch o)) start
      (ran.1.map fun e => ⟨.launch e.1, e.2⟩, ran.2) := by
  induction p generalizing start with
  | done a => rfl
  | op o next ih =>
    have rest := ih (reply start (.launch o)) (start + 1)
    exact congrArg (fun ran : List ((o : StOp) × o.Result) × α =>
      ((⟨.launch o, reply start (.launch o)⟩ : (o : StOp) × o.Result) :: ran.1, ran.2)) rest

theorem texts_of_argvOf {argv : Preferences.Argv} {args : List CStr}
    (found : argvOf (.built argv) = some args) : texts argv = args := by
  unfold argvOf at found
  split at found
  next => contradiction
  next built =>
    split at found
    next => cases found
    next =>
      split at found
      next exe rest slots =>
        cases found
        obtain rfl := Preferences.GetArgv.built.inj built
        rw [texts, slots, List.takeWhile_cons_of_pos rfl, List.reduceOption_cons_of_some]
        rfl
      next => cases found

theorem djbLaunchSt_outs (S : Setting) (m : Moment) (hcl : HttpsrvClient) {args : List CStr}
    (found : argvOf (Preferences.prfGetArgv m.strdup S.forced m.calloc m.prefs) = some args)
    (reply : ℕ → (o : StOp) → o.Result) (same : (fun n o => reply n (.launch o)) = m.launch) :
    launchOuts ((Launch.djbLaunchSt S.processCmdline m.strdup S.forced m.calloc m.prefs hcl).trace
      reply 0).1 = (djbLaunchSt S m hcl).outs := by
  cases got : Preferences.prfGetArgv m.strdup S.forced m.calloc m.prefs with
  | failed left =>
    rw [got] at found
    cases found
  | built argv =>
    rw [got] at found
    rw [djbLaunchSt_built S.processCmdline hcl got, texts_of_argvOf found]
    have steps := congrArg Prod.fst (Prog.trace_bind reply 0
      (launching (djbLaunch S.processCmdline hcl args .stegotorus)) fun _ =>
        Prog.perform (StOp.prfFreeArgv (Preferences.unsigned argv.argc) (some argv)))
    refine (congrArg launchOuts steps).trans ?_
    rw [launching_trace, same]
    simp only [djbLaunchSt, got, found, launched, launchOuts, List.flatMap_append,
      List.flatMap_map]
    refine (List.append_nil _).trans (List.flatMap_congr fun e _ => ?_)
    obtain ⟨o, x⟩ := e
    cases o <;> rfl

end Launch

end Jumpbox.Answer
