import Jumpbox.Answer.Invocation

/-! The branches of an invocation. It slips where an error has been sent before and is sent
or closed again, where a body is not JSON and nothing is sent, where no memory is found for
the body, where the process ends, and where what it does is undefined. Everywhere else it
leaves a body to be read or it answers once. -/

namespace Jumpbox.Answer

def Invocation.terminals (i : Invocation) : ℕ := i.outs.count .done + i.handed

def AnsweredOnce (all : List Invocation) : Prop :=
  (all.map Invocation.terminals).sum = 1 ∧ ∀ i ∈ all, i.reads = true → i.terminals = 0

instance (all : List Invocation) : Decidable (AnsweredOnce all) :=
  inferInstanceAs (Decidable (_ ∧ _))

/-! What a handler is given decides which of the three it does. -/

def Arms (hcl : HttpsrvClient) (alloc : Bool) : Prop :=
  hcl.readbody = false ∧ hcl.contentLength ≠ 0 ∧ alloc = true

def NoMemory (hcl : HttpsrvClient) (alloc : Bool) : Prop :=
  hcl.readbody = false ∧ hcl.contentLength ≠ 0 ∧ alloc = false

def numberOf (net : Option Acs.Net) (var : CStr) : Option ℚ :=
  (net.bind fun n => n.value.get var).bind Acs.Json.numberValue

/-- `acs_initial_answer` goes on to `acs_wait`, which finds both numbers and has 0 as window. -/
def DividesByZero (env : Acs.Env) (reply : ℕ → (o : Acs.Op) → o.Result) (hcl : HttpsrvClient) :
    Prop :=
  atoi hcl.user.httpcode = 200 ∧ (reply 2 .threadKeepRunning : Bool) = true ∧
    (∃ window ∈ numberOf (reply 3 .lNet) "window".toList, Acs.toUint64 env window = 0) ∧
    (numberOf (reply 4 .lNet) "wait".toList).isSome

/-- The error of `djb_find_req_dh` is followed by an end, or the process ends in a callback. -/
def PushSlips (S : Setting) (m : Moment) (hcl : HttpsrvClient) : Prop :=
  match Proxy.djbFindReqDh m.proxy m.proxy.lstProxyOut hcl.user with
  | .error _ => True
  | .ok (pr, _) => (m.proxy.mem pr).hcl.user.push = some .acsInitialAnswer ∧
      DividesByZero S.acs m.acs hcl

def PushAwaits (m : Moment) (hcl : HttpsrvClient) : Prop :=
  ∃ pr rest, Proxy.djbFindReqDh m.proxy m.proxy.lstProxyOut hcl.user = .ok (pr, rest) ∧
    (m.proxy.mem pr).hcl.user.push = some .acsRedirectAnswer ∧ atoi hcl.user.httpcode = 200 ∧
    Arms hcl (m.acs 0 .httpsrvReadbodyAlloc)

def SetupSlips (m : Moment) (hcl : HttpsrvClient) : Prop :=
  hcl.method = .post ∧ hcl.readbody = true ∧ m.acs 0 (.jsonLoads (Acs.cstring hcl.body)) = none

def SetupAwaits (m : Moment) (hcl : HttpsrvClient) : Prop :=
  hcl.method = .post ∧ Arms hcl (m.acs 0 .httpsrvReadbodyAlloc)

section Rendezvous

open Rendezvous

variable (ext : Ext) (c : Choice) (s : State) (hcl : HttpsrvClient)

def BodySlips (slips : Prop) : Prop :=
  hcl.method = .post ∧ (NoMemory hcl c.httpsrvReadbodyAlloc ∨ hcl.readbody = true ∧ slips)

def BodyAwaits : Prop := hcl.method = .post ∧ Arms hcl c.httpsrvReadbodyAlloc

def PeelSlips : Prop :=
  ∃ root, jsonLoads ext c.jsonLoads (Acs.cstring hcl.body) = some root ∧ root.isObject = true ∧
    ∃ o, s.lCurrentOnion = some o ∧ (s.mem o).onion.isOnion = true ∧
      (s.mem o).onion.type ∉ [base, pow, captcha, signed]

def RdvSlips : Prop :=
  let query := hcl.uri.drop 12
  if strcaseEq query "reset".toList then False
  else if strcaseEq query "gen_request".toList then
    BodySlips c hcl (jsonLoads ext c.jsonLoads (Acs.cstring hcl.body) = none)
  else if strcaseEq query "image".toList then
    BodySlips c hcl (ext.extractNSave s.lPassword hcl.body = none)
  else if strcaseEq query "peel".toList then BodySlips c hcl (PeelSlips ext c s hcl)
  else if strncaseEq query "file/".toList 5 then filePrefix.isPrefixOf (query.drop 4) = false
  else False

def RdvAwaits : Prop :=
  let query := hcl.uri.drop 12
  if strcaseEq query "reset".toList then False
  else if strcaseEq query "gen_request".toList then BodyAwaits c hcl
  else if strcaseEq query "image".toList then BodyAwaits c hcl
  else if strcaseEq query "peel".toList then BodyAwaits c hcl
  else False

end Rendezvous

/-- The invocation takes a branch that answers twice or not at all. -/
def Slips (S : Setting) (m : Moment) (hcl : HttpsrvClient) : Prop :=
  match Jumpbox.djbHandleApi hcl.uri with
  | .push => PushSlips S m hcl
  | .acsSetup => SetupSlips m hcl
  | .rendezvous => S.djbRendezvous = true ∧
      (rdvAsserts S.rdv m.rdvChoice m.rdv hcl = false ∨ RdvSlips S.rdv m.rdvChoice m.rdv hcl)
  | .prfSet => NoMemory hcl m.httpsrvReadbodyAlloc
  | .launchStegotorus =>
    argvOf (Preferences.prfGetArgv m.strdup S.forced m.calloc m.prefs) = none
  | _ => False

def Awaits (S : Setting) (m : Moment) (hcl : HttpsrvClient) : Prop :=
  match Jumpbox.djbHandleApi hcl.uri with
  | .push => PushAwaits m hcl
  | .acsSetup => SetupAwaits m hcl
  | .rendezvous => S.djbRendezvous = true ∧ RdvAwaits m.rdvChoice hcl
  | .prfSet => Arms hcl m.httpsrvReadbodyAlloc
  | _ => False

structure Invocation.Splits (i : Invocation) (slips awaits : Prop) : Prop where
  slip : slips → i.terminals ≠ 1 ∧ i.reads = false
  wait : awaits → i.terminals = 0 ∧ i.reads = true ∧ i.returned = false
  answer : ¬slips → ¬awaits → i.terminals = 1 ∧ i.reads = false

namespace Invocation.Splits

variable {i : Invocation} {slips awaits : Prop}

theorem of_slip (never : ¬awaits) (slipped : i.terminals ≠ 1) (idle : i.reads = false)
    (here : slips) : i.Splits slips awaits :=
  ⟨fun _ => ⟨slipped, idle⟩, fun await => absurd await never, fun clean => absurd here clean⟩

theorem of_wait (never : ¬slips) (none_sent : i.terminals = 0) (armed : i.reads = true)
    (more : i.returned = false) (here : awaits) : i.Splits slips awaits :=
  ⟨fun slip => absurd slip never, fun _ => ⟨none_sent, armed, more⟩,
    fun _ await => absurd here await⟩

theorem of_answer (never : ¬slips) (quiet : ¬awaits) (once : i.terminals = 1)
    (idle : i.reads = false) : i.Splits slips awaits :=
  ⟨fun slip => absurd slip never, fun await => absurd await quiet, fun _ _ => ⟨once, idle⟩⟩

theorem always (once : i.terminals = 1) (idle : i.reads = false) : i.Splits False False :=
  of_answer id id once idle

theorem not_awaited (h : i.Splits slips awaits) (never : ¬awaits) : i.Splits slips False :=
  ⟨h.slip, False.elim, fun clean _ => h.answer clean never⟩

theorem two_once_iff {second : Invocation} {slips' : Prop} (first : i.Splits slips awaits)
    (last : second.Splits slips' False) :
    AnsweredOnce (i :: if i.reads then [second] else []) ↔ ¬slips ∧ (awaits → ¬slips') := by
  unfold AnsweredOnce
  by_cases slip : slips
  · obtain ⟨off, idle⟩ := first.slip slip
    simp [idle, off, slip]
  · by_cases await : awaits
    · obtain ⟨none_sent, armed, _⟩ := first.wait await
      by_cases slip' : slips'
      · obtain ⟨off, _⟩ := last.slip slip'
        simp [armed, none_sent, off, slip', await]
      · obtain ⟨once, idle⟩ := last.answer slip' id
        simp [armed, none_sent, once, idle, slip, slip']
    · obtain ⟨once, idle⟩ := first.answer slip await
      simp [idle, once, slip, await]

end Invocation.Splits

@[simp] theorem djbError_done (code : ℕ) (msg : CStr) : (djbError code msg).count .done = 1 := by
  simp [djbError]

@[simp] theorem djbPresult_done (msg : CStr) : (djbPresult msg).count .done = 1 := by
  simp [djbPresult, httpOk]

@[simp] theorem djbResult_done (st : Acs.DjbStatus) (msg : CStr) :
    (Preferences.djbResult st msg).count .done = 1 := by
  simp [Preferences.djbResult]

@[simp] theorem pushReply_done (text : String) : (Proxy.pushReply text).count .done = 1 := by
  simp [Proxy.pushReply, httpOk]

/-! `rendezvous.c`. -/

section Rendezvous

open Rendezvous

variable (ext : Ext) (c : Choice) (s : State) (hcl : HttpsrvClient)

@[simp] theorem rdvHandled_terminals (h : Handled) :
    (rdvHandled h).terminals = h.outs.count .done := rfl

@[simp] theorem rdvHandled_reads (h : Handled) : (rdvHandled h).reads = h.reads := rfl

theorem withBody_splits {noPost noLength : CStr} {handle : List UInt8 → Handled} {slips : Prop}
    (body : (rdvHandled (handle hcl.body)).Splits slips False) :
    (rdvHandled (withBody c s hcl noPost noLength handle)).Splits (BodySlips c hcl slips)
      (BodyAwaits c hcl) := by
  unfold withBody
  split
  next other =>
    exact .of_answer (fun slip => other slip.1) (fun await => other await.1) (by simp) rfl
  next post =>
    have post : hcl.method = .post := not_not.mp post
    split
    next unread =>
      split
      next empty =>
        refine .of_answer ?_ (fun await => await.2.2.1 empty) (by simp) rfl
        rintro ⟨_, noMemory | ⟨read, _⟩⟩
        · exact noMemory.2.1 empty
        · simp [unread] at read
      next length =>
        cases alloc : c.httpsrvReadbodyAlloc with
        | true =>
          refine .of_wait ?_ rfl rfl rfl ⟨post, unread, length, alloc⟩
          rintro ⟨_, noMemory | ⟨read, _⟩⟩
          · exact absurd noMemory.2.2 (by simp [alloc])
          · simp [unread] at read
        | false =>
          refine .of_slip (fun await => ?_) Nat.zero_ne_one rfl
            ⟨post, .inl ⟨unread, length, alloc⟩⟩
          exact absurd await.2.2.2 (by simp [alloc])
    next read =>
      have slips_iff : BodySlips c hcl slips ↔ slips := by
        simp [BodySlips, NoMemory, post, read]
      have awaits_iff : BodyAwaits c hcl ↔ False := by simp [BodyAwaits, Arms, read]
      rw [slips_iff, awaits_iff]
      exact body

theorem rdvGenRequestAux_answers (server : CStr) (secure : Bool) :
    (rdvHandled (rdvGenRequestAux ext c s server secure)).terminals = 1 ∧
      (rdvHandled (rdvGenRequestAux ext c s server secure)).reads = false := by
  unfold rdvGenRequestAux
  split
  · simp
  · dsimp only
    split <;> simp

theorem rdvGenRequest_splits :
    (rdvHandled (rdvGenRequest ext c s hcl)).Splits
      (BodySlips c hcl (jsonLoads ext c.jsonLoads (Acs.cstring hcl.body) = none))
      (BodyAwaits c hcl) := by
  refine withBody_splits c s hcl ?_
  dsimp only
  split
  next failed => exact .of_slip id Nat.zero_ne_one rfl failed
  next root loaded =>
    have never : ¬jsonLoads ext c.jsonLoads (Acs.cstring hcl.body) = none := by simp [loaded]
    split
    next server _ =>
      obtain ⟨once, idle⟩ := rdvGenRequestAux_answers ext c s server _
      exact .of_answer never id once idle
    · exact .of_answer never id (by simp) rfl

theorem rdvImage_splits :
    (rdvHandled (rdvImage ext c s hcl)).Splits
      (BodySlips c hcl (ext.extractNSave s.lPassword hcl.body = none)) (BodyAwaits c hcl) := by
  refine withBody_splits c s hcl ?_
  dsimp only
  split
  next failed => exact .of_slip id (by simp) rfl failed
  next encrypted extracted =>
    have never : ¬ext.extractNSave s.lPassword hcl.body = none := by simp [extracted]
    split
    · exact .of_answer never id (by simp) rfl
    · split
      · split
        · exact .of_answer never id (by simp) rfl
        · exact .of_answer never id (by simp) rfl
      · exact .of_answer never id (by simp) rfl

theorem peelSwitch_known (o : Ptr) (root : Acs.Json)
    (known : (s.mem o).onion.type ∈ [base, pow, captcha, signed]) :
    (peelSwitch ext c s o root).1 = [] := by
  unfold peelSwitch
  dsimp only
  split_ifs with isBase isPow isCaptcha isSigned
  · rfl
  · rfl
  · rfl
  · rfl
  · simp [isBase, isPow, isCaptcha, isSigned] at known

theorem peelSwitch_unknown (o : Ptr) (root : Acs.Json)
    (unknown : (s.mem o).onion.type ∉ [base, pow, captcha, signed]) :
    peelSwitch ext c s o root =
      (djbError 400 "Onion method not implemented yet".toList, s, none) := by
  simp only [List.mem_cons, List.not_mem_nil, or_false, not_or] at unknown
  simp [peelSwitch, unknown]

theorem rdvPeel_splits :
    (rdvHandled (rdvPeel ext c s hcl)).Splits (BodySlips c hcl (PeelSlips ext c s hcl))
      (BodyAwaits c hcl) := by
  refine withBody_splits c s hcl ?_
  split
  next failed =>
    exact .of_answer (fun slip => by simp [PeelSlips, failed] at slip) id (by simp) rfl
  next root loaded =>
    split
    next other =>
      exact .of_answer (fun slip => by simp [PeelSlips, loaded, other] at slip) id (by simp) rfl
    next isObject =>
      split
      next none_yet =>
        exact .of_answer (fun slip => by simp [PeelSlips, none_yet] at slip) id (by simp) rfl
      next o current =>
        split
        next broken =>
          refine .of_answer (fun slip => ?_) id (by simp) rfl
          simp [PeelSlips, current, broken] at slip
        next sound =>
          by_cases known : (s.mem o).onion.type ∈ [base, pow, captcha, signed]
          · have silent := peelSwitch_known ext c s o root known
            have never : ¬PeelSlips ext c s hcl := by
              rintro ⟨_, _, _, o', current', _, unknown⟩
              cases Option.some.inj (current.symm.trans current')
              exact unknown known
            rcases switched : peelSwitch ext c s o root with ⟨outs, s', response⟩
            obtain rfl : outs = [] := by rwa [switched] at silent
            cases response with
            | some response => exact .of_answer never id (by simp) rfl
            | none => exact .of_answer never id (by simp) rfl
          · rw [peelSwitch_unknown ext c s o root known]
            refine .of_slip id (by simp) rfl ⟨root, loaded, ?_, o, current, ?_, known⟩
            · exact Bool.not_eq_false _ ▸ isObject
            · exact Bool.not_eq_false _ ▸ sound

theorem rdvFile_splits (file : CStr) :
    (rdvHandled (rdvFile s file)).Splits (filePrefix.isPrefixOf file = false) False := by
  unfold rdvFile
  split
  next served => exact .of_answer (by simp [served]) id (by simp) rfl
  next forbidden => exact .of_slip id (by simp) rfl (Bool.not_eq_true _ ▸ forbidden)

theorem rdvHandle_splits :
    (rdvHandled (rdvHandle ext c s hcl)).Splits (RdvSlips ext c s hcl) (RdvAwaits c hcl) := by
  unfold rdvHandle RdvSlips RdvAwaits
  dsimp only
  split
  · exact .always (by simp [rdvReset]) rfl
  · split
    · exact rdvGenRequest_splits ext c s hcl
    · split
      · exact rdvImage_splits ext c s hcl
      · split
        · exact rdvPeel_splits ext c s hcl
        · split
          · exact rdvFile_splits s _
          · exact .always (by simp) rfl

theorem RdvAwaits.unread {c : Choice} {hcl : HttpsrvClient} (h : RdvAwaits c hcl) :
    hcl.readbody = false := by
  unfold RdvAwaits at h
  dsimp only at h
  split at h
  · exact h.elim
  · split at h
    · exact h.2.1
    · split at h
      · exact h.2.1
      · split at h
        · exact h.2.1
        · exact h.elim

theorem rdvAsserts_of_unread (unread : hcl.readbody = false) :
    rdvAsserts ext c s hcl = true := by
  simp [rdvAsserts, unread]

theorem rdvServed_splits :
    (if rdvAsserts ext c s hcl then rdvHandled (rdvHandle ext c s hcl) else {}).Splits
      (rdvAsserts ext c s hcl = false ∨ RdvSlips ext c s hcl) (RdvAwaits c hcl) := by
  cases holds : rdvAsserts ext c s hcl with
  | true => simpa only [if_true, Bool.true_eq_false, false_or] using rdvHandle_splits ext c s hcl
  | false =>
    refine .of_slip (fun await => ?_) Nat.zero_ne_one rfl (.inl rfl)
    exact Bool.noConfusion (holds.symm.trans (rdvAsserts_of_unread ext c s hcl await.unread))

end Rendezvous

/-! `preferences.c`. -/

theorem prfSet_splits (S : Setting) (m : Moment) (hcl : HttpsrvClient) :
    (prfSet S m hcl).Splits (NoMemory hcl m.httpsrvReadbodyAlloc)
      (Arms hcl m.httpsrvReadbodyAlloc) := by
  unfold prfSet Preferences.prfSet
  split
  next unread =>
    split
    next empty =>
      refine .of_answer (fun slip => slip.2.1 empty) (fun await => await.2.1 empty) ?_ rfl
      simp [Invocation.terminals]
    next length =>
      cases alloc : m.httpsrvReadbodyAlloc with
      | true =>
        exact .of_wait (fun slip => by simp [NoMemory] at slip) rfl rfl rfl ⟨unread, length, rfl⟩
      | false =>
        exact .of_slip (fun await => by simp [Arms] at await) Nat.zero_ne_one rfl
          ⟨unread, length, rfl⟩
  next read =>
    have never : ¬NoMemory hcl m.httpsrvReadbodyAlloc := fun slip => read slip.1
    have busy : ¬Arms hcl m.httpsrvReadbodyAlloc := fun await => read await.1
    split
    · exact .of_answer never busy (by simp [Invocation.terminals]) rfl
    · exact .of_answer never busy (by simp [Invocation.terminals]) rfl

theorem prfBrList_done (k : Preferences.Pack) (list : Option Acs.Json) :
    (Preferences.prfBrList k list).count .done = 1 := by
  unfold Preferences.prfBrList
  split
  · exact djbResult_done _ _
  · split
    · split
      · exact djbResult_done _ _
      · split
        · split
          · exact djbResult_done _ _
          · split
            · split
              · exact djbResult_done _ _
              · exact djbResult_done _ _
            · exact djbResult_done _ _
        · exact djbResult_done _ _
    · exact djbResult_done _ _

end Jumpbox.Answer
