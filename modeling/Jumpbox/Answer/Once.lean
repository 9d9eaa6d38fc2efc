import Jumpbox.Answer.Quiet

/-! Is every request of the API answered exactly once? The routes of `djb_handle_api` put
together, and its invocations for one request. -/

namespace Jumpbox.Answer

theorem djbFindReqDh_error {s : Proxy.State} {lst : List Proxy.Ptr} {dh : DjbHeaders}
    {outs : List Out} (failed : Proxy.djbFindReqDh s lst dh = .error outs) :
    outs.count .done = 1 := by
  unfold Proxy.djbFindReqDh at failed
  split at failed
  · cases failed
    exact djbError_done 504 _
  · split at failed
    · cases failed
      exact djbError_done 504 _
    · split at failed
      · cases failed
        exact djbError_done 504 _
      · split at failed
        · cases failed
          exact djbError_done 404 _
        · cases failed

theorem djbPush_splits (S : Setting) (m : Moment) (hcl : HttpsrvClient) :
    (djbPush S m hcl).Splits (PushSlips S m hcl) (PushAwaits m hcl) := by
  cases found : Proxy.djbFindReqDh m.proxy m.proxy.lstProxyOut hcl.user with
  | error outs =>
    have never : ¬PushAwaits m hcl := by
      rintro ⟨_, _, found', _⟩
      cases found.symm.trans found'
    have slips : PushSlips S m hcl := by
      rw [PushSlips, found]
      trivial
    have once := djbFindReqDh_error found
    simp only [djbPush, found]
    refine .of_slip never ?_ rfl slips
    simp [Invocation.terminals, once]
  | ok held =>
    obtain ⟨pr, rest⟩ := held
    have slips_iff : PushSlips S m hcl ↔ (m.proxy.mem pr).hcl.user.push = some .acsInitialAnswer ∧
        DividesByZero S.acs m.acs hcl := by
      simp only [PushSlips, found]
    have awaits {call : DjbPushF} (inside : (m.proxy.mem pr).hcl.user.push = some call)
        (await : PushAwaits m hcl) :
        Wants call hcl ∧ (m.acs 0 .httpsrvReadbodyAlloc : Bool) = true := by
      obtain ⟨_, _, found', callback, code, unread, length, alloc⟩ := await
      cases found.symm.trans found'
      cases inside.symm.trans callback
      exact ⟨⟨rfl, code, unread, length⟩, alloc⟩
    simp only [djbPush, found]
    split
    next call inside =>
      have once := pushReply_done "Internal Push Proxy successful\r\n"
      by_cases wants : Wants call hcl
      · have lasts : ¬PushSlips S m hcl := fun slip => by
          cases wants.1.symm.trans (Option.some.inj (inside.symm.trans (slips_iff.mp slip).1))
        rw [push_wants S wants]
        cases alloc : (m.acs 0 .httpsrvReadbodyAlloc : Bool) with
        | true =>
          obtain ⟨rfl, code, unread, length⟩ := wants
          exact .of_wait lasts rfl rfl rfl ⟨pr, rest, found, inside, code, unread, length, alloc⟩
        | false =>
          refine .of_answer lasts (fun await => ?_) once rfl
          exact absurd (alloc.symm.trans (awaits inside await).2) Bool.false_ne_true
      · have quiet : ¬PushAwaits m hcl := fun await => wants (awaits inside await).1
        by_cases slip : PushSlips S m hcl
        · obtain ⟨initial, zero⟩ := slips_iff.mp slip
          cases inside.symm.trans initial
          rw [push, (acsInitialAnswer_ran S.acs hcl _).1 zero]
          exact .of_slip quiet Nat.zero_ne_one rfl slip
        · have through := @push_through m.acs S call hcl (m.proxy.mem pr).hcl wants fun zero =>
            slip (slips_iff.mpr ⟨zero.1 ▸ inside, zero.2⟩)
          rw [through]
          exact .of_answer slip quiet once rfl
    next outside =>
      have lasts : ¬PushSlips S m hcl := fun slip => by
        cases outside.symm.trans (slips_iff.mp slip).1
      have busy : ¬PushAwaits m hcl := by
        rintro ⟨_, _, found', callback, _⟩
        cases found.symm.trans found'
        cases outside.symm.trans callback
      split
      · split
        · exact .of_answer lasts busy (pushReply_done "Push Forward successful\r\n") rfl
        · exact .of_answer lasts busy rfl rfl
      · exact .of_answer lasts busy (pushReply_done "Remote closed connection\r\n") rfl

theorem djbPull_splits (m : Moment) : (djbPull m).Splits False False := by
  unfold djbPull
  split
  · exact .always rfl rfl
  · exact .always (djbError_done 500 "Out of memory".toList) rfl

theorem djbLaunchSt_splits (S : Setting) (m : Moment) (hcl : HttpsrvClient) :
    (djbLaunchSt S m hcl).Splits
      (argvOf (Preferences.prfGetArgv m.strdup S.forced m.calloc m.prefs) = none) False := by
  unfold djbLaunchSt
  split
  next broken => exact .of_slip id Nat.zero_ne_one rfl broken
  next argv built =>
    refine .of_answer (fun broken => ?_) id (djbLaunch_answers _ hcl argv _ _ _) rfl
    cases built.symm.trans broken

theorem ite_ne_proxy {c : Prop} [Decidable c] {a b : Route} (first : a ≠ .proxy)
    (second : b ≠ .proxy) : (if c then a else b) ≠ .proxy := by
  split
  · exact first
  · exact second

theorem djbHandleApi_ne_proxy (uri : CStr) : Jumpbox.djbHandleApi uri ≠ .proxy := by
  unfold Jumpbox.djbHandleApi
  repeat' apply ite_ne_proxy
  all_goals exact Route.noConfusion

theorem djbHandleApi_splits (S : Setting) (m : Moment) (hcl : HttpsrvClient) :
    (djbHandleApi S m hcl).Splits (Slips S m hcl) (Awaits S m hcl) := by
  unfold djbHandleApi Slips Awaits
  have served := djbHandleApi_ne_proxy hcl.uri
  revert served
  generalize Jumpbox.djbHandleApi hcl.uri = route
  intro served
  cases route with
  | proxy => exact absurd rfl served
  | pull => exact djbPull_splits m
  | push => exact djbPush_splits S m hcl
  | acsSetup => exact acsSetup_splits m hcl
  | acsProgress =>
    obtain ⟨once, idle⟩ := acsProgress_answers S.acs hcl m.acs 0
    exact .always once idle
  | rendezvous =>
    dsimp only
    split
    next enabled =>
      simp only [enabled, true_and]
      exact rdvServed_splits S.rdv m.rdvChoice m.rdv hcl
    next disabled =>
      exact .of_answer (fun slip => disabled slip.1) (fun await => disabled await.1)
        (djbError_done 500 "Rendezvous module not enabled".toList) rfl
  | prfSet => exact prfSet_splits S m hcl
  | prfBrList => exact .always (prfBrList_done m.pack m.lBridgeAccessList) rfl
  | launchStegotorus => exact djbLaunchSt_splits S m hcl
  | launchTor => exact .always (djbLaunch_answers _ hcl torArgv _ _ _) rfl
  | shutdown => exact .always (djbError_done 200 "Shutting down".toList) rfl
  | error msg => exact .always (djbError_done 404 msg) rfl
  | status | css => exact .always rfl rfl

theorem returned_of_reads {S : Setting} {m : Moment} {hcl : HttpsrvClient}
    (armed : (djbHandleApi S m hcl).reads = true) : (djbHandleApi S m hcl).returned = false := by
  have splits := djbHandleApi_splits S m hcl
  by_cases slip : Slips S m hcl
  · exact Bool.noConfusion (armed.symm.trans (splits.slip slip).2)
  · by_cases await : Awaits S m hcl
    · exact (splits.wait await).2.2
    · exact Bool.noConfusion (armed.symm.trans (splits.answer slip await).2)

theorem Awaits.unread {S : Setting} {m : Moment} {hcl : HttpsrvClient} (h : Awaits S m hcl) :
    hcl.readbody = false := by
  unfold Awaits at h
  split at h
  · obtain ⟨_, _, _, _, _, arms⟩ := h
    exact arms.1
  · exact h.2.1
  · exact h.2.unread
  · exact h.1
  · exact h.elim

def plainSetting : Setting where
  djbRendezvous := false
  acs := {
    jsonLoads := fun _ => none
    jsonDumps := fun _ => []
    parseIso8601Interval := fun _ => none
    stegDecode := fun _ _ => none
    castOutOfRange := fun _ => 0 }
  rdv := default
  jsonLoads := fun _ => none
  forced := {}
  processCmdline := fun _ => []
  djbHtmlCss := []

def atRest : Moment where
  proxy := Proxy.init 1 1
  mcalloc := true
  acs := fun _ o => by cases o <;>
    first | exact () | exact true | exact none | exact (0 : UInt64) | exact Acs.Start.nothing |
      exact (⟨.err, []⟩ : Acs.AcsMsg)
  rdv := {}
  rdvChoice := {}
  prefs := {}
  memory := {}
  httpsrvReadbodyAlloc := true
  lBridgeAccessList := none
  pack := { dumps := fun _ => none, text := fun _ => none }
  calloc := true
  strdup := fun _ => true
  launch := fun _ o => by cases o <;> first | exact () | exact true | exact (0 : ℤ)
  statusPage := []

end Jumpbox.Answer
