import Jumpbox.Acs.Dance

/-! The part a thread plays in the dance, and that every function keeps to it.
A thread that dances ends its part by sitting down or by queueing a request that
goes on with it; only an interrupted `thread_sleep` lets it leave otherwise. -/

namespace Jumpbox.Acs

/-- `stage known` dances, and `known` is what it last read from `l_net`; `closing` has
only to sit down; `complains` has an error to record that ends no dance. A thread
that `owns` a NET has a reference to it; the next roles are in `acs_set_net`, all but
`refused` under its lock. The last five are the main thread's in `acs_exit`. -/
inductive Role
  | outside
  | complains
  | stage (known : Option Net)
  | closing
  | owns (net : Net)
  | refused (net : Net)
  | checking (net : Net)
  | adopting (net : Net)
  | adopted (net : Net)
  | rejected (net : Net)
  | leaving
  | seated
  | exitLocked
  | cleared
  | gone

namespace Role

def may : Role → Op → Prop
  | .gone, _ => False
  | _, .answer _ _ | _, .listPop | _, .condWait | _, .httpsrvReadbodyAlloc => True
  | .outside, .status st _ borrowed => st = .ok ∧ borrowed = none
  | .outside, .startDance | .outside, .jsonLoads _ => True
  | .complains, .status st _ borrowed => st = .err ∧ borrowed = none
  | .stage known, .status _ _ borrowed | .stage known, .djbProxyAdd _ borrowed =>
    borrowed = none ∨ borrowed = known
  | .stage _, .lNet | .stage _, .threadKeepRunning | .stage _, .httpsrvNewcl
  | .stage _, .djbCreateUserdata | .stage _, .httpsrvClientDestroy _
  | .stage _, .generateRandomNumber | .stage _, .time | .stage _, .modulo _ _
  | .stage _, .threadSleep _ | .stage _, .prfSetBridgeAccessList _ | .stage _, .putBack _ => True
  | .closing, .sitdown | .closing, .httpsrvClose _ | .closing, .httpsrvClientDestroy _ => True
  | .owns net, .takeNet taken => taken = some net
  | .owns net, .jsonDecref other => other = net
  | .refused _, .status st _ borrowed => st = .err ∧ borrowed = none
  | .checking net, .jsonIsObject other => other = net
  | .checking _, .status st _ borrowed => st = .err ∧ borrowed = none
  | .checking _, .dropNet => True
  | .adopting net, .jsonDumps other | .adopting net, .jsonIncref other => other = net
  | .adopting _, .status st _ borrowed | .adopted _, .status st _ borrowed =>
    st = .ok ∧ borrowed = none
  | .adopted _, .unlockNet | .rejected _, .unlockNet | .exitLocked, .unlockNet => True
  | .leaving, .sitdown | .cleared, .listDestroy => True
  | .seated, .takeNet taken => taken = none
  | .cleared, .status st _ borrowed => st = .err ∧ borrowed = none
  | _, _ => False

def after : Role → (o : Op) → o.Result → Role
  | .outside, .startDance, .start => .stage none
  | .outside, .startDance, .noNet => .complains
  | .outside, .jsonLoads _, some net => .owns net
  | .complains, .status _ _ _, _ => .outside
  | .stage _, .status .err _ _, _ | .stage _, .status .done _ _, _ => .closing
  | .stage _, .lNet, net => .stage net
  | .stage _, .djbProxyAdd _ _, true | .stage _, .putBack _, _ => .outside
  | .stage _, .djbProxyAdd _ _, false => .closing
  | .stage _, .threadSleep _, false => .complains
  | .closing, .sitdown, _ => .outside
  | .owns net, .takeNet _, true => .checking net
  | .owns net, .takeNet _, false => .refused net
  | .owns _, .jsonDecref _, _ => .outside
  | .refused net, .status _ _ _, _ => .owns net
  | .checking net, .jsonIsObject _, true => .adopting net
  | .checking net, .dropNet, _ => .rejected net
  | .adopting net, .jsonIncref _, _ => .adopted net
  | .adopted net, .unlockNet, _ | .rejected net, .unlockNet, _ => .owns net
  | .leaving, .sitdown, _ => .seated
  | .seated, .takeNet _, true => .exitLocked
  | .seated, .takeNet _, false => .cleared
  | .exitLocked, .unlockNet, _ => .cleared
  | .cleared, .listDestroy, _ => .gone
  | role, _, _ => role

end Role

def discipline : Discipline Op Op.Result Role where
  may := Role.may
  after := Role.after

open Discipline (Follows)

theorem acsKeepRunning_follows (known : Option Net) :
    discipline.Follows (.stage known) acsKeepRunning fun keep role =>
      role = if keep then .stage known else .outside := by
  unfold acsKeepRunning
  refine .bind (.perform trivial fun keep => ?_)
  cases keep with
  | true => exact .pure rfl
  | false =>
    refine .bind (.perform (.inl rfl) fun _ => ?_)
    refine .bind (.perform trivial fun _ => ?_)
    exact .pure rfl

theorem sitdown_follows {known : Option Net} (text : CStr) {borrowed : Option Net}
    (live : borrowed = none ∨ borrowed = known) {α : Type} (a : α) {post : α → Role → Prop}
    (holds : post a .outside) :
    discipline.Follows (.stage known)
      (do acsStatus .err text borrowed; acsSitdown; return a) post := by
  refine .bind (.perform live fun _ => ?_)
  refine .bind (.perform trivial fun _ => ?_)
  exact .pure holds

theorem acsNetString_follows (known : Option Net) (var desc : CStr) :
    discipline.Follows (.stage known) (acsNetString var desc) fun found role =>
      match found with
      | some str => role = .stage str.net
      | none => role = .outside := by
  unfold acsNetString
  refine .bind (.perform trivial fun net => ?_)
  cases (net.bind fun n => n.value.get var) with
  | none => exact sitdown_follows _ (.inl rfl) none rfl
  | some found =>
    cases found with
    | string str => exact .pure rfl
    | _ => exact sitdown_follows _ (.inl rfl) none rfl

theorem acsNetNumber_follows (env : Env) (known : Option Net) (var desc : CStr) :
    discipline.Follows (.stage known) (acsNetNumber env var desc) fun found role =>
      match found with
      | some _ => ∃ known, role = .stage known
      | none => role = .outside := by
  unfold acsNetNumber
  refine .bind (.perform trivial fun net => ?_)
  cases (net.bind fun n => n.value.get var).bind Json.numberValue with
  | none => exact sitdown_follows _ (.inl rfl) none rfl
  | some q => exact .pure ⟨net, rfl⟩

theorem acsRequest_follows (known : Option Net) (callback : DjbPushF) (hostname : Borrowed)
    (uri : CStr) (live : hostname.net = known) :
    discipline.Follows (.stage known) (acsRequest callback hostname uri) fun sent role =>
      role = if sent then .outside else .closing := by
  unfold acsRequest
  refine .bind ((acsKeepRunning_follows known).mono fun keep role same => ?_)
  subst same
  cases keep with
  | false => exact .pure rfl
  | true =>
    refine .bind (.perform trivial fun hcl => ?_)
    cases hcl with
    | none =>
      refine .bind (.perform (.inl rfl) fun _ => ?_)
      exact .pure rfl
    | some hcl =>
      refine .bind (.perform trivial fun created => ?_)
      cases created with
      | true =>
        refine .perform (.inr live) fun queued => ?_
        cases queued <;> rfl
      | false =>
        refine .bind (.perform (.inl rfl) fun _ => ?_)
        refine .bind (.perform trivial fun _ => ?_)
        exact .pure rfl

theorem request_sent_follows {known : Option Net} (callback : DjbPushF) (hostname : Borrowed)
    (uri text : CStr) (live : hostname.net = known) :
    discipline.Follows (.stage known)
      (do if ← acsRequest callback hostname uri then acsStatus .ok text else acsSitdown)
      fun _ role => role = .outside := by
  refine .bind ((acsRequest_follows known callback hostname uri live).mono fun sent role same => ?_)
  subst same
  cases sent with
  | true => exact .perform ⟨rfl, rfl⟩ fun _ => rfl
  | false => exact .perform trivial fun _ => rfl

theorem acsRedirect_follows (known : Option Net) :
    discipline.Follows (.stage known) acsRedirect fun _ role => role = .outside := by
  unfold acsRedirect
  refine .bind ((acsNetString_follows known _ _).mono fun redirect role same => ?_)
  cases redirect with
  | none => exact .pure same
  | some redirect =>
    subst same
    exact request_sent_follows _ _ _ _ rfl

theorem acsInitial_follows (known : Option Net) :
    discipline.Follows (.stage known) acsInitial fun _ role => role = .outside := by
  unfold acsInitial
  refine .bind ((acsNetString_follows known _ _).mono fun initial role same => ?_)
  cases initial with
  | none => exact .pure same
  | some initial =>
    subst same
    exact request_sent_follows _ _ _ _ rfl

theorem acsWait_follows (env : Env) (known : Option Net) :
    discipline.Follows (.stage known) (acsWait env) fun _ role => role = .outside := by
  unfold acsWait
  refine .bind ((acsNetNumber_follows env known _ _).mono fun window role same => ?_)
  cases window with
  | none => exact .pure same
  | some window =>
    obtain ⟨known, rfl⟩ := same
    refine .bind ((acsNetNumber_follows env known _ _).mono fun wait role same => ?_)
    cases wait with
    | none => exact .pure same
    | some wait =>
      obtain ⟨known, rfl⟩ := same
      refine .bind (.perform trivial fun w => ?_)
      refine .bind (.perform trivial fun delay => ?_)
      refine .bind (.perform (.inl rfl) fun _ => ?_)
      refine .bind (.perform trivial fun slept => ?_)
      cases slept with
      | false => exact .perform ⟨rfl, rfl⟩ fun _ => rfl
      | true =>
        refine .bind (.perform (.inl rfl) fun _ => ?_)
        refine .bind ((acsKeepRunning_follows known).mono fun keep role same => ?_)
        subst same
        cases keep with
        | true => exact acsRedirect_follows known
        | false => exact .pure rfl

theorem acsWhen_follows (env : Env) (known : Option Net) :
    discipline.Follows (.stage known) (acsWhen env) fun valid role =>
      if valid then ∃ known, role = .stage known else role = .outside := by
  unfold acsWhen
  refine .bind (.perform trivial fun net => ?_)
  cases (net.bind fun n => n.value.get "when".toList) with
  | none =>
    refine .bind (.perform (.inl rfl) fun _ => ?_)
    exact .pure ⟨net, rfl⟩
  | some found =>
    cases found with
    | string text =>
      cases parsed : env.parseIso8601Interval text with
      | none =>
        simp only [parsed]
        exact sitdown_follows _ (.inr rfl) false rfl
      | some interval =>
        simp only [parsed]
        refine .bind (.perform trivial fun now => ?_)
        split
        · exact sitdown_follows _ (.inr rfl) false rfl
        · split
          · exact sitdown_follows _ (.inr rfl) false rfl
          · refine .bind (.perform (.inr rfl) fun _ => ?_)
            exact .pure ⟨net, rfl⟩
    | _ => exact sitdown_follows _ (.inl rfl) false rfl

theorem acsInitialAnswer_follows (env : Env) (known : Option Net) (shcl : HttpsrvClient)
    (hcl : ℕ) :
    discipline.Follows (.stage known) (acsInitialAnswer env shcl hcl) fun finished role =>
      finished = true ∧ role = .outside := by
  unfold acsInitialAnswer
  dsimp only
  split
  · refine .bind (.perform (.inl rfl) fun _ => ?_)
    refine .bind (.perform trivial fun _ => ?_)
    refine .bind (.perform trivial fun _ => ?_)
    exact .pure ⟨rfl, rfl⟩
  · refine .bind (.perform (.inl rfl) fun _ => ?_)
    refine .bind (.perform trivial fun _ => ?_)
    refine .bind ((acsKeepRunning_follows known).mono fun keep role same => ?_)
    subst same
    cases keep with
    | true =>
      refine .bind ((acsWait_follows env known).mono fun _ role same => ?_)
      exact .pure ⟨rfl, same⟩
    | false => exact .pure ⟨rfl, rfl⟩

theorem acsRedirectAnswer_follows (env : Env) (known : Option Net) (shcl : HttpsrvClient)
    (hcl : ℕ) :
    discipline.Follows (.stage known) (acsRedirectAnswer env shcl hcl) fun finished role =>
      role = if finished then .outside else .stage known := by
  unfold acsRedirectAnswer
  dsimp only
  split
  · refine .bind (.perform (.inl rfl) fun _ => ?_)
    refine .bind (.perform trivial fun _ => ?_)
    refine .bind (.perform trivial fun _ => ?_)
    exact .pure rfl
  · split
    · split
      · exact sitdown_follows _ (.inl rfl) true rfl
      · refine .bind (.perform trivial fun allocated => ?_)
        cases allocated with
        | true => exact .pure rfl
        | false => exact sitdown_follows _ (.inl rfl) true rfl
    · split
      · exact sitdown_follows _ (.inl rfl) true rfl
      · refine .bind (.perform (.inl rfl) fun _ => ?_)
        refine .bind (.perform trivial fun ok => ?_)
        refine .bind (.perform trivial fun _ => ?_)
        cases ok with
        | true =>
          refine .bind (.perform (.inl rfl) fun _ => ?_)
          refine .bind (.perform (.inl rfl) fun _ => ?_)
          refine .bind (.perform trivial fun _ => ?_)
          exact .pure rfl
        | false => exact sitdown_follows _ (.inl rfl) true rfl

theorem djbPushCallback_follows (env : Env) (shcl : HttpsrvClient) (request : AcsRequest) :
    discipline.Follows (.stage none) (djbPushCallback env shcl request) fun _ role =>
      role = .outside := by
  unfold djbPushCallback
  split
  · refine .bind ((acsInitialAnswer_follows env none shcl _).mono fun finished role ends => ?_)
    obtain ⟨rfl, rfl⟩ := ends
    exact .pure rfl
  · refine .bind ((acsRedirectAnswer_follows env none shcl _).mono fun finished role ends => ?_)
    subst ends
    cases finished with
    | true => exact .pure rfl
    | false => exact .perform trivial fun _ => rfl

theorem acsCheckNet_follows (net : Net) :
    discipline.Follows (.checking net) (acsCheckNet net) fun isObject role =>
      role = if isObject then .adopting net else .checking net := by
  unfold acsCheckNet
  refine .bind (.perform rfl fun isObject => ?_)
  cases isObject with
  | true => exact .pure rfl
  | false => exact .bind (.perform ⟨rfl, rfl⟩ fun _ => .pure rfl)

theorem acsSetNet_follows (net : Net) :
    discipline.Follows (.owns net) (acsSetNet (some net)) fun _ role => role = .owns net := by
  unfold acsSetNet
  refine .bind (.perform rfl fun taken => ?_)
  cases taken with
  | false =>
    refine .bind (.perform ⟨rfl, rfl⟩ fun _ => ?_)
    exact .pure rfl
  | true =>
    have unlocked {role : Role} (locked : role = .adopted net ∨ role = .rejected net) :
        discipline.Follows role (do unlockNet; return true) fun _ role => role = .owns net := by
      rcases locked with rfl | rfl <;> exact .bind (.perform trivial fun _ => .pure rfl)
    refine .bind ((acsCheckNet_follows net).mono fun isObject role same => ?_)
    subst same
    cases isObject with
    | false => exact .bind (.perform trivial fun _ => unlocked (.inr rfl))
    | true =>
      have ready : discipline.Follows (.adopting net)
          (do jsonIncref net; acsStatus .ok "Ready to Dance".toList; unlockNet; return true)
          fun _ role => role = .owns net := by
        refine .bind (.perform rfl fun _ => ?_)
        exact .bind (.perform ⟨rfl, rfl⟩ fun _ => unlocked (.inl rfl))
      refine .bind (.perform rfl fun j => ?_)
      cases j with
      | none => exact ready
      | some j => exact .bind (.perform ⟨rfl, rfl⟩ fun _ => ready)

theorem setNet_released_follows (net : Net) {α : Type} {rest : Bool → AcsM α}
    {post : α → Role → Prop} (follows : ∀ ok, discipline.Follows .outside (rest ok) post) :
    discipline.Follows (.owns net)
      (do let ok ← acsSetNet (some net); jsonDecref net; rest ok) post := by
  refine .bind ((acsSetNet_follows net).mono fun ok role same => ?_)
  subst same
  exact .bind (.perform rfl fun _ => follows ok)

theorem acsSetup_follows (hcl : HttpsrvClient) :
    discipline.Follows .outside (acsSetup hcl) fun _ role => role = .outside := by
  unfold acsSetup
  split
  · exact .bind (.perform trivial fun _ => .pure rfl)
  · split
    · split
      · exact .bind (.perform trivial fun _ => .pure rfl)
      · refine .bind (.perform trivial fun allocated => ?_)
        cases allocated with
        | true => exact .pure rfl
        | false => exact .bind (.perform trivial fun _ => .pure rfl)
    · refine .bind (.perform trivial fun root => ?_)
      cases root with
      | none => exact .pure rfl
      | some root =>
        refine setNet_released_follows root fun ok => ?_
        cases ok <;> exact .bind (.perform trivial fun _ => .pure rfl)

theorem rdvPeelBase_follows (nep : CStr) :
    discipline.Follows .outside (rdvPeelBase nep) fun _ role => role = .outside := by
  unfold rdvPeelBase
  refine .bind (.perform trivial fun root => ?_)
  cases root with
  | none => exact .pure rfl
  | some root => exact setNet_released_follows root fun _ => .pure rfl

theorem acsDecided_follows (env : Env) (decision : Start) :
    discipline.Follows (discipline.after .outside .startDance decision) (acsDecided env decision)
      fun _ role => role = .outside := by
  cases decision with
  | noNet => exact .perform ⟨rfl, rfl⟩ fun _ => rfl
  | nothing => exact .pure rfl
  | start =>
    refine .bind ((acsWhen_follows env none).mono fun valid role ends => ?_)
    cases valid with
    | true =>
      obtain ⟨known, rfl⟩ := ends
      exact .bind (.perform (.inl rfl) fun _ => acsInitial_follows known)
    | false => exact .pure ends

theorem acsReport_follows (hcl : HttpsrvClient) :
    discipline.Follows .outside (acsReport hcl) fun _ role => role = .outside := by
  unfold acsReport
  refine .bind (.perform trivial fun m => ?_)
  cases m with
  | some m => exact .bind (.perform trivial fun _ => .pure rfl)
  | none =>
    refine .bind (.perform trivial fun m => ?_)
    exact .bind (.perform trivial fun _ => .pure rfl)

theorem acsProgress_follows (env : Env) (hcl : HttpsrvClient) :
    discipline.Follows .outside (acsProgress env hcl) fun _ role => role = .outside := by
  unfold acsProgress
  refine .bind (.perform trivial fun decision => ?_)
  refine .bind ((acsDecided_follows env decision).mono fun _ role same => ?_)
  subst same
  exact acsReport_follows hcl

def Role.final (role : Role) : Prop := role = .outside ∨ role = .gone

theorem acsExit_follows :
    discipline.Follows .leaving acsExit fun _ role => role = .gone := by
  unfold acsExit acsSetNet
  refine .bind (.perform trivial fun _ => ?_)
  refine .bind (.bind (.perform rfl fun taken => ?_))
  cases taken with
  | false =>
    refine .bind (.perform ⟨rfl, rfl⟩ fun _ => ?_)
    exact .pure (.perform trivial fun _ => rfl)
  | true =>
    refine .bind (.perform trivial fun _ => ?_)
    exact .pure (.perform trivial fun _ => rfl)

end Jumpbox.Acs
