import Jumpbox.Acs.Dance

/-! What the stages of a dance and `acs_set_net` do and do not do. A stage never touches
the queue of messages but to add to it, never the client whose request it is part of,
and it sets no NET. Only the answer to `ACS Redirect` stores bridges and ends a dance well. -/

namespace Jumpbox.Acs

open Prog

/-- The operations of the stages, but for the remainder of the moonwalk. -/
def Op.staged : Op → Prop
  | .answer _ _ | .httpsrvReadbodyAlloc | .startDance | .listPop | .condWait | .listDestroy
  | .takeNet _ | .unlockNet | .modulo _ _ | .prfSetBridgeAccessList _ | .status .done _ _ => False
  | _ => True

def Op.aside : Op → Prop
  | .status .done _ _ => False
  | .status _ _ _ | .sitdown | .threadKeepRunning | .lNet | .generateRandomNumber | .time
  | .threadSleep _ => True
  | _ => False

theorem Op.staged_of_aside (o : Op) (h : o.aside) : o.staged := by
  cases o with
  | status st => cases st <;> trivial
  | _ => trivial

def Op.waits : Op → Prop
  | .modulo _ _ => True
  | o => o.staged

theorem Op.waits_of_staged (o : Op) (h : o.staged) : o.waits := by
  cases o <;> trivial

def Op.pushes : Op → Prop
  | .httpsrvReadbodyAlloc | .prfSetBridgeAccessList _ | .status _ _ _ => True
  | o => o.waits

theorem Op.pushes_of_waits (o : Op) (h : o.waits) : o.pushes := by
  cases o <;> trivial

theorem Op.pushes_of_staged (o : Op) (h : o.staged) : o.pushes :=
  Op.pushes_of_waits o (Op.waits_of_staged o h)

def Op.adopts : Op → Prop
  | .status .done _ _ => False
  | .takeNet _ | .jsonIsObject _ | .jsonDumps _ | .jsonIncref _ | .dropNet | .unlockNet
  | .status _ _ _ => True
  | _ => False

def Op.setsUp : Op → Prop
  | .answer _ _ | .httpsrvReadbodyAlloc | .jsonLoads _ | .jsonDecref _ | .sitdown
  | .listDestroy => True
  | o => o.adopts

theorem Op.setsUp_of_adopts (o : Op) (h : o.adopts) : o.setsUp := by
  cases o <;> trivial

abbrev Aside {α : Type} (p : AcsM α) : Prop := p.Only Op.aside
abbrev Staged {α : Type} (p : AcsM α) : Prop := p.Only Op.staged

theorem acsKeepRunning_aside : Aside acsKeepRunning := by
  unfold acsKeepRunning
  refine .bind (.perform trivial) fun keep => ?_
  split
  · exact .pure
  · exact .bind (.perform trivial) fun _ => .bind (.perform trivial) fun _ => .pure

theorem sitdown_aside {α : Type} (text : CStr) (borrowed : Option Net) (a : α) :
    Aside (do acsStatus .err text borrowed; acsSitdown; return a) :=
  .bind (.perform trivial) fun _ => .bind (.perform trivial) fun _ => .pure

theorem acsNetString_aside (var desc : CStr) : Aside (acsNetString var desc) := by
  unfold acsNetString
  refine .bind (.perform trivial) fun net => ?_
  split
  · exact .pure
  · exact sitdown_aside _ none none

theorem acsNetNumber_aside (env : Env) (var desc : CStr) :
    Aside (acsNetNumber env var desc) := by
  unfold acsNetNumber
  refine .bind (.perform trivial) fun net => ?_
  split
  · exact .pure
  · exact sitdown_aside _ none none

theorem acsWhen_aside (env : Env) : Aside (acsWhen env) := by
  unfold acsWhen
  refine .bind (.perform trivial) fun net => ?_
  split
  · exact .bind (.perform trivial) fun _ => .pure
  · split
    · exact sitdown_aside _ _ _
    · refine .bind (.perform trivial) fun now => ?_
      split
      · exact sitdown_aside _ _ _
      · split
        · exact sitdown_aside _ _ _
        · exact .bind (.perform trivial) fun _ => .pure
  · exact sitdown_aside _ _ _

theorem sitdown_staged {α : Type} (text : CStr) (borrowed : Option Net) (a : α) :
    Staged (do acsStatus .err text borrowed; acsSitdown; return a) :=
  (sitdown_aside text borrowed a).mono Op.staged_of_aside

theorem acsKeepRunning_staged : Staged acsKeepRunning :=
  acsKeepRunning_aside.mono Op.staged_of_aside

theorem acsNetString_staged (var desc : CStr) : Staged (acsNetString var desc) :=
  (acsNetString_aside var desc).mono Op.staged_of_aside

theorem acsNetNumber_staged (env : Env) (var desc : CStr) : Staged (acsNetNumber env var desc) :=
  (acsNetNumber_aside env var desc).mono Op.staged_of_aside

theorem acsWhen_staged (env : Env) : Staged (acsWhen env) :=
  (acsWhen_aside env).mono Op.staged_of_aside

theorem acsRequest_staged (callback : DjbPushF) (hostname : Borrowed) (uri : CStr) :
    Staged (acsRequest callback hostname uri) := by
  unfold acsRequest
  refine .bind acsKeepRunning_staged fun keep => ?_
  split
  · refine .bind (.perform trivial) fun hcl => ?_
    split
    · exact .bind (.perform trivial) fun _ => .pure
    · refine .bind (.perform trivial) fun created => ?_
      split
      · exact .perform trivial
      · exact .bind (.perform trivial) fun _ => .bind (.perform trivial) fun _ => .pure
  · exact .pure

theorem request_sent_staged (callback : DjbPushF) (hostname : Borrowed) (uri text : CStr) :
    Staged (do if ← acsRequest callback hostname uri then acsStatus .ok text else acsSitdown) := by
  refine .bind (acsRequest_staged callback hostname uri) fun sent => ?_
  split
  · exact .perform trivial
  · exact .perform trivial

theorem acsRedirect_staged : Staged acsRedirect := by
  unfold acsRedirect
  refine .bind (acsNetString_staged _ _) fun redirect => ?_
  split
  · exact .pure
  · exact request_sent_staged _ _ _ _

theorem acsInitial_staged : Staged acsInitial := by
  unfold acsInitial
  refine .bind (acsNetString_staged _ _) fun initial => ?_
  split
  · exact .pure
  · exact request_sent_staged _ _ _ _

theorem moonwalk_staged (w : UInt64) (text : CStr) : Staged (do
    acsStatus .ok text
    let slept ← threadSleep (w * 1000)
    if slept then
      acsStatus .ok "Moonwalk done".toList
      if ← acsKeepRunning then acsRedirect
    else acsStatus .err "Moonwalking aborted".toList) := by
  refine .bind (.perform trivial) fun _ => ?_
  refine .bind (.perform trivial) fun slept => ?_
  split
  · refine .bind (.perform trivial) fun _ => ?_
    refine .bind acsKeepRunning_staged fun keep => ?_
    split
    · exact acsRedirect_staged
    · exact .pure
  · exact .perform trivial

theorem acsWait_waits (env : Env) : (acsWait env).Only Op.waits := by
  unfold acsWait
  refine .bind ((acsNetNumber_staged env _ _).mono Op.waits_of_staged) fun window => ?_
  split
  · exact .pure
  · refine .bind ((acsNetNumber_staged env _ _).mono Op.waits_of_staged) fun wait => ?_
    split
    · exact .pure
    · refine .bind (.perform trivial) fun w => ?_
      refine .bind (.perform trivial) fun delay => ?_
      exact (moonwalk_staged _ _).mono Op.waits_of_staged

theorem acsDecided_staged (env : Env) (decision : Start) : Staged (acsDecided env decision) := by
  cases decision with
  | noNet => exact .perform trivial
  | nothing => exact .pure
  | start =>
    refine .bind (acsWhen_staged env) fun valid => ?_
    split
    · exact .bind (.perform trivial) fun _ => acsInitial_staged
    · exact .pure

theorem acsInitialAnswer_waits (env : Env) (shcl : HttpsrvClient) (hcl : ℕ) :
    (acsInitialAnswer env shcl hcl).Only Op.waits := by
  unfold acsInitialAnswer
  dsimp only
  split
  · refine .bind (.perform trivial) fun _ => ?_
    exact .bind (.perform trivial) fun _ => .bind (.perform trivial) fun _ => .pure
  · refine .bind (.perform trivial) fun _ => ?_
    refine .bind (.perform trivial) fun _ => ?_
    refine .bind (acsKeepRunning_staged.mono Op.waits_of_staged) fun keep => ?_
    split
    · exact .bind (acsWait_waits env) fun _ => .pure
    · exact .pure

theorem acsRedirectAnswer_pushes (env : Env) (shcl : HttpsrvClient) (hcl : ℕ) :
    (acsRedirectAnswer env shcl hcl).Only Op.pushes := by
  have sitdown (text : CStr) :
      (do acsStatus .err text; acsSitdown; return true : AcsM Bool).Only Op.pushes :=
    (sitdown_staged text none true).mono Op.pushes_of_staged
  unfold acsRedirectAnswer
  dsimp only
  split
  · refine .bind (.perform trivial) fun _ => ?_
    exact .bind (.perform trivial) fun _ => .bind (.perform trivial) fun _ => .pure
  · split
    · split
      · exact sitdown _
      · refine .bind (.perform trivial) fun allocated => ?_
        split
        · exact .pure
        · exact sitdown _
    · split
      · exact sitdown _
      · refine .bind (.perform trivial) fun _ => ?_
        refine .bind (.perform trivial) fun ok => ?_
        refine .bind (.perform trivial) fun _ => ?_
        split
        · refine .bind (.perform trivial) fun _ => ?_
          exact .bind (.perform trivial) fun _ => .bind (.perform trivial) fun _ => .pure
        · exact .bind (.perform trivial) fun _ => .bind (.perform trivial) fun _ => .pure

theorem djbPushCallback_pushes (env : Env) (shcl : HttpsrvClient) (request : AcsRequest) :
    (djbPushCallback env shcl request).Only Op.pushes := by
  have rest (finished : Bool) :
      (if finished then pure () else perform (Op.putBack request) : AcsM Unit).Only
        Op.pushes := by
    cases finished with
    | true => exact .pure
    | false => exact .perform trivial
  unfold djbPushCallback
  split
  · exact .bind ((acsInitialAnswer_waits env shcl _).mono Op.pushes_of_waits) rest
  · exact .bind (acsRedirectAnswer_pushes env shcl _) rest

theorem acsCheckNet_adopts (net : Net) : (acsCheckNet net).Only Op.adopts := by
  unfold acsCheckNet
  refine .bind (.perform trivial) fun isObject => ?_
  split
  · exact .pure
  · exact .bind (.perform trivial) fun _ => .pure

theorem acsSetNet_adopts (net : Option Net) : (acsSetNet net).Only Op.adopts := by
  have unlocked : (do unlockNet; return true : AcsM Bool).Only Op.adopts :=
    .bind (.perform trivial) fun _ => .pure
  have ready (net : Net) : (do
      jsonIncref net
      acsStatus .ok "Ready to Dance".toList
      unlockNet
      return true : AcsM Bool).Only Op.adopts :=
    .bind (.perform trivial) fun _ => .bind (.perform trivial) fun _ => unlocked
  unfold acsSetNet
  refine .bind (.perform trivial) fun taken => ?_
  split
  · split
    · exact unlocked
    next net =>
      refine .bind (acsCheckNet_adopts net) fun isObject => ?_
      split
      · refine .bind (.perform trivial) fun j => ?_
        split
        · exact .bind (.perform trivial) fun _ => ready net
        · exact ready net
      · exact .bind (.perform trivial) fun _ => unlocked
  · exact .bind (.perform trivial) fun _ => .pure

theorem acsSetNet_setsUp (net : Option Net) : (acsSetNet net).Only Op.setsUp :=
  (acsSetNet_adopts net).mono Op.setsUp_of_adopts

theorem acsSetup_setsUp (hcl : HttpsrvClient) : (acsSetup hcl).Only Op.setsUp := by
  have result (st : DjbStatus) (msg : CStr) (b : Bool) :
      (do djbResult hcl st msg; return b : AcsM Bool).Only Op.setsUp :=
    .bind (.perform trivial) fun _ => .pure
  unfold acsSetup
  split
  · exact result _ _ _
  · split
    · split
      · exact .bind (.perform trivial) fun _ => .pure
      · refine .bind (.perform trivial) fun allocated => ?_
        split
        · exact .pure
        · exact result _ _ _
    · refine .bind (.perform trivial) fun root => ?_
      split
      · exact .pure
      next root =>
        refine .bind (acsSetNet_setsUp _) fun ok => ?_
        refine .bind (.perform trivial) fun _ => ?_
        split
        · exact result _ _ _
        · exact result _ _ _

theorem rdvPeelBase_setsUp (nep : CStr) : (rdvPeelBase nep).Only Op.setsUp := by
  unfold rdvPeelBase
  refine .bind (.perform trivial) fun root => ?_
  split
  · exact .pure
  · refine .bind (acsSetNet_setsUp _) fun _ => ?_
    exact .bind (.perform trivial) fun _ => .pure

theorem acsExit_setsUp : acsExit.Only Op.setsUp := by
  unfold acsExit
  refine .bind (.perform trivial) fun _ => ?_
  refine .bind (acsSetNet_setsUp none) fun _ => ?_
  exact .perform trivial

end Jumpbox.Acs
