import Jumpbox.Acs.Baton
import Jumpbox.Acs.Stages
import Jumpbox.Preferences.Store

/-! The answer to `ACS Redirect`, and what the dance ends with. `acs_redirect_answer` has
the list of bridges stored and looks no further. Beside the daemon and its preferences
stand the posts so far and the pushes that are being answered. -/

namespace Jumpbox.Preferences

open Acs (Json AcsM)
open Discipline (Follows)

structure State where
  acs : Acs.State
  prefs : Prefs := {}
  posts : List (Memory × List UInt8) := []
  /-- The list stored when `DJB_DONE` was recorded, until preferences are posted. -/
  completed : Option (Option Json) := none
  /-- The push for `ACS Redirect` that a thread has in hand. -/
  push : ℕ → Option HttpsrvClient := fun _ => none
  /-- The status that the thread recorded last for it. -/
  gave : ℕ → Acs.DjbStatus := fun _ => .ok
  /-- The pushes that a dance ended with, each with the last status. -/
  ends : List (HttpsrvClient × Acs.DjbStatus) := []

inductive Event
  | acs (e : Acs.Event)
  | set (m : Memory) (body : List UInt8)

def recordsDone (s : Acs.State) : Acs.Event → Bool
  | .run t c =>
    match s.threads[t]? with
    | some ⟨_, .op (.status st text _) _⟩ => c.ok && (Acs.Shared.acsMsg st text).status = .done
    | _ => false
  | _ => false

/-- What an operation of a thread means for the push that it has in hand. A push whose body
has been read stays in hand until the thread sits down. -/
def State.see (s : State) (t : ℕ) (c : Acs.Choice) : Acs.Op → State
  | .status st text _ => { s with
      gave := Function.update s.gave t
        (if c.ok then (Acs.Shared.acsMsg st text).status else .err) }
  | .sitdown => { s with
      push := Function.update s.push t none
      ends := s.ends ++ (s.push t).toList.map fun shcl => (shcl, s.gave t) }
  | .putBack _ => { s with push := Function.update s.push t ((s.push t).filter (·.readbody)) }
  | _ => s

def State.observe (s : State) : Acs.Event → State
  | .run t c =>
    match s.acs.threads[t]? with
    | some ⟨_, .op o _⟩ => s.see t c o
    | _ => s
  | .answer t i shcl =>
    match s.acs.shared.pending[i]? with
    | some ⟨_, .acsRedirectAnswer, _, _⟩ => { s with
        push := Function.update s.push t (some shcl)
        gave := Function.update s.gave t .ok }
    | _ => s
  | _ => s

def step (env : Acs.Env) (s : State) : Event → Option State
  | .acs e => (Acs.step env s.acs e).map fun acs => { s.observe e with
      acs
      completed :=
        if recordsDone s.acs e then some s.acs.shared.bridgeAccessList else s.completed }
  | .set m body => some { s with
      prefs := (prfSetBody env.jsonLoads m s.prefs body).1
      posts := s.posts ++ [(m, body)]
      completed := none }

def machine (env : Acs.Env) : Machine State Event := ⟨step env⟩

def init (threads : ℕ) : State := { acs := Acs.init threads }

def decoded (env : Acs.Env) (shcl : HttpsrvClient) : Option Json :=
  (env.stegDecode shcl.body shcl.contentType).bind env.jsonLoads

/-! How an answer is handled. -/

/-- A thread has no answer in hand, is at it, has stored its list, or has only to sit down. -/
inductive Visit
  | away
  | reads (shcl : HttpsrvClient)
  | stored (shcl : HttpsrvClient)
  | closes (shcl : HttpsrvClient)

def Visit.push : Visit → Option HttpsrvClient
  | .away => none
  | .reads shcl | .stored shcl | .closes shcl => some shcl

def Visit.taken (shcl : HttpsrvClient) : DjbPushF → Visit
  | .acsInitialAnswer => .away
  | .acsRedirectAnswer => .reads shcl

def Visit.fresh : Visit → Prop
  | .away | .reads _ => True
  | .stored _ | .closes _ => False

def settles : Acs.Op → Prop
  | .prfSetBridgeAccessList _ | .status .done _ _ => True
  | _ => False

/-- Only what the answer decodes to is stored; after that nothing but `DJB_DONE` leads to
the end, and before it nothing but an error, or that the body is asked for. -/
def visiting (env : Acs.Env) : Discipline Acs.Op Acs.Op.Result Visit where
  may
    | .away, o => ¬settles o
    | .reads _, .status st _ _ => st ≠ .done
    | .reads shcl, .prfSetBridgeAccessList br =>
      env.stegDecode shcl.body shcl.contentType = some br
    | .reads shcl, .putBack _ => shcl.readbody = false
    | .reads _, .httpsrvReadbodyAlloc | .reads _, .httpsrvClientDestroy _ => True
    | .stored _, .status st _ _ => st ≠ .err
    | .stored _, .httpsrvClientDestroy _ => True
    | .closes _, .sitdown | .closes _, .httpsrvClientDestroy _ => True
    | _, _ => False
  after
    | .reads shcl, .status .err _ _, _ => .closes shcl
    | .reads shcl, .prfSetBridgeAccessList _, true => .stored shcl
    | .reads _, .putBack _, _ => .away
    | .stored shcl, .status .done _ _, _ => .closes shcl
    | .closes _, .sitdown, _ => .away
    | visit, _, _ => visit

theorem not_settles_of_waits (o : Acs.Op) (h : o.waits) : ¬settles o := by
  cases o with
  | status st => cases st <;> first | exact id | exact False.elim h
  | prfSetBridgeAccessList => exact False.elim h
  | _ => exact id

theorem not_settles_of_setsUp (o : Acs.Op) (h : o.setsUp) : ¬settles o := by
  cases o with
  | status st => cases st <;> first | exact id | exact False.elim h
  | prfSetBridgeAccessList => exact False.elim h
  | _ => exact id

section Follows

variable {env : Acs.Env} {α : Type} {p : AcsM α}

theorem visiting_of_unsettled (h : p.Only fun o => ¬settles o) :
    (visiting env).Follows .away p fun _ visit => visit = .away :=
  .of_only (h.mono fun _ unsettled => ⟨unsettled, fun _ => rfl⟩)

variable (env) in
theorem visiting_of_setsUp (h : p.Only Acs.Op.setsUp) :
    (visiting env).Follows .away p fun _ visit => visit = .away :=
  visiting_of_unsettled (h.mono not_settles_of_setsUp)

theorem acsProgress_visiting (hcl : HttpsrvClient) :
    (visiting env).Follows .away (Acs.acsProgress env hcl) fun _ visit => visit = .away := by
  have staged (o : Acs.Op) (h : o.staged) : ¬settles o :=
    not_settles_of_waits o (Acs.Op.waits_of_staged o h)
  refine visiting_of_unsettled ?_
  unfold Acs.acsProgress
  refine .bind (.perform id) fun decision => ?_
  refine .bind ((Acs.acsDecided_staged env decision).mono staged) fun _ => ?_
  refine .bind (.perform id) fun m => ?_
  cases m with
  | some m => exact .bind (.perform id) fun _ => .pure
  | none => exact .bind (.perform id) fun _ => .bind (.perform id) fun _ => .pure

end Follows

theorem sitdown_visiting {env : Acs.Env} {shcl : HttpsrvClient} (text : CStr)
    {post : Bool → Visit → Prop} (holds : post true .away) :
    (visiting env).Follows (.reads shcl)
      (do Acs.acsStatus .err text; Acs.acsSitdown; return true : AcsM Bool) post := by
  refine .bind (.perform nofun fun _ => ?_)
  refine .bind (.perform trivial fun _ => ?_)
  exact .pure holds

theorem acsRedirectAnswer_visiting (env : Acs.Env) (shcl : HttpsrvClient) (hcl : ℕ) :
    (visiting env).Follows (.reads shcl) (Acs.acsRedirectAnswer env shcl hcl)
      fun finished visit => if finished then visit = .away
        else visit = .reads shcl ∧ shcl.readbody = false := by
  unfold Acs.acsRedirectAnswer
  dsimp only
  split
  · refine .bind (.perform nofun fun _ => ?_)
    refine .bind (.perform trivial fun _ => ?_)
    refine .bind (.perform trivial fun _ => ?_)
    exact .pure rfl
  · split
    next unread =>
      split
      · exact sitdown_visiting _ rfl
      · refine .bind (.perform trivial fun allocated => ?_)
        cases allocated with
        | true => exact .pure ⟨rfl, unread⟩
        | false => exact sitdown_visiting _ rfl
    next =>
      split
      · exact sitdown_visiting _ rfl
      next ans decodes =>
        refine .bind (.perform nofun fun _ => ?_)
        refine .bind (.perform decodes fun ok => ?_)
        refine .bind (.perform (by cases ok <;> trivial) fun _ => ?_)
        cases ok with
        | true =>
          refine .bind (.perform nofun fun _ => ?_)
          refine .bind (.perform nofun fun _ => ?_)
          refine .bind (.perform trivial fun _ => ?_)
          exact .pure rfl
        | false => exact sitdown_visiting _ rfl

theorem djbPushCallback_visiting (env : Acs.Env) (shcl : HttpsrvClient)
    (request : Acs.AcsRequest) :
    (visiting env).Follows (.taken shcl request.push) (Acs.djbPushCallback env shcl request)
      fun _ visit => visit = .away := by
  obtain ⟨client, push, hostname, rawuri⟩ := request
  cases push with
  | acsInitialAnswer =>
    refine visiting_of_unsettled ?_
    have unsettled := (Acs.acsInitialAnswer_waits env shcl client).mono not_settles_of_waits
    refine .bind unsettled fun finished => ?_
    cases finished with
    | true => exact .pure
    | false => exact .perform id
  | acsRedirectAnswer =>
    refine .bind ((acsRedirectAnswer_visiting env shcl _).mono fun finished visit ends => ?_)
    cases finished with
    | true => exact .pure ends
    | false =>
      obtain ⟨rfl, unread⟩ := ends
      exact .perform unread fun _ => rfl

/-! What one operation of a thread does to the answer it has in hand. -/

section Operation

variable {env : Acs.Env} {s : State} {t i : ℕ} {c : Acs.Choice} {o : Acs.Op} {x : o.Result}
  {visit : Visit} {shcl : HttpsrvClient}

theorem see_push_of_ne (other : i ≠ t) : (s.see t c o).push i = s.push i := by
  cases o with
  | sitdown | putBack => exact Function.update_of_ne other _ _
  | _ => rfl

theorem see_gave_of_ne (other : i ≠ t) : (s.see t c o).gave i = s.gave i := by
  cases o with
  | status => exact Function.update_of_ne other _ _
  | _ => rfl

theorem see_prefs : (s.see t c o).prefs = s.prefs ∧ (s.see t c o).posts = s.posts := by
  cases o <;> exact ⟨rfl, rfl⟩

theorem see_push (may : (visiting env).may visit o) (own : s.push t = visit.push) :
    (s.see t c o).push t = ((visiting env).after visit o x).push := by
  cases visit with
  | away =>
    cases o with
    | sitdown => exact Function.update_self ..
    | putBack => exact (Function.update_self ..).trans (congrArg (Option.filter _) own)
    | _ => exact own
  | reads shcl =>
    cases o with
    | status st => cases st <;> exact own
    | prfSetBridgeAccessList => cases x <;> exact own
    | putBack =>
      have unread : shcl.readbody = false := may
      simp [State.see, own, Visit.push, unread, visiting]
    | httpsrvReadbodyAlloc | httpsrvClientDestroy => exact own
    | _ => exact False.elim may
  | stored shcl =>
    cases o with
    | status st => cases st <;> exact own
    | httpsrvClientDestroy => exact own
    | _ => exact False.elim may
  | closes shcl =>
    cases o with
    | sitdown => exact Function.update_self ..
    | httpsrvClientDestroy => exact own
    | _ => exact False.elim may

theorem dances_after {role : Acs.Role} (may : (visiting env).may visit o)
    (dances : role.dances = 1) (on : (visiting env).after visit o x ≠ .away) :
    (Acs.discipline.after role o x).dances = 1 := by
  cases visit with
  | away => exact absurd rfl on
  | reads shcl =>
    cases o with
    | status st => cases role <;> cases st <;> first | rfl | cases dances
    | putBack => exact absurd rfl on
    | prfSetBridgeAccessList | httpsrvReadbodyAlloc | httpsrvClientDestroy =>
      cases role <;> first | rfl | cases dances
    | _ => exact False.elim may
  | stored shcl =>
    cases o with
    | status st => cases role <;> cases st <;> first | rfl | cases dances
    | httpsrvClientDestroy => cases role <;> first | rfl | cases dances
    | _ => exact False.elim may
  | closes shcl =>
    cases o with
    | sitdown => exact absurd rfl on
    | httpsrvClientDestroy => cases role <;> first | rfl | cases dances
    | _ => exact False.elim may

theorem list_after {shared : Acs.Shared} (may : (visiting env).may visit o)
    (performed : Acs.exec env t o c s.acs.shared = some (shared, x))
    (own : visit = .stored shcl → s.acs.shared.bridgeAccessList = decoded env shcl)
    (here : (visiting env).after visit o x = .stored shcl) :
    shared.bridgeAccessList = decoded env shcl := by
  have same := (Acs.same_of_exec performed).bridges
  cases visit with
  | away => cases here
  | reads shcl' =>
    cases o with
    | status st => cases st <;> cases here
    | prfSetBridgeAccessList br =>
      have decodes : env.stegDecode shcl'.body shcl'.contentType = some br := may
      obtain ⟨rfl, found⟩ := Prod.mk.inj (Option.some.inj performed)
      cases x with
      | false => cases here
      | true =>
        obtain rfl := Visit.stored.inj here
        cases memory : c.ok with
        | false => simp [memory] at found
        | true => rw [decoded, decodes]; rfl
    | putBack | httpsrvReadbodyAlloc | httpsrvClientDestroy => cases here
    | _ => exact False.elim may
  | stored shcl' =>
    cases o with
    | status st =>
      cases st with
      | done => cases here
      | _ => exact (same id).trans (own here)
    | httpsrvClientDestroy => exact (same id).trans (own here)
    | _ => exact False.elim may
  | closes shcl' =>
    cases o with
    | sitdown | httpsrvClientDestroy => cases here
    | _ => exact False.elim may

theorem gave_after (may : (visiting env).may visit o)
    (here : (visiting env).after visit o x = .closes shcl) :
    visit = .closes shcl ∧ (s.see t c o).gave t = s.gave t ∨ (s.see t c o).gave t = .err ∨
      visit = .stored shcl ∧ ∃ text borrowed, o = .status .done text borrowed := by
  cases visit with
  | away => cases here
  | reads shcl' =>
    cases o with
    | status st text =>
      cases st with
      | err =>
        refine .inr (.inl ?_)
        simp only [State.see, Function.update_self, Acs.Shared.acsMsg]
        split <;> [split <;> rfl; rfl]
      | _ => cases here
    | prfSetBridgeAccessList => cases x <;> cases here
    | putBack | httpsrvReadbodyAlloc | httpsrvClientDestroy => cases here
    | _ => exact False.elim may
  | stored shcl' =>
    cases o with
    | status st text borrowed =>
      cases st with
      | done =>
        obtain rfl := Visit.closes.inj here
        exact .inr (.inr ⟨rfl, text, borrowed, rfl⟩)
      | _ => cases here
    | httpsrvClientDestroy => cases here
    | _ => exact False.elim may
  | closes shcl' =>
    cases o with
    | sitdown => cases here
    | httpsrvClientDestroy => exact .inl ⟨here, rfl⟩
    | _ => exact False.elim may

theorem stored_of_recordsDone {role : Acs.Role} {next : o.Result → AcsM Unit}
    (at_t : s.acs.threads[t]? = some ⟨role, .op o next⟩) (may : (visiting env).may visit o)
    (done : recordsDone s.acs (.run t c) = true) : ∃ shcl, visit = .stored shcl := by
  simp only [recordsDone, at_t] at done
  cases o with
  | status st text borrowed =>
    have kept : st = .done := by
      have entry := of_decide_eq_true (Bool.and_eq_true_iff.mp done).2
      unfold Acs.Shared.acsMsg at entry
      split at entry
      · exact entry
      · cases entry
    subst kept
    cases visit with
    | away => exact absurd trivial may
    | reads shcl => exact absurd rfl may
    | stored shcl => exact ⟨shcl, rfl⟩
    | closes shcl => exact False.elim may
  | _ => cases done

theorem recordsDone_or_gave {role : Acs.Role} {text : CStr} {borrowed : Option Acs.Net}
    {next : Unit → AcsM Unit}
    (at_t : s.acs.threads[t]? = some ⟨role, .op (.status .done text borrowed) next⟩) :
    recordsDone s.acs (.run t c) = true ∨
      (s.see t c (.status .done text borrowed)).gave t = .err := by
  simp only [recordsDone, at_t, State.see, Function.update_self, Acs.Shared.acsMsg]
  cases c.ok with
  | false => exact .inr rfl
  | true =>
    split
    · exact .inl rfl
    · exact .inr rfl

end Operation

end Jumpbox.Preferences
