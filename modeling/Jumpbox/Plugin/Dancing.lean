import Jumpbox.Acs.Desks
import Jumpbox.Plugin.Peeling
import Jumpbox.Plugin.Polling

/-! The ACS page at work with the daemon. Its requests are handled by the HTTP threads, side
by side with those of others and with the pushes of a dance; what a thread answers to a
request of the page is on its way to the page until it is complete. -/

namespace Jumpbox.Plugin.AcsPage

open Acs (Desk desking Env Staffed Works)
open RendezvousPage (Reply encode)

def Call.arrives : Call → HttpsrvClient
  | .setup net => {
    id := 0
    reqid := 0
    method := .post
    hostname := "127.0.0.1:6543".toList
    uri := "/acs/setup/".toList
    contentType := "application/json".toList
    body := encode net }
  | .progress => {
    id := 0
    reqid := 0
    hostname := "127.0.0.1:6543".toList
    uri := "/acs/progress/".toList }

def Call.desk : Call → Desk
  | .setup _ => .free
  | .progress => .polls

def handling (t : ℕ) (hcl : HttpsrvClient) : Option Acs.Event :=
  match djbHandle hcl with
  | .acsSetup => some (.setup t hcl)
  | .acsProgress => some (.progress t hcl)
  | _ => none

/-- The text that `djb_result` sends; jansson takes a message only if it is UTF-8, and `decode`
says what it is then. -/
def resultBody (decode : CStr → Option CStr) (st msg : CStr) : CStr :=
  match decode msg with
  | some msg => resultText st msg
  | none => "\x7b\"status\": \"error\", \"message\": \"Error\" \x7d".toList

def printed (decode : CStr → Option CStr) : Out → List Out
  | .result st msg => [httpOk (some .json), .expire .force, .put (resultBody decode st msg)]
  | out => [out]

def replyOf (decode : CStr → Option CStr) (outs : List Out) : Option Reply :=
  RendezvousPage.replyOf (outs.flatMap (printed decode))

def Page.Event.own : Page.Event → Bool
  | .complete _ _ => false
  | _ => true

inductive Course
  | sent
  | handled
  | wanted
  | read
  | answered (outs : List Out)
  deriving DecidableEq

def Course.after : (o : Acs.Op) → o.Result → Option Course
  | .answer _ outs, _ => some (.answered outs)
  | .httpsrvReadbodyAlloc, true => some .wanted
  | _, _ => none

structure System where
  page : Page
  daemon : Acs.State
  /-- The request of the page that a thread handles, or has handled last. -/
  serving : ℕ → Option ℕ := fun _ => none
  course : ℕ → Course := fun _ => .sent

namespace System

inductive Event
  | page (e : Page.Event)
  /-- A thread goes on, or takes up a request of some other client. -/
  | daemon (e : Acs.Event)
  /-- Thread `t` takes up the `i`-th of the requests under way. -/
  | serve (i t : ℕ)
  | deliver (i : ℕ)
  | fail (i : ℕ)

def hears (s : System) (t : ℕ) (o : Acs.Op) (x : o.Result) : ℕ → Course :=
  match s.serving t, Course.after o x with
  | some n, some course => Function.update s.course n course
  | _, _ => s.course

def observed (env : Env) (s : System) (daemon : Acs.State) : Acs.Event → System
  | .run t c =>
    match s.daemon.threads[t]? with
    | some ⟨_, .op o _⟩ =>
      match Acs.exec env t o c s.daemon.shared with
      | some (_, x) => { s with daemon, course := s.hears t o x }
      | none => { s with daemon }
    | _ => { s with daemon }
  | .progress t _ | .setup t _ | .peel t _ | .answer t _ _ | .exit t =>
    { s with daemon, serving := Function.update s.serving t none }
  | .shutdown => { s with daemon }

def under (s : System) (i : ℕ) : Option (ℕ × Call) :=
  s.page.xhrs[i]?.bind fun n => s.page.calls[n]?.map fun call => (n, call)

/-- A request is handled when it comes, and again with its body. -/
def takeUp (call : Call) : Course → Option (HttpsrvClient × Course)
  | .sent => some (call.arrives, .handled)
  | .wanted => some ({ call.arrives with readbody := true }, .read)
  | _ => none

variable (b : Browser) (env : Env) (decode : CStr → Option CStr)

def step (s : System) : Event → Option System
  | .page e =>
    if e.own then (s.page.step b e).map fun page => { s with page } else none
  | .daemon e => (Acs.step env s.daemon e).map fun daemon => s.observed env daemon e
  | .serve i t => do
    let (n, call) ← s.under i
    let (hcl, course) ← takeUp call (s.course n)
    let e ← handling t hcl
    let daemon ← Acs.step env s.daemon e
    some { s with
      daemon
      serving := Function.update s.serving t (some n)
      course := Function.update s.course n course }
  | .deliver i => do
    let n ← s.page.xhrs[i]?
    match s.course n with
    | .answered outs => do
      let reply ← replyOf decode outs
      (s.page.step b (.complete i reply)).map fun page => { s with page }
    | _ => none
  | .fail i => (s.page.step b (.complete i { status := 0 })).map fun page => { s with page }

def machine : Machine System Event := ⟨step b env decode⟩

def init (threads : ℕ) : System where
  page := Page.init b
  daemon := Acs.init threads

/-! What a step is. -/

theorem handling_begins {t : ℕ} {call : Call} {course course' : Course} {hcl : HttpsrvClient}
    {e : Acs.Event} (taken : takeUp call course = some (hcl, course'))
    (handles : handling t hcl = some e) : e.begins = some (t, call.desk) := by
  have begins (readbody : Bool) : ∃ e, handling t { call.arrives with readbody } = some e ∧
      e.begins = some (t, call.desk) := by
    cases call with
    | setup net => exact ⟨_, rfl, rfl⟩
    | progress => exact ⟨_, rfl, rfl⟩
  have same (readbody : Bool) (is_read : hcl = { call.arrives with readbody }) :
      e.begins = some (t, call.desk) := by
    obtain ⟨e', handles', begins⟩ := begins readbody
    rw [← is_read] at handles'
    rwa [Option.some.inj (handles.symm.trans handles')]
  unfold takeUp at taken
  split at taken
  · cases taken
    exact same call.arrives.readbody rfl
  · cases taken
    exact same true rfl
  · cases taken

inductive Step (s : System) (desks : List Desk) : Event → System → List Desk → Prop
  | page {e page} (own : e.own = true) (moved : s.page.step b e = some page) :
      Step s desks (.page e) { s with page } desks
  | acts {t c role o next desk x shared threads}
      (at_t : s.daemon.threads[t]? = some ⟨role, .op o next⟩) (desk_t : desks[t]? = some desk)
      (may : desking.may desk o)
      (performed : Acs.exec env t o c s.daemon.shared = some (shared, x)) :
      Step s desks (.daemon (.run t c))
        { s with daemon := ⟨shared, threads⟩, course := s.hears t o x }
        (desks.set t (desking.after desk o x))
  | begins {e t desk old daemon} (given : e.begins = some (t, desk)) (desk_t : desks[t]? = some old)
      (idle : old.asks = false) (same : daemon.shared.stream = s.daemon.shared.stream) :
      Step s desks (.daemon e)
        { s with daemon, serving := Function.update s.serving t none } (desks.set t desk)
  | shutdown {daemon} (same : daemon.shared.stream = s.daemon.shared.stream) :
      Step s desks (.daemon .shutdown) { s with daemon } desks
  | serve {i t n call hcl course old daemon} (under : s.page.xhrs[i]? = some n)
      (listed : s.page.calls[n]? = some call)
      (taken : takeUp call (s.course n) = some (hcl, course)) (desk_t : desks[t]? = some old)
      (idle : old.asks = false) (same : daemon.shared.stream = s.daemon.shared.stream) :
      Step s desks (.serve i t)
        { s with
          daemon
          serving := Function.update s.serving t (some n)
          course := Function.update s.course n course }
        (desks.set t (call.desk))
  | deliver {i n outs reply page} (under : s.page.xhrs[i]? = some n)
      (answered : s.course n = .answered outs) (sent : replyOf decode outs = some reply)
      (moved : s.page.step b (.complete i reply) = some page) :
      Step s desks (.deliver i) { s with page } desks
  | fail {i page} (moved : s.page.step b (.complete i { status := 0 }) = some page) :
      Step s desks (.fail i) { s with page } desks

variable {b env decode} {s s' : System} {desks : List Desk}

theorem observed_begins {e : Acs.Event} {t : ℕ} {desk : Desk} (given : e.begins = some (t, desk))
    (daemon : Acs.State) : s.observed env daemon e =
      { s with daemon, serving := Function.update s.serving t none } := by
  cases e <;> cases given <;> rfl

theorem step_cases {e : Event} (staffed : Staffed desks s.daemon)
    (moved : step b env decode s e = some s') :
    ∃ desks', Step b env decode s desks e s' desks' ∧ Staffed desks' s'.daemon := by
  cases e with
  | page e =>
    simp only [step, Option.ite_none_right_eq_some, Option.map_eq_some_iff] at moved
    obtain ⟨own, page, moved, rfl⟩ := moved
    exact ⟨desks, .page own moved, staffed⟩
  | daemon e =>
    obtain ⟨daemon, did, rfl⟩ := Option.map_eq_some_iff.mp moved
    obtain ⟨desks', works, staffed'⟩ := Acs.works_of_step staffed did
    cases works with
    | @acts t c role o next desk shared x threads at_t desk_t may performed =>
      have seen : s.observed env ⟨shared, threads⟩ (.run t c) =
          { s with daemon := ⟨shared, threads⟩, course := s.hears t o x } := by
        simp only [observed, at_t, performed]
      rw [seen]
      exact ⟨_, .acts at_t desk_t may performed, staffed'⟩
    | begins given desk_t idle same =>
      rw [observed_begins given]
      exact ⟨_, .begins given desk_t idle same, staffed'⟩
    | shutdown same => exact ⟨desks, .shutdown same, staffed'⟩
  | serve i t =>
    simp only [step, Option.bind_eq_bind, Option.bind_eq_some_iff, Option.some.injEq] at moved
    obtain ⟨⟨n, call⟩, found, ⟨hcl, course⟩, taken, e, handles, daemon, moved, rfl⟩ := moved
    simp only [under, Option.bind_eq_some_iff, Option.map_eq_some_iff, Prod.mk.injEq] at found
    obtain ⟨n, at_i, call, listed, rfl, rfl⟩ := found
    have given := handling_begins taken handles
    obtain ⟨desks', works, staffed'⟩ := Acs.works_of_step staffed moved
    cases works with
    | begins given' desk_t idle same =>
      obtain ⟨rfl, rfl⟩ := Prod.mk.inj (Option.some.inj (given.symm.trans given'))
      exact ⟨_, .serve at_i listed taken desk_t idle same, staffed'⟩
    | acts => cases given
    | shutdown => cases given
  | deliver i =>
    simp only [step, Option.bind_eq_bind, Option.bind_eq_some_iff] at moved
    obtain ⟨n, at_i, moved⟩ := moved
    split at moved
    next outs answered =>
      obtain ⟨reply, sent, moved⟩ := Option.bind_eq_some_iff.mp moved
      obtain ⟨page, did, rfl⟩ := Option.map_eq_some_iff.mp moved
      exact ⟨desks, .deliver at_i answered sent did, staffed⟩
    next => cases moved
  | fail i =>
    obtain ⟨page, did, rfl⟩ := Option.map_eq_some_iff.mp moved
    exact ⟨desks, .fail did, staffed⟩

theorem hears_cases (s : System) (t : ℕ) (o : Acs.Op) (x : o.Result) (n : ℕ) :
    s.hears t o x n = s.course n ∨
      s.serving t = some n ∧ Course.after o x = some (s.hears t o x n) := by
  unfold hears
  cases serves : s.serving t with
  | none => exact .inl rfl
  | some n' =>
    cases after : Course.after o x with
    | none => exact .inl rfl
    | some course =>
      by_cases same : n = n'
      · subst same
        exact .inr ⟨rfl, congrArg some (Function.update_self n course s.course).symm⟩
      · exact .inl (Function.update_of_ne same _ _)

theorem course_of_takeUp {call : Call} {course course' : Course} {hcl : HttpsrvClient}
    (taken : takeUp call course = some (hcl, course')) :
    course = .sent ∧ course' = .handled ∨ course = .wanted ∧ course' = .read := by
  cases course <;> cases taken
  · exact .inl ⟨rfl, rfl⟩
  · exact .inr ⟨rfl, rfl⟩

theorem takeUp_ne_answered {call : Call} {course : Course} {hcl : HttpsrvClient}
    (outs : List Out) : takeUp call course ≠ some (hcl, .answered outs) := by
  cases course <;> exact nofun

theorem answer_of_after {o : Acs.Op} {x : o.Result} {outs : List Out}
    (after : Course.after o x = some (.answered outs)) : ∃ hcl, o = .answer hcl outs := by
  unfold Course.after at after
  split at after
  · cases after
    exact ⟨_, rfl⟩
  · cases after
  · cases after

theorem wanted_of_after {o : Acs.Op} {x : o.Result} (after : Course.after o x = some .wanted) :
    o = .httpsrvReadbodyAlloc := by
  unfold Course.after at after
  split at after
  · cases after
  · rfl
  · cases after

theorem after_of_polls {o : Acs.Op} {x : o.Result} (may : desking.may .polls o) :
    Course.after o x = none := by
  cases o with
  | answer | httpsrvReadbodyAlloc => exact False.elim may
  | _ => rfl

theorem after_ne_sent {o : Acs.Op} {x : o.Result} : Course.after o x ≠ some .sent := by
  unfold Course.after
  split <;> exact nofun

end System

end Jumpbox.Plugin.AcsPage
