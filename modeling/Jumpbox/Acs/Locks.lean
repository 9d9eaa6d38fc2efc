import Jumpbox.Acs.Stages
import Jumpbox.Library.Locks
import Jumpbox.Library.Machine

/-! The two mutexes of `acs.c`, each taken and released in a step of its own.
A function of `Dance` becomes a program that takes its mutexes: `calls` says which of them
an operation takes, and only `acs_progress` is written out, since it nests them. What an
operation returns is left to the environment, so every branch is one that a run can take. -/

namespace Jumpbox.Acs

inductive Mutex
  | dancing
  | status
  deriving DecidableEq

/-- `l_status_mutex` is taken with `l_dancing_mutex` held, never the other way. -/
def Mutex.rank : Mutex → ℕ
  | .dancing => 0
  | .status => 1

namespace Locked

open Locks (LockM act erase ordered follows_lock follows_unlock follows_act)

abbrev LockedM := LockM Mutex Op.Result

def mutexLock (m : Mutex) : LockedM Unit := Locks.lock m
def mutexUnlock (m : Mutex) : LockedM Unit := Locks.unlock m

def calls : (o : Op) → LockedM o.Result
  | .status st text borrowed => do
    mutexLock .status
    let done ← act (.status st text borrowed)
    mutexUnlock .status
    return done
  | .sitdown => do
    mutexLock .dancing
    let done ← act .sitdown
    mutexUnlock .dancing
    return done
  -- `acs_set_net` keeps the mutex unless a dance goes on
  | .takeNet net => do
    mutexLock .dancing
    let taken : Bool ← act (Op.takeNet net)
    if taken then return taken
    mutexUnlock .dancing
    return taken
  | .unlockNet => do
    let done ← act .unlockNet
    mutexUnlock .dancing
    return done
  | o => act o

def acsStatus (st : DjbStatus) (text : CStr) : LockedM Unit := (Acs.acsStatus st text).interp calls
def acsSitdown : LockedM Unit := Acs.acsSitdown.interp calls
def acsSetNet (net : Option Net) : LockedM Bool := (Acs.acsSetNet net).interp calls

/-- `cond_wait` lets go of the mutex while it waits. -/
def condWait : LockedM AcsMsg := do
  mutexUnlock .status
  mutexLock .status
  act Op.condWait

def djbResult (hcl : HttpsrvClient) (st : DjbStatus) (msg : CStr) : LockedM Unit :=
  (Acs.djbResult hcl st msg).interp calls

def acsProgress (env : Env) (hcl : HttpsrvClient) : LockedM Bool := do
  mutexLock .dancing
  mutexLock .status
  let decision : Start ← act Op.startDance
  match decision with
  | .noNet =>
    mutexUnlock .status
    mutexUnlock .dancing
    acsStatus .err "No NET setup thus can't dance".toList
    mutexLock .status
  | .start =>
    mutexUnlock .status
    mutexUnlock .dancing
    if ← (acsWhen env).interp calls then
      acsStatus .ok "Starting to dance...".toList
      acsInitial.interp calls
    mutexLock .status
  | .nothing => mutexUnlock .dancing
  let m : Option AcsMsg ← act Op.listPop
  match m with
  | some m => djbResult hcl m.status m.message
  | none =>
    let m ← condWait
    djbResult hcl m.status m.message
  mutexUnlock .status
  return true

theorem erase_calls (o : Op) : erase (calls o) = Prog.perform o := by
  cases o with
  | takeNet net =>
    refine congrArg (Prog.op (Op.takeNet net)) (funext fun taken => ?_)
    cases taken with
    | true => rfl
    | false => rfl
  | _ => rfl

theorem erase_acsProgress (env : Env) (hcl : HttpsrvClient) :
    erase (acsProgress env hcl) = Acs.acsProgress env hcl := by
  have back {α : Type} (p : AcsM α) : erase (p.interp calls) = p := Locks.erase_interp erase_calls p
  refine congrArg (Prog.op Op.startDance) (funext fun decision => ?_)
  -- what comes after the decision
  have report : erase (do
      let m : Option AcsMsg ← act Op.listPop
      match m with
      | some m => djbResult hcl m.status m.message
      | none =>
        let m ← condWait
        djbResult hcl m.status m.message
      mutexUnlock .status
      return true : LockedM Bool) = acsReport hcl := by
    refine congrArg (Prog.op Op.listPop) (funext fun m => ?_)
    cases m with
    | some m => rfl
    | none => rfl
  cases decision with
  | noNet => exact congrArg (Prog.op _) (funext fun _ => report)
  | start =>
    refine (Locks.erase_bind ((acsWhen env).interp calls) _).trans ?_
    rw [back]
    refine Eq.trans ?_ (Prog.bind_assoc (acsWhen env) _ _).symm
    refine congrArg (Prog.bind (acsWhen env)) (funext fun valid => ?_)
    cases valid with
    | true =>
      refine congrArg (Prog.op _) (funext fun _ => ?_)
      refine (Locks.erase_bind (acsInitial.interp calls) _).trans ?_
      rw [back]
      exact congrArg (Prog.bind acsInitial) (funext fun _ => report)
    | false => exact report
  | nothing => exact report

/-! What a function does with the mutexes. -/

abbrev Keeps {α : Type} (held : List Mutex) (p : LockedM α) (kept : α → List Mutex) : Prop :=
  (ordered Mutex.rank Op.Result).Follows held p fun a now => now = kept a

theorem status_keeps {held : List Mutex} (below : ∀ m ∈ held, m = .dancing) (st : DjbStatus)
    (text : CStr) (borrowed : Option Net) :
    Keeps held (calls (.status st text borrowed)) fun _ => held := by
  refine ⟨fun m member => ?_, fun _ => ⟨trivial, fun _ => ⟨List.mem_cons_self, fun _ => ?_⟩⟩⟩
  · rw [below m member]
    decide
  · exact List.erase_cons_head Mutex.status held

theorem pushes_keeps (o : Op) (h : o.pushes) : Keeps [] (calls o) fun _ => [] := by
  cases o with
  | status st text borrowed => exact status_keeps (List.forall_mem_nil _) st text borrowed
  | sitdown =>
    exact ⟨List.forall_mem_nil _, fun _ => ⟨trivial, fun _ => ⟨List.mem_cons_self, fun _ => rfl⟩⟩⟩
  | _ => first | exact absurd h id | exact ⟨trivial, fun _ => rfl⟩

theorem pushed_keeps {α : Type} {p : AcsM α} (only : p.Only Op.pushes) :
    Keeps [] (p.interp calls) fun _ => [] :=
  .interp_of_only only pushes_keeps

theorem takeNet_keeps (net : Option Net) :
    Keeps [] (calls (.takeNet net)) fun taken : Bool => if taken then [.dancing] else [] := by
  refine ⟨List.forall_mem_nil _, fun _ => ⟨trivial, fun taken => ?_⟩⟩
  cases taken with
  | true => exact rfl
  | false => exact ⟨List.mem_cons_self, fun _ => rfl⟩

theorem acsSetNet_keeps (net : Option Net) : Keeps [] (acsSetNet net) fun _ => [] := by
  -- whatever was found, the mutex is released
  have unlocked : Keeps [.dancing] ((do unlockNet; return true : AcsM Bool).interp calls)
      fun _ => [] := ⟨trivial, fun _ => ⟨List.mem_cons_self, fun _ => rfl⟩⟩
  have status (st : DjbStatus) (text : CStr) :
      Keeps [.dancing] (calls (.status st text none)) fun _ => [.dancing] :=
    status_keeps (fun m member => List.mem_singleton.mp member) st text none
  have ready (net : Net) : Keeps [.dancing] ((do
      jsonIncref net; Acs.acsStatus .ok "Ready to Dance".toList; unlockNet; return true :
        AcsM Bool).interp calls) fun _ => [] := by
    refine ⟨trivial, fun _ => ?_⟩
    refine .interp_perform ((status _ _).mono fun _ held same => ?_)
    exact same ▸ unlocked
  unfold acsSetNet Acs.acsSetNet
  refine .interp_perform ((takeNet_keeps net).mono fun taken held same => ?_)
  subst same
  cases taken with
  | false =>
    refine .interp_perform ((status_keeps (List.forall_mem_nil _) _ _ _).mono fun _ held same => ?_)
    exact same
  | true =>
    cases net with
    | none => exact unlocked
    | some net =>
      refine .interp_bind (.interp_perform ⟨trivial, fun isObject => ?_⟩)
      cases isObject with
      | true =>
        refine .interp_perform ⟨trivial, fun j => ?_⟩
        cases j with
        | none => exact ready net
        | some j =>
          refine .interp_perform ((status _ _).mono fun _ held same => ?_)
          exact same ▸ ready net
      | false =>
        refine .interp_perform ((status _ _).mono fun _ held same => ?_)
        subst same
        exact ⟨trivial, fun _ => unlocked⟩

theorem acsProgress_keeps (env : Env) (hcl : HttpsrvClient) :
    Keeps [] (acsProgress env hcl) fun _ => [] := by
  have released {held : List Mutex} (same : held = [.status]) :
      Keeps held (do mutexUnlock .status; return true : LockedM Bool) fun _ => [] := by
    subst same
    exact follows_unlock List.mem_cons_self rfl
  have answered (st : DjbStatus) (msg : CStr) :
      Keeps [.status] (do djbResult hcl st msg; mutexUnlock .status; return true : LockedM Bool)
        fun _ => [] := follows_act fun _ => released rfl
  have report : Keeps [.status] (do
      let m : Option AcsMsg ← act Op.listPop
      match m with
      | some m => djbResult hcl m.status m.message
      | none =>
        let m ← condWait
        djbResult hcl m.status m.message
      mutexUnlock .status
      return true : LockedM Bool) fun _ => [] := by
    refine follows_act fun m => ?_
    cases m with
    | some m => exact answered _ _
    | none =>
      refine follows_unlock List.mem_cons_self ?_
      refine follows_lock (List.forall_mem_nil _) ?_
      exact follows_act fun m => answered _ _
  have again {α : Type} {held : List Mutex} (same : held = []) {rest : LockedM α}
      (keeps : Keeps [.status] rest fun _ => []) :
      Keeps held (do mutexLock .status; rest) fun _ => [] := by
    subst same
    exact follows_lock (List.forall_mem_nil _) keeps
  have status (st : DjbStatus) (text : CStr) : Keeps [] (acsStatus st text) fun _ => [] :=
    pushed_keeps (.perform trivial)
  unfold acsProgress
  refine follows_lock (List.forall_mem_nil _) ?_
  refine follows_lock (fun m member => ?_) (follows_act fun decision => ?_)
  · rw [List.mem_singleton.mp member]
    decide
  cases decision with
  | nothing => exact follows_unlock (List.mem_cons_of_mem _ List.mem_cons_self) report
  | noNet =>
    refine follows_unlock List.mem_cons_self (follows_unlock List.mem_cons_self ?_)
    exact .bind ((status _ _).mono fun _ held same => again same report)
  | start =>
    refine follows_unlock List.mem_cons_self (follows_unlock List.mem_cons_self ?_)
    refine .bind ((pushed_keeps ((acsWhen_staged env).mono Op.pushes_of_staged)).mono ?_)
    intro valid held same
    subst same
    cases valid with
    | false => exact again rfl report
    | true =>
      refine .bind ((status _ _).mono fun _ held same => ?_)
      subst same
      refine .bind ((pushed_keeps (acsInitial_staged.mono Op.pushes_of_staged)).mono ?_)
      exact fun _ held same => again same report

/-! The threads. -/

inductive Call
  | status (st : DjbStatus) (text : CStr)
  | sitdown
  | setNet (net : Option Net)
  | progress (hcl : HttpsrvClient)
  | push (shcl : HttpsrvClient) (request : AcsRequest)

def Call.prog (env : Env) : Call → LockedM Unit
  | .status st text => acsStatus st text
  | .sitdown => acsSitdown
  | .setNet net => do let _ ← acsSetNet net
  | .progress hcl => do let _ ← acsProgress env hcl
  | .push shcl request => (djbPushCallback env shcl request).interp calls

theorem Call.prog_keeps (env : Env) (call : Call) : Keeps [] (call.prog env) fun _ => [] := by
  cases call with
  | status st text => exact pushed_keeps (p := Acs.acsStatus st text) (.perform trivial)
  | sitdown => exact pushed_keeps (p := Acs.acsSitdown) (.perform trivial)
  | setNet net => exact .bind ((acsSetNet_keeps net).mono fun _ held same => same)
  | progress hcl => exact .bind ((acsProgress_keeps env hcl).mono fun _ held same => same)
  | push shcl request => exact pushed_keeps (djbPushCallback_pushes env shcl request)

inductive Event
  | run (t : ℕ) (c : (o : Op) → o.Result)
  | call (t : ℕ) (call : Call)

abbrev State := Locks.State Mutex Op.Result

def step (env : Env) (s : State) : Event → Option State
  | .run t c => s.run (ordered Mutex.rank Op.Result) Locks.exec t c
  | .call t call => s.start t [] (call.prog env)

def machine (env : Env) : Machine State Event := ⟨step env⟩

def init (threads : ℕ) : State := ⟨fun _ => none, List.replicate threads ⟨[], .done ()⟩⟩

theorem step_agrees (env : Env) (s : State) (e : Event) (s' : State)
    (h : Locks.Agrees Mutex.rank s) (moved : step env s e = some s') :
    Locks.Agrees Mutex.rank s' := by
  cases e with
  | run t c => exact h.run moved
  | call t call => exact h.start (call.prog_keeps env) moved

/-- No call of `acs.c` leaves a mutex held, takes one twice or releases one it does not
hold; and whatever the threads do, none waits for itself and no set of them for each other. -/
theorem locks_never_deadlock (env : Env) (threads : ℕ) (es : List Event) :
    (∀ call : Call, ∀ reply m, Locks.Balanced m 0 ((call.prog env).trace reply 0).1) ∧
      (machine env).Always (fun s : State =>
        (¬ ∃ t m, Locks.Wants s t m ∧ s.shared m = some t) ∧
          ¬ ∃ T : Set ℕ, Locks.Deadlocked s T) (init threads) es := by
  refine ⟨fun call reply m => ?_, ?_⟩
  · exact Locks.balanced_of_follows (call.prog_keeps env) List.nodup_nil reply 0 m
  · have always := (machine env).always_of_step (step_agrees env) (Locks.Agrees.idle threads) es
    refine always.imp _ fun s h => ⟨?_, ?_⟩
    · rintro ⟨t, m, wants, own⟩
      exact h.not_wants_own wants own
    · rintro ⟨T, dead⟩
      exact h.not_deadlocked T dead

/-- A thread does wait where another one is before it. -/
example (env : Env) (c : (o : Op) → o.Result) : ∃ s,
    (machine env).exec (init 2) [.call 0 .sitdown, .call 1 (.setNet none), .run 0 c] = some s ∧
      Locks.Wants s 1 .dancing ∧ s.shared .dancing = some 0 :=
  ⟨_, rfl, ⟨_, rfl, rfl⟩, rfl⟩

end Locked

end Jumpbox.Acs
