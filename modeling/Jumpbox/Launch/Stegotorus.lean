import Jumpbox.Launch.Program
import Jumpbox.Preferences.Arguments

/-! `djb_launch_st`: the argument vector is made by `prf_get_argv`, used by `djb_launch` and
freed. It is not looked at whether there is one; where there is none, `argv` was never set,
and what is read through it is whatever the stack held. -/

namespace Jumpbox.Launch

open Preferences (Prefs Forced Argv GetArgv prfGetArgv unsigned djbResult)

inductive StOp
  | launch (o : Op)
  | wildRead
  | prfFreeArgv (argc : ℕ) (argv : Option Argv)

def StOp.Result : StOp → Type
  | .launch o => o.Result
  | .wildRead => List CStr
  | .prfFreeArgv _ _ => Unit

abbrev StM := Prog StOp StOp.Result

def launching {α : Type} (p : LaunchM α) : StM α := p.interp fun o => Prog.perform (StOp.launch o)

def texts (argv : Argv) : List CStr := (argv.slots.takeWhile Option.isSome).reduceOption

def readArgv : Option Argv → StM (List CStr)
  | some argv => return texts argv
  | none => Prog.perform StOp.wildRead

/-- What `prf_get_argv` returns, and what it leaves in `argv`. -/
def returned : GetArgv → ℤ × Option Argv
  | .failed _ => (-1, none)
  | .built argv => (argv.argc, some argv)

def djbLaunchSt (processCmdline : List CStr → CStr) (dup : ℕ → Bool) (env : Forced)
    (calloc : Bool) (p : Prefs) (hcl : HttpsrvClient) : StM Unit := do
  let (argc, argv) := returned (prfGetArgv dup env calloc p)
  launching (stopRunning .stegotorus)
  let args ← readArgv argv
  launching (spawn args .stegotorus)
  launching (report processCmdline hcl args .stegotorus)
  -- the parameter is an `unsigned int`
  Prog.perform (StOp.prfFreeArgv (unsigned argc) argv)

theorem launching_bind {α β : Type} (p : LaunchM α) (f : α → LaunchM β) :
    launching (p >>= f) = launching p >>= fun a => launching (f a) := Prog.interp_bind _ p f

theorem djbLaunchSt_built (processCmdline : List CStr → CStr) (hcl : HttpsrvClient)
    {dup : ℕ → Bool} {env : Forced} {calloc : Bool} {p : Prefs} {argv : Argv}
    (built : prfGetArgv dup env calloc p = .built argv) :
    djbLaunchSt processCmdline dup env calloc p hcl = (do
      launching (djbLaunch processCmdline hcl (texts argv) .stegotorus)
      Prog.perform (StOp.prfFreeArgv (unsigned argv.argc) (some argv))) := by
  unfold djbLaunchSt djbLaunch
  rw [built, launching_bind]
  refine Eq.trans ?_ (Prog.bind_assoc _ _ _).symm
  refine congrArg (Prog.bind _) (funext fun _ => ?_)
  rw [launching_bind]
  exact (Prog.bind_assoc _ _ _).symm

/-- What a launch without a vector should be: nothing is read, started, ended or freed, the
recorded number stays, there is one answer, an error, and no memory is left behind. -/
structure DoesNothing (hcl : HttpsrvClient) (left : Option Argv) (ops : List StOp) : Prop where
  unread : .wildRead ∉ ops
  unspawned : ∀ k argv log, .launch (.processSpawn k argv log) ∉ ops
  unfreed : ∀ argc argv, .prfFreeArgv argc argv ∉ ops
  running : ∀ n, .launch (.processTerminate n) ∉ ops
  number : ∀ k n, .launch (.setNum k n) ∉ ops
  answered : ∃ msg, (ops.filterMap fun o => match o with
    | .launch (.answer hcl outs) => some (hcl, outs)
    | _ => none) = [(hcl, djbResult .err msg)]
  released : left = none

section Failed

variable {dup : ℕ → Bool} {env : Forced} {calloc : Bool} {p : Prefs} {left : Option Argv}

theorem wildRead_mem (failed : prfGetArgv dup env calloc p = .failed left)
    (processCmdline : List CStr → CStr) (hcl : HttpsrvClient)
    (reply : ℕ → (o : StOp) → o.Result) :
    .wildRead ∈ (djbLaunchSt processCmdline dup env calloc p hcl).ops reply 0 := by
  unfold djbLaunchSt
  rw [failed]
  exact Prog.mem_ops_bind fun _ start => List.mem_cons_self

/-- However a launch goes whose arguments could not be made, the vector that is not there is
read, and freed as one of 2 ^ 32 - 1 texts; a child that is recorded is ended before. -/
theorem failed_launch (failed : prfGetArgv dup env calloc p = .failed left)
    (processCmdline : List CStr → CStr) (hcl : HttpsrvClient)
    (reply : ℕ → (o : StOp) → o.Result) :
    let ops := (djbLaunchSt processCmdline dup env calloc p hcl).ops reply 0
    .wildRead ∈ ops ∧ .prfFreeArgv (2 ^ 32 - 1) none ∈ ops ∧
      (reply 0 (.launch (.num .stegotorus)) ≠ (0 : ℤ) →
        .launch (.processTerminate (reply 1 (.launch (.num .stegotorus)))) ∈ ops) ∧
      ¬DoesNothing hcl left ops := by
  intro ops
  have read : .wildRead ∈ ops := wildRead_mem failed processCmdline hcl reply
  refine ⟨read, ?_, fun recorded => ?_, fun nothing => nothing.unread read⟩
  · change _ ∈ (djbLaunchSt processCmdline dup env calloc p hcl).ops reply 0
    unfold djbLaunchSt
    rw [failed]
    refine Prog.mem_ops_bind fun _ _ => Prog.mem_ops_bind fun _ _ => ?_
    refine Prog.mem_ops_bind fun _ _ => Prog.mem_ops_bind fun _ _ => ?_
    exact List.mem_cons_self
  · refine Prog.mem_ops_bind_left (List.mem_cons_of_mem _ ?_)
    have stops : ∀ running : ℤ, running ≠ 0 →
        .launch (.processTerminate (reply 1 (.launch (.num .stegotorus)))) ∈
          (launching (if running = 0 then pure () else do
            let n ← num .stegotorus
            processTerminate n
            setNum .stegotorus 0)).ops reply 1 := by
      intro running other
      rw [if_neg other]
      exact List.mem_cons_of_mem _ List.mem_cons_self
    exact stops _ recorded

def longLevel : Prefs :=
  Preferences.prfSetValue true {} .ll (List.replicate 300 'w')

theorem longLevel_failed : ∃ left, prfGetArgv (fun _ => true) {} true longLevel = .failed left :=
  ⟨_, (Preferences.prfGetArgv_eq _ {} true longLevel).trans
    ((if_pos rfl).trans (if_pos (by decide +kernel)))⟩

def recordsSeven (_ : ℕ) : (o : StOp) → o.Result
  | .launch (.num _) => (7 : ℤ)
  | .launch (.processSpawn ..) => (0 : ℤ)
  | .launch .aprintf => false
  | .launch (.setNum ..) | .launch (.processTerminate _) | .launch (.answer ..) => ()
  | .wildRead => []
  | .prfFreeArgv _ _ => ()

theorem failed_launch_longLevel : ∃ left,
    prfGetArgv (fun _ => true) {} true longLevel = .failed left ∧
      let ops :=
        (djbLaunchSt (fun _ => []) (fun _ => true) {} true longLevel default).ops recordsSeven 0
      .launch (.processTerminate 7) ∈ ops ∧ ¬DoesNothing default left ops := by
  obtain ⟨left, failed⟩ := longLevel_failed
  obtain ⟨-, -, ends, other⟩ := failed_launch failed (fun _ => []) default recordsSeven
  have recorded : (7 : ℤ) ≠ 0 := by decide
  exact ⟨left, failed, ends recorded, other⟩

theorem launch_reads_unset :
    ¬∀ (processCmdline : List CStr → CStr) (dup : ℕ → Bool) (env : Forced) (calloc : Bool)
      (p : Prefs) (left : Option Argv) (hcl : HttpsrvClient)
      (reply : ℕ → (o : StOp) → o.Result), prfGetArgv dup env calloc p = .failed left →
      DoesNothing hcl left ((djbLaunchSt processCmdline dup env calloc p hcl).ops reply 0) := by
  intro always
  obtain ⟨left, failed⟩ := longLevel_failed
  have nothing := always (fun _ => []) _ _ _ _ left default recordsSeven failed
  exact nothing.unread (wildRead_mem failed (fun _ => []) default recordsSeven)

end Failed

end Jumpbox.Launch
