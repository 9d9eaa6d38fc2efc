import Jumpbox.Library.Machine
import Jumpbox.Library.Prog
import Jumpbox.Library.Table
import Jumpbox.Preferences.Store

/-! `djb_launch` on the HTTP threads of the daemon, and the children that libfutil starts
and ends for it. Each access of `l_st_pnum` or `l_tor_pnum` is an operation of its own, as
no lock is taken. -/

namespace Jumpbox.Launch

open Preferences (djbResult)
open Prog (perform)

inductive Kind
  | stegotorus
  | tor
  deriving DecidableEq

structure Child where
  kind : Kind
  number : ℤ
  alive : Bool := true
  deriving DecidableEq

structure Shared where
  /-- `l_st_pnum` and `l_tor_pnum`. -/
  pnum : Kind → ℤ := fun _ => 0
  children : List Child := []
  answers : List (HttpsrvClient × List Out) := []

/-- What the environment chooses: the result of `process_spawn`, and whether `aprintf`
finds memory. -/
structure Choice where
  spawned : ℤ := 0
  memory : Bool := true

inductive Op
  | num (k : Kind)
  | setNum (k : Kind) (n : ℤ)
  | processTerminate (n : ℤ)
  | processSpawn (k : Kind) (argv : List CStr) (logfile : CStr)
  | aprintf
  | answer (hcl : HttpsrvClient) (outs : List Out)

def Op.Result : Op → Type
  | .num _ | .processSpawn .. => ℤ
  | .aprintf => Bool
  | _ => Unit

namespace Shared

def numbers (s : Shared) (chosen : Kind → Bool) : List ℤ :=
  (s.children.filter fun c => c.alive && chosen c.kind).map Child.number

def running (s : Shared) : List ℤ := s.numbers fun _ => true

def runningOf (s : Shared) (k : Kind) : List ℤ := s.numbers fun kind => kind = k

def kill (s : Shared) (dies : Child → Bool) : Shared :=
  { s with children := s.children.map fun c => { c with alive := c.alive && !dies c } }

end Shared

/-- The number of a new process is positive, and no other has it that runs; a failure gives
a number that is not. -/
def exec (_ : ℕ) (o : Op) (c : Choice) (s : Shared) : Option (Shared × o.Result) :=
  match o with
  | .num k => some (s, s.pnum k)
  | .setNum k n => some ({ s with pnum := Function.update s.pnum k n }, ())
  | .processTerminate n => some (s.kill fun c => c.number = n, ())
  | .processSpawn k _ _ =>
    if c.spawned ≤ 0 then some (s, c.spawned)
    else if c.spawned ∈ s.running then none
    else some ({ s with children := s.children ++ [{ kind := k, number := c.spawned }] }, c.spawned)
  | .aprintf => some (s, c.memory)
  | .answer hcl outs => some ({ s with answers := s.answers ++ [(hcl, outs)] }, ())

abbrev LaunchM := Prog Op Op.Result

def num (k : Kind) : LaunchM ℤ := perform (Op.num k)
def setNum (k : Kind) (n : ℤ) : LaunchM Unit := perform (Op.setNum k n)
def processTerminate (n : ℤ) : LaunchM Unit := perform (Op.processTerminate n)

def processSpawn (k : Kind) (argv : List CStr) (logfile : CStr) : LaunchM ℤ :=
  perform (Op.processSpawn k argv logfile)

def aprintf : LaunchM Bool := perform Op.aprintf
def answer (hcl : HttpsrvClient) (outs : List Out) : LaunchM Unit := perform (Op.answer hcl outs)

def logName (argv0 : CStr) : CStr := (argv0.reverse.takeWhile (· ≠ '/')).reverse

def logfileSize : ℕ := 128

def logfile (argv : List CStr) : CStr :=
  "/tmp/djb_".toList ++ logName (argv.headD []) ++ ".log".toList

/-- The message after the launch; `process_cmdline` is libfutil's. -/
def launchText (processCmdline : List CStr → CStr) (argv : List CStr) (n : ℤ) : CStr :=
  (if 0 < n then "Launched".toList else "Failed to launch".toList) ++ " with logfile ".toList ++
    (logfile argv).take (logfileSize - 1) ++ ": ".toList ++ processCmdline argv

/-- `djb_launch` in three parts: a child that runs already is stopped. -/
def stopRunning (k : Kind) : LaunchM Unit := do
  let running ← num k
  if running = 0 then return
  else
    let n ← num k
    processTerminate n
    setNum k 0

def spawn (argv : List CStr) (k : Kind) : LaunchM Unit := do
  if (logfile argv).length < logfileSize then
    let n ← processSpawn k argv (logfile argv)
    setNum k n

def report (processCmdline : List CStr → CStr) (hcl : HttpsrvClient) (argv : List CStr)
    (k : Kind) : LaunchM Unit := do
  let n ← num k
  let msg ← aprintf
  if msg then
    let text := launchText processCmdline argv n
    let n ← num k
    answer hcl (djbResult (if 0 < n then .ok else .err) text)
  else answer hcl (djbResult .err "Could not format error".toList)

def djbLaunch (processCmdline : List CStr → CStr) (hcl : HttpsrvClient) (argv : List CStr)
    (k : Kind) : LaunchM Unit := do
  stopRunning k
  spawn argv k
  report processCmdline hcl argv k

/-- Where a thread stands in a launch. Up to `stored` the recorded number may be off. -/
inductive Role
  | idle
  | begun (k : Kind)
  | occupied (k : Kind)
  | stopping (k : Kind) (n : ℤ)
  | stopped (k : Kind)
  | ready (k : Kind)
  | spawned (k : Kind) (n : ℤ)
  | stored (k : Kind)
  deriving DecidableEq

namespace Role

def may : Role → Op → Prop
  | .begun k, .num k' | .occupied k, .num k' | .ready k, .num k' | .stored k, .num k' => k' = k
  | .stopping _ n, .processTerminate n' => n' = n
  | .stopped k, .setNum k' n' => k' = k ∧ n' = 0
  | .ready k, .processSpawn k' _ _ => k' = k
  | .spawned k n, .setNum k' n' => k' = k ∧ n' = n
  | .stored _, .aprintf | .stored _, .answer .. => True
  | _, _ => False

def tested (k : Kind) (n : ℤ) : Role := if n = 0 then .ready k else .occupied k

def after : Role → (o : Op) → o.Result → Role
  | .begun k, .num _, n => tested k n
  | .occupied k, .num _, n => .stopping k n
  | .stopping k _, .processTerminate _, _ => .stopped k
  | .stopped k, .setNum _ _, _ => .ready k
  | .ready k, .processSpawn .., n => .spawned k n
  | .ready k, .num _, _ => .stored k
  | .spawned k _, .setNum _ _, _ => .stored k
  | role, _, _ => role

def launching : Role → Option Kind
  | .begun k | .occupied k | .stopping k _ | .stopped k | .ready k | .spawned k _ => some k
  | _ => none

def final (role : Role) : Prop := role.launching = none

end Role

def discipline : Discipline Op Op.Result Role where
  may := Role.may
  after := Role.after

open Discipline (Follows)

theorem stopRunning_follows (k : Kind) :
    discipline.Follows (.begun k) (stopRunning k) fun _ role => role = .ready k := by
  unfold stopRunning
  refine .bind (.perform rfl fun n => ?_)
  change discipline.Follows (Role.tested k n) _ _
  unfold Role.tested
  split
  · exact .pure rfl
  · refine .bind (.perform rfl fun n => ?_)
    refine .bind (.perform rfl fun _ => ?_)
    exact .perform ⟨rfl, rfl⟩ fun _ => rfl

theorem spawn_follows (argv : List CStr) (k : Kind) :
    discipline.Follows (.ready k) (spawn argv k)
      fun _ role => role = .ready k ∨ role = .stored k := by
  unfold spawn
  split
  · refine .bind (.perform rfl fun n => ?_)
    exact .perform ⟨rfl, rfl⟩ fun _ => .inr rfl
  · exact .pure (.inl rfl)

theorem report_follows (processCmdline : List CStr → CStr) (hcl : HttpsrvClient)
    (argv : List CStr) (k : Kind) {role : Role} (sees : role.may (.num k))
    (stored : ∀ n, role.after (.num k) n = .stored k) :
    discipline.Follows role (report processCmdline hcl argv k) fun _ role => role.final := by
  unfold report
  refine .bind (.perform sees fun n => ?_)
  change discipline.Follows (role.after (.num k) n) _ _
  rw [stored n]
  refine .bind (.perform trivial fun msg => ?_)
  cases msg with
  | true =>
    refine .bind (.perform rfl fun n => ?_)
    exact .perform trivial fun _ => rfl
  | false => exact .perform trivial fun _ => rfl

theorem djbLaunch_follows (processCmdline : List CStr → CStr) (hcl : HttpsrvClient)
    (argv : List CStr) (k : Kind) :
    discipline.Follows (.begun k) (djbLaunch processCmdline hcl argv k)
      fun _ role => role.final := by
  unfold djbLaunch
  refine .bind ((stopRunning_follows k).mono fun _ role same => ?_)
  subst same
  refine .bind ((spawn_follows argv k).mono fun _ role same => ?_)
  rcases same with rfl | rfl
  · exact report_follows processCmdline hcl argv k rfl fun _ => rfl
  · exact report_follows processCmdline hcl argv k rfl fun _ => rfl

end Jumpbox.Launch
