import Jumpbox.Acs.Roles
import Jumpbox.Library.Machine
import Jumpbox.Library.Table

/-! The daemon's side of a dance: HTTP threads that run the functions of `acs.c`, and
what one step of them can do. `Acts` lists the operations with the roles in which
they occur; every invariant is proved by cases on it. -/

namespace Jumpbox.Acs

open Shared

abbrev State := Pool Shared Op Op.Result Role

inductive Event
  | run (t : ℕ) (c : Choice)
  | progress (t : ℕ) (hcl : HttpsrvClient)
  | setup (t : ℕ) (hcl : HttpsrvClient)
  | peel (t : ℕ) (nep : CStr)
  /-- The push `shcl`, handled on thread `t`, is for the `i`-th internal request. -/
  | answer (t i : ℕ) (shcl : HttpsrvClient)
  | shutdown
  /-- The threads have stopped and the main thread cleans up. -/
  | exit (t : ℕ)

def acsInit : Shared :=
  ({} : Shared).acsStatus 0 ⟨.ok, "ACS Dancer Initialized".toList⟩ true

def init (threads : ℕ) : State := ⟨acsInit, List.replicate threads ⟨.outside, .done ()⟩⟩

def handle {α : Type} (s : State) (t : ℕ) (role : Role) (prog : AcsM α) : Option State :=
  if s.shared.exited then none else s.start t role do let _ ← prog

theorem handle_eq_some {α : Type} {s s' : State} {t : ℕ} {role : Role} {prog : AcsM α}
    (moved : handle s t role prog = some s') :
    s.shared.exited = false ∧ ∃ old, s.threads[t]? = some ⟨old, .done ()⟩ ∧
      s' = { s with threads := s.threads.set t ⟨role, do let _ ← prog⟩ } := by
  unfold handle at moved
  split at moved
  next => cases moved
  next open_ => exact ⟨by simpa using open_, Pool.start_cases moved⟩

def step (env : Env) (s : State) (e : Event) : Option State :=
  if s.shared.crashed then none else
  match e with
  | .run t c => s.run discipline (exec env) t c
  | .progress t hcl => handle s t .outside (acsProgress env hcl)
  | .setup t hcl => handle s t .outside (acsSetup hcl)
  | .peel t nep => handle s t .outside (rdvPeelBase nep)
  | .answer t i shcl =>
    match s.shared.pending[i]? with
    | none => none
    | some request =>
      handle { s with shared := { s.shared with pending := s.shared.pending.eraseIdx i } }
        t (.stage none) (djbPushCallback env shcl request)
  | .shutdown => some { s with shared := { s.shared with running := false } }
  | .exit t =>
    if s.threads.all fun th => th.prog.isDone then
      (handle s t .leaving acsExit).map fun s =>
        { s with shared := { s.shared with exited := true } }
    else none

def machine (env : Env) : Machine State Event := ⟨step env⟩

def Event.request (env : Env) : Event → Option (ℕ × AcsM Unit)
  | .progress t hcl => some (t, do let _ ← acsProgress env hcl)
  | .setup t hcl => some (t, do let _ ← acsSetup hcl)
  | .peel t nep => some (t, do let _ ← rdvPeelBase nep)
  | _ => none

theorem request_follows {env : Env} {φ : Type} {D : Discipline Op Op.Result φ} {f : φ}
    {final : φ → Prop} {e : Event} {t : ℕ} {prog : AcsM Unit}
    (progress : ∀ hcl, D.Follows f (acsProgress env hcl) fun _ f' => final f')
    (setup : ∀ hcl, D.Follows f (acsSetup hcl) fun _ f' => final f')
    (peel : ∀ nep, D.Follows f (rdvPeelBase nep) fun _ f' => final f')
    (asked : e.request env = some (t, prog)) : D.Follows f prog fun _ f' => final f' := by
  cases e with
  | progress t hcl =>
    cases asked
    exact (progress hcl).discard
  | setup t hcl =>
    cases asked
    exact (setup hcl).discard
  | peel t nep =>
    cases asked
    exact (peel nep).discard
  | _ => cases asked

inductive Moved (env : Env) (s : State) : Event → State → Prop
  | run {t c role o next shared x} (at_t : s.threads[t]? = some ⟨role, .op o next⟩)
      (performed : exec env t o c s.shared = some (shared, x)) :
      Moved env s (.run t c) ⟨shared, s.threads.set t ⟨discipline.after role o x, next x⟩⟩
  | begin {t e old prog} (asked : e.request env = some (t, prog))
      (open_ : s.shared.exited = false) (at_t : s.threads[t]? = some ⟨old, .done ()⟩) :
      Moved env s e ⟨s.shared, s.threads.set t ⟨.outside, prog⟩⟩
  | answer {t i shcl old request} (open_ : s.shared.exited = false)
      (at_t : s.threads[t]? = some ⟨old, .done ()⟩)
      (waiting : s.shared.pending[i]? = some request) :
      Moved env s (.answer t i shcl)
        ⟨{ s.shared with pending := s.shared.pending.eraseIdx i },
          s.threads.set t ⟨.stage none, do let _ ← djbPushCallback env shcl request⟩⟩
  | shutdown : Moved env s .shutdown { s with shared := { s.shared with running := false } }
  | exit {t old} (open_ : s.shared.exited = false)
      (at_t : s.threads[t]? = some ⟨old, .done ()⟩)
      (stopped : ∀ th ∈ s.threads, th.prog.isDone = true) :
      Moved env s (.exit t)
        ⟨{ s.shared with exited := true }, s.threads.set t ⟨.leaving, do let _ ← acsExit⟩⟩

theorem step_moved {env : Env} {s s' : State} {e : Event} (moved : step env s e = some s') :
    Moved env s e s' := by
  unfold step at moved
  split at moved
  next => cases moved
  cases e with
  | run t c =>
    obtain ⟨role, o, next, shared, x, at_t, performed, rfl⟩ := Pool.run_eq_some moved
    exact .run at_t performed
  | progress | setup | peel =>
    obtain ⟨open_, old, at_t, rfl⟩ := handle_eq_some moved
    exact .begin rfl open_ at_t
  | answer t i shcl =>
    dsimp only at moved
    split at moved
    next => cases moved
    next asked waiting =>
      obtain ⟨open_, old, at_t, rfl⟩ := handle_eq_some moved
      exact .answer open_ at_t waiting
  | shutdown =>
    cases moved
    exact .shutdown
  | exit t =>
    dsimp only at moved
    split at moved
    next stopped =>
      obtain ⟨begun, handled, rfl⟩ := Option.map_eq_some_iff.mp moved
      obtain ⟨open_, old, at_t, rfl⟩ := handle_eq_some handled
      exact .exit open_ at_t (List.all_eq_true.mp stopped)
    next => cases moved

inductive Acts (env : Env) (t : ℕ) (c : Choice) (s : Shared) : Role → Op → Role → Shared → Prop
  | quiet {role o} (client : ℕ) (msgs : List AcsMsg) (answers : List (HttpsrvClient × List Out))
      (closed destroyed : List ℕ) (list : Option Json) (crashed : Bool) :
      Acts env t c s role o role { s with
        nextClient := client, lMessages := msgs, answers := answers, closed := closed
        destroyed := destroyed, bridgeAccessList := list, crashed := crashed }
  | look {known} : Acts env t c s (.stage known) .lNet (.stage s.lNet) (s.touch s.lNet)
  | sent {text} :
      Acts env t c s .outside (.status .ok text none) .outside
        ((s.touch none).acsStatus t (acsMsg .ok text) c.ok)
  | complain {text} :
      Acts env t c s .complains (.status .err text none) .outside
        ((s.touch none).acsStatus t (acsMsg .err text) c.ok)
  | report {known text borrowed} (live : borrowed = none ∨ borrowed = known) :
      Acts env t c s (.stage known) (.status .ok text borrowed) (.stage known)
        ((s.touch borrowed).acsStatus t (acsMsg .ok text) c.ok)
  | last {known st text borrowed} (live : borrowed = none ∨ borrowed = known) (ends : st ≠ .ok) :
      Acts env t c s (.stage known) (.status st text borrowed) .closing
        ((s.touch borrowed).acsStatus t (acsMsg st text) c.ok)
  | refused {net text} :
      Acts env t c s (.refused net) (.status .err text none) (.owns net)
        ((s.touch none).acsStatus t (acsMsg .err text) c.ok)
  | noObject {net text} :
      Acts env t c s (.checking net) (.status .err text none) (.checking net)
        ((s.touch none).acsStatus t (acsMsg .err text) c.ok)
  | adopting {net text} :
      Acts env t c s (.adopting net) (.status .ok text none) (.adopting net)
        ((s.touch none).acsStatus t (acsMsg .ok text) c.ok)
  | ready {net text} :
      Acts env t c s (.adopted net) (.status .ok text none) (.adopted net)
        ((s.touch none).acsStatus t (acsMsg .ok text) c.ok)
  | exitRefused {text} :
      Acts env t c s .cleared (.status .err text none) .cleared
        ((s.touch none).acsStatus t (acsMsg .err text) c.ok)
  | sitdown (free : s.locked = false) :
      Acts env t c s .closing .sitdown .outside (s.acsSitdown t)
  | exitSitdown (free : s.locked = false) :
      Acts env t c s .leaving .sitdown .seated (s.acsSitdown t)
  | refuse {net} (dancing : s.lDancing = true) :
      Acts env t c s (.owns net) (.takeNet (some net)) (.refused net) s
  | takeFirst {net} (free : s.locked = false) (idle : s.lDancing = false) (first : s.lNet = none) :
      Acts env t c s (.owns net) (.takeNet (some net)) (.checking net)
        { s.closeWindow none with lNet := some net, locked := true }
  | takeOver {net old} (free : s.locked = false) (idle : s.lDancing = false)
      (current : s.lNet = some old) :
      Acts env t c s (.owns net) (.takeNet (some net)) (.checking net)
        { (s.jsonDecref old).closeWindow none with lNet := some net, locked := true }
  | exitRefuse (dancing : s.lDancing = true) :
      Acts env t c s .seated (.takeNet none) .cleared s
  | exitFirst (free : s.locked = false) (idle : s.lDancing = false) (first : s.lNet = none) :
      Acts env t c s .seated (.takeNet none) .exitLocked
        { s.closeWindow none with lNet := none, locked := true }
  | exitOver {old} (free : s.locked = false) (idle : s.lDancing = false)
      (current : s.lNet = some old) :
      Acts env t c s .seated (.takeNet none) .exitLocked
        { (s.jsonDecref old).closeWindow none with lNet := none, locked := true }
  | accept {net} (object : net.value.isObject = true) :
      Acts env t c s (.checking net) (.jsonIsObject net) (.adopting net) (s.touch (some net)).accept
  | reject {net} (other : net.value.isObject = false) :
      Acts env t c s (.checking net) (.jsonIsObject net) (.checking net) (s.touch (some net))
  | drop {net} :
      Acts env t c s (.checking net) .dropNet (.rejected net) { s with lNet := none }
  | dump {net} :
      Acts env t c s (.adopting net) (.jsonDumps net) (.adopting net) (s.touch (some net))
  | incref {net} :
      Acts env t c s (.adopting net) (.jsonIncref net) (.adopted net)
        { s.touch (some net) with refs := Function.update s.refs net.ptr (s.refs net.ptr + 1) }
  | unlockAdopted {net} :
      Acts env t c s (.adopted net) .unlockNet (.owns net) { s with locked := false }
  | unlockRejected {net} :
      Acts env t c s (.rejected net) .unlockNet (.owns net) { s with locked := false }
  | exitUnlock : Acts env t c s .exitLocked .unlockNet .cleared { s with locked := false }
  | exitDone : Acts env t c s .cleared .listDestroy .gone { s with lMessages := [] }
  | load {text value} :
      Acts env t c s .outside (.jsonLoads text) (.owns ⟨s.nextNet, value⟩)
        { s with nextNet := s.nextNet + 1, refs := Function.update s.refs s.nextNet 1 }
  | decref {net} :
      Acts env t c s (.owns net) (.jsonDecref net) .outside (s.jsonDecref net)
  | queue {known request borrowed} (live : borrowed = none ∨ borrowed = known) :
      Acts env t c s (.stage known) (.djbProxyAdd request borrowed) .outside
        { s.touch borrowed with pending := s.pending ++ [request] }
  | queueFull {known request borrowed} (live : borrowed = none ∨ borrowed = known)
      (full : c.ok = false) :
      Acts env t c s (.stage known) (.djbProxyAdd request borrowed) .closing (s.touch borrowed)
  | putBack {known request} :
      Acts env t c s (.stage known) (.putBack request) .outside
        { s with pending := s.pending ++ [request] }
  | interrupted {known msec} (broken : c.ok = false) :
      Acts env t c s (.stage known) (.threadSleep msec) .complains
        { s with hist := { s.hist with interrupted := s.hist.interrupted + 1 } }
  | start {net} (free : s.locked = false) (idle : s.lDancing = false) (ready : s.lStatus = .ok)
      (set : s.lNet = some net) :
      Acts env t c s .outside .startDance (.stage none)
        { s with lDancing := true, hist := { s.hist with danceNet := some net } }
  | noNet (idle : s.lDancing = false) (unset : s.lNet = none) :
      Acts env t c s .outside .startDance .complains s

theorem acts_status {env : Env} {t : ℕ} {c : Choice} {s s' : Shared} {role : Role}
    {st : DjbStatus} {text : CStr} {borrowed : Option Net}
    (may : role.may (.status st text borrowed))
    (performed : exec env t (.status st text borrowed) c s = some (s', ())) :
    Acts env t c s role (.status st text borrowed)
      (role.after (.status st text borrowed) ()) s' := by
  obtain rfl : _ = s' := congrArg Prod.fst (Option.some.inj performed)
  cases role with
  | stage known =>
    cases st with
    | ok => exact .report may
    | err => exact .last may nofun
    | done => exact .last may nofun
  | outside => obtain ⟨rfl, rfl⟩ := may; exact .sent
  | complains => obtain ⟨rfl, rfl⟩ := may; exact .complain
  | refused net => obtain ⟨rfl, rfl⟩ := may; exact .refused
  | checking net => obtain ⟨rfl, rfl⟩ := may; exact .noObject
  | adopting net => obtain ⟨rfl, rfl⟩ := may; exact .adopting
  | adopted net => obtain ⟨rfl, rfl⟩ := may; exact .ready
  | cleared => obtain ⟨rfl, rfl⟩ := may; exact .exitRefused
  | _ => exact False.elim may

theorem acts_takeNet {env : Env} {t : ℕ} {c : Choice} {s s' : Shared} {role : Role}
    {net : Option Net} {taken : Bool} (may : role.may (.takeNet net))
    (performed : exec env t (.takeNet net) c s = some (s', taken)) :
    Acts env t c s role (.takeNet net) (role.after (.takeNet net) taken) s' := by
  unfold exec at performed
  dsimp only at performed
  split at performed
  next => cases performed
  next free =>
    have free : s.locked = false := by simpa using free
    split at performed
    next dancing =>
      cases performed
      cases role with
      | owns own => obtain rfl := may; exact .refuse dancing
      | seated => obtain rfl := may; exact .exitRefuse dancing
      | _ => exact False.elim may
    next idle =>
      have idle : s.lDancing = false := by simpa using idle
      cases performed
      unfold replaceNet
      cases set : s.lNet with
      | none =>
        cases role with
        | owns own => obtain rfl := may; exact .takeFirst free idle set
        | seated => obtain rfl := may; exact .exitFirst free idle set
        | _ => exact False.elim may
      | some old =>
        cases role with
        | owns own => obtain rfl := may; exact .takeOver free idle set
        | seated => obtain rfl := may; exact .exitOver free idle set
        | _ => exact False.elim may

theorem acts_startDance {env : Env} {t : ℕ} {c : Choice} {s s' : Shared} {role : Role}
    {decision : Start} (may : role.may .startDance)
    (performed : exec env t .startDance c s = some (s', decision)) :
    Acts env t c s role .startDance (role.after .startDance decision) s' := by
  cases role with
  | outside =>
    unfold exec at performed
    dsimp only at performed
    split at performed
    next => cases performed
    next free =>
      have free : s.locked = false := by simpa using free
      split at performed
      next ready =>
        split at performed
        next unset => cases performed; exact .noNet ready.1 unset
        next set => cases performed; exact .start free ready.1 ready.2 set
      next => cases performed; exact .quiet _ _ _ _ _ _ _
  | _ => exact False.elim may

theorem acts_of_exec {env : Env} {t : ℕ} {c : Choice} {s s' : Shared} {role : Role} {o : Op}
    {x : o.Result} (may : role.may o) (performed : exec env t o c s = some (s', x)) :
    Acts env t c s role o (role.after o x) s' := by
  cases o with
  | status => exact acts_status may performed
  | takeNet => exact acts_takeNet may performed
  | startDance => exact acts_startDance may performed
  | sitdown =>
    unfold exec at performed
    dsimp only at performed
    split at performed
    next => cases performed
    next free =>
      have free : s.locked = false := by simpa using free
      cases performed
      cases role with
      | closing => exact .sitdown free
      | leaving => exact .exitSitdown free
      | _ => exact False.elim may
  | lNet =>
    cases performed
    cases role with
    | stage known => exact .look
    | _ => exact False.elim may
  | jsonIsObject net =>
    unfold exec at performed
    dsimp only at performed
    cases role with
    | checking own =>
      obtain rfl := may
      split at performed
      next object => cases performed; exact .accept object
      next other => cases performed; exact .reject (by simpa using other)
    | _ => exact False.elim may
  | jsonDumps net =>
    cases performed
    cases role with
    | adopting own => obtain rfl := may; exact .dump
    | _ => exact False.elim may
  | jsonIncref net =>
    cases performed
    cases role with
    | adopting own => obtain rfl := may; exact .incref
    | _ => exact False.elim may
  | dropNet =>
    cases performed
    cases role with
    | checking own => exact .drop
    | _ => exact False.elim may
  | unlockNet =>
    cases performed
    cases role with
    | adopted own => exact .unlockAdopted
    | rejected own => exact .unlockRejected
    | exitLocked => exact .exitUnlock
    | _ => exact False.elim may
  | jsonLoads text =>
    unfold exec at performed
    dsimp only at performed
    cases role with
    | outside =>
      split at performed
      · cases performed; exact .quiet _ _ _ _ _ _ _
      · cases performed; exact .load
    | _ => exact False.elim may
  | jsonDecref net =>
    cases performed
    cases role with
    | owns own => obtain rfl := may; exact .decref
    | _ => exact False.elim may
  | djbProxyAdd request borrowed =>
    unfold exec at performed
    dsimp only at performed
    cases role with
    | stage known =>
      split at performed
      next => cases performed; exact .queue may
      next full => cases performed; exact .queueFull may (by simpa using full)
    | _ => exact False.elim may
  | putBack request =>
    cases performed
    cases role with
    | stage known => exact .putBack
    | _ => exact False.elim may
  | threadSleep msec =>
    unfold exec at performed
    dsimp only at performed
    cases role with
    | stage known =>
      split at performed
      next => cases performed; exact .quiet _ _ _ _ _ _ _
      next broken => cases performed; exact .interrupted (by simpa using broken)
    | _ => exact False.elim may
  | listDestroy =>
    cases performed
    cases role with
    | cleared => exact .exitDone
    | _ => exact False.elim may
  | httpsrvNewcl | listPop | condWait =>
    unfold exec at performed
    dsimp only at performed
    split at performed <;> cases performed <;> cases role <;>
      first | exact False.elim may | exact .quiet _ _ _ _ _ _ _
  | _ =>
    cases performed
    cases role <;> first | exact False.elim may | exact .quiet _ _ _ _ _ _ _

inductive Step (env : Env) (s : State) : Event → State → Prop
  | act {t c role o next role' shared' prog'}
      (at_t : s.threads[t]? = some ⟨role, .op o next⟩)
      (acts : Acts env t c s.shared role o role' shared') :
      Step env s (.run t c) ⟨shared', s.threads.set t ⟨role', prog'⟩⟩
  | handle {t e prog} (open_ : s.shared.exited = false)
      (at_t : s.threads[t]? = some ⟨.outside, .done ()⟩) :
      Step env s e ⟨s.shared, s.threads.set t ⟨.outside, prog⟩⟩
  | answer {t i shcl request prog} (open_ : s.shared.exited = false)
      (at_t : s.threads[t]? = some ⟨.outside, .done ()⟩)
      (waiting : s.shared.pending[i]? = some request) :
      Step env s (.answer t i shcl)
        ⟨{ s.shared with pending := s.shared.pending.eraseIdx i },
          s.threads.set t ⟨.stage none, prog⟩⟩
  | shutdown : Step env s .shutdown { s with shared := { s.shared with running := false } }
  | exit {t prog} (open_ : s.shared.exited = false)
      (at_t : s.threads[t]? = some ⟨.outside, .done ()⟩)
      (idle : ∀ th ∈ s.threads, th.role = .outside) :
      Step env s (.exit t)
        ⟨{ s.shared with exited := true }, s.threads.set t ⟨.leaving, prog⟩⟩

def Role.exits : Role → Bool
  | .leaving | .seated | .exitLocked | .cleared | .gone => true
  | _ => false

structure Orderly (s : State) : Prop where
  obeys : s.Obeys discipline Role.final
  before : s.shared.exited = false → ∀ th ∈ s.threads, th.role.exits = false
  after : s.shared.exited = true →
    ∀ th ∈ s.threads, th.role.exits = true ∨ th.role = .outside ∧ th.prog.isDone = true
  main : s.shared.exited = true → ∃ th ∈ s.threads, th.role.exits = true

theorem Orderly.exits_of_acting {s : State} (h : Orderly s) {t : ℕ} {role : Role} {o : Op}
    {next : o.Result → AcsM Unit} (at_t : s.threads[t]? = some ⟨role, .op o next⟩) :
    role.exits = s.shared.exited := by
  have member := List.mem_of_getElem? at_t
  cases exited : s.shared.exited with
  | false => exact h.before exited _ member
  | true =>
    rcases h.after exited _ member with exits | ⟨_, ended⟩
    · exact exits
    · cases ended

theorem exits_of_acts {env : Env} {t : ℕ} {c : Choice} {s s' : Shared} {role role' : Role} {o : Op}
    (acts : Acts env t c s role o role' s') :
    role'.exits = role.exits ∧ s'.exited = s.exited := by
  cases acts <;> exact ⟨rfl, rfl⟩

theorem orderly_act {env : Env} {s : State} {t : ℕ} {c : Choice} {role role' : Role} {o : Op}
    {next : o.Result → AcsM Unit} {shared' : Shared} {prog' : AcsM Unit} (h : Orderly s)
    (at_t : s.threads[t]? = some ⟨role, .op o next⟩)
    (acts : Acts env t c s.shared role o role' shared')
    (obeys : (⟨shared', s.threads.set t ⟨role', prog'⟩⟩ : State).Obeys discipline Role.final) :
    Orderly ⟨shared', s.threads.set t ⟨role', prog'⟩⟩ := by
  obtain ⟨roles, exited⟩ := exits_of_acts acts
  have own := h.exits_of_acting at_t
  refine ⟨obeys, fun not_yet => ?_, fun gone => ?_, fun gone => ?_⟩
  · have still := exited.symm.trans not_yet
    exact Table.forall_set (h.before still) (by rw [roles, own, still])
  · have already := exited.symm.trans gone
    exact Table.forall_set (h.after already) (.inl (by rw [roles, own, already]))
  · have already := exited.symm.trans gone
    refine ⟨⟨role', prog'⟩, ?_, by rw [roles, own, already]⟩
    exact List.mem_set (List.getElem?_eq_some_iff.mp at_t).1 _

theorem Orderly.outside_of_done {s : State} {th : Thread Op Op.Result Role} (h : Orderly s)
    (open_ : s.shared.exited = false) (member : th ∈ s.threads) (ended : th.prog.isDone = true) :
    th.role = .outside := by
  rcases h.obeys.final_of_done member ended with outside | gone
  · exact outside
  · have serving := h.before open_ th member
    rw [gone] at serving
    cases serving

theorem orderly_begin {s : State} {t : ℕ} {role : Role} {prog : AcsM Unit} {shared : Shared}
    (h : Orderly s) (open_ : s.shared.exited = false) (same : shared.exited = false)
    (part : role.exits = false)
    (obeys : (⟨shared, s.threads.set t ⟨role, prog⟩⟩ : State).Obeys discipline Role.final) :
    Orderly ⟨shared, s.threads.set t ⟨role, prog⟩⟩ := by
  refine ⟨obeys, fun _ => Table.forall_set (h.before open_) part, fun gone => ?_, fun gone => ?_⟩
  all_goals exact absurd (same.symm.trans gone) nofun

theorem step_cases {env : Env} {s s' : State} {e : Event} (h : Orderly s)
    (moved : step env s e = some s') : Orderly s' ∧ Step env s e s' := by
  have idle {t : ℕ} {old : Role} (open_ : s.shared.exited = false)
      (at_t : s.threads[t]? = some ⟨old, .done ()⟩) :
      s.threads[t]? = some ⟨.outside, .done ()⟩ := by
    obtain rfl : old = .outside := h.outside_of_done open_ (List.mem_of_getElem? at_t) rfl
    exact at_t
  cases step_moved moved with
  | run at_t performed =>
    have follows := h.obeys _ (List.mem_of_getElem? at_t)
    have acts := acts_of_exec follows.1 performed
    exact ⟨orderly_act h at_t acts (Pool.obeys_set h.obeys (follows.2 _)), .act at_t acts⟩
  | @begin _ _ _ prog asked open_ at_t =>
    have follows : discipline.Follows .outside prog fun _ role => role.final := request_follows
      (fun hcl => (acsProgress_follows env hcl).mono fun _ _ => .inl)
      (fun hcl => (acsSetup_follows hcl).mono fun _ _ => .inl)
      (fun nep => (rdvPeelBase_follows nep).mono fun _ _ => .inl) asked
    exact ⟨orderly_begin h open_ open_ rfl (Pool.obeys_set h.obeys follows),
      .handle open_ (idle open_ at_t)⟩
  | @answer _ _ shcl _ request open_ at_t waiting =>
    have follows : discipline.Follows (.stage none) (djbPushCallback env shcl request)
        fun _ role => role.final :=
      (djbPushCallback_follows env shcl request).mono fun _ _ => .inl
    exact ⟨orderly_begin h open_ open_ rfl (Pool.obeys_set h.obeys follows.discard),
      .answer open_ (idle open_ at_t) waiting⟩
  | shutdown => exact ⟨⟨h.obeys, h.before, h.after, h.main⟩, .shutdown⟩
  | exit open_ at_t stopped =>
    have outside : ∀ th ∈ s.threads, th.role = .outside := fun th member =>
      h.outside_of_done open_ member (stopped th member)
    have follows : discipline.Follows .leaving acsExit fun _ role => role.final :=
      acsExit_follows.mono fun _ _ => .inr
    refine ⟨⟨Pool.obeys_set h.obeys follows.discard, nofun, fun _ => ?_, fun _ => ?_⟩,
      .exit open_ (idle open_ at_t) outside⟩
    · refine Table.forall_set (fun th member => ?_) (.inl rfl)
      exact .inr ⟨outside th member, stopped th member⟩
    · exact ⟨_, List.mem_set (List.getElem?_eq_some_iff.mp at_t).1 _, rfl⟩

theorem orderly_init (threads : ℕ) : Orderly (init threads) := by
  have idle : ∀ th ∈ (init threads).threads, th = ⟨.outside, .done ()⟩ := fun th member =>
    List.eq_of_mem_replicate member
  refine ⟨fun th member => ?_, fun _ th member => ?_, nofun, nofun⟩
  · rw [idle th member]
    exact .inl rfl
  · rw [idle th member]
    rfl

/-- The NET that `acs.c` gives as its example, as text and as jansson loads it. -/
def exampleText : CStr :=
  "\x7b\"window\":7,\"wait\":4,\"redirect\":\"192.0.1.2\",\"initial\":\"192.0.1.25\",".toList ++
    "\"passphrase\":\"8b42c8971567e309c5fe7865\"\x7d".toList

def exampleNet : Json := .object [
  ("window".toList, .integer 7), ("wait".toList, .integer 4),
  ("redirect".toList, .string "192.0.1.2".toList), ("initial".toList, .string "192.0.1.25".toList),
  ("passphrase".toList, .string "8b42c8971567e309c5fe7865".toList)]

def exampleEnv : Env where
  jsonLoads text := if text = exampleText then some exampleNet else none
  jsonDumps _ := exampleText
  parseIso8601Interval _ := none
  stegDecode _ _ := none
  castOutOfRange _ := 0

def setupPost : HttpsrvClient where
  id := 1
  reqid := 1
  method := .post
  hostname := "127.0.0.1:6543".toList
  uri := "/acs/setup/".toList
  body := exampleText.map fun c => UInt8.ofNat c.toNat
  readbody := true

def progressGet : HttpsrvClient where
  id := 1
  reqid := 2
  hostname := "127.0.0.1:6543".toList
  uri := "/acs/progress/".toList

def initialPush (httpcode : String) : HttpsrvClient where
  id := 2
  reqid := 1
  method := .post
  hostname := "127.0.0.1:6543".toList
  uri := "/push/".toList
  user := { httpcode := httpcode.toList, httptext := "Done".toList }

def runs (t n : ℕ) : List Event := List.replicate n (.run t {})

/-- The example NET is set up and a poll starts its dance, up to the request for `ACS Initial`. -/
def danceRun : List Event :=
  [.setup 0 setupPost] ++ runs 0 10 ++ [.progress 0 progressGet] ++ runs 0 9

example : ((machine exampleEnv).exec (init 2) danceRun).map
    (fun s => (s.shared.lDancing, s.shared.pending.length, s.shared.lMessage)) =
      some (true, 1, "Starting to dance...".toList) := by decide +kernel

end Jumpbox.Acs
