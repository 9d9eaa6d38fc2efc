import Jumpbox.Acs.Counts

/-! A call of `acs_setup` with nothing in between, and what it has done when it answers.
`acs_set_net` drops the old NET before it looks at the new one, and returns true whatever
it has found. -/

namespace Jumpbox.Acs

open Prog

theorem runs_of_exec {env : Env} {t : ℕ} {s s' : State} {role : Role} {p : AcsM Unit}
    {cs : List Choice} (at_t : s.threads[t]? = some ⟨role, p⟩)
    (run : (machine env).exec s (cs.map (.run t)) = some s')
    (ended : ∀ th ∈ s'.threads[t]?, th.prog.isDone) :
    Runs (exec env) t p s.shared cs s'.shared () := by
  induction cs generalizing s role p with
  | nil =>
    cases run
    have ended : p.isDone := ended _ at_t
    cases p with
    | done a => exact .done a _
    | op o next => cases ended
  | cons c cs ih =>
    obtain ⟨middle, first, rest⟩ := (machine env).exec_cons_eq_some.mp run
    change step env s (.run t c) = some middle at first
    cases step_moved first with
    | begin asked => cases asked
    | @run _ _ role' o next shared x at_t' performed =>
      obtain rfl : p = .op o next := by
        have same := at_t.symm.trans at_t'
        injection same with same
        injection same
      have after := Table.getElem?_set_of_some at_t' ⟨discipline.after role' o x, next x⟩ t
      rw [if_pos rfl] at after
      exact .op performed (ih after rest)

def Op.keepsNet : Op → Prop
  | .status _ _ _ | .jsonIsObject _ | .jsonDumps _ | .jsonIncref _ | .jsonDecref _ | .jsonLoads _
  | .unlockNet => True
  | _ => False

def netView (s : Shared) : Option Net × Bool × List (HttpsrvClient × List Out) :=
  (s.lNet, s.lDancing, s.answers)

theorem netView_of_keepsNet {env : Env} {t : ℕ} (o : Op) (c : Choice) (s s' : Shared) (x : o.Result)
    (keeps : o.keepsNet) (performed : exec env t o c s = some (s', x)) :
    netView s' = netView s := by
  cases o with
  | status | jsonDumps | jsonIncref | jsonDecref | unlockNet => cases performed; rfl
  | jsonIsObject net =>
    unfold exec at performed
    dsimp only at performed
    split at performed <;> (cases performed; rfl)
  | jsonLoads text =>
    unfold exec at performed
    dsimp only at performed
    split at performed <;> (cases performed; rfl)
  | _ => exact absurd keeps id

section Runs

variable {env : Env} {t : ℕ} {s s' : Shared} {cs : List Choice}

theorem keeps_netView {α : Type} {p : AcsM α} {a b : α} (runs : Runs (exec env) t p s cs s' a)
    (only : p.Only Op.keepsNet) (ends : p.Ends fun a => a = b) :
    a = b ∧ netView s' = netView s :=
  ⟨runs.ends ends, runs.keeps only netView_of_keepsNet⟩

theorem acsCheckNet_runs {net : Net} {ok : Bool}
    (runs : Runs (exec env) t (acsCheckNet net) s cs s' ok) :
    ok = net.value.isObject ∧ netView s' = netView s := by
  have view : netView s' = netView s := by
    refine runs.keeps ?_ netView_of_keepsNet
    refine .bind (.perform trivial) fun isObject => ?_
    split
    · exact .pure
    · exact .bind (.perform trivial) fun _ => .pure
  refine ⟨?_, view⟩
  obtain ⟨c, rest, s₁, isObject, rfl, performed, runs⟩ := runs.of_perform
  have found : isObject = net.value.isObject := by
    unfold exec at performed
    dsimp only at performed
    split at performed
    next object => cases performed; exact object.symm
    next other => cases performed; exact (Bool.eq_false_iff.mpr other).symm
  cases isObject with
  | true => exact runs.of_pure.2.trans found
  | false =>
    obtain ⟨_, _, _, _, rfl, _, runs⟩ := runs.of_perform
    exact runs.of_pure.2.trans found

theorem takeNet_cases {c : Choice} {net : Option Net} {taken : Bool}
    (performed : exec env t (.takeNet net) c s = some (s', taken)) :
    if taken then s.lDancing = false ∧ netView s' = (net, false, s.answers)
    else s.lDancing = true ∧ s' = s := by
  unfold exec at performed
  dsimp only at performed
  split at performed
  next => cases performed
  next =>
    split at performed
    next dancing =>
      cases performed
      exact ⟨dancing, rfl⟩
    next idle =>
      have idle : s.lDancing = false := by simpa using idle
      cases performed
      refine ⟨idle, ?_⟩
      unfold Shared.replaceNet
      rw [← idle]
      cases s.lNet <;> rfl

theorem acsSetNet_runs {net : Net} {ok : Bool}
    (runs : Runs (exec env) t (acsSetNet (some net)) s cs s' ok) :
    ok = !s.lDancing ∧ netView s' =
      (if s.lDancing then s.lNet else if net.value.isObject then some net else none,
        s.lDancing, s.answers) := by
  obtain ⟨c, rest, s₁, taken, rfl, performed, runs⟩ := runs.of_perform
  have after := takeNet_cases performed
  cases taken with
  | false =>
    obtain ⟨dancing, same⟩ := after
    rw [same] at runs
    have refused : ok = false ∧ netView s' = netView s :=
      keeps_netView runs (.bind (.perform trivial) fun _ => .pure) (.bind fun _ => rfl)
    rw [refused.1, refused.2, dancing, netView, dancing]
    exact ⟨rfl, rfl⟩
  | true =>
    obtain ⟨idle, replaced⟩ := after
    rw [idle]
    obtain ⟨first, rest, s₂, isObject, rfl, checked, runs⟩ := runs.of_bind
    obtain ⟨found, view⟩ := acsCheckNet_runs checked
    rw [← found]
    have unlocked : (do unlockNet; return true : AcsM Bool).Only Op.keepsNet ∧
        (do unlockNet; return true : AcsM Bool).Ends fun ok => ok = true :=
      ⟨.bind (.perform trivial) fun _ => .pure, .bind fun _ => rfl⟩
    cases isObject with
    | true =>
      have ready : (do
          jsonIncref net
          acsStatus .ok "Ready to Dance".toList
          unlockNet
          return true : AcsM Bool).Only Op.keepsNet :=
        .bind (.perform trivial) fun _ => .bind (.perform trivial) fun _ => unlocked.1
      rw [if_pos rfl] at runs
      have done : ok = true ∧ netView s' = netView s₂ := by
        refine keeps_netView runs (.bind (.perform trivial) fun j => ?_) (.bind fun j => ?_)
        · cases j with
          | none => exact ready
          | some j => exact .bind (.perform trivial) fun _ => ready
        · cases j with
          | none => exact fun _ _ _ => rfl
          | some j => exact fun _ _ _ _ => rfl
      exact ⟨done.1, done.2.trans (view.trans replaced)⟩
    | false =>
      obtain ⟨_, _, _, _, rfl, performed, runs⟩ := runs.of_perform
      cases performed
      have done := keeps_netView runs unlocked.1 unlocked.2
      refine ⟨done.1, done.2.trans ?_⟩
      have view := view.trans replaced
      simp only [netView, Prod.mk.injEq] at view ⊢
      exact ⟨rfl, view.2⟩

end Runs

def loaded (env : Env) (c : Choice) (hcl : HttpsrvClient) : Option Json :=
  if c.ok then env.jsonLoads (cstring hcl.body) else none

def Answered (hcl : HttpsrvClient) (s s' : Shared) (st : DjbStatus) : Prop :=
  ∃ msg, s'.answers = s.answers ++ [(hcl, [.result (statusName st) msg, .done])]

def IsSet (env : Env) (hcl : HttpsrvClient) (s s' : Shared) : Prop :=
  ∃ value, env.jsonLoads (cstring hcl.body) = some value ∧ value.isObject = true ∧
    s'.lNet = some ⟨s.nextNet, value⟩

structure ReportsSetup (env : Env) (hcl : HttpsrvClient) (s s' : Shared) : Prop where
  ok_iff : Answered hcl s s' .ok ↔ IsSet env hcl s s'
  otherwise : ¬IsSet env hcl s s' → Answered hcl s s' .err ∧ s'.lNet = s.lNet

section Setup

variable {env : Env} {t : ℕ} {s s' : Shared} {c : Choice} {cs : List Choice} {hcl : HttpsrvClient}

/-- What `acs_setup` leaves in `l_net`, and its answer. -/
inductive SetupEnds (env : Env) (c : Choice) (hcl : HttpsrvClient) (s s' : Shared) : Prop
  | unparsed (unparsed : loaded env c hcl = none) (net : s'.lNet = s.lNet)
      (silent : s'.answers = s.answers)
  | refused {value : Json} (parsed : loaded env c hcl = some value) (dancing : s.lDancing = true)
      (net : s'.lNet = s.lNet) (answered : Answered hcl s s' .err)
  | taken {value : Json} (parsed : loaded env c hcl = some value) (idle : s.lDancing = false)
      (net : s'.lNet = if value.isObject then some ⟨s.nextNet, value⟩ else none)
      (answered : Answered hcl s s' .ok)

theorem jsonLoads_cases {text : CStr} {root : Option Net}
    (performed : exec env t (.jsonLoads text) c s = some (s', root)) :
    root = (if c.ok then env.jsonLoads text else none).map (⟨s.nextNet, ·⟩) ∧
      netView s' = netView s := by
  refine ⟨?_, netView_of_keepsNet (.jsonLoads text) c s s' root trivial performed⟩
  unfold exec at performed
  dsimp only at performed
  split at performed
  next none_loaded =>
    rw [none_loaded]
    cases performed
    rfl
  next value found =>
    rw [found]
    cases performed
    rfl

theorem acsSetup_runs (post : hcl.method = .post) (read : hcl.readbody = true) {again : Bool}
    (runs : Runs (exec env) t (acsSetup hcl) s (c :: cs) s' again) : SetupEnds env c hcl s s' := by
  unfold acsSetup at runs
  rw [if_neg (by simp [post]), if_neg (by simp [read])] at runs
  obtain ⟨_, rest, s₁, root, ⟨⟩, performed, runs⟩ := runs.of_perform
  obtain ⟨got, view⟩ := jsonLoads_cases performed
  simp only [netView, Prod.mk.injEq] at view
  change root = (loaded env c hcl).map (⟨s.nextNet, ·⟩) at got
  cases parsed : loaded env c hcl with
  | none =>
    rw [parsed, Option.map_none] at got
    subst got
    obtain ⟨rfl, -⟩ := runs.of_pure
    exact .unparsed parsed view.1 view.2.2
  | some value =>
    rw [parsed, Option.map_some] at got
    subst got
    obtain ⟨first, rest, s₂, ok, rfl, set, runs⟩ := runs.of_bind
    obtain ⟨taken, net⟩ := acsSetNet_runs set
    obtain ⟨_, rest, s₃, _, rfl, dropped, runs⟩ := runs.of_perform
    have kept := netView_of_keepsNet (.jsonDecref _) _ _ _ _ trivial dropped
    rw [net, netView, view.1, view.2.1, view.2.2, Prod.mk.injEq, Prod.mk.injEq] at kept
    cases dancing : s.lDancing with
    | true =>
      rw [view.2.1, dancing] at taken
      subst taken
      obtain ⟨_, _, _, _, rfl, performed, runs⟩ := runs.of_perform
      cases performed
      obtain ⟨rfl, -⟩ := runs.of_pure
      refine .refused parsed dancing ?_ ⟨_, congrArg (· ++ _) kept.2.2⟩
      exact kept.1.trans (if_pos dancing)
    | false =>
      rw [view.2.1, dancing] at taken
      subst taken
      obtain ⟨_, _, _, _, rfl, performed, runs⟩ := runs.of_perform
      cases performed
      obtain ⟨rfl, -⟩ := runs.of_pure
      refine .taken parsed dancing ?_ ⟨_, congrArg (· ++ _) kept.2.2⟩
      rw [dancing, if_neg Bool.false_ne_true] at kept
      exact kept.1

theorem Answered.ne {st : DjbStatus} (ok : Answered hcl s s' .ok) (other : Answered hcl s s' st) :
    st = .ok := by
  obtain ⟨text, ok⟩ := ok
  obtain ⟨text', other⟩ := other
  have same := List.append_cancel_left (ok.symm.trans other)
  simp only [List.cons.injEq, Prod.mk.injEq, Out.result.injEq, true_and, and_true] at same
  cases st with
  | ok => rfl
  | err => exact absurd same.1 (by decide)
  | done => exact absurd same.1 (by decide)

theorem Answered.not_silent {st : DjbStatus} (answered : Answered hcl s s' st) :
    s'.answers ≠ s.answers := by
  obtain ⟨text, answered⟩ := answered
  intro silent
  simp [answered] at silent

theorem not_isSet (fresh : ∀ net ∈ s.lNet, net.ptr ≠ s.nextNet) (same : s'.lNet = s.lNet) :
    ¬IsSet env hcl s s' := by
  rintro ⟨value, -, -, set⟩
  exact fresh _ (same.symm.trans set) rfl

theorem reportsSetup_iff (fresh : ∀ net ∈ s.lNet, net.ptr ≠ s.nextNet)
    (ends : SetupEnds env c hcl s s') :
    ReportsSetup env hcl s s' ↔
      ∃ value, loaded env c hcl = some value ∧ (value.isObject = true ∨ s.lDancing = true) := by
  cases ends with
  | unparsed unparsed net silent =>
    refine iff_of_false (fun reports => ?_) ?_
    · exact (reports.otherwise (not_isSet fresh net)).1.not_silent silent
    · rintro ⟨value, parsed, -⟩
      cases unparsed.symm.trans parsed
  | refused parsed dancing net answered =>
    refine iff_of_true ⟨⟨fun ok => ?_, fun set => ?_⟩, fun _ => ⟨answered, net⟩⟩ ?_
    · cases ok.ne answered
    · exact absurd set (not_isSet fresh net)
    · exact ⟨_, parsed, .inr dancing⟩
  | @taken value parsed idle net answered =>
    cases object : value.isObject with
    | true =>
      have loads : env.jsonLoads (cstring hcl.body) = some value := by
        unfold loaded at parsed
        split at parsed
        · exact parsed
        · cases parsed
      have set : IsSet env hcl s s' := ⟨value, loads, object, net.trans (if_pos object)⟩
      exact iff_of_true ⟨iff_of_true answered set, fun unset => absurd set unset⟩
        ⟨value, parsed, .inl object⟩
    | false =>
      refine iff_of_false (fun reports => ?_) ?_
      · obtain ⟨_, _, _, set⟩ := reports.ok_iff.mp answered
        rw [object, if_neg Bool.false_ne_true] at net
        cases net.symm.trans set
      · rintro ⟨other, parsed', object' | dancing⟩
        · obtain rfl := Option.some.inj (parsed.symm.trans parsed')
          exact absurd object' (by simp [object])
        · rw [idle] at dancing
          cases dancing

end Setup

theorem Steady.fresh_lNet {s : State} (h : Steady s) :
    ∀ net ∈ s.shared.lNet, net.ptr ≠ s.shared.nextNet := by
  intro net set same
  have young := (h.counted.young s.shared.nextNet le_rfl).1
  simp [netRef, Option.mem_def.mp set, Net.at, same] at young

def arrayPost : HttpsrvClient := { setupPost with
  body := "[]".toList.map fun c => UInt8.ofNat c.toNat }

def arrayEnv : Env := { exampleEnv with
  jsonLoads := fun text => if text = "[]".toList then some (.array []) else none }

end Jumpbox.Acs
