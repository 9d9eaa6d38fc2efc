import Jumpbox.Acs.Stages
import Jumpbox.Answer.Branches

/-! The programs of `acs.c` and of `djb_launch`, and what they send. The dance sends nothing
to the client whose request it is part of, so a poll or a setup sends what its last
operation does; and so does a launch. -/

namespace Jumpbox.Answer

section Acs

open Acs Prog

def quiet : Op → Prop
  | .answer _ _ | .httpsrvReadbodyAlloc | .modulo _ _ => False
  | _ => True

abbrev Quiet {α : Type} (p : AcsM α) : Prop := p.Only quiet

theorem quiet_of_staged {α : Type} {p : AcsM α} (h : Staged p) : Quiet p :=
  h.mono fun o staged => by cases o <;> trivial

theorem acsSetNet_quiet (net : Option Net) : Quiet (acsSetNet net) :=
  (acsSetNet_adopts net).mono fun o h => by cases o <;> trivial

variable {reply : ℕ → (o : Op) → o.Result} {start : ℕ}

def silent : (o : Op) × o.Result → Prop
  | ⟨.modulo _ d, _⟩ => d ≠ 0
  | ⟨o, _⟩ => quiet o

theorem silent_of_quiet {e : (o : Op) × o.Result} (h : quiet e.1) : silent e := by
  obtain ⟨o, x⟩ := e
  cases o <;> first | exact h | exact absurd h id

theorem ends_of_silent {e : (o : Op) × o.Result} (h : silent e) : ends e = false := by
  obtain ⟨o, x⟩ := e
  cases o with
  | modulo n d => exact beq_false_of_ne h
  | _ => rfl

theorem acsRan_append {first : List ((o : Op) × o.Result)} (rest : List ((o : Op) × o.Result))
    (b : Bool) (still : ∀ e ∈ first, silent e) : acsRan (first ++ rest, b) = acsRan (rest, b) := by
  have goes_on : ∀ e ∈ first, (!ends e) = true := fun e member => by
    rw [ends_of_silent (still e member)]
    rfl
  have lasts : first.any ends = false :=
    List.any_eq_false.mpr fun e member => by simp [ends_of_silent (still e member)]
  simp only [acsRan, List.takeWhile_append_of_pos goes_on, List.flatMap_append, List.any_append,
    lasts, Bool.false_or, Invocation.mk.injEq, and_true, true_and]
  constructor
  · rw [List.flatMap_eq_nil_iff.mpr, List.nil_append]
    rintro ⟨o, x⟩ member
    have := still _ member
    cases o <;> first | rfl | exact absurd this id
  · rw [List.any_eq_false.mpr, Bool.false_or]
    rintro ⟨o, x⟩ member
    have := still _ member
    cases o <;> first | exact Bool.false_ne_true | exact absurd this id

theorem acsRan_bind {α : Type} {p : AcsM α} (quiet : Quiet p) (f : α → AcsM Bool) :
    acsRan ((p >>= f).trace reply start) =
      acsRan
        ((f (p.trace reply start).2).trace reply (start + (p.trace reply start).1.length)) := by
  rw [trace_bind]
  exact acsRan_append _ _ fun e member => silent_of_quiet (quiet.trace reply start e member)

theorem acsRan_quiet {p : AcsM Bool} (quiet : Quiet p) :
    acsRan (p.trace reply start) = { returned := (p.trace reply start).2 } := by
  have nothing := acsRan_append [] (p.trace reply start).2 fun e member =>
    silent_of_quiet (quiet.trace reply start e member)
  rw [List.append_nil] at nothing
  refine nothing.trans ?_
  simp [acsRan]

def Answers (p : AcsM Bool) : Prop :=
  ∀ (reply : ℕ → (o : Op) → o.Result) start,
    (acsRan (p.trace reply start)).terminals = 1 ∧ (acsRan (p.trace reply start)).reads = false

theorem Answers.bind {α : Type} {p : AcsM α} {f : α → AcsM Bool} (quiet : Quiet p)
    (rest : ∀ a, Answers (f a)) : Answers (p >>= f) := fun reply start => by
  rw [acsRan_bind quiet]
  exact rest _ reply _

theorem answers_answer {hcl : HttpsrvClient} {outs : List Out} (once : outs.count .done = 1)
    (b : Bool) : Answers (do perform (Op.answer hcl outs); return b) := fun reply start => by
  refine ⟨?_, rfl⟩
  change List.count Out.done (outs ++ []) + 0 = 1
  rw [List.append_nil, once]

theorem answers_result (hcl : HttpsrvClient) (st : DjbStatus) (msg : CStr) (b : Bool) :
    Answers (do djbResult hcl st msg; return b) := answers_answer (djbResult_done st msg) b

theorem acsRan_alloc (f : Bool → AcsM Bool) :
    acsRan ((httpsrvReadbodyAlloc >>= f).trace reply start) =
      let allocated : Bool := reply start .httpsrvReadbodyAlloc
      let rest := acsRan ((f allocated).trace reply (start + 1))
      { rest with reads := allocated || rest.reads } := rfl

theorem acsRan_loads (text : CStr) (f : Option Net → AcsM Bool) :
    acsRan ((jsonLoads text >>= f).trace reply start) =
      acsRan ((f (reply start (.jsonLoads text))).trace reply (start + 1)) := rfl

theorem acsSetup_splits (m : Moment) (hcl : HttpsrvClient) :
    (acsRan ((acsSetup hcl).trace m.acs 0)).Splits (SetupSlips m hcl) (SetupAwaits m hcl) := by
  unfold acsSetup
  split
  next other =>
    obtain ⟨once, idle⟩ := answers_result hcl _ _ true m.acs 0
    exact .of_answer (fun slip => other slip.1) (fun await => other await.1) once idle
  next post =>
    have post : hcl.method = .post := not_not.mp post
    split
    next unread =>
      have never : ¬SetupSlips m hcl := fun slip => by simp [SetupSlips, unread] at slip
      split
      next empty =>
        obtain ⟨once, idle⟩ := answers_answer (djbError_done 400 _) true m.acs 0
        exact .of_answer never (fun await => await.2.2.1 empty) once idle
      next length =>
        rw [acsRan_alloc]
        cases alloc : (m.acs 0 .httpsrvReadbodyAlloc : Bool) with
        | true => exact .of_wait never rfl rfl rfl ⟨post, unread, length, alloc⟩
        | false =>
          refine .of_answer never (fun await => ?_) rfl rfl
          exact absurd await.2.2.2 (by simp [alloc])
    next read =>
      have read : hcl.readbody = true := Bool.not_eq_false _ ▸ read
      have busy : ¬SetupAwaits m hcl := fun await => by simp [SetupAwaits, Arms, read] at await
      rw [acsRan_loads]
      cases loaded : (m.acs 0 (.jsonLoads (cstring hcl.body)) : Option Net) with
      | none => exact .of_slip busy Nat.zero_ne_one rfl ⟨post, read, loaded⟩
      | some root =>
        have parsed : ¬SetupSlips m hcl := fun slip => by
          exact absurd (loaded.symm.trans slip.2.2) (Option.some_ne_none root)
        have answers : Answers (do
            let ok ← acsSetNet (some root)
            jsonDecref root
            if ok then
              djbResult hcl .ok "ACS setup successful".toList
              return true
            else
              djbResult hcl .err "Could not setup NET".toList
              return false) := by
          refine .bind (acsSetNet_quiet (some root)) fun ok => .bind (.perform trivial) fun _ => ?_
          split
          · exact answers_result hcl _ _ true
          · exact answers_result hcl _ _ false
        obtain ⟨once, idle⟩ := answers m.acs 1
        exact .of_answer parsed busy once idle

theorem acsProgress_answers (env : Env) (hcl : HttpsrvClient) :
    Answers (acsProgress env hcl) := by
  unfold acsProgress
  refine .bind (.perform trivial) fun decision => ?_
  refine .bind (quiet_of_staged (acsDecided_staged env decision)) fun _ => ?_
  refine .bind (.perform trivial) fun m => ?_
  split
  · exact answers_result hcl _ _ true
  · exact .bind (.perform trivial) fun m => answers_result hcl _ _ true

structure Through (p : AcsM Bool) : Prop where
  quiet : Quiet p
  ends : p.Ends (· = true)

theorem Through.ran {p : AcsM Bool} (h : Through p) :
    acsRan (p.trace reply start) = { returned := true } := by
  rw [acsRan_quiet h.quiet, h.ends.trace reply start]

theorem sitdown_through (text : CStr) :
    Through (do acsStatus .err text; acsSitdown; return true) :=
  ⟨quiet_of_staged (sitdown_staged _ _ _), .bind fun _ => .bind fun _ => rfl⟩

variable (reply start) in
theorem acsRan_then_true {α : Type} {p : AcsM α} (quiet : Quiet p) :
    acsRan ((p >>= fun _ => pure true).trace reply start) = { returned := true } :=
  acsRan_bind quiet _

theorem acsRan_netNumber (env : Env) (var desc : CStr) (f : Option UInt64 → AcsM Bool) :
    acsRan ((acsNetNumber env var desc >>= f).trace reply start) =
      match numberOf (reply start .lNet) var with
      | some q => acsRan ((f (some (toUint64 env q))).trace reply (start + 1))
      | none => acsRan ((f none).trace reply (start + 3)) := by
  rw [acsRan_bind (quiet_of_staged (acsNetNumber_staged env var desc))]
  simp only [acsNetNumber, lNet, perform, trace, Bind.bind, Prog.bind, numberOf]
  cases ((reply start .lNet : Option Net).bind fun n => n.value.get var).bind Json.numberValue with
  | some q => rfl
  | none => rfl

theorem acsRan_modulo (n d : UInt64) (f : UInt64 → AcsM Bool) :
    acsRan ((modulo n d >>= f).trace reply start) =
      if d = 0 then {} else acsRan ((f (reply start (.modulo n d))).trace reply (start + 1)) := by
  let e : (o : Op) × o.Result := ⟨.modulo n d, reply start (.modulo n d)⟩
  let rest := (f (reply start (.modulo n d))).trace reply (start + 1)
  change acsRan (e :: rest.1, rest.2) = if d = 0 then {} else acsRan rest
  split
  next zero =>
    have ended : ends e = true := beq_iff_eq.mpr zero
    simp [acsRan, ended]
  next other => exact @acsRan_append [e] rest.1 rest.2 (by simpa [e, silent] using other)

theorem acsWait_ran (env : Env) :
    acsRan ((acsWait env >>= fun _ => pure true).trace reply start) =
      if (∃ window ∈ numberOf (reply start .lNet) "window".toList, toUint64 env window = 0) ∧
        (numberOf (reply (start + 1) .lNet) "wait".toList).isSome then {}
      else { returned := true } := by
  unfold acsWait
  refine (congrArg (fun p : AcsM Bool => acsRan (p.trace reply start))
    (bind_assoc _ _ _)).trans ?_
  refine (acsRan_netNumber env _ _ _).trans ?_
  cases found : numberOf (reply start .lNet) "window".toList with
  | none => exact (if_neg fun zero => by simp at zero).symm
  | some window =>
    dsimp only
    refine (congrArg (fun p : AcsM Bool => acsRan (p.trace reply (start + 1)))
      (bind_assoc _ _ _)).trans ?_
    refine (acsRan_netNumber env _ _ _).trans ?_
    cases found' : numberOf (reply (start + 1) .lNet) "wait".toList with
    | none => exact (if_neg fun zero => by simp at zero).symm
    | some wait =>
      have drawn : Quiet generateRandomNumber := .perform trivial
      refine (acsRan_bind drawn _).trans ?_
      refine (acsRan_modulo _ _ _).trans ?_
      by_cases zero : toUint64 env window = 0
      · rw [if_pos zero, if_pos ⟨⟨window, rfl, zero⟩, rfl⟩]
      · rw [if_neg zero, if_neg (by simpa using zero)]
        have rest (w : UInt64) (text : CStr) (start : ℕ) :=
          acsRan_then_true reply start (quiet_of_staged (moonwalk_staged w text))
        exact rest _ _ _

variable (reply start) in
theorem acsRan_keepRunning (f : Bool → AcsM Bool) :
    acsRan ((acsKeepRunning >>= f).trace reply start) =
      match (reply start .threadKeepRunning : Bool) with
      | true => acsRan ((f true).trace reply (start + 1))
      | false => acsRan ((f false).trace reply (start + 3)) := by
  rw [acsRan_bind (quiet_of_staged acsKeepRunning_staged)]
  simp only [acsKeepRunning, threadKeepRunning, perform, trace, Bind.bind, Prog.bind]
  cases (reply start .threadKeepRunning : Bool) with
  | true => rfl
  | false => rfl

theorem acsInitialAnswer_ran (env : Env) (shcl : HttpsrvClient) (hcl : ℕ) :
    (DividesByZero env reply shcl → acsRan ((acsInitialAnswer env shcl hcl).trace reply 0) = {}) ∧
      (¬DividesByZero env reply shcl →
        acsRan ((acsInitialAnswer env shcl hcl).trace reply 0) = { returned := true }) := by
  unfold acsInitialAnswer DividesByZero
  dsimp only
  split
  next failed => exact ⟨fun zero => absurd zero.1 failed, fun _ => rfl⟩
  next code =>
    have code : atoi shcl.user.httpcode = 200 := not_not.mp code
    have rest := acsRan_keepRunning reply 2 fun keep => do
      if keep then acsWait env
      return true
    cases keep : (reply 2 .threadKeepRunning : Bool) with
    | true =>
      rw [keep] at rest
      have waits := rest.trans (acsWait_ran env)
      constructor
      · intro zero
        rw [if_pos zero.2.2] at waits
        exact waits
      · intro other
        rw [if_neg fun zero => other ⟨code, rfl, zero⟩] at waits
        exact waits
    | false =>
      rw [keep] at rest
      exact ⟨fun zero => Bool.noConfusion zero.2.1, fun _ => rest⟩

theorem acsRedirectAnswer_through (env : Env) (shcl : HttpsrvClient) (hcl : ℕ)
    (here : ¬(atoi shcl.user.httpcode = 200 ∧ shcl.readbody = false ∧ shcl.contentLength ≠ 0)) :
    Through (acsRedirectAnswer env shcl hcl) := by
  unfold acsRedirectAnswer
  dsimp only
  split
  · constructor
    · refine .bind (.perform trivial) fun _ => ?_
      exact .bind (.perform trivial) fun _ => .bind (.perform trivial) fun _ => .pure
    · exact .bind fun _ => .bind fun _ => .bind fun _ => rfl
  next code =>
    split
    next unread =>
      split
      · exact sitdown_through _
      next length => exact absurd ⟨not_not.mp code, unread, length⟩ here
    next =>
      split
      · exact sitdown_through _
      · constructor
        · refine .bind (.perform trivial) fun _ => ?_
          refine .bind (.perform trivial) fun ok => ?_
          refine .bind (.perform trivial) fun _ => ?_
          split
          · refine .bind (.perform trivial) fun _ => ?_
            exact .bind (.perform trivial) fun _ => .bind (.perform trivial) fun _ => .pure
          · exact .bind (.perform trivial) fun _ => .bind (.perform trivial) fun _ => .pure
        · refine .bind fun _ => .bind fun ok => .bind fun _ => ?_
          split
          · exact .bind fun _ => .bind fun _ => .bind fun _ => rfl
          · exact .bind fun _ => .bind fun _ => rfl

theorem acsRedirectAnswer_ran (env : Env) (shcl : HttpsrvClient) (hcl : ℕ)
    (code : atoi shcl.user.httpcode = 200) (unread : shcl.readbody = false)
    (length : shcl.contentLength ≠ 0) :
    acsRan ((acsRedirectAnswer env shcl hcl).trace reply start) =
      let allocated : Bool := reply start .httpsrvReadbodyAlloc
      { reads := allocated, returned := !allocated } := by
  unfold acsRedirectAnswer
  dsimp only
  rw [if_neg (not_not.mpr code), if_pos unread, if_neg length, acsRan_alloc]
  have ran : acsRan ((do
      acsStatus .err "ACS Redirect failed: no memory".toList
      acsSitdown
      return true : AcsM Bool).trace reply (start + 1)) = { returned := true } :=
    (sitdown_through _).ran
  cases (reply start .httpsrvReadbodyAlloc : Bool) with
  | true => rfl
  | false =>
    simp only [Bool.false_eq_true, if_false, ran]
    rfl

def Wants (call : DjbPushF) (hcl : HttpsrvClient) : Prop :=
  call = .acsRedirectAnswer ∧ atoi hcl.user.httpcode = 200 ∧ hcl.readbody = false ∧
    hcl.contentLength ≠ 0

theorem push_through (S : Setting) {call : DjbPushF} {hcl client : HttpsrvClient}
    (through : ¬Wants call hcl)
    (lasts : ¬(call = .acsInitialAnswer ∧ DividesByZero S.acs reply hcl)) :
    acsRan ((push S call hcl client).trace reply 0) = { returned := true } := by
  cases call with
  | acsInitialAnswer => exact (acsInitialAnswer_ran S.acs hcl _).2 fun zero => lasts ⟨rfl, zero⟩
  | acsRedirectAnswer =>
    exact (acsRedirectAnswer_through S.acs hcl _ fun here => through ⟨rfl, here⟩).ran

theorem push_wants (S : Setting) {call : DjbPushF} {hcl client : HttpsrvClient}
    (wants : Wants call hcl) : acsRan ((push S call hcl client).trace reply start) =
      let allocated : Bool := reply start .httpsrvReadbodyAlloc
      { reads := allocated, returned := !allocated } := by
  obtain ⟨rfl, code, unread, length⟩ := wants
  exact acsRedirectAnswer_ran S.acs hcl _ code unread length

end Acs

section Launch

open Launch Prog

def LaunchQuiet {α : Type} (p : LaunchM α) : Prop :=
  p.Only fun
    | .answer _ _ => False
    | _ => True

def LaunchAnswers (p : LaunchM Unit) : Prop :=
  ∀ (reply : ℕ → (o : Op) → o.Result) start, (launched (p.trace reply start)).terminals = 1

theorem LaunchAnswers.bind {α : Type} {p : LaunchM α} {f : α → LaunchM Unit}
    (silent : LaunchQuiet p) (rest : ∀ a, LaunchAnswers (f a)) : LaunchAnswers (p >>= f) := by
  intro reply start
  have after := rest (p.trace reply start).2 reply (start + (p.trace reply start).1.length)
  rw [trace_bind]
  simp only [Invocation.terminals, launched, List.flatMap_append] at after ⊢
  rw [List.flatMap_eq_nil_iff.mpr, List.nil_append]
  · exact after
  · rintro ⟨o, x⟩ member
    have := silent.trace reply start _ member
    cases o <;> first | rfl | exact absurd this id

theorem launchAnswers_result (hcl : HttpsrvClient) (st : Acs.DjbStatus) (msg : CStr) :
    LaunchAnswers (answer hcl (Preferences.djbResult st msg)) := fun _ _ => rfl

theorem djbLaunch_answers (processCmdline : List CStr → CStr) (hcl : HttpsrvClient)
    (argv : List CStr) (k : Kind) : LaunchAnswers (djbLaunch processCmdline hcl argv k) := by
  have stopped : LaunchQuiet (stopRunning k) := by
    refine .bind (.perform trivial) fun running => ?_
    split
    · exact .pure
    · refine .bind (.perform trivial) fun n => ?_
      exact .bind (.perform trivial) fun _ => .perform trivial
  have spawned : LaunchQuiet (spawn argv k) := by
    unfold spawn
    split
    · exact .bind (.perform trivial) fun n => .perform trivial
    · exact .pure
  refine .bind stopped fun _ => .bind spawned fun _ => ?_
  refine .bind (.perform trivial) fun n => .bind (.perform trivial) fun msg => ?_
  split
  · exact .bind (.perform trivial) fun n => launchAnswers_result hcl _ _
  · exact launchAnswers_result hcl _ _

end Launch

end Jumpbox.Answer
