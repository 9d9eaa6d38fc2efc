import Jumpbox.Acs.Step
import Jumpbox.Acs.Stages
import Mathlib.Data.List.Nodup

/-! The clients of the internal requests. `acs_request` makes a client and queues it with
its request; the push that answers it takes it off the queue, and the callback destroys it or
has `djb_push` put it back. Three exits of `acs_redirect_answer` do neither. -/

namespace Jumpbox.Acs

open Prog Table
open Discipline (Follows)

/-- What a thread has in hand. A client that `acs_request` has `made` is queued or closed
again; one that a callback `owes` is destroyed or put back. It is `lost` with a callback that
cannot allocate the body it asks for. -/
inductive Holding
  | free
  | made (client : ℕ)
  | owes (client : ℕ)
  | lost (client : ℕ)
  deriving DecidableEq

namespace Holding

def unsent : Holding → List ℕ
  | .made client => [client]
  | _ => []

def owed : Holding → List ℕ
  | .owes client => [client]
  | _ => []

def giveUp : Holding → Holding
  | .owes client => .lost client
  | held => held

def final : Holding → Prop
  | .free | .lost _ => True
  | _ => False

end Holding

def Op.client : Op → Option ℕ
  | .httpsrvClose client | .httpsrvClientDestroy client => some client
  | .djbProxyAdd request _ | .putBack request => some request.client
  | _ => none

def custody : Discipline Op Op.Result Holding where
  may held
    | .httpsrvNewcl => held = .free
    | .djbProxyAdd request _ => held = .made request.client
    | .httpsrvClose client => held = .made client
    | .httpsrvClientDestroy client => held = .owes client
    | .putBack request => held = .owes request.client
    | _ => True
  after
    | _, .httpsrvNewcl, some client => .made client
    | _, .djbProxyAdd _ _, _ | _, .httpsrvClose _, _ => .free
    | _, .httpsrvClientDestroy _, _ | _, .putBack _, _ => .free
    | held, .httpsrvReadbodyAlloc, false => held.giveUp
    | held, _, _ => held

/-! What the functions do with the clients. -/

theorem custody_of_aside {held : Holding} {α : Type} {p : AcsM α} (h : Aside p) :
    custody.Follows held p fun _ held' => held' = held := by
  refine .of_only (h.mono fun o aside => ?_)
  cases o <;> first | exact ⟨trivial, fun _ => rfl⟩ | exact False.elim aside

theorem custody_of_setsUp {α : Type} {p : AcsM α} (h : p.Only Op.setsUp) :
    custody.Follows .free p fun _ held => held = .free := by
  refine .of_only (h.mono fun o setsUp => ?_)
  cases o with
  | httpsrvReadbodyAlloc => exact ⟨trivial, fun x => by cases x <;> rfl⟩
  | _ => first | exact ⟨trivial, fun _ => rfl⟩ | exact False.elim setsUp

theorem custody_aside_bind {held : Holding} {α β : Type} {p : AcsM α} {f : α → AcsM β}
    {post : β → Holding → Prop} (h : Aside p) (rest : ∀ a, custody.Follows held (f a) post) :
    custody.Follows held (p >>= f) post :=
  .bind ((custody_of_aside h).mono fun a _ same => same ▸ rest a)

theorem acsRequest_custody (callback : DjbPushF) (hostname : Borrowed) (uri : CStr) :
    custody.Follows .free (acsRequest callback hostname uri) fun _ held => held = .free := by
  unfold acsRequest
  refine custody_aside_bind acsKeepRunning_aside fun keep => ?_
  cases keep with
  | false => exact .pure rfl
  | true =>
    refine .bind (.perform rfl fun hcl => ?_)
    cases hcl with
    | none => exact .bind (.perform trivial fun _ => .pure rfl)
    | some hcl =>
      refine .bind (.perform trivial fun created => ?_)
      cases created with
      | true => exact .perform rfl fun _ => rfl
      | false =>
        refine .bind (.perform trivial fun _ => ?_)
        exact .bind (.perform rfl fun _ => .pure rfl)

theorem request_sent_custody (callback : DjbPushF) (hostname : Borrowed) (uri text : CStr) :
    custody.Follows .free
      (do if ← acsRequest callback hostname uri then acsStatus .ok text else acsSitdown)
      fun _ held => held = .free := by
  refine .bind ((acsRequest_custody callback hostname uri).mono fun sent held same => ?_)
  subst same
  cases sent with
  | true => exact .perform trivial fun _ => rfl
  | false => exact .perform trivial fun _ => rfl

theorem acsRedirect_custody : custody.Follows .free acsRedirect fun _ held => held = .free := by
  unfold acsRedirect
  refine custody_aside_bind (acsNetString_aside _ _) fun redirect => ?_
  cases redirect with
  | none => exact .pure rfl
  | some redirect => exact request_sent_custody _ _ _ _

theorem acsInitial_custody : custody.Follows .free acsInitial fun _ held => held = .free := by
  unfold acsInitial
  refine custody_aside_bind (acsNetString_aside _ _) fun initial => ?_
  cases initial with
  | none => exact .pure rfl
  | some initial => exact request_sent_custody _ _ _ _

theorem acsWait_custody (env : Env) :
    custody.Follows .free (acsWait env) fun _ held => held = .free := by
  unfold acsWait
  refine custody_aside_bind (acsNetNumber_aside env _ _) fun window => ?_
  cases window with
  | none => exact .pure rfl
  | some window =>
    refine custody_aside_bind (acsNetNumber_aside env _ _) fun wait => ?_
    cases wait with
    | none => exact .pure rfl
    | some wait =>
      refine .bind (.perform trivial fun w => ?_)
      refine .bind (.perform trivial fun delay => ?_)
      refine .bind (.perform trivial fun _ => ?_)
      refine .bind (.perform trivial fun slept => ?_)
      cases slept with
      | false => exact .perform trivial fun _ => rfl
      | true =>
        refine .bind (.perform trivial fun _ => ?_)
        refine custody_aside_bind acsKeepRunning_aside fun keep => ?_
        cases keep with
        | true => exact acsRedirect_custody
        | false => exact .pure rfl

theorem acsInitialAnswer_custody (env : Env) (shcl : HttpsrvClient) (hcl : ℕ) :
    custody.Follows (.owes hcl) (acsInitialAnswer env shcl hcl) fun finished held =>
      finished = true ∧ held = .free := by
  unfold acsInitialAnswer
  dsimp only
  split
  · refine .bind (.perform trivial fun _ => ?_)
    refine .bind (.perform rfl fun _ => ?_)
    exact .bind (.perform trivial fun _ => .pure ⟨rfl, rfl⟩)
  · refine .bind (.perform trivial fun _ => ?_)
    refine .bind (.perform rfl fun _ => ?_)
    refine custody_aside_bind acsKeepRunning_aside fun keep => ?_
    cases keep with
    | true =>
      exact .bind ((acsWait_custody env).mono fun _ held same => .pure ⟨rfl, same⟩)
    | false => exact .pure ⟨rfl, rfl⟩

def Settles (env : Env) (shcl : HttpsrvClient) : Prop :=
  atoi shcl.user.httpcode = 200 →
    if shcl.readbody = false then shcl.contentLength ≠ 0
    else (env.stegDecode shcl.body shcl.contentType).isSome = true

instance (env : Env) (shcl : HttpsrvClient) : Decidable (Settles env shcl) := by
  unfold Settles
  infer_instance

theorem acsRedirectAnswer_custody {env : Env} {shcl : HttpsrvClient} (settles : Settles env shcl)
    (hcl : ℕ) :
    custody.Follows (.owes hcl) (acsRedirectAnswer env shcl hcl) fun finished held =>
      if finished then held.final else held = .owes hcl := by
  unfold acsRedirectAnswer
  dsimp only
  split
  · refine .bind (.perform trivial fun _ => ?_)
    refine .bind (.perform rfl fun _ => ?_)
    exact .bind (.perform trivial fun _ => .pure trivial)
  next done =>
    have settled := settles (by simpa using done)
    split
    next unread =>
      rw [if_pos unread] at settled
      rw [if_neg settled]
      refine .bind (.perform trivial fun allocated => ?_)
      cases allocated with
      | true => exact .pure rfl
      | false =>
        exact .bind (.perform trivial fun _ => .bind (.perform trivial fun _ => .pure trivial))
    next read =>
      rw [if_neg read] at settled
      obtain ⟨ans, decoded⟩ := Option.isSome_iff_exists.mp settled
      simp only [decoded]
      refine .bind (.perform trivial fun _ => ?_)
      refine .bind (.perform trivial fun ok => ?_)
      refine .bind (.perform rfl fun _ => ?_)
      cases ok with
      | true =>
        refine .bind (.perform trivial fun _ => ?_)
        refine .bind (.perform trivial fun _ => ?_)
        exact .bind (.perform trivial fun _ => .pure trivial)
      | false =>
        exact .bind (.perform trivial fun _ => .bind (.perform trivial fun _ => .pure trivial))

theorem djbPushCallback_custody {env : Env} {shcl : HttpsrvClient} {request : AcsRequest}
    (settles : request.push = .acsRedirectAnswer → Settles env shcl) :
    custody.Follows (.owes request.client) (djbPushCallback env shcl request) fun _ held =>
      held.final := by
  unfold djbPushCallback
  split
  · refine .bind ((acsInitialAnswer_custody env shcl _).mono fun finished held ends => ?_)
    obtain ⟨rfl, rfl⟩ := ends
    exact .pure trivial
  next push =>
    refine .bind ((acsRedirectAnswer_custody (settles push) _).mono fun finished held ends => ?_)
    cases finished with
    | true => exact .pure ends
    | false =>
      obtain rfl : held = .owes request.client := ends
      exact .perform rfl fun _ => trivial

theorem acsDecided_custody (env : Env) (decision : Start) :
    custody.Follows .free (acsDecided env decision) fun _ held => held = .free := by
  cases decision with
  | noNet => exact .perform trivial fun _ => rfl
  | nothing => exact .pure rfl
  | start =>
    refine custody_aside_bind (acsWhen_aside env) fun valid => ?_
    cases valid with
    | true => exact .bind (.perform trivial fun _ => acsInitial_custody)
    | false => exact .pure rfl

theorem acsReport_custody (hcl : HttpsrvClient) :
    custody.Follows .free (acsReport hcl) fun _ held => held = .free := by
  unfold acsReport
  refine .bind (.perform trivial fun m => ?_)
  cases m with
  | some m => exact .bind (.perform trivial fun _ => .pure rfl)
  | none =>
    refine .bind (.perform trivial fun m => ?_)
    exact .bind (.perform trivial fun _ => .pure rfl)

theorem acsProgress_custody (env : Env) (hcl : HttpsrvClient) :
    custody.Follows .free (acsProgress env hcl) fun _ held => held = .free := by
  unfold acsProgress
  refine .bind (.perform trivial fun decision => ?_)
  refine .bind ((acsDecided_custody env decision).mono fun _ held same => ?_)
  subst same
  exact acsReport_custody hcl

def Op.sends : (o : Op) → o.Result → List ℕ
  | .djbProxyAdd request _, true => [request.client]
  | _, _ => []

def Op.asksBody : Op → Bool
  | .httpsrvReadbodyAlloc => true
  | _ => false

structure Kept where
  acs : State
  holds : List Holding
  queued : List ℕ := []

namespace Kept

def held (w : Kept) (t : ℕ) : Holding := w.holds[t]?.getD .free

def observe (w : Kept) (t : ℕ) (o : Op) (x : o.Result) (acs : State) : Kept where
  acs
  holds := w.holds.set t (custody.after (w.held t) o x)
  queued := w.queued ++ o.sends x

def observed (env : Env) (w : Kept) (acs : State) : Event → Kept
  | .run t c =>
    match w.acs.threads[t]? with
    | some ⟨_, .op o _⟩ =>
      match exec env t o c w.acs.shared with
      | some (_, x) => w.observe t o x acs
      | none => { w with acs }
    | _ => { w with acs }
  | .answer t i _ =>
    match w.acs.shared.pending[i]? with
    | some request => { w with acs, holds := w.holds.set t (.owes request.client) }
    | none => { w with acs }
  | _ => { w with acs }

def step (env : Env) (w : Kept) (e : Event) : Option Kept :=
  (Acs.step env w.acs e).map fun acs => w.observed env acs e

def machine (env : Env) : Machine Kept Event := ⟨step env⟩

def start (threads : ℕ) : Kept where
  acs := init threads
  holds := List.replicate threads .free

def Settling (env : Env) (w : Kept) : Event → Prop
  | .run t c => w.held t ≠ .free →
      ∀ th ∈ w.acs.threads[t]?, ∀ o ∈ th.prog.head, o.asksBody = true → c.ok = true
  | .answer _ i shcl => ∀ request ∈ w.acs.shared.pending[i]?,
      request.push = .acsRedirectAnswer → Settles env shcl
  | _ => True

instance (env : Env) (w : Kept) : ∀ e, Decidable (Settling env w e)
  | .run t c => inferInstanceAs (Decidable (w.held t ≠ .free →
      ∀ th ∈ w.acs.threads[t]?, ∀ o ∈ th.prog.head, o.asksBody = true → c.ok = true))
  | .answer _ i shcl => inferInstanceAs (Decidable (∀ request ∈ w.acs.shared.pending[i]?,
      request.push = .acsRedirectAnswer → Settles env shcl))
  | .progress _ _ | .setup _ _ | .peel _ _ | .shutdown | .exit _ => isTrue trivial

def waiting (w : Kept) : List ℕ := w.acs.shared.pending.map AcsRequest.client

/-- A client that has been queued waits there, is owed by one callback or has been destroyed
once. A callback that is over owes none, and who uses a client has it in hand. -/
structure DestroyedOnce (w : Kept) : Prop where
  distinct : w.queued.Nodup
  once : w.queued.Perm (w.waiting ++ w.holds.flatMap Holding.owed ++ w.acs.shared.destroyed)
  finished : ∀ (t : ℕ) (th : Thread Op Op.Result Role), w.acs.threads[t]? = some th →
    th.prog.isDone = true → w.held t = .free
  in_hand : ∀ (t : ℕ) (th : Thread Op Op.Result Role), w.acs.threads[t]? = some th →
    ∀ o ∈ th.prog.head, ∀ n ∈ o.client,
      (w.held t = .made n ∨ w.held t = .owes n) ∧ n ∉ w.acs.shared.destroyed

end Kept

/-! What an operation does to the clients. -/

def clientBook (s : Shared) (n : ℕ) : ℕ :=
  (s.pending.map AcsRequest.client).count n + s.destroyed.count n

def issued (s : Shared) (n : ℕ) : ℕ := if n < s.nextClient then 1 else 0

structure Trades (s s' : Shared) (held held' : Holding) (sent : List ℕ) : Prop where
  keeps : ∀ n, held' = .lost n → held = .lost n
  books : ∀ n, clientBook s' n + held'.owed.count n =
    clientBook s n + held.owed.count n + sent.count n
  issues : ∀ n, issued s n + sent.count n + held'.unsent.count n ≤
    issued s' n + held.unsent.count n

theorem SameClients.trades {s s' : Shared} (same : SameClients s s') (held : Holding) :
    Trades s s' held held [] := by
  refine ⟨fun n => id, fun n => ?_, fun n => ?_⟩
  · rw [clientBook, same.pending, same.destroyed]
    rfl
  · rw [issued, issued, same.nextClient]
    rfl

theorem trades_of_exec {env : Env} {t : ℕ} {c : Choice} {s s' : Shared} {held : Holding} {o : Op}
    {x : o.Result} (may : custody.may held o) (allocates : held ≠ .free → o.asksBody → c.ok = true)
    (performed : exec env t o c s = some (s', x)) :
    Trades s s' held (custody.after held o x) (o.sends x) := by
  cases o with
  | httpsrvNewcl =>
    obtain rfl : held = .free := may
    unfold exec at performed
    dsimp only at performed
    split at performed
    · cases performed
      refine ⟨nofun, fun n => rfl, fun n => ?_⟩
      simp only [custody, Op.sends, Holding.unsent, issued, List.count_singleton, List.count_nil,
        beq_iff_eq]
      split_ifs <;> omega
    · cases performed
      exact (SameClients.mk rfl rfl rfl).trades _
  | djbProxyAdd request borrowed =>
    obtain rfl : held = .made request.client := may
    unfold exec at performed
    dsimp only at performed
    split at performed
    · cases performed
      refine ⟨nofun, fun n => ?_, fun n => Nat.le_refl _⟩
      simp only [custody, clientBook, Holding.owed, Op.sends, Shared.touch, List.map_append,
        List.map_cons, List.map_nil, List.count_append, List.count_nil]
      omega
    · cases performed
      exact ⟨nofun, fun n => rfl, fun n => Nat.le_add_right _ _⟩
  | httpsrvClose client =>
    obtain rfl : held = .made client := may
    cases performed
    exact ⟨nofun, fun n => rfl, fun n => Nat.le_add_right _ _⟩
  | httpsrvClientDestroy client =>
    obtain rfl : held = .owes client := may
    cases performed
    refine ⟨nofun, fun n => ?_, fun n => Nat.le_refl _⟩
    simp only [custody, clientBook, Holding.owed, Op.sends, List.count_append, List.count_nil]
    omega
  | putBack request =>
    obtain rfl : held = .owes request.client := may
    cases performed
    refine ⟨nofun, fun n => ?_, fun n => Nat.le_refl _⟩
    simp only [custody, clientBook, Holding.owed, Op.sends, List.map_append, List.map_cons,
      List.map_nil, List.count_append, List.count_nil]
    omega
  | httpsrvReadbodyAlloc =>
    cases performed
    have still : custody.after held .httpsrvReadbodyAlloc c.ok = held := by
      cases held with
      | free => cases c.ok <;> rfl
      | _ => rw [allocates nofun rfl]; rfl
    rw [still]
    exact (SameClients.mk rfl rfl rfl).trades held
  | _ => exact ((same_of_exec performed).clients id).trades held

namespace Kept

structure Tended (w : Kept) : Prop where
  follows : Pool.Shadowed custody Holding.final w.holds w.acs.threads
  keeps : ∀ held ∈ w.holds, ∀ n, held ≠ .lost n
  books : ∀ n, w.queued.count n =
    clientBook w.acs.shared n + total (fun held => held.owed.count n) w.holds
  issues : ∀ n, w.queued.count n + total (fun held => held.unsent.count n) w.holds ≤
    issued w.acs.shared n

variable {env : Env} {w w' : Kept} {t : ℕ}

theorem held_eq {held : Holding} (hold_t : w.holds[t]? = some held) : w.held t = held := by
  rw [Kept.held, hold_t]
  rfl

theorem Tended.free_of_done {th : Thread Op Op.Result Role} (h : Tended w)
    (at_t : w.acs.threads[t]? = some th) (ended : th.prog.isDone = true) :
    w.holds[t]? = some .free := by
  obtain ⟨held, hold_t, final⟩ := h.follows.ends_of_done at_t ended
  have kept := h.keeps held (List.mem_of_getElem? hold_t)
  cases held with
  | free => exact hold_t
  | lost n => exact absurd rfl (kept n)
  | _ => exact False.elim final

theorem Tended.act {c : Choice} {role role' : Role} {o : Op} {next : o.Result → AcsM Unit}
    {shared : Shared} {x : o.Result} (h : Tended w)
    (allocates : w.held t ≠ .free → o.asksBody → c.ok = true)
    (at_t : w.acs.threads[t]? = some ⟨role, .op o next⟩)
    (performed : exec env t o c w.acs.shared = some (shared, x)) :
    Tended (w.observe t o x ⟨shared, w.acs.threads.set t ⟨role', next x⟩⟩) := by
  obtain ⟨held, hold_t, follows⟩ := h.follows t _ at_t
  rw [held_eq hold_t] at allocates
  have trades := trades_of_exec follows.1 allocates performed
  have kept := h.keeps held (List.mem_of_getElem? hold_t)
  unfold observe
  rw [held_eq hold_t]
  refine ⟨h.follows.set at_t (follows.2 x), ?_, fun n => ?_, fun n => ?_⟩
  · exact forall_set h.keeps fun n lost => kept n (trades.keeps n lost)
  · have books := h.books n
    rw [total_split _ hold_t] at books
    rw [total_set _ hold_t, List.count_append]
    have trade := trades.books n
    dsimp only
    omega
  · have issues := h.issues n
    rw [total_split _ hold_t] at issues
    rw [total_set _ hold_t, List.count_append]
    have trade := trades.issues n
    dsimp only
    omega

theorem Tended.begin {role : Role} {old : Thread Op Op.Result Role} {prog : AcsM Unit}
    {shared : Shared} (h : Tended w) (same : SameClients w.acs.shared shared)
    (at_t : w.acs.threads[t]? = some old) (ended : old.prog.isDone = true)
    (follows : custody.Follows .free prog fun _ held => held.final) :
    Tended { w with acs := ⟨shared, w.acs.threads.set t ⟨role, prog⟩⟩ } := by
  refine ⟨h.follows.begin at_t (h.free_of_done at_t ended) follows, h.keeps, fun n => ?_,
    fun n => ?_⟩
  · rw [h.books n, clientBook, clientBook, same.pending, same.destroyed]
  · have issues := h.issues n
    rwa [issued, ← same.nextClient] at issues

theorem Tended.answer {role : Role} {old : Thread Op Op.Result Role} {prog : AcsM Unit} {i : ℕ}
    {request : AcsRequest} (h : Tended w)
    (asked : w.acs.shared.pending[i]? = some request)
    (at_t : w.acs.threads[t]? = some old) (ended : old.prog.isDone = true)
    (follows : custody.Follows (.owes request.client) prog fun _ held => held.final) :
    Tended { w with
      acs := ⟨{ w.acs.shared with pending := w.acs.shared.pending.eraseIdx i },
        w.acs.threads.set t ⟨role, prog⟩⟩
      holds := w.holds.set t (.owes request.client) } := by
  have hold_t := h.free_of_done at_t ended
  refine ⟨h.follows.set at_t follows, forall_set h.keeps nofun, fun n => ?_, fun n => ?_⟩
  · obtain ⟨bound, at_i⟩ := List.getElem?_eq_some_iff.mp asked
    have taken := ((List.getElem_cons_eraseIdx_perm bound).map AcsRequest.client).count_eq n
    rw [at_i, List.map_cons, List.count_cons] at taken
    have books := h.books n
    rw [total_split _ hold_t] at books
    rw [total_set _ hold_t]
    simp only [clientBook, Holding.owed, List.count_cons, List.count_nil] at books ⊢
    omega
  · have issues := h.issues n
    rw [total_split _ hold_t] at issues
    rw [total_set _ hold_t]
    exact issues

theorem Tended.step {e : Event} (h : Tended w) (settling : w.Settling env e)
    (kept : w.step env e = some w') : Tended w' := by
  obtain ⟨acs, moved, rfl⟩ := Option.map_eq_some_iff.mp kept
  cases step_moved moved with
  | @run t c _ o _ shared x at_t performed =>
    have seen (acs : State) : w.observed env acs (.run t c) = w.observe t o x acs := by
      simp only [observed, at_t, performed]
    rw [seen]
    exact h.act (fun busy asks => settling busy _ at_t _ rfl asks) at_t performed
  | @begin _ _ _ prog asked _ at_t =>
    have follows : custody.Follows .free prog fun _ held => held = .free :=
      request_follows (acsProgress_custody env) (fun hcl => custody_of_setsUp (acsSetup_setsUp hcl))
        (fun nep => custody_of_setsUp (rdvPeelBase_setsUp nep)) asked
    have seen (acs : State) : w.observed env acs e = { w with acs } := by
      cases e with
      | run | answer => cases asked
      | _ => rfl
    rw [seen]
    exact h.begin ⟨rfl, rfl, rfl⟩ at_t rfl (follows.mono fun _ held free => free ▸ trivial)
  | @answer t i shcl _ request _ at_t waiting =>
    have seen (acs : State) : w.observed env acs (.answer t i shcl) =
        { w with acs, holds := w.holds.set t (.owes request.client) } := by
      simp only [observed, waiting]
    rw [seen]
    exact h.answer waiting at_t rfl (djbPushCallback_custody (settling request waiting)).discard
  | shutdown => exact ⟨h.follows, h.keeps, h.books, h.issues⟩
  | exit _ at_t =>
    have follows := (custody_of_setsUp acsExit_setsUp).discard
    exact h.begin ⟨rfl, rfl, rfl⟩ at_t rfl (follows.mono fun _ held free => free ▸ trivial)

theorem tended_start (threads : ℕ) : Tended (start threads) := by
  have none_owed (n : ℕ) : total (fun held : Holding => held.owed.count n)
      (List.replicate threads .free) = 0 := total_replicate_zero _ _ _ rfl
  have none_made (n : ℕ) : total (fun held : Holding => held.unsent.count n)
      (List.replicate threads .free) = 0 := total_replicate_zero _ _ _ rfl
  refine ⟨Pool.Shadowed.idle threads trivial, fun held member n => ?_, fun n => ?_, fun n => ?_⟩
  · rw [List.eq_of_mem_replicate member]
    exact nofun
  · change 0 = 0 + total _ (List.replicate threads Holding.free)
    rw [none_owed]
  · change 0 + total _ (List.replicate threads Holding.free) ≤ _
    rw [none_made]
    exact Nat.zero_le _

theorem Tended.queued_le_one (h : Tended w) (n : ℕ) : w.queued.count n ≤ 1 := by
  have issues := h.issues n
  unfold issued at issues
  split at issues <;> omega

theorem Tended.not_destroyed {held : Holding} (h : Tended w) (hold_t : w.holds[t]? = some held)
    {n : ℕ} (own : held = .made n ∨ held = .owes n) : n ∉ w.acs.shared.destroyed := by
  have books := h.books n
  have issues := h.issues n
  have once := h.queued_le_one n
  unfold issued at issues
  unfold clientBook at books
  rw [← List.count_eq_zero]
  rcases own with rfl | rfl
  · have unsent : [n].count n ≤ total (fun held => held.unsent.count n) w.holds :=
      weight_le_total (fun held : Holding => held.unsent.count n) hold_t
    rw [List.count_singleton_self] at unsent
    split at issues <;> omega
  · have owed : [n].count n ≤ total (fun held => held.owed.count n) w.holds :=
      weight_le_total (fun held : Holding => held.owed.count n) hold_t
    rw [List.count_singleton_self] at owed
    omega

theorem holds_of_may {held : Holding} {o : Op} {n : ℕ} (may : custody.may held o)
    (uses : n ∈ o.client) : held = .made n ∨ held = .owes n := by
  cases o with
  | djbProxyAdd | httpsrvClose =>
    obtain rfl := Option.some.inj uses
    exact .inl may
  | httpsrvClientDestroy | putBack =>
    obtain rfl := Option.some.inj uses
    exact .inr may
  | _ => cases uses

theorem Tended.destroyedOnce (h : Tended w) : DestroyedOnce w where
  distinct := List.nodup_iff_count_le_one.mpr h.queued_le_one
  once := by
    refine List.perm_iff_count.mpr fun n => ?_
    have books := h.books n
    simp only [clientBook] at books
    simp only [waiting, List.count_append, count_flatMap]
    omega
  finished t th at_t ended := held_eq (h.free_of_done at_t ended)
  in_hand t th at_t o next n uses := by
    obtain ⟨held, hold_t, follows⟩ := h.follows t th at_t
    rw [held_eq hold_t]
    cases prog : th.prog with
    | done a =>
      rw [prog] at next
      cases next
    | op o' rest =>
      rw [prog] at next follows
      obtain rfl := Option.some.inj next
      have own := holds_of_may follows.1 uses
      exact ⟨own, h.not_destroyed hold_t own⟩

/-- In a run whose pushes settle what they answer, every client that has been queued waits,
is owed by the callback that has it in hand, or has been destroyed exactly once. -/
theorem destroyed_once_of_settling (env : Env) (threads : ℕ) (es : List Event)
    (settling : (machine env).Meets (Settling env) (start threads) es) :
    (machine env).Always DestroyedOnce (start threads) es :=
  ((machine env).always_of_meets (fun _ _ _ h settling kept => h.step settling kept)
    (tended_start threads) settling).imp _ fun _ h => h.destroyedOnce

def redirectPush : HttpsrvClient := { initialPush "200" with body := [1] }

def redirectRun (pushes : List (HttpsrvClient × ℕ)) : List Event :=
  danceRun ++ runs 0 3 ++ [.answer 1 0 (initialPush "200")] ++ runs 1 17 ++
    pushes.flatMap fun push => .answer 1 0 push.1 :: runs 1 push.2

def decodingEnv : Env := { exampleEnv with stegDecode := fun _ _ => some [] }

def settledRun : List Event :=
  redirectRun [(redirectPush, 2), ({ redirectPush with readbody := true }, 5)]

theorem destroyed_once_in_settledRun :
    ∃ w, (machine decodingEnv).exec (start 2) settledRun = some w ∧
      w.acs.shared.destroyed = [0, 1] ∧ w.queued = [0, 1] ∧ DestroyedOnce w := by
  have run : ((machine decodingEnv).exec (start 2) settledRun).map
      (fun w => (w.acs.shared.destroyed, w.queued)) = some ([0, 1], [0, 1]) := by decide +kernel
  obtain ⟨w, run, ends⟩ := Option.map_eq_some_iff.mp run
  obtain ⟨destroyed, queued⟩ := Prod.mk.inj ends
  have always := destroyed_once_of_settling decodingEnv 2 settledRun (by decide +kernel)
  exact ⟨w, run, destroyed, queued, always.finish _ run⟩

theorem redirect_leaves_client :
    ¬∀ (env : Env) (threads : ℕ) (es : List Event) (w : Kept),
      (machine env).exec (start threads) es = some w → DestroyedOnce w := by
  intro always
  have left : ((machine exampleEnv).exec (start 2) (redirectRun [(initialPush "200", 2)])).map
      (fun w => (w.acs.threads[1]?.map fun th => th.prog.isDone, w.held 1)) =
        some (some true, .owes 1) := by decide +kernel
  obtain ⟨w, run, ends⟩ := Option.map_eq_some_iff.mp left
  obtain ⟨idle, owes⟩ := Prod.mk.inj ends
  obtain ⟨th, at_t, ended⟩ := Option.map_eq_some_iff.mp idle
  have finished := (always exampleEnv 2 _ w run).finished 1 th at_t ended
  rw [owes] at finished
  cases finished

end Kept

end Jumpbox.Acs
