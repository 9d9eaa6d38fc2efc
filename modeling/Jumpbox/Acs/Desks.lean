import Jumpbox.Acs.Polls

/-! What the threads say to their clients. A poll takes an entry and says it, a setup says
how it went, and no other thread says that the dance is done. -/

namespace Jumpbox.Acs

open Prog
open Discipline (Follows)

/-- What a thread is at with its client: a poll `brings` an entry back and has then `told` it;
the main thread `leaves`. -/
inductive Desk
  | free
  | polls
  | brings (m : AcsMsg)
  | told
  | leaves
  deriving DecidableEq

def Desk.asks : Desk → Bool
  | .polls | .brings _ => true
  | _ => false

inductive Modest : List Out → Prop
  | result {st : DjbStatus} (going : st ≠ .done) (msg : CStr) :
      Modest [.result (statusName st) msg, .done]
  | error (msg : CStr) : Modest (djbError 400 msg)

theorem AcsMsg.modest {m : AcsMsg} (going : m.status ≠ .done) : Modest m.result :=
  .result going m.message

def desking : Discipline Op Op.Result Desk where
  may
    | .brings m, .answer _ outs => outs = m.result
    | .brings _, _ | .told, _ => False
    | .polls, .answer _ _ | .polls, .httpsrvReadbodyAlloc | .polls, .listDestroy => False
    | .polls, _ => True
    | _, .listPop | _, .condWait => False
    | _, .answer _ outs => Modest outs
    | .free, .listDestroy => False
    | _, _ => True
  after
    | .polls, .listPop, some m => .brings m
    | .polls, .condWait, m => .brings m
    | .brings _, .answer _ _, _ => .told
    | desk, _, _ => desk

theorem modest_of_may {desk : Desk} {hcl : HttpsrvClient} {outs : List Out}
    (may : desking.may desk (.answer hcl outs)) :
    Modest outs ∨ ∃ m, desk = .brings m ∧ outs = m.result := by
  cases desk with
  | free | leaves => exact .inl may
  | brings m => exact .inr ⟨m, rfl, may⟩
  | polls | told => exact False.elim may

/-! What the functions say. -/

theorem desking_of_pushes {α : Type} {p : AcsM α} (h : p.Only Op.pushes) :
    desking.Follows .free p fun _ desk => desk = .free := by
  refine .of_only (h.mono fun o pushes => ?_)
  cases o <;> first | exact ⟨trivial, fun _ => rfl⟩ | exact absurd pushes id

theorem desking_of_adopts {desk : Desk} (aside : desk = .free ∨ desk = .leaves) {α : Type}
    {p : AcsM α} (h : p.Only Op.adopts) : desking.Follows desk p fun _ desk' => desk' = desk := by
  refine .of_only (h.mono fun o adopts => ?_)
  rcases aside with rfl | rfl <;>
    cases o <;> first | exact ⟨trivial, fun _ => rfl⟩ | exact absurd adopts id

theorem desking_of_staged {α : Type} {p : AcsM α} (h : Staged p) :
    desking.Follows .polls p fun _ desk => desk = .polls := by
  refine .of_only (h.mono fun o staged => ?_)
  cases o <;> first | exact ⟨trivial, fun _ => rfl⟩ | exact absurd staged id

theorem acsProgress_desking (env : Env) (hcl : HttpsrvClient) :
    desking.Follows .polls (acsProgress env hcl) fun _ desk => desk = .told := by
  unfold acsProgress
  refine .bind (.perform trivial fun decision => ?_)
  refine .bind ((desking_of_staged (acsDecided_staged env decision)).mono fun _ desk same => ?_)
  subst same
  unfold acsReport
  refine .bind (.perform trivial fun m => ?_)
  cases m with
  | some m => exact .bind (.perform rfl fun _ => .pure rfl)
  | none =>
    refine .bind (.perform trivial fun m => ?_)
    exact .bind (.perform rfl fun _ => .pure rfl)

theorem djbResult_desking (st : DjbStatus) (going : st ≠ .done) (hcl : HttpsrvClient) (msg : CStr)
    {α : Type} (a : α) : desking.Follows .free (do djbResult hcl st msg; return a) fun _ desk =>
      desk = .free :=
  .bind (.perform (.result going msg) fun _ => .pure rfl)

theorem acsSetNet_desking {desk : Desk} (aside : desk = .free ∨ desk = .leaves)
    (net : Option Net) {α : Type} {rest : Bool → AcsM α} {post : α → Desk → Prop}
    (follows : ∀ ok, desking.Follows desk (rest ok) post) :
    desking.Follows desk (do let ok ← acsSetNet net; rest ok) post :=
  .bind ((desking_of_adopts aside (acsSetNet_adopts net)).mono fun ok _ same => same ▸ follows ok)

theorem acsSetup_desking (hcl : HttpsrvClient) :
    desking.Follows .free (acsSetup hcl) fun _ desk => desk = .free := by
  unfold acsSetup
  split
  · exact djbResult_desking .err (by decide) hcl _ true
  · split
    · split
      · exact .bind (.perform (.error _) fun _ => .pure rfl)
      · refine .bind (.perform trivial fun allocated => ?_)
        cases allocated with
        | true => exact .pure rfl
        | false => exact djbResult_desking .err (by decide) hcl _ true
    · refine .bind (.perform trivial fun root => ?_)
      cases root with
      | none => exact .pure rfl
      | some root =>
        refine acsSetNet_desking (.inl rfl) _ fun ok => .bind (.perform trivial fun _ => ?_)
        cases ok with
        | true => exact djbResult_desking .ok (by decide) hcl _ true
        | false => exact djbResult_desking .err (by decide) hcl _ false

theorem rdvPeelBase_desking (nep : CStr) :
    desking.Follows .free (rdvPeelBase nep) fun _ desk => desk = .free := by
  unfold rdvPeelBase
  refine .bind (.perform trivial fun root => ?_)
  cases root with
  | none => exact .pure rfl
  | some root =>
    exact acsSetNet_desking (.inl rfl) _ fun _ => .bind (.perform trivial fun _ => .pure rfl)

theorem acsExit_desking : desking.Follows .leaves acsExit fun _ desk => desk = .leaves := by
  unfold acsExit
  refine .bind (.perform trivial fun _ => ?_)
  exact acsSetNet_desking (.inr rfl) none fun _ => .perform trivial fun _ => rfl

/-! What the operations do to the queue. -/

def Op.takes (s : Shared) : (o : Op) → o.Result → List AcsMsg
  | .listPop, m => m.toList
  | .condWait, m => if s.lMessages = [] then [] else [m]
  | _, _ => []

theorem recorded_acsStatus (s : Shared) (t : ℕ) (msg : AcsMsg) (memory : Bool) :
    (s.acsStatus t msg memory).recorded = s.recorded ++ if memory then [msg] else [] := by
  cases memory <;> simp [Shared.recorded, Shared.acsStatus]

theorem queue_of_exec {env : Env} {t : ℕ} {c : Choice} {s s' : Shared} {o : Op} {x : o.Result}
    (allocates : o.records = true → c.ok = true) (stays : o ≠ .listDestroy)
    (performed : exec env t o c s = some (s', x)) :
    ∃ new, s'.recorded = s.recorded ++ new ∧ s.lMessages ++ new = o.takes s x ++ s'.lMessages := by
  cases o with
  | status st text borrowed =>
    have memory := allocates rfl
    obtain rfl : _ = s' := congrArg Prod.fst (Option.some.inj performed)
    refine ⟨[Shared.acsMsg st text], ?_, ?_⟩
    · rw [memory]
      exact recorded_acsStatus (s.touch borrowed) t _ true
    · rw [memory]
      rfl
  | listPop =>
    unfold exec at performed
    dsimp only at performed
    split at performed
    next queue =>
      cases performed
      exact ⟨[], (List.append_nil _).symm, by simp [Op.takes]⟩
    next m rest queue =>
      cases performed
      exact ⟨[], (List.append_nil _).symm, by simp [Op.takes, queue]⟩
  | condWait =>
    unfold exec at performed
    dsimp only at performed
    split at performed
    next queue =>
      cases performed
      exact ⟨[], (List.append_nil _).symm, by simp [Op.takes, queue]⟩
    next m rest queue =>
      cases performed
      refine ⟨[], (List.append_nil _).symm, ?_⟩
      rw [List.append_nil, queue, Op.takes, if_neg (by rw [queue]; exact List.cons_ne_nil _ _)]
      rfl
  | listDestroy => exact absurd rfl stays
  | _ =>
    have same := (same_of_exec performed).queue id
    exact ⟨[], by rw [same.recorded, List.append_nil], by rw [same.messages, List.append_nil]; rfl⟩

def Ended (s : Shared) : Prop := ∃ m ∈ s.recorded, m.status = .done

structure Silent (s : Shared) : Prop where
  status : s.lStatus ≠ .done
  messages : ∀ m ∈ s.lMessages, m.status ≠ .done

theorem Silent.tail {s : Shared} {m : AcsMsg} {rest : List AcsMsg} (h : Silent s)
    (queue : s.lMessages = m :: rest) :
    m.status ≠ .done ∧ Silent { s with lMessages := rest } := by
  have messages := h.messages
  rw [queue] at messages
  exact ⟨messages m List.mem_cons_self, h.status, fun m member =>
    messages m (List.mem_cons_of_mem _ member)⟩

def Op.found : (o : Op) → o.Result → Option AcsMsg
  | .listPop, m => m
  | .condWait, m => some m
  | _, _ => none

theorem brings_of_after {desk : Desk} {o : Op} {x : o.Result} {m : AcsMsg}
    (after : desking.after desk o x = .brings m) : desk = .brings m ∨ o.found x = some m := by
  cases desk with
  | polls =>
    cases o with
    | listPop =>
      cases x with
      | none => cases after
      | some m' => exact .inr (congrArg some (Desk.brings.inj after))
    | condWait => exact .inr (congrArg some (Desk.brings.inj after))
    | _ => cases after
  | brings m' =>
    cases o with
    | answer => cases after
    | _ => exact .inl after
  | free | told | leaves => cases o <;> cases after

theorem takes_of_free {s : Shared} {o : Op} {x : o.Result} (may : desking.may .free o) :
    o.takes s x = [] ∧ o ≠ .listDestroy ∧ desking.after .free o x = .free := by
  cases o with
  | listPop | condWait | listDestroy => exact False.elim may
  | _ => exact ⟨rfl, nofun, rfl⟩

theorem takes_of_polls {s : Shared} {o : Op} {x : o.Result} (may : desking.may .polls o) :
    desking.after .polls o x = .polls ∧ o.takes s x = [] ∨
      ∃ m, desking.after .polls o x = .brings m ∧ (o.takes s x = [] ∨ o.takes s x = [m]) := by
  cases o with
  | listPop =>
    cases x with
    | none => exact .inl ⟨rfl, rfl⟩
    | some m => exact .inr ⟨m, rfl, .inr rfl⟩
  | condWait =>
    refine .inr ⟨x, rfl, ?_⟩
    rw [Op.takes]
    split
    · exact .inl rfl
    · exact .inr rfl
  | answer | httpsrvReadbodyAlloc | listDestroy => exact False.elim may
  | _ => exact .inl ⟨rfl, rfl⟩

theorem free_of_after {desk : Desk} {o : Op} {x : o.Result}
    (after : desking.after desk o x = .free) : desk = .free := by
  cases desk with
  | free => rfl
  | polls =>
    cases o with
    | listPop => cases x <;> cases after
    | _ => cases after
  | brings | told | leaves => cases o <;> cases after

theorem after_ne_leaves {desk : Desk} {o : Op} {x : o.Result} (stays : desk ≠ .leaves) :
    desking.after desk o x ≠ .leaves := by
  cases desk with
  | leaves => exact absurd rfl stays
  | polls =>
    cases o with
    | listPop => cases x <;> exact nofun
    | _ => exact nofun
  | free | brings | told => cases o <;> exact nofun

theorem desk_of_readbodyAlloc {desk : Desk} (may : desking.may desk .httpsrvReadbodyAlloc) :
    desk = .free ∨ desk = .leaves := by
  cases desk with
  | free => exact .inl rfl
  | leaves => exact .inr rfl
  | polls | brings | told => exact False.elim may

theorem Silent.acsStatus {s : Shared} (h : Silent s) (t : ℕ) (msg : AcsMsg) (memory : Bool) :
    Ended (s.acsStatus t msg memory) ∨
      Silent (s.acsStatus t msg memory) ∧ ∀ m ∈ (none : Option AcsMsg), m.status ≠ .done := by
  cases memory with
  | false =>
    refine .inr ⟨⟨nofun, ?_⟩, nofun⟩
    change ∀ m ∈ s.lMessages ++ [], _
    rw [List.append_nil]
    exact h.messages
  | true =>
    by_cases isDone : msg.status = .done
    · refine .inl ⟨msg, ?_, isDone⟩
      rw [recorded_acsStatus]
      exact List.mem_append_right _ (List.mem_singleton_self msg)
    · exact .inr ⟨⟨isDone, List.forall_mem_append.mpr ⟨h.messages, by simpa using isDone⟩⟩, nofun⟩

theorem silent_of_exec {env : Env} {t : ℕ} {c : Choice} {s s' : Shared} {o : Op} {x : o.Result}
    (performed : exec env t o c s = some (s', x)) :
    (Ended s → Ended s') ∧ (Silent s → Ended s' ∨
      Silent s' ∧ ∀ m ∈ o.found x, m.status ≠ .done) := by
  cases o with
  | status st text borrowed =>
    obtain rfl : _ = s' := congrArg Prod.fst (Option.some.inj performed)
    have recorded := recorded_acsStatus (s.touch borrowed) t (Shared.acsMsg st text) c.ok
    refine ⟨fun ⟨m, member, isDone⟩ => ⟨m, recorded ▸ List.mem_append_left _ member, isDone⟩,
      fun silent => ?_⟩
    have touched : Silent (s.touch borrowed) := ⟨silent.status, silent.messages⟩
    exact touched.acsStatus t (Shared.acsMsg st text) c.ok
  | listPop =>
    unfold exec at performed
    dsimp only at performed
    split at performed
    next queue =>
      cases performed
      exact ⟨id, fun silent => .inr ⟨silent, nofun⟩⟩
    next first rest queue =>
      cases performed
      refine ⟨id, fun silent => .inr ⟨(silent.tail queue).2, fun m found => ?_⟩⟩
      obtain rfl : _ = m := Option.some.inj found
      exact (silent.tail queue).1
  | condWait =>
    unfold exec at performed
    dsimp only at performed
    split at performed
    next queue =>
      cases performed
      refine ⟨id, fun silent => .inr ⟨silent, fun m found => ?_⟩⟩
      obtain rfl : _ = m := Option.some.inj found
      exact silent.status
    next first rest queue =>
      cases performed
      refine ⟨id, fun silent => .inr ⟨(silent.tail queue).2, fun m found => ?_⟩⟩
      obtain rfl : _ = m := Option.some.inj found
      exact (silent.tail queue).1
  | listDestroy =>
    cases performed
    exact ⟨id, fun silent => .inr ⟨⟨silent.status, List.forall_mem_nil _⟩, nofun⟩⟩
  | _ =>
    have same := (same_of_exec performed).queue id
    refine ⟨fun ⟨m, member, isDone⟩ => ⟨m, same.recorded.symm ▸ member, isDone⟩, fun silent => ?_⟩
    refine .inr ⟨⟨?_, ?_⟩, nofun⟩
    · rw [same.status]
      exact silent.status
    · rw [same.messages]
      exact silent.messages

/-! What a step is at the desks. -/

def Shared.stream (s : Shared) : List AcsMsg × List AcsMsg × DjbStatus :=
  (s.recorded, s.lMessages, s.lStatus)

theorem silent_iff {s s' : Shared} (same : s'.stream = s.stream) :
    (Ended s' ↔ Ended s) ∧ (Silent s' ↔ Silent s) := by
  simp only [Shared.stream, Prod.mk.injEq] at same
  obtain ⟨recorded, messages, status⟩ := same
  refine ⟨by rw [Ended, recorded, Ended], fun h => ⟨?_, ?_⟩, fun h => ⟨?_, ?_⟩⟩
  · exact status ▸ h.status
  · exact messages ▸ h.messages
  · exact status ▸ h.status
  · exact messages ▸ h.messages

def Event.begins : Event → Option (ℕ × Desk)
  | .progress t _ => some (t, .polls)
  | .setup t _ | .peel t _ | .answer t _ _ => some (t, .free)
  | .exit t => some (t, .leaves)
  | .run _ _ | .shutdown => none

theorem begins_ne_brings {e : Event} {t : ℕ} (m : AcsMsg) : e.begins ≠ some (t, .brings m) := by
  cases e <;> exact nofun

theorem exit_of_begins {e : Event} {t : ℕ} (given : e.begins = some (t, .leaves)) :
    e = .exit t := by
  cases e <;> cases given
  rfl

abbrev Staffed (desks : List Desk) (s : State) : Prop :=
  Pool.Shadowed desking (fun desk => desk.asks = false) desks s.threads

inductive Works (env : Env) (s : State) (desks : List Desk) : Event → State → List Desk → Prop
  | acts {t c role o next desk shared x threads}
      (at_t : s.threads[t]? = some ⟨role, .op o next⟩) (desk_t : desks[t]? = some desk)
      (may : desking.may desk o) (performed : exec env t o c s.shared = some (shared, x)) :
      Works env s desks (.run t c) ⟨shared, threads⟩ (desks.set t (desking.after desk o x))
  | begins {e t desk old shared threads} (given : e.begins = some (t, desk))
      (desk_t : desks[t]? = some old) (idle : old.asks = false)
      (same : shared.stream = s.shared.stream) :
      Works env s desks e ⟨shared, threads⟩ (desks.set t desk)
  | shutdown {s'} (same : s'.shared.stream = s.shared.stream) : Works env s desks .shutdown s' desks

theorem begins_follows {env : Env} {e : Event} {t : ℕ} {prog : AcsM Unit}
    (asked : e.request env = some (t, prog)) : ∃ desk, e.begins = some (t, desk) ∧
      desking.Follows desk prog fun _ desk => desk.asks = false := by
  have ends {p : AcsM Unit} {desk : Desk} (desk' : Desk) (idle : desk'.asks = false)
      (h : desking.Follows desk p fun _ d => d = desk') :
      desking.Follows desk p fun _ d => d.asks = false :=
    h.mono fun _ _ same => same ▸ idle
  cases e with
  | progress t hcl =>
    cases asked
    exact ⟨_, rfl, ends .told rfl (acsProgress_desking env hcl).discard⟩
  | setup t hcl =>
    cases asked
    exact ⟨_, rfl, ends .free rfl (acsSetup_desking hcl).discard⟩
  | peel t nep =>
    cases asked
    exact ⟨_, rfl, ends .free rfl (rdvPeelBase_desking nep).discard⟩
  | _ => cases asked

theorem works_of_step {env : Env} {s s' : State} {desks : List Desk} {e : Event}
    (h : Staffed desks s) (moved : step env s e = some s') :
    ∃ desks', Works env s desks e s' desks' ∧ Staffed desks' s' := by
  cases step_moved moved with
  | run at_t performed =>
    obtain ⟨desk, desk_t, follows⟩ := h _ _ at_t
    exact ⟨_, .acts at_t desk_t follows.1 performed, h.set at_t (follows.2 _)⟩
  | begin asked open_ at_t =>
    obtain ⟨desk, given, follows⟩ := begins_follows asked
    obtain ⟨old, desk_t, idle⟩ := h.ends_of_done at_t rfl
    exact ⟨_, .begins given desk_t idle rfl, h.set at_t follows⟩
  | @answer t i shcl _ request open_ at_t waiting =>
    obtain ⟨old, desk_t, idle⟩ := h.ends_of_done at_t rfl
    have follows := (desking_of_pushes (djbPushCallback_pushes env shcl request)).discard
    exact ⟨_, .begins rfl desk_t idle rfl, h.set at_t (follows.mono fun _ _ same => same ▸ rfl)⟩
  | shutdown => exact ⟨desks, .shutdown rfl, h⟩
  | @exit t _ open_ at_t stopped =>
    obtain ⟨old, desk_t, idle⟩ := h.ends_of_done at_t rfl
    have follows := acsExit_desking.discard
    exact ⟨_, .begins rfl desk_t idle rfl, h.set at_t (follows.mono fun _ _ same => same ▸ rfl)⟩

theorem staffed_init (threads : ℕ) : Staffed (List.replicate threads .free) (init threads) :=
  Pool.Shadowed.idle threads rfl

end Jumpbox.Acs
