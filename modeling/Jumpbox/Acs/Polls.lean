import Jumpbox.Acs.Finish
import Jumpbox.Acs.Stages

/-! The messages that the polls return. Each poll pops an entry of the queue in its last
hold of `l_status_mutex`, or finds the queue empty still after its wait and takes the
current status; in that hold it is watched here. -/

namespace Jumpbox.Acs

open Prog
open Discipline (Follows)

structure Poll where
  thread : ℕ
  client : HttpsrvClient
  entry : AcsMsg
  queued : Bool
  recorded : List AcsMsg
  returned : List AcsMsg

def returned (polls : List Poll) : List AcsMsg := (polls.filter Poll.queued).map Poll.entry

def AcsMsg.result (m : AcsMsg) : List Out := [.result (statusName m.status) m.message, .done]

def Op.unpolled : Op → Prop
  | .listPop | .condWait => False
  | _ => True

inductive Polling
  | no
  | asked (client : HttpsrvClient)
  | got (client : HttpsrvClient) (m : AcsMsg)

def Event.polls : Event → Option (ℕ × Polling)
  | .progress t hcl => some (t, .asked hcl)
  | .setup t _ | .peel t _ | .answer t _ _ | .exit t => some (t, .no)
  | .run _ _ | .shutdown => none

def polling : Discipline Op Op.Result Polling where
  may
    | .no, o => o.unpolled
    | .asked _, .answer _ _ => False
    | .asked _, _ => True
    | .got client m, .answer hcl outs => hcl = client ∧ outs = m.result
    | .got _ _, _ => False
  after
    | .asked client, .listPop, some m => .got client m
    | .asked client, .condWait, m => .got client m
    | .got _ _, .answer _ _, _ => .no
    | role, _, _ => role

structure Told where
  thread : ℕ
  client : HttpsrvClient
  entry : AcsMsg
  outs : List Out

structure Watched where
  acs : State
  polls : List Poll := []
  role : ℕ → Polling := fun _ => .no
  told : List Told := []

namespace Watched

def poll (w : Watched) (t : ℕ) (client : HttpsrvClient) (m : AcsMsg) (queued : Bool) : Poll :=
  ⟨t, client, m, queued, w.acs.shared.recorded, returned w.polls⟩

def polled (w : Watched) (t : ℕ) (o : Op) (x : o.Result) : List Poll :=
  match w.role t, o, x with
  | .asked client, .listPop, some m => [w.poll t client m true]
  | .asked client, .condWait, m => [w.poll t client m (!w.acs.shared.lMessages.isEmpty)]
  | _, _, _ => []

def tells (w : Watched) (t : ℕ) (o : Op) : List Told :=
  match w.role t, o with
  | .got _ m, .answer hcl outs => [⟨t, hcl, m, outs⟩]
  | _, _ => []

def observe (w : Watched) (t : ℕ) (o : Op) (x : o.Result) (acs : State) : Watched where
  acs
  polls := w.polls ++ w.polled t o x
  role := Function.update w.role t (polling.after (w.role t) o x)
  told := w.told ++ w.tells t o

def observed (env : Env) (w : Watched) (acs : State) : Event → Watched
  | .run t c =>
    match w.acs.threads[t]? with
    | some ⟨_, .op o _⟩ =>
      match exec env t o c w.acs.shared with
      | some (_, x) => w.observe t o x acs
      | none => { w with acs }
    | _ => { w with acs }
  | e =>
    match e.polls with
    | some (t, role) => { w with acs, role := Function.update w.role t role }
    | none => { w with acs }

def gotBy (w : Watched) (t : ℕ) : List (HttpsrvClient × AcsMsg) :=
  (w.polls.filter fun p => p.thread = t).map fun p => (p.client, p.entry)

def toldBy (w : Watched) (t : ℕ) : List (HttpsrvClient × AcsMsg) :=
  (w.told.filter fun e => e.thread = t).map fun e => (e.client, e.entry)

def inHand (w : Watched) (t : ℕ) : List (HttpsrvClient × AcsMsg) :=
  match w.role t with
  | .got client m => [(client, m)]
  | _ => []

def step (env : Env) (w : Watched) (e : Event) : Option Watched :=
  (Acs.step env w.acs e).map fun acs => w.observed env acs e

def machine (env : Env) : Machine Watched Event := ⟨step env⟩

def start (threads : ℕ) : Watched := { acs := init threads }

def Allocates (w : Watched) : Event → Prop
  | .run t c => ∀ th ∈ w.acs.threads[t]?, ∀ o ∈ th.prog.head, o.records = true → c.ok = true
  | _ => True

instance (w : Watched) : ∀ e, Decidable (Allocates w e)
  | .run t c => inferInstanceAs (Decidable (∀ th ∈ w.acs.threads[t]?, ∀ o ∈ th.prog.head,
      o.records = true → c.ok = true))
  | .progress _ _ | .setup _ _ | .peel _ _ | .answer _ _ _ | .shutdown | .exit _ => isTrue trivial

end Watched

/-! What the functions do with the queue. -/

theorem Op.unpolled_of_pushes (o : Op) (h : o.pushes) : o.unpolled := by
  cases o <;> trivial

theorem polling_of_unpolled {α : Type} {p : AcsM α} (h : p.Only Op.unpolled) :
    polling.Follows .no p fun _ role => role = .no :=
  .of_only (h.mono fun _ unpolled => ⟨unpolled, fun _ => rfl⟩)

theorem polling_of_staged {α : Type} {p : AcsM α} (h : Staged p) (hcl : HttpsrvClient) :
    polling.Follows (.asked hcl) p fun _ role => role = .asked hcl := by
  refine .of_only (h.mono fun o staged => ⟨?_, fun x => ?_⟩)
  · cases o <;> trivial
  · cases o with
    | listPop | condWait => exact absurd staged id
    | _ => rfl

theorem acsReport_polling (hcl : HttpsrvClient) :
    polling.Follows (.asked hcl) (acsReport hcl) fun _ role => role = .no := by
  unfold acsReport
  refine .bind (.perform trivial fun m => ?_)
  cases m with
  | some m => exact .bind (.perform ⟨rfl, rfl⟩ fun _ => .pure rfl)
  | none =>
    refine .bind (.perform trivial fun m => ?_)
    exact .bind (.perform ⟨rfl, rfl⟩ fun _ => .pure rfl)

theorem acsProgress_polling (env : Env) (hcl : HttpsrvClient) :
    polling.Follows (.asked hcl) (acsProgress env hcl) fun _ role => role = .no := by
  unfold acsProgress
  refine .bind (.perform trivial fun decision => ?_)
  refine .bind ((polling_of_staged (acsDecided_staged env decision) hcl).mono fun _ role same => ?_)
  subst same
  exact acsReport_polling hcl

theorem Op.unpolled_of_setsUp (o : Op) (h : o.setsUp) : o.unpolled := by
  cases o <;> trivial

theorem polling_of_setsUp {α : Type} {p : AcsM α} (h : p.Only Op.setsUp) :
    polling.Follows .no p fun _ role => role = .no :=
  polling_of_unpolled (h.mono Op.unpolled_of_setsUp)

/-! What an operation does to the queue. -/

structure Streams (polls : List Poll) (s : Shared) : Prop where
  books : s.exited = false → s.recorded = returned polls ++ s.lMessages
  front : returned polls <+: s.recorded
  current : s.recorded.getLast? = some ⟨s.lStatus, s.lMessage⟩
  empty : ∀ p ∈ polls, p.queued = false →
    p.returned = p.recorded ∧ p.recorded.getLast? = some p.entry

theorem Streams.same {polls : List Poll} {s s' : Shared} (h : Streams polls s)
    (same : SameQueue s s') : Streams polls s' where
  books serving := by
    rw [same.recorded, same.messages]
    exact h.books (same.exited.symm.trans serving)
  front := same.recorded ▸ h.front
  current := by
    rw [same.recorded, same.status, same.message]
    exact h.current
  empty := h.empty

theorem Streams.record {polls : List Poll} {s : Shared} (h : Streams polls s) (t : ℕ) (m : AcsMsg) :
    Streams polls (s.acsStatus t m true) := by
  have recorded : (s.acsStatus t m true).recorded = s.recorded ++ [m] := by
    simp [Shared.recorded, Shared.acsStatus]
  refine ⟨fun serving => ?_, ?_, ?_, h.empty⟩
  · rw [recorded, h.books serving, List.append_assoc]
    rfl
  · rw [recorded]
    exact h.front.trans (List.prefix_append _ _)
  · rw [recorded, List.getLast?_concat]
    rfl

theorem returned_append (polls new : List Poll) :
    returned (polls ++ new) = returned polls ++ returned new := by
  simp [returned]

theorem Streams.pop {w : Watched} {s : Shared} (h : Streams w.polls s) (serving : s.exited = false)
    {m : AcsMsg} {rest : List AcsMsg} (queue : s.lMessages = m :: rest) (t : ℕ)
    (client : HttpsrvClient) :
    Streams (w.polls ++ [w.poll t client m true]) { s with lMessages := rest } := by
  have books := h.books serving
  have new : returned (w.polls ++ [w.poll t client m true]) = returned w.polls ++ [m] := by
    rw [returned_append]
    rfl
  rw [queue] at books
  have moved : s.recorded = (returned w.polls ++ [m]) ++ rest := by
    rw [books, List.append_assoc]
    rfl
  refine ⟨fun _ => new ▸ moved, ?_, h.current, ?_⟩
  · rw [new]
    exact ⟨rest, moved.symm⟩
  · intro p member waited
    rcases List.mem_append.mp member with old | last
    · exact h.empty p old waited
    · rw [List.mem_singleton.mp last] at waited
      cases waited

theorem Streams.wait {w : Watched} (h : Streams w.polls w.acs.shared)
    (serving : w.acs.shared.exited = false) (queue : w.acs.shared.lMessages = []) (t : ℕ)
    (client : HttpsrvClient) :
    Streams (w.polls ++ [w.poll t client ⟨w.acs.shared.lStatus, w.acs.shared.lMessage⟩ false])
      w.acs.shared := by
  have same (m : AcsMsg) : returned (w.polls ++ [w.poll t client m false]) = returned w.polls := by
    rw [returned_append]
    exact List.append_nil _
  refine ⟨fun serving => ?_, ?_, h.current, ?_⟩
  · rw [same]
    exact h.books serving
  · rw [same]
    exact h.front
  · intro p member waited
    rcases List.mem_append.mp member with old | last
    · exact h.empty p old waited
    · rw [List.mem_singleton.mp last]
      have books := h.books serving
      rw [queue, List.append_nil] at books
      exact ⟨books.symm, h.current⟩

theorem polled_of_unpolled {w : Watched} {t : ℕ} {o : Op} (x : o.Result) (h : o.unpolled) :
    w.polled t o x = [] := by
  unfold Watched.polled
  cases w.role t <;> cases o <;> first | rfl | exact absurd h id

theorem asked_of_polls {role : Polling} {o : Op} (may : polling.may role o)
    (polls : ¬o.unpolled) : ∃ client, role = .asked client := by
  cases role with
  | no => exact absurd may polls
  | asked client => exact ⟨client, rfl⟩
  | got client m =>
    cases o with
    | listPop | condWait => exact False.elim may
    | _ => exact absurd trivial polls

theorem Streams.exec {env : Env} {w : Watched} {t : ℕ} {c : Choice} {s' : Shared} {o : Op}
    {x : o.Result} (h : Streams w.polls w.acs.shared)
    (allocates : o.records = true → c.ok = true) (may : polling.may (w.role t) o)
    (serving : ¬o.unpolled → w.acs.shared.exited = false)
    (leaving : o = .listDestroy → w.acs.shared.exited = true)
    (performed : Acs.exec env t o c w.acs.shared = some (s', x)) :
    Streams (w.polls ++ w.polled t o x) s' ∧ s'.exited = w.acs.shared.exited := by
  cases o with
  | status st text borrowed =>
    have memory := allocates rfl
    obtain rfl : _ = s' := congrArg Prod.fst (Option.some.inj performed)
    have touched : Streams w.polls (w.acs.shared.touch borrowed) :=
      h.same ⟨rfl, rfl, rfl, rfl, rfl⟩
    rw [memory, polled_of_unpolled x trivial, List.append_nil]
    exact ⟨touched.record t (Shared.acsMsg st text), rfl⟩
  | listPop =>
    have serving := serving id
    obtain ⟨client, asked⟩ := asked_of_polls may id
    unfold Acs.exec at performed
    dsimp only at performed
    split at performed
    next queue =>
      cases performed
      simp only [Watched.polled, asked, List.append_nil]
      exact ⟨h, trivial⟩
    next m rest queue =>
      cases performed
      simp only [Watched.polled, asked]
      exact ⟨h.pop serving queue t client, trivial⟩
  | condWait =>
    have serving := serving id
    obtain ⟨client, asked⟩ := asked_of_polls may id
    unfold Acs.exec at performed
    dsimp only at performed
    split at performed
    next queue =>
      cases performed
      simp only [Watched.polled, asked, queue]
      exact ⟨h.wait serving queue t client, trivial⟩
    next m rest queue =>
      cases performed
      simp only [Watched.polled, asked, queue]
      exact ⟨h.pop serving queue t client, trivial⟩
  | listDestroy =>
    cases performed
    rw [polled_of_unpolled (o := .listDestroy) () trivial, List.append_nil]
    refine ⟨⟨fun serving => ?_, h.front, h.current, h.empty⟩, rfl⟩
    exact absurd ((leaving rfl).symm.trans serving) nofun
  | _ =>
    have same := (same_of_exec performed).queue id
    rw [polled_of_unpolled x trivial, List.append_nil]
    exact ⟨h.same same, same.exited⟩

def Watched.Tells (w : Watched) : Prop := ∀ t, w.gotBy t = w.toldBy t ++ w.inHand t

theorem filter_thread {α : Type} {thread : α → ℕ} {t : ℕ} {xs : List α}
    (own : ∀ x ∈ xs, thread x = t) (i : ℕ) :
    xs.filter (fun x => thread x = i) = if t = i then xs else [] := by
  split
  next same => exact List.filter_eq_self.mpr fun x member => by simp [own x member, same]
  next other => exact List.filter_eq_nil_iff.mpr fun x member => by simp [own x member, other]

theorem gotBy_observe (w : Watched) (t i : ℕ) (o : Op) (x : o.Result) (acs : State) :
    (w.observe t o x acs).gotBy i = w.gotBy i ++
      (if t = i then w.polled t o x else []).map fun p => (p.client, p.entry) := by
  have own : ∀ p ∈ w.polled t o x, p.thread = t := by
    intro p member
    unfold Watched.polled at member
    split at member
    · rw [List.mem_singleton.mp member]
      rfl
    · rw [List.mem_singleton.mp member]
      rfl
    · cases member
  simp only [Watched.gotBy, Watched.observe, List.filter_append, List.map_append,
    filter_thread own]

theorem toldBy_observe (w : Watched) (t i : ℕ) (o : Op) (x : o.Result) (acs : State) :
    (w.observe t o x acs).toldBy i = w.toldBy i ++
      (if t = i then w.tells t o else []).map fun e => (e.client, e.entry) := by
  have own : ∀ e ∈ w.tells t o, e.thread = t := by
    intro e member
    unfold Watched.tells at member
    split at member
    · rw [List.mem_singleton.mp member]
    · cases member
  simp only [Watched.toldBy, Watched.observe, List.filter_append, List.map_append,
    filter_thread own]

theorem Watched.Tells.observe {w : Watched} (h : w.Tells) {t : ℕ} {o : Op} {x : o.Result}
    (may : polling.may (w.role t) o) (acs : State) : (w.observe t o x acs).Tells := by
  intro i
  have before := h i
  rw [gotBy_observe, toldBy_observe]
  by_cases same : t = i
  · subst same
    rw [if_pos rfl, if_pos rfl, before, List.append_assoc, List.append_assoc]
    congr 1
    have role : (w.observe t o x acs).role t = polling.after (w.role t) o x :=
      Function.update_self ..
    unfold Watched.inHand Watched.polled Watched.tells
    rw [role]
    revert may
    cases w.role t with
    | no => exact fun _ => rfl
    | asked client =>
      cases o with
      | listPop => cases x <;> exact fun _ => rfl
      | _ => exact fun _ => rfl
    | got client m =>
      cases o with
      | answer hcl outs =>
        rintro ⟨rfl, rfl⟩
        rfl
      | _ => exact False.elim
  · have role : (w.observe t o x acs).role i = w.role i :=
      Function.update_of_ne (Ne.symm same) ..
    rw [if_neg same, if_neg same, List.map_nil, List.map_nil, List.append_nil, List.append_nil,
      before, Watched.inHand, Watched.inHand, role]

structure Streamed (w : Watched) : Prop where
  orderly : Orderly w.acs
  streams : Streams w.polls w.acs.shared
  follows : ∀ t th, w.acs.threads[t]? = some th →
    polling.Follows (w.role t) th.prog fun _ role => role = .no
  silent : w.acs.shared.exited = true → ∀ th ∈ w.acs.threads, th.prog.Only Op.unpolled
  told : ∀ e ∈ w.told, e.outs = e.entry.result
  tells : w.Tells

theorem told_observe {w : Watched} (h : ∀ e ∈ w.told, e.outs = e.entry.result) {t : ℕ} {o : Op}
    (may : polling.may (w.role t) o) (x : o.Result) (acs : State) :
    ∀ e ∈ (w.observe t o x acs).told, e.outs = e.entry.result := by
  refine List.forall_mem_append.mpr ⟨h, fun e new => ?_⟩
  unfold Watched.tells at new
  split at new
  next asked =>
    rw [asked] at may
    rw [List.mem_singleton.mp new]
    exact may.2
  next => cases new

theorem Streamed.act {env : Env} {w : Watched} {t : ℕ} {c : Choice} {role role' : Role} {o : Op}
    {next : o.Result → AcsM Unit} {shared : Shared} {x : o.Result} (h : Streamed w)
    (allocates : o.records = true → c.ok = true)
    (at_t : w.acs.threads[t]? = some ⟨role, .op o next⟩)
    (performed : exec env t o c w.acs.shared = some (shared, x))
    (orderly : Orderly ⟨shared, w.acs.threads.set t ⟨role', next x⟩⟩) :
    Streamed (w.observe t o x ⟨shared, w.acs.threads.set t ⟨role', next x⟩⟩) := by
  have member := List.mem_of_getElem? at_t
  have follows := h.follows t _ at_t
  have serving : ¬o.unpolled → w.acs.shared.exited = false := fun polls => by
    by_contra exited
    exact polls (h.silent (by simpa using exited) _ member).1
  have leaving : o = .listDestroy → w.acs.shared.exited = true := fun destroys => by
    have may := (h.orderly.obeys _ member).1
    rw [← h.orderly.exits_of_acting at_t]
    subst destroys
    cases role <;> first | rfl | exact False.elim may
  obtain ⟨streams, exited⟩ := h.streams.exec allocates follows.1 serving leaving performed
  refine ⟨orderly, streams, fun i th at_i => ?_, fun gone => ?_, told_observe h.told follows.1 x _,
    h.tells.observe follows.1 _⟩
  · change (w.acs.threads.set t _)[i]? = some th at at_i
    rw [Table.getElem?_set_of_some at_t] at at_i
    change polling.Follows (Function.update w.role t _ i) _ _
    split at at_i
    next same =>
      subst same
      obtain rfl := Option.some.inj at_i
      rw [Function.update_self]
      exact follows.2 x
    next other =>
      rw [Function.update_of_ne (Ne.symm other)]
      exact h.follows i th at_i
  · have silent := h.silent (exited.symm.trans gone)
    exact Table.forall_set silent ((silent _ member).2 x)

theorem Streamed.begin {w : Watched} {t : ℕ} {old role : Role} {prog : AcsM Unit}
    {shared : Shared} {polling' : Polling} (h : Streamed w) (streams : Streams w.polls shared)
    (at_t : w.acs.threads[t]? = some ⟨old, .done ()⟩)
    (orderly : Orderly ⟨shared, w.acs.threads.set t ⟨role, prog⟩⟩)
    (follows : polling.Follows polling' prog fun _ role => role = .no)
    (empty : ∀ client m, polling' ≠ .got client m)
    (silent : shared.exited = true →
      prog.Only Op.unpolled ∧ ∀ th ∈ w.acs.threads, th.prog.Only Op.unpolled) :
    Streamed { w with
      acs := ⟨shared, w.acs.threads.set t ⟨role, prog⟩⟩
      role := Function.update w.role t polling' } := by
  have idle : w.role t = .no := h.follows t _ at_t
  refine ⟨orderly, streams, fun i th at_i => ?_, fun gone => ?_, h.told, fun i => ?_⟩
  · change (w.acs.threads.set t _)[i]? = some th at at_i
    rw [Table.getElem?_set_of_some at_t] at at_i
    change polling.Follows (Function.update w.role t _ i) _ _
    split at at_i
    next same =>
      subst same
      obtain rfl := Option.some.inj at_i
      rw [Function.update_self]
      exact follows
    next other =>
      rw [Function.update_of_ne (Ne.symm other)]
      exact h.follows i th at_i
  · exact Table.forall_set (silent gone).2 (silent gone).1
  · refine (h.tells i).trans (congrArg _ ?_)
    unfold Watched.inHand
    dsimp only
    by_cases same : i = t
    · subst same
      rw [idle, Function.update_self]
      cases polling' with
      | got client m => exact absurd rfl (empty client m)
      | _ => rfl
    · rw [Function.update_of_ne same]

theorem polls_follows {env : Env} {e : Event} {t : ℕ} {prog : AcsM Unit}
    (asked : e.request env = some (t, prog)) : ∃ role, e.polls = some (t, role) ∧
      (∀ client m, role ≠ .got client m) ∧
        polling.Follows role prog fun _ role => role = .no := by
  cases e with
  | progress t hcl =>
    cases asked
    exact ⟨_, rfl, nofun, (acsProgress_polling env hcl).discard⟩
  | setup t hcl =>
    cases asked
    exact ⟨_, rfl, nofun, (polling_of_setsUp (acsSetup_setsUp hcl)).discard⟩
  | peel t nep =>
    cases asked
    exact ⟨_, rfl, nofun, (polling_of_setsUp (rdvPeelBase_setsUp nep)).discard⟩
  | _ => cases asked

theorem streamed_step {env : Env} {w w' : Watched} {e : Event} (h : Streamed w)
    (guard : w.Allocates e) (watched : w.step env e = some w') : Streamed w' := by
  obtain ⟨acs, moved, rfl⟩ := Option.map_eq_some_iff.mp watched
  have orderly := (step_cases h.orderly moved).1
  cases step_moved moved with
  | @run t c _ o _ shared x at_t performed =>
    have seen (acs : State) : w.observed env acs (.run t c) = w.observe t o x acs := by
      simp only [Watched.observed, at_t, performed]
    rw [seen]
    exact h.act (guard _ at_t _ rfl) at_t performed orderly
  | @begin t _ _ prog asked serving at_t =>
    obtain ⟨role, polls, empty, follows⟩ := polls_follows asked
    have seen (acs : State) :
        w.observed env acs e = { w with acs, role := Function.update w.role t role } := by
      cases e with
      | run => cases asked
      | _ => simp only [Watched.observed, polls]
    rw [seen]
    refine h.begin h.streams at_t orderly follows empty fun gone => ?_
    exact absurd (serving.symm.trans gone) nofun
  | @answer _ i shcl _ request serving at_t =>
    have unpolled := (djbPushCallback_pushes env shcl request).mono Op.unpolled_of_pushes
    have same : SameQueue w.acs.shared
        { w.acs.shared with pending := w.acs.shared.pending.eraseIdx i } :=
      ⟨rfl, rfl, rfl, rfl, rfl⟩
    refine h.begin (h.streams.same same) at_t orderly (polling_of_unpolled unpolled).discard
      (fun _ _ => nofun) fun gone => ?_
    exact absurd (serving.symm.trans gone) nofun
  | shutdown =>
    exact ⟨orderly, h.streams.same ⟨rfl, rfl, rfl, rfl, rfl⟩, h.follows, h.silent, h.told, h.tells⟩
  | exit serving at_t stopped =>
    have streams := h.streams
    refine h.begin ⟨nofun, streams.front, streams.current, streams.empty⟩ at_t orderly
      (polling_of_setsUp acsExit_setsUp).discard (fun _ _ => nofun) fun _ =>
        ⟨?_, fun th member => ?_⟩
    · exact .bind (acsExit_setsUp.mono Op.unpolled_of_setsUp) fun _ => .pure
    · have ended := stopped th member
      cases prog : th.prog with
      | done => trivial
      | op o next =>
        rw [prog] at ended
        cases ended

theorem streamed_start (threads : ℕ) : Streamed (Watched.start threads) := by
  have idle : ∀ th ∈ (init threads).threads, th = ⟨.outside, .done ()⟩ := fun th member =>
    List.eq_of_mem_replicate member
  refine ⟨orderly_init threads, ⟨fun _ => rfl, ⟨_, rfl⟩, rfl, nofun⟩, fun t th at_t => ?_,
    nofun, nofun, fun _ => rfl⟩
  rw [idle th (List.mem_of_getElem? at_t)]
  exact rfl

def pollsRun : List Event :=
  [.progress 0 progressGet] ++ runs 0 4 ++ [.progress 0 progressGet] ++ runs 0 3 ++
    [.progress 0 progressGet] ++ runs 0 4

end Jumpbox.Acs
