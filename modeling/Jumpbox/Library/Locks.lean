import Jumpbox.Library.Prog
import Jumpbox.Library.Table
import Mathlib.Data.List.Count
import Mathlib.Data.Set.Finite.Lemmas
import Mathlib.Logic.Function.Basic

/-! Threads that take and release mutexes, each one step.
A mutex is not recursive, and whoever wants one that is held waits. Between these steps
a program does other things, whose results are up to the environment. A thread's role is
the list of mutexes it holds; a program that takes them in the order of a rank can hold
up no other for ever. -/

namespace Locks

variable {μ ω ι : Type} {ρ : ω → Type}

inductive Act (μ ω : Type)
  | lock (m : μ)
  | unlock (m : μ)
  | act (o : ω)

def Act.Result (ρ : ω → Type) : Act μ ω → Type
  | .act o => ρ o
  | .lock _ | .unlock _ => Unit

abbrev LockM (μ : Type) {ω : Type} (ρ : ω → Type) := Prog (Act μ ω) (Act.Result ρ)

def lock (m : μ) : LockM μ ρ Unit := .op (.lock m) .done
def unlock (m : μ) : LockM μ ρ Unit := .op (.unlock m) .done
def act (o : ω) : LockM μ ρ (ρ o) := .op (.act o) .done

def erase {α : Type} : LockM μ ρ α → Prog ω ρ α
  | .done a => .done a
  | .op (.lock _) next => erase (next ())
  | .op (.unlock _) next => erase (next ())
  | .op (.act o) next => .op o fun x => erase (next x)

theorem erase_bind {α β : Type} (p : LockM μ ρ α) (f : α → LockM μ ρ β) :
    erase (p.bind f) = (erase p).bind fun a => erase (f a) := by
  induction p with
  | done a => rfl
  | op o next ih =>
    cases o with
    | lock m => exact ih ()
    | unlock m => exact ih ()
    | act o => exact congrArg (Prog.op o) (funext ih)

theorem erase_interp {α : Type} {h : ∀ o, LockM μ ρ (ρ o)}
    (same : ∀ o, erase (h o) = Prog.perform o) (p : Prog ω ρ α) : erase (p.interp h) = p := by
  induction p with
  | done a => rfl
  | op o next ih =>
    have rest : (fun x => erase ((next x).interp h)) = next := funext ih
    rw [Prog.interp, erase_bind, same, rest]
    rfl

section Ordered

variable [DecidableEq μ] [LinearOrder ι] (rank : μ → ι)

/-- A mutex is taken only above those that are held, and only a held one is released. -/
def ordered (ρ : ω → Type) : Discipline (Act μ ω) (Act.Result ρ) (List μ) where
  may
    | held, .lock m => ∀ k ∈ held, rank k < rank m
    | held, .unlock m => m ∈ held
    | _, .act _ => True
  after
    | held, .lock m, _ => m :: held
    | held, .unlock m, _ => held.erase m
    | held, .act _, _ => held

abbrev State (μ : Type) {ω : Type} (ρ : ω → Type) :=
  Pool (μ → Option ℕ) (Act μ ω) (Act.Result ρ) (List μ)

def exec (t : ℕ) (a : Act μ ω) (c : (o : ω) → ρ o) (holder : μ → Option ℕ) :
    Option ((μ → Option ℕ) × a.Result ρ) :=
  match a with
  | .lock m => if holder m = none then some (Function.update holder m (some t), ()) else none
  | .unlock m => some (Function.update holder m none, ())
  | .act o => some (holder, c o)

def Wants (s : State μ ρ) (t : ℕ) (m : μ) : Prop :=
  ∃ th, s.threads[t]? = some th ∧ th.prog.head = some (.lock m)

/-- Each thread of `T` waits for a mutex that one of them holds. -/
def Deadlocked (s : State μ ρ) (T : Set ℕ) : Prop :=
  T.Nonempty ∧ ∀ t ∈ T, ∃ m u, Wants s t m ∧ s.shared m = some u ∧ u ∈ T

structure Agrees (s : State μ ρ) : Prop where
  obeys : s.Obeys (ordered rank ρ) (· = [])
  nodup : ∀ th ∈ s.threads, th.role.Nodup
  holds : ∀ t m, s.shared m = some t ↔ ∃ th, s.threads[t]? = some th ∧ m ∈ th.role

variable {rank} {s s' : State μ ρ} {t : ℕ}

section Follows

variable {α : Type} {held : List μ} {post : α → List μ → Prop}

theorem follows_lock {m : μ} {rest : LockM μ ρ α} (above : ∀ k ∈ held, rank k < rank m)
    (follows : (ordered rank ρ).Follows (m :: held) rest post) :
    (ordered rank ρ).Follows held (do lock m; rest) post := ⟨above, fun _ => follows⟩

theorem follows_unlock {m : μ} {rest : LockM μ ρ α} (own : m ∈ held)
    (follows : (ordered rank ρ).Follows (held.erase m) rest post) :
    (ordered rank ρ).Follows held (do unlock m; rest) post := ⟨own, fun _ => follows⟩

theorem follows_act {o : ω} {rest : ρ o → LockM μ ρ α}
    (follows : ∀ x, (ordered rank ρ).Follows held (rest x) post) :
    (ordered rank ρ).Follows held (act o >>= rest) post := ⟨trivial, follows⟩

end Follows

theorem Agrees.own (h : Agrees rank s) {th : Thread (Act μ ω) (Act.Result ρ) (List μ)}
    (at_t : s.threads[t]? = some th) (m : μ) : s.shared m = some t ↔ m ∈ th.role := by
  rw [h.holds, at_t]
  simp

theorem Agrees.holds_set (h : Agrees rank s) {th th' : Thread (Act μ ω) (Act.Result ρ) (List μ)}
    (at_t : s.threads[t]? = some th) {holder : μ → Option ℕ}
    (own : ∀ m, holder m = some t ↔ m ∈ th'.role)
    (others : ∀ u m, t ≠ u → (holder m = some u ↔ s.shared m = some u)) (u : ℕ) (m : μ) :
    holder m = some u ↔ ∃ th, (s.threads.set t th')[u]? = some th ∧ m ∈ th.role := by
  rw [Table.getElem?_set_of_some at_t]
  by_cases same : t = u
  · subst same
    simp [own m]
  · rw [if_neg same, others u m same]
    exact h.holds u m

theorem Agrees.run {c : (o : ω) → ρ o} (h : Agrees rank s)
    (moved : s.run (ordered rank ρ) exec t c = some s') : Agrees rank s' := by
  obtain ⟨obeys, role, o, next, shared, x, at_t, may, performed, rfl⟩ :=
    Pool.run_cases h.obeys moved
  have before : role.Nodup := h.nodup _ (List.mem_of_getElem? at_t)
  cases o with
  | act o =>
    cases performed
    have same := h.own at_t
    exact ⟨obeys, Table.forall_set h.nodup before, h.holds_set at_t same fun u m _ => Iff.rfl⟩
  | lock m =>
    by_cases free : s.shared m = none
    · rw [exec, if_pos free] at performed
      cases performed
      have fresh : m ∉ role := fun member => by
        rw [(h.own at_t m).mpr member] at free
        cases free
      refine ⟨obeys, Table.forall_set h.nodup (before.cons fresh), h.holds_set at_t ?_ ?_⟩
      · intro k
        by_cases same : k = m
        · subst same
          simp [ordered]
        · simp [ordered, same, h.own at_t k]
      · intro u k other
        by_cases same : k = m
        · subst same
          simp [free, other]
        · simp [same]
    · rw [exec, if_neg free] at performed
      cases performed
  | unlock m =>
    cases performed
    have held : s.shared m = some t := (h.own at_t m).mpr may
    refine ⟨obeys, Table.forall_set h.nodup (before.erase m), h.holds_set at_t ?_ ?_⟩
    · intro k
      by_cases same : k = m
      · subst same
        simp [ordered, before.mem_erase_iff]
      · simp [ordered, same, before.mem_erase_iff, h.own at_t k]
    · intro u k other
      by_cases same : k = m
      · subst same
        simp [held, other]
      · simp [same]

theorem Agrees.start {prog : LockM μ ρ Unit} (h : Agrees rank s)
    (follows : (ordered rank ρ).Follows [] prog fun _ held => held = [])
    (moved : s.start t [] prog = some s') : Agrees rank s' := by
  obtain ⟨old, at_t, rfl⟩ := Pool.start_cases moved
  obtain rfl : old = [] := h.obeys.final_of_done (List.mem_of_getElem? at_t) rfl
  have same := h.own at_t
  exact ⟨Pool.obeys_set h.obeys follows, Table.forall_set h.nodup List.nodup_nil,
    h.holds_set at_t same fun u m _ => Iff.rfl⟩

theorem Agrees.idle (n : ℕ) :
    Agrees rank (⟨fun _ => none, List.replicate n ⟨[], .done ()⟩⟩ : State μ ρ) where
  obeys th member := by
    obtain rfl := List.eq_of_mem_replicate member
    exact rfl
  nodup th member := by
    obtain rfl := List.eq_of_mem_replicate member
    exact List.nodup_nil
  holds t m := by
    refine ⟨nofun, fun ⟨th, at_t, member⟩ => ?_⟩
    obtain rfl := List.eq_of_mem_replicate (List.mem_of_getElem? at_t)
    cases member

theorem Agrees.rank_lt (h : Agrees rank s) {m k : μ} (wants : Wants s t m)
    (held : s.shared k = some t) : rank k < rank m := by
  obtain ⟨⟨role, prog⟩, at_t, head⟩ := wants
  have follows := h.obeys _ (List.mem_of_getElem? at_t)
  cases prog with
  | done => cases head
  | op o next =>
    cases head
    exact follows.1 k ((h.own at_t k).mp held)

theorem Agrees.not_wants_own (h : Agrees rank s) {m : μ} (wants : Wants s t m) :
    s.shared m ≠ some t := fun held => lt_irrefl _ (h.rank_lt wants held)

theorem Agrees.not_deadlocked (h : Agrees rank s) (T : Set ℕ) : ¬ Deadlocked s T := by
  rintro ⟨some, waits⟩
  have : Nonempty μ := some.elim fun t member => (waits t member).elim fun m _ => ⟨m⟩
  choose! wanted holder wants held inside using waits
  have finite : T.Finite := by
    refine (Set.finite_lt_nat s.threads.length).subset fun t member => ?_
    obtain ⟨th, at_t, -⟩ := wants t member
    exact (List.getElem?_eq_some_iff.mp at_t).1
  obtain ⟨t, member, highest⟩ :=
    Set.exists_max_image T (fun t => rank (wanted t)) finite some
  have above := h.rank_lt (wants _ (inside t member)) (held t member)
  exact absurd (highest _ (inside t member)) (not_le.mpr above)

/-! Along a path of a program that keeps to the order. -/

def acquired (m : μ) (ops : List ((a : Act μ ω) × a.Result ρ)) : ℕ :=
  ops.countP fun e => match e.1 with
    | .lock k => k = m
    | _ => false

def released (m : μ) (ops : List ((a : Act μ ω) × a.Result ρ)) : ℕ :=
  ops.countP fun e => match e.1 with
    | .unlock k => k = m
    | _ => false

def Balanced (m : μ) (n : ℕ) (ops : List ((a : Act μ ω) × a.Result ρ)) : Prop :=
  (∀ pre, pre <+: ops → released m pre ≤ n + acquired m pre ∧
    n + acquired m pre ≤ released m pre + 1) ∧ n + acquired m ops = released m ops

theorem acquired_cons (m : μ) (e : (a : Act μ ω) × a.Result ρ) (ops) :
    acquired m (e :: ops) = acquired m [e] + acquired m ops :=
  (List.countP_append : List.countP _ ([e] ++ ops) = _)

theorem released_cons (m : μ) (e : (a : Act μ ω) × a.Result ρ) (ops) :
    released m (e :: ops) = released m [e] + released m ops :=
  (List.countP_append : List.countP _ ([e] ++ ops) = _)

theorem Balanced.cons {m : μ} {n n' : ℕ} {e : (a : Act μ ω) × a.Result ρ}
    {ops : List ((a : Act μ ω) × a.Result ρ)} (rest : Balanced m n' ops) (once : n ≤ 1)
    (step : n + acquired m [e] = released m [e] + n') : Balanced m n (e :: ops) := by
  refine ⟨fun pre prefixed => ?_, ?_⟩
  · rcases List.prefix_cons_iff.mp prefixed with rfl | ⟨tail, rfl, shorter⟩
    · simp [released, acquired, once]
    · rw [acquired_cons, released_cons]
      have := rest.1 tail shorter
      omega
  · rw [acquired_cons, released_cons]
    have := rest.2
    omega

theorem count_after {held : List μ} {a : Act μ ω} (may : (ordered rank ρ).may held a)
    (x : a.Result ρ) (m : μ) : held.count m + acquired m [⟨a, x⟩] =
      released m [⟨a, x⟩] + ((ordered rank ρ).after held a x).count m := by
  cases a with
  | act o => simp [ordered, acquired, released]
  | lock k => by_cases same : k = m <;> simp [ordered, acquired, released, same]
  | unlock k =>
    by_cases same : k = m
    · subst same
      have := List.count_pos_iff.mpr may
      simp [ordered, acquired, released]
      omega
    · simp [ordered, acquired, released, same, List.count_erase_of_ne (Ne.symm same)]

theorem nodup_after {held : List μ} {a : Act μ ω} (may : (ordered rank ρ).may held a)
    (x : a.Result ρ) (nodup : held.Nodup) : ((ordered rank ρ).after held a x).Nodup := by
  cases a with
  | act o => exact nodup
  | lock m => exact nodup.cons fun member => lt_irrefl _ (may m member)
  | unlock m => exact nodup.erase m

theorem balanced_of_follows {α : Type} {p : LockM μ ρ α} {held : List μ}
    (follows : (ordered rank ρ).Follows held p fun _ held => held = []) (nodup : held.Nodup)
    (reply : ℕ → (a : Act μ ω) → a.Result ρ) (start : ℕ) (m : μ) :
    Balanced m (held.count m) (p.trace reply start).1 := by
  induction p generalizing held start with
  | done a =>
    obtain rfl : held = [] := follows
    refine ⟨fun pre prefixed => ?_, rfl⟩
    obtain rfl := List.prefix_nil.mp prefixed
    simp [released, acquired]
  | op o next ih =>
    have rest := ih _ (follows.2 (reply start o)) (nodup_after follows.1 _ nodup) (start + 1)
    exact rest.cons (List.nodup_iff_count_le_one.mp nodup m) (count_after follows.1 _ m)

end Ordered

end Locks
