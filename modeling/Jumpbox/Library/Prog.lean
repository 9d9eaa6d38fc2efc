import Mathlib.Data.Nat.Notation

/-! Threads that run programs of atomic operations over a shared state.
A program is a finite tree: an operation and what follows each of its results. A
thread also has a role, which no operation reads: the discipline says which
operations a role allows and which role comes after each. A program is checked
against it once; facts about the shared state are then proved from the roles. -/

inductive Prog (ω : Type) (ρ : ω → Type) (α : Type)
  | done (a : α)
  | op (o : ω) (next : ρ o → Prog ω ρ α)

namespace Prog

variable {ω : Type} {ρ : ω → Type} {α β : Type}

def bind : Prog ω ρ α → (α → Prog ω ρ β) → Prog ω ρ β
  | .done a, f => f a
  | .op o next, f => .op o fun x => (next x).bind f

instance : Monad (Prog ω ρ) where
  pure := .done
  bind := .bind

def perform (o : ω) : Prog ω ρ (ρ o) := .op o .done

theorem bind_assoc {γ : Type} (p : Prog ω ρ α) (f : α → Prog ω ρ β) (g : β → Prog ω ρ γ) :
    (p.bind f).bind g = p.bind fun a => (f a).bind g := by
  induction p with
  | done a => rfl
  | op o next ih => exact congrArg (Prog.op o) (funext ih)

def head : Prog ω ρ α → Option ω
  | .done _ => none
  | .op o _ => some o

def isDone : Prog ω ρ α → Bool
  | .done _ => true
  | .op _ _ => false

/-- The operations performed, each with its result, and the result of the whole, when the
`n`-th operation begun with `start` is answered by `reply n`. -/
def trace (reply : ℕ → (o : ω) → ρ o) (start : ℕ) : Prog ω ρ α → List ((o : ω) × ρ o) × α
  | .done a => ([], a)
  | .op o next =>
    let rest := trace reply (start + 1) (next (reply start o))
    (⟨o, reply start o⟩ :: rest.1, rest.2)

theorem trace_bind (reply : ℕ → (o : ω) → ρ o) (start : ℕ) (p : Prog ω ρ α)
    (f : α → Prog ω ρ β) : (p >>= f).trace reply start =
      let first := p.trace reply start
      let rest := (f first.2).trace reply (start + first.1.length)
      (first.1 ++ rest.1, rest.2) := by
  induction p generalizing start with
  | done a => rfl
  | op o next ih =>
    have rest := ih (reply start o) (start + 1)
    have later : start + 1 + ((next (reply start o)).trace reply (start + 1)).1.length =
        start + ((next (reply start o)).trace reply (start + 1)).1.length.succ := by omega
    simp only [Bind.bind, bind, trace] at rest ⊢
    rw [rest, List.length_cons, ← later]
    rfl

section Interp

variable {ω' : Type} {ρ' : ω' → Type} (h : ∀ o, Prog ω' ρ' (ρ o))

def interp : Prog ω ρ α → Prog ω' ρ' α
  | .done a => .done a
  | .op o next => (h o).bind fun x => interp (next x)

theorem interp_bind (p : Prog ω ρ α) (f : α → Prog ω ρ β) :
    (p.bind f).interp h = (p.interp h).bind fun a => (f a).interp h := by
  induction p with
  | done a => rfl
  | op o next ih =>
    have rest : (fun x => ((next x).bind f).interp h) =
        fun x => ((next x).interp h).bind fun a => (f a).interp h := funext ih
    rw [bind, interp, interp, rest, bind_assoc]

end Interp

def ops (reply : ℕ → (o : ω) → ρ o) (start : ℕ) (p : Prog ω ρ α) : List ω :=
  (p.trace reply start).1.map Sigma.fst

theorem mem_ops_bind {reply : ℕ → (o : ω) → ρ o} {start : ℕ} {p : Prog ω ρ α}
    {f : α → Prog ω ρ β} {o : ω} (later : ∀ a start, o ∈ (f a).ops reply start) :
    o ∈ (p >>= f).ops reply start := by
  rw [ops, trace_bind, List.map_append]
  exact List.mem_append_right _ (later _ _)

theorem mem_ops_bind_left {reply : ℕ → (o : ω) → ρ o} {start : ℕ} {p : Prog ω ρ α}
    {f : α → Prog ω ρ β} {o : ω} (first : o ∈ p.ops reply start) :
    o ∈ (p >>= f).ops reply start := by
  rw [ops, trace_bind, List.map_append]
  exact List.mem_append_left _ first

def Only (ok : ω → Prop) : Prog ω ρ α → Prop
  | .done _ => True
  | .op o next => ok o ∧ ∀ x, Only ok (next x)

variable {ok : ω → Prop}

theorem Only.pure {a : α} : Only ok (Pure.pure a : Prog ω ρ α) := trivial

theorem Only.perform {o : ω} (h : ok o) : Only ok (Prog.perform o : Prog ω ρ (ρ o)) :=
  ⟨h, fun _ => trivial⟩

theorem Only.bind {p : Prog ω ρ α} {f : α → Prog ω ρ β} (h : Only ok p)
    (rest : ∀ a, Only ok (f a)) : Only ok (p >>= f) := by
  induction p with
  | done a => exact rest a
  | op o next ih => exact ⟨h.1, fun x => ih x (h.2 x)⟩

theorem Only.mono {ok' : ω → Prop} {p : Prog ω ρ α} (h : Only ok p) (weaken : ∀ o, ok o → ok' o) :
    Only ok' p := by
  induction p with
  | done a => trivial
  | op o next ih => exact ⟨weaken o h.1, fun x => ih x (h.2 x)⟩

def Ends (post : α → Prop) : Prog ω ρ α → Prop
  | .done a => post a
  | .op _ next => ∀ x, Ends post (next x)

theorem Ends.bind {post : β → Prop} {p : Prog ω ρ α} {f : α → Prog ω ρ β}
    (rest : ∀ a, Ends post (f a)) : Ends post (p >>= f) := by
  induction p with
  | done a => exact rest a
  | op o next ih => exact ih

theorem Ends.trace {post : α → Prop} {p : Prog ω ρ α} (h : Ends post p)
    (reply : ℕ → (o : ω) → ρ o) (start : ℕ) : post (p.trace reply start).2 := by
  induction p generalizing start with
  | done a => exact h
  | op o next ih => exact ih _ (h _) (start + 1)

theorem Only.trace {p : Prog ω ρ α} (h : Only ok p) (reply : ℕ → (o : ω) → ρ o) (start : ℕ) :
    ∀ e ∈ (p.trace reply start).1, ok e.1 := by
  induction p generalizing start with
  | done a => exact fun _ member => absurd member List.not_mem_nil
  | op o next ih =>
    intro e member
    rcases List.mem_cons.mp member with rfl | later
    · exact h.1
    · exact ih _ (h.2 _) (start + 1) e later

section Runs

variable {σ κ : Type} {exec : ℕ → (o : ω) → κ → σ → Option (σ × ρ o)} {t : ℕ}

/-- Performed by thread `t` with nothing in between, and with the choices `cs`, the program
leads from `s` to `s'` and returns `a`. -/
inductive Runs (exec : ℕ → (o : ω) → κ → σ → Option (σ × ρ o)) (t : ℕ) :
    Prog ω ρ α → σ → List κ → σ → α → Prop
  | done (a : α) (s : σ) : Runs exec t (.done a) s [] s a
  | op {o : ω} {next : ρ o → Prog ω ρ α} {c : κ} {cs : List κ} {s s₁ s' : σ} {x : ρ o} {a : α}
      (performed : exec t o c s = some (s₁, x)) (rest : Runs exec t (next x) s₁ cs s' a) :
      Runs exec t (.op o next) s (c :: cs) s' a

theorem Runs.of_pure {a b : α} {s s' : σ} {cs : List κ}
    (runs : Runs exec t (Pure.pure a) s cs s' b) : s' = s ∧ b = a := by
  cases runs
  exact ⟨rfl, rfl⟩

theorem Runs.of_perform {o : ω} {f : ρ o → Prog ω ρ β} {s s' : σ} {cs : List κ} {b : β}
    (runs : Runs exec t (perform o >>= f) s cs s' b) : ∃ c rest s₁ x, cs = c :: rest ∧
      exec t o c s = some (s₁, x) ∧ Runs exec t (f x) s₁ rest s' b := by
  cases runs with
  | op performed rest => exact ⟨_, _, _, _, rfl, performed, rest⟩

theorem Runs.of_bind {p : Prog ω ρ α} {f : α → Prog ω ρ β} {s s' : σ} {cs : List κ} {b : β}
    (runs : Runs exec t (p >>= f) s cs s' b) : ∃ first rest s₁ a,
      cs = first ++ rest ∧ Runs exec t p s first s₁ a ∧ Runs exec t (f a) s₁ rest s' b := by
  induction p generalizing s cs with
  | done a => exact ⟨[], cs, s, a, rfl, .done a s, runs⟩
  | op o next ih =>
    cases runs with
    | op performed later =>
      obtain ⟨first, rest, s₁, a, rfl, begun, ended⟩ := ih _ later
      exact ⟨_ :: first, rest, s₁, a, rfl, .op performed begun, ended⟩

theorem Runs.ends {post : α → Prop} {p : Prog ω ρ α} {s s' : σ} {cs : List κ} {a : α}
    (runs : Runs exec t p s cs s' a) (ends : Ends post p) : post a := by
  induction runs with
  | done a s => exact ends
  | op _ _ ih => exact ih (ends _)

theorem Runs.keeps {p : Prog ω ρ α} {s s' : σ} {cs : List κ} {a : α} {view : σ → β}
    (runs : Runs exec t p s cs s' a) (only : Only ok p)
    (keep : ∀ o c s s' x, ok o → exec t o c s = some (s', x) → view s' = view s) :
    view s' = view s := by
  induction runs with
  | done a s => rfl
  | op performed _ ih => exact (ih (only.2 _)).trans (keep _ _ _ _ _ only.1 performed)

end Runs

end Prog

structure Discipline (ω : Type) (ρ : ω → Type) (φ : Type) where
  may : φ → ω → Prop
  after : φ → (o : ω) → ρ o → φ

namespace Discipline

variable {ω φ α β : Type} {ρ : ω → Type} (D : Discipline ω ρ φ)

/-- Begun in role `f`, the program does only what its role at the time allows, and
`post` holds of its result and of the role it ends in. -/
def Follows (f : φ) : Prog ω ρ α → (α → φ → Prop) → Prop
  | .done a, post => post a f
  | .op o next, post => D.may f o ∧ ∀ x, Follows (D.after f o x) (next x) post

variable {D} {f : φ} {p : Prog ω ρ α}

theorem Follows.pure {post : α → φ → Prop} {a : α} (holds : post a f) :
    D.Follows f (Pure.pure a : Prog ω ρ α) post := holds

theorem Follows.perform {o : ω} {post : ρ o → φ → Prop} (may : D.may f o)
    (holds : ∀ x, post x (D.after f o x)) : D.Follows f (Prog.perform o) post := ⟨may, holds⟩

theorem Follows.bind {g : α → Prog ω ρ β} {post : β → φ → Prop}
    (h : D.Follows f p fun a f' => D.Follows f' (g a) post) : D.Follows f (p >>= g) post := by
  induction p generalizing f with
  | done a => exact h
  | op o next ih => exact ⟨h.1, fun x => ih x (h.2 x)⟩

theorem Follows.mono {post post' : α → φ → Prop} (h : D.Follows f p post)
    (weaken : ∀ a f', post a f' → post' a f') : D.Follows f p post' := by
  induction p generalizing f with
  | done a => exact weaken a f h
  | op o next ih => exact ⟨h.1, fun x => ih x (h.2 x)⟩

theorem Follows.of_isDone {final : φ → Prop} (h : D.Follows f p fun _ f' => final f')
    (ended : p.isDone) : final f := by
  cases p with
  | done a => exact h
  | op o next => cases ended

theorem Follows.discard {final : φ → Prop} (h : D.Follows f p fun _ f' => final f') :
    D.Follows f (do let _ ← p : Prog ω ρ Unit) fun _ f' => final f' :=
  .bind (h.mono fun _ _ holds => .pure holds)

theorem Follows.of_only (only : p.Only fun o => D.may f o ∧ ∀ x, D.after f o x = f) :
    D.Follows f p fun _ f' => f' = f := by
  induction p with
  | done a => exact rfl
  | op o next ih =>
    refine ⟨only.1.1, fun x => ?_⟩
    rw [only.1.2 x]
    exact ih x (only.2 x)

section Interp

variable {ω' : Type} {ρ' : ω' → Type} {D : Discipline ω' ρ' φ} {f : φ}
  {h : ∀ o, Prog ω' ρ' (ρ o)}

theorem Follows.interp_bind {p : Prog ω ρ α} {g : α → Prog ω ρ β} {post : β → φ → Prop}
    (first : D.Follows f (p.interp h) fun a f' => D.Follows f' ((g a).interp h) post) :
    D.Follows f ((p >>= g).interp h) post :=
  Prog.interp_bind h p g ▸ Follows.bind first

theorem Follows.interp_perform {o : ω} {g : ρ o → Prog ω ρ α} {post : α → φ → Prop}
    (first : D.Follows f (h o) fun x f' => D.Follows f' ((g x).interp h) post) :
    D.Follows f ((Prog.perform o >>= g).interp h) post := Follows.bind first

theorem Follows.interp_of_only {ok : ω → Prop} {p : Prog ω ρ α} (only : p.Only ok)
    (keeps : ∀ o, ok o → D.Follows f (h o) fun _ f' => f' = f) :
    D.Follows f (p.interp h) fun _ f' => f' = f := by
  induction p with
  | done a => exact rfl
  | op o next ih =>
    refine Follows.bind ((keeps o only.1).mono fun x f' same => ?_)
    exact same ▸ ih x (only.2 x)

end Interp

end Discipline

structure Thread (ω : Type) (ρ : ω → Type) (φ : Type) where
  role : φ
  prog : Prog ω ρ Unit

structure Pool (σ ω : Type) (ρ : ω → Type) (φ : Type) where
  shared : σ
  threads : List (Thread ω ρ φ)

namespace Pool

variable {σ ω κ φ : Type} {ρ : ω → Type} (D : Discipline ω ρ φ)
  (exec : ℕ → (o : ω) → κ → σ → Option (σ × ρ o))

def run (s : Pool σ ω ρ φ) (t : ℕ) (c : κ) : Option (Pool σ ω ρ φ) :=
  match s.threads[t]? with
  | some ⟨role, .op o next⟩ => (exec t o c s.shared).map fun result =>
      ⟨result.1, s.threads.set t ⟨D.after role o result.2, next result.2⟩⟩
  | _ => none

def start (s : Pool σ ω ρ φ) (t : ℕ) (role : φ) (prog : Prog ω ρ Unit) :
    Option (Pool σ ω ρ φ) :=
  match s.threads[t]? with
  | some ⟨_, .done ()⟩ => some { s with threads := s.threads.set t ⟨role, prog⟩ }
  | _ => none

def Obeys (final : φ → Prop) (s : Pool σ ω ρ φ) : Prop :=
  ∀ th ∈ s.threads, D.Follows th.role th.prog fun _ f => final f

variable {D exec} {s s' : Pool σ ω ρ φ} {t : ℕ} {final : φ → Prop}

theorem obeys_set {th : Thread ω ρ φ} (h : s.Obeys D final)
    (follows : D.Follows th.role th.prog fun _ f => final f) {shared : σ} :
    (⟨shared, s.threads.set t th⟩ : Pool σ ω ρ φ).Obeys D final := by
  intro other member
  rcases List.mem_or_eq_of_mem_set member with old | rfl
  · exact h other old
  · exact follows

theorem run_eq_some {c : κ} (moved : s.run D exec t c = some s') :
    ∃ role o next shared x, s.threads[t]? = some ⟨role, .op o next⟩ ∧
      exec t o c s.shared = some (shared, x) ∧
      s' = ⟨shared, s.threads.set t ⟨D.after role o x, next x⟩⟩ := by
  unfold run at moved
  split at moved
  next role o next at_t =>
    obtain ⟨⟨shared, x⟩, performed, rfl⟩ := Option.map_eq_some_iff.mp moved
    exact ⟨role, o, next, shared, x, at_t, performed, rfl⟩
  next => cases moved

theorem run_cases {c : κ} (h : s.Obeys D final) (moved : s.run D exec t c = some s') :
    s'.Obeys D final ∧ ∃ role o next shared x,
      s.threads[t]? = some ⟨role, .op o next⟩ ∧ D.may role o ∧
        exec t o c s.shared = some (shared, x) ∧
        s' = ⟨shared, s.threads.set t ⟨D.after role o x, next x⟩⟩ := by
  obtain ⟨role, o, next, shared, x, at_t, performed, rfl⟩ := run_eq_some moved
  have follows := h _ (List.mem_of_getElem? at_t)
  exact ⟨obeys_set h (follows.2 x), role, o, next, shared, x, at_t, follows.1, performed, rfl⟩

theorem start_cases {role : φ} {prog : Prog ω ρ Unit} (moved : s.start t role prog = some s') :
    ∃ old, s.threads[t]? = some ⟨old, .done ()⟩ ∧
      s' = { s with threads := s.threads.set t ⟨role, prog⟩ } := by
  unfold start at moved
  split at moved
  next old at_t =>
    cases moved
    exact ⟨old, at_t, rfl⟩
  next => cases moved

theorem Obeys.final_of_done {th : Thread ω ρ φ} (h : s.Obeys D final) (member : th ∈ s.threads)
    (ended : th.prog.isDone) : final th.role :=
  (h th member).of_isDone ended

section Shadow

variable {ψ : Type} {shadow : Discipline ω ρ ψ} {ends : ψ → Prop} {roles : List ψ}
  {threads : List (Thread ω ρ φ)} {old : Thread ω ρ φ}

/-- Each thread also follows another discipline, in a role that the pool does not keep. -/
def Shadowed (shadow : Discipline ω ρ ψ) (ends : ψ → Prop) (roles : List ψ)
    (threads : List (Thread ω ρ φ)) : Prop :=
  ∀ (t : ℕ) (th : Thread ω ρ φ), threads[t]? = some th →
    ∃ f, roles[t]? = some f ∧ shadow.Follows f th.prog fun _ f => ends f

theorem Shadowed.set {f : ψ} {th : Thread ω ρ φ} (h : Shadowed shadow ends roles threads)
    (at_t : threads[t]? = some old) (follows : shadow.Follows f th.prog fun _ f => ends f) :
    Shadowed shadow ends (roles.set t f) (threads.set t th) := by
  intro i other at_i
  obtain ⟨own, role_t, _⟩ := h t old at_t
  have bound := (List.getElem?_eq_some_iff.mp role_t).1
  rw [List.getElem?_set] at at_i ⊢
  split at at_i
  next same =>
    subst same
    rw [if_pos (List.getElem?_eq_some_iff.mp at_t).1] at at_i
    obtain rfl := Option.some.inj at_i
    rw [if_pos rfl, if_pos bound]
    exact ⟨f, rfl, follows⟩
  next other_t =>
    rw [if_neg other_t]
    exact h i other at_i

theorem Shadowed.begin {f : ψ} {th : Thread ω ρ φ} (h : Shadowed shadow ends roles threads)
    (at_t : threads[t]? = some old) (role_t : roles[t]? = some f)
    (follows : shadow.Follows f th.prog fun _ f => ends f) :
    Shadowed shadow ends roles (threads.set t th) := by
  obtain ⟨bound, rfl⟩ := List.getElem?_eq_some_iff.mp role_t
  have given := h.set at_t follows
  rwa [List.set_getElem_self] at given

theorem Shadowed.ends_of_done (h : Shadowed shadow ends roles threads)
    (at_t : threads[t]? = some old) (ended : old.prog.isDone) :
    ∃ f, roles[t]? = some f ∧ ends f := by
  obtain ⟨f, role_t, follows⟩ := h t old at_t
  exact ⟨f, role_t, follows.of_isDone ended⟩

theorem Shadowed.idle {f : ψ} {th : Thread ω ρ φ} (n : ℕ)
    (follows : shadow.Follows f th.prog fun _ f => ends f) :
    Shadowed shadow ends (List.replicate n f) (List.replicate n th) := by
  intro t other at_t
  rw [List.getElem?_replicate] at at_t ⊢
  split at at_t
  next bound =>
    obtain rfl := Option.some.inj at_t
    rw [if_pos bound]
    exact ⟨f, rfl, follows⟩
  next => cases at_t

end Shadow

end Pool
