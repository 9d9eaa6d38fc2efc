import Jumpbox.Acs.Step

/-! Who carries the dance. `l_dancing` is set as long as one thread is in a stage of
the dance or one internal request goes on with it. An interrupted `thread_sleep`
makes `acs_wait` return without `acs_sitdown`: the flag stays and nobody is left to
clear it. -/

namespace Jumpbox.Acs

open Table

abbrev HttpThread := Thread Op Op.Result Role

def held (worth : Role → ℕ) (threads : List HttpThread) : ℕ :=
  total (fun th => worth th.role) threads

def Role.dances : Role → ℕ
  | .stage _ | .closing => 1
  | _ => 0

def Role.locks : Role → ℕ
  | .checking _ | .adopting _ | .adopted _ | .rejected _ | .exitLocked => 1
  | _ => 0

section Held

variable (worth : Role → ℕ) {threads : List HttpThread} {t : ℕ} {role : Role} {prog : AcsM Unit}

theorem held_set (at_t : threads[t]? = some ⟨role, prog⟩) (th : HttpThread) :
    held worth (threads.set t th) + worth role = held worth threads + worth th.role := by
  have after := total_set (fun th : HttpThread => worth th.role) at_t th
  have before := total_split (fun th : HttpThread => worth th.role) at_t
  dsimp only at before
  simp only [held]
  omega

theorem held_set_of_eq {worth : Role → ℕ} {role' : Role} {prog' : AcsM Unit}
    (at_t : threads[t]? = some ⟨role, prog⟩) (same : worth role' = worth role) :
    held worth (threads.set t ⟨role', prog'⟩) = held worth threads := by
  have set := held_set worth at_t ⟨role', prog'⟩
  dsimp only at set
  rw [same] at set
  exact Nat.add_right_cancel set

theorem worth_le_held (at_t : threads[t]? = some ⟨role, prog⟩) : worth role ≤ held worth threads :=
  weight_le_total (fun th : HttpThread => worth th.role) at_t

theorem held_le_held {worth worth' : Role → ℕ} (le : ∀ role, worth role ≤ worth' role)
    (threads : List HttpThread) : held worth threads ≤ held worth' threads := by
  unfold held
  induction threads with
  | nil => exact Nat.le_refl 0
  | cons th threads ih => exact Nat.add_le_add (le th.role) ih

theorem held_sole {worth cap : Role → ℕ} (le : ∀ role, worth role ≤ cap role)
    (one : held cap threads ≤ 1) (at_t : threads[t]? = some ⟨role, prog⟩) (own : cap role = 1) :
    held worth threads = worth role := by
  have rest := held_le_held le (threads.eraseIdx t)
  have split_worth := total_split (fun th : HttpThread => worth th.role) at_t
  have split_cap := total_split (fun th : HttpThread => cap th.role) at_t
  simp only [held] at rest one ⊢
  dsimp only at split_worth split_cap
  omega

end Held

def carriers (s : State) : ℕ := held Role.dances s.threads + s.shared.pending.length

structure Balanced (s : State) : Prop where
  orderly : Orderly s
  baton : s.shared.exited = false →
    carriers s + s.shared.hist.interrupted = s.shared.lDancing.toNat
  lock : held Role.locks s.threads = s.shared.locked.toNat
  apart : s.shared.locked = true → s.shared.lDancing = false

theorem baton_of_acts {env : Env} {t : ℕ} {c : Choice} {s s' : Shared} {role role' : Role} {o : Op}
    (acts : Acts env t c s role o role' s') (serving : role.exits = false)
    (dancing : role.dances ≤ s.lDancing.toNat) :
    role'.dances + s'.pending.length + s'.hist.interrupted + s.lDancing.toNat =
      role.dances + s.pending.length + s.hist.interrupted + s'.lDancing.toNat := by
  cases acts with
  | sitdown =>
    have set : s.lDancing = true := Bool.toNat_eq_one.mp (Nat.le_antisymm (Bool.toNat_le _) dancing)
    simp [Role.dances, Shared.acsSitdown, Shared.closeWindow, set]
    omega
  | queue | putBack =>
    simp only [Role.dances, List.length_append, List.length_singleton, Shared.touch]
    omega
  | interrupted =>
    simp only [Role.dances]
    omega
  | start free idle =>
    simp only [Role.dances, idle, Bool.toNat_false, Bool.toNat_true]
    omega
  | exitSitdown | exitRefuse | exitFirst | exitOver | exitUnlock | exitRefused | exitDone =>
    cases serving
  | _ => rfl

theorem lock_of_acts {env : Env} {t : ℕ} {c : Choice} {s s' : Shared} {role role' : Role} {o : Op}
    (acts : Acts env t c s role o role' s') (own : role.locks ≤ s.locked.toNat) :
    role'.locks + s.locked.toNat = role.locks + s'.locked.toNat := by
  cases acts with
  | takeFirst free | takeOver free | exitFirst free | exitOver free => simp [Role.locks, free]
  | unlockAdopted | unlockRejected | exitUnlock =>
    have set : s.locked = true := Bool.toNat_eq_one.mp (Nat.le_antisymm (Bool.toNat_le _) own)
    simp [Role.locks, set]
  | _ => rfl

theorem apart_of_acts {env : Env} {t : ℕ} {c : Choice} {s s' : Shared} {role role' : Role} {o : Op}
    (acts : Acts env t c s role o role' s') (apart : s.locked = true → s.lDancing = false) :
    s'.locked = true → s'.lDancing = false := by
  cases acts with
  | takeFirst _ idle | takeOver _ idle | exitFirst _ idle | exitOver _ idle => exact fun _ => idle
  | sitdown | exitSitdown => exact fun _ => rfl
  | unlockAdopted | unlockRejected | exitUnlock => exact nofun
  | start free => exact fun set => absurd (free.symm.trans set) nofun
  | _ => exact apart

theorem Balanced.dances_le {s : State} (h : Balanced s) (open_ : s.shared.exited = false) {t : ℕ}
    {role : Role} {prog : AcsM Unit} (at_t : s.threads[t]? = some ⟨role, prog⟩) :
    role.dances ≤ s.shared.lDancing.toNat := by
  have baton := h.baton open_
  have own := worth_le_held Role.dances at_t
  simp only [carriers] at baton
  omega

theorem Balanced.locks_le {s : State} (h : Balanced s) {t : ℕ} {role : Role} {prog : AcsM Unit}
    (at_t : s.threads[t]? = some ⟨role, prog⟩) : role.locks ≤ s.shared.locked.toNat :=
  (worth_le_held Role.locks at_t).trans (Nat.le_of_eq h.lock)

theorem Balanced.locked_of_role {s : State} (h : Balanced s) {t : ℕ} {role : Role}
    {prog : AcsM Unit} (at_t : s.threads[t]? = some ⟨role, prog⟩) (locks : role.locks = 1) :
    s.shared.locked = true :=
  Bool.toNat_eq_one.mp
    (Nat.le_antisymm (Bool.toNat_le _) (locks.symm.trans_le (h.locks_le at_t)))

theorem Balanced.locks_one {s : State} (h : Balanced s) : held Role.locks s.threads ≤ 1 :=
  h.lock.trans_le (Bool.toNat_le _)

theorem Balanced.dances_one {s : State} (h : Balanced s) (open_ : s.shared.exited = false) :
    held Role.dances s.threads ≤ 1 := by
  have baton := h.baton open_
  have one := Bool.toNat_le s.shared.lDancing
  simp only [carriers] at baton
  omega

theorem Balanced.none_dances {s : State} (h : Balanced s) (open_ : s.shared.exited = false)
    (idle : s.shared.lDancing = false) : held Role.dances s.threads = 0 := by
  have baton := h.baton open_
  rw [idle] at baton
  simp only [carriers, Bool.toNat_false] at baton
  omega

theorem balanced_step {env : Env} {s s' : State} {e : Event} (h : Balanced s)
    (orderly : Orderly s') (st : Step env s e s') : Balanced s' := by
  cases st with
  | @act t c role o next role' shared' prog' at_t acts =>
    have own := h.orderly.exits_of_acting at_t
    refine ⟨orderly, fun open_ => ?_, ?_, apart_of_acts acts h.apart⟩
    · have still := (exits_of_acts acts).2.symm.trans open_
      have trade := baton_of_acts acts (own.trans still) (h.dances_le still at_t)
      have baton := h.baton still
      have dancers := held_set Role.dances at_t ⟨role', prog'⟩
      dsimp only at dancers
      simp only [carriers] at baton ⊢
      omega
    · have trade := lock_of_acts acts (h.locks_le at_t)
      have lock := h.lock
      have lockers := held_set Role.locks at_t ⟨role', prog'⟩
      dsimp only at lockers ⊢
      omega
  | handle open_ at_t =>
    refine ⟨orderly, fun _ => ?_, (held_set_of_eq at_t (by rfl)).trans h.lock, h.apart⟩
    have baton := h.baton open_
    rw [carriers] at baton ⊢
    rwa [held_set_of_eq at_t (by rfl)]
  | @answer t i shcl request prog open_ at_t waiting =>
    have dancers := held_set Role.dances at_t ⟨.stage none, prog⟩
    refine ⟨orderly, fun _ => ?_, (held_set_of_eq at_t (by rfl)).trans h.lock, h.apart⟩
    have baton := h.baton open_
    have bound : i < s.shared.pending.length := (List.getElem?_eq_some_iff.mp waiting).1
    have fewer := List.length_eraseIdx_of_lt bound
    simp only [carriers, Role.dances] at baton dancers ⊢
    omega
  | shutdown => exact ⟨orderly, h.baton, h.lock, h.apart⟩
  | exit _ at_t => exact ⟨orderly, nofun, (held_set_of_eq at_t (by rfl)).trans h.lock, h.apart⟩

theorem balanced_init (threads : ℕ) : Balanced (init threads) where
  orderly := orderly_init threads
  baton _ := by
    have idle : held Role.dances (init threads).threads = 0 := total_replicate_zero _ _ _ rfl
    rw [carriers, idle]
    rfl
  lock := total_replicate_zero _ _ _ rfl
  apart := nofun

/-- Until `acs_exit`, one thread or request carries the dance while `l_dancing` is set,
and none does while it is not. -/
def OneCarrier (s : State) : Prop :=
  s.shared.exited = false →
    (s.shared.lDancing = true ↔ carriers s = 1) ∧ (s.shared.lDancing = false → carriers s = 0)

def Op.sleeps : Op → Bool
  | .threadSleep _ => true
  | _ => false

def SleepsThrough (s : State) : Event → Prop
  | .run t c => ∀ th ∈ s.threads[t]?, ∀ o ∈ th.prog.head, o.sleeps = true → c.ok = true
  | _ => True

instance (s : State) : ∀ e, Decidable (SleepsThrough s e)
  | .run t c => inferInstanceAs (Decidable (∀ th ∈ s.threads[t]?, ∀ o ∈ th.prog.head,
      o.sleeps = true → c.ok = true))
  | .progress _ _ | .setup _ _ | .peel _ _ | .answer _ _ _ | .shutdown | .exit _ => isTrue trivial

theorem interrupted_of_step {env : Env} {s s' : State} {e : Event} (guard : SleepsThrough s e)
    (st : Step env s e s') : s'.shared.hist.interrupted = s.shared.hist.interrupted := by
  cases st with
  | act at_t acts =>
    cases acts with
    | interrupted broken => exact absurd ((guard _ at_t _ rfl rfl).symm.trans broken) nofun
    | _ => rfl
  | _ => rfl

theorem Balanced.oneCarrier {s : State} (h : Balanced s) (through : s.shared.hist.interrupted = 0) :
    OneCarrier s := by
  intro open_
  have baton := h.baton open_
  rw [through, Nat.add_zero] at baton
  rw [baton]
  cases s.shared.lDancing with
  | false => exact ⟨iff_of_false nofun nofun, fun _ => rfl⟩
  | true => exact ⟨iff_of_true rfl rfl, nofun⟩

/-- If no moonwalk is interrupted, the dance has exactly one carrier whenever
`l_dancing` is set, and none otherwise. -/
theorem one_carrier_of_sleeps_through (env : Env) (threads : ℕ) (es : List Event)
    (guard : (machine env).Meets SleepsThrough (init threads) es) :
    (machine env).Always OneCarrier (init threads) es := by
  have invariant := (machine env).always_of_meets
    (I := fun s => Balanced s ∧ s.shared.hist.interrupted = 0)
    (fun s e s' h guard moved => by
      obtain ⟨orderly, st⟩ := step_cases h.1.orderly moved
      exact ⟨balanced_step h.1 orderly st, (interrupted_of_step guard st).trans h.2⟩)
    ⟨balanced_init threads, rfl⟩ guard
  exact invariant.imp _ fun s h => h.1.oneCarrier h.2

def moonwalkRun : List Event :=
  danceRun ++ [.answer 1 0 (initialPush "200")] ++ runs 1 8

theorem one_carrier_in_moonwalkRun :
    (machine exampleEnv).Meets SleepsThrough (init 2) (moonwalkRun ++ runs 1 1) ∧
      (machine exampleEnv).Always OneCarrier (init 2) (moonwalkRun ++ runs 1 1) := by
  have guard : (machine exampleEnv).Meets SleepsThrough (init 2) (moonwalkRun ++ runs 1 1) := by
    decide +kernel
  exact ⟨guard, one_carrier_of_sleeps_through exampleEnv 2 _ guard⟩

theorem interrupted_moonwalk_keeps_dancing :
    ¬∀ (env : Env) (threads : ℕ) (es : List Event) (s : State),
      (machine env).exec (init threads) es = some s → OneCarrier s := by
  intro always
  have run : ((machine exampleEnv).exec (init 2)
      (moonwalkRun ++ [.run 1 { ok := false }, .run 1 {}])).map
        (fun s => (s.shared.exited, s.shared.lDancing, carriers s)) = some (false, true, 0) := by
    decide +kernel
  obtain ⟨s, run, facts⟩ := Option.map_eq_some_iff.mp run
  simp only [Prod.mk.injEq] at facts
  obtain ⟨open_, dancing, idle⟩ := facts
  have one := (always exampleEnv 2 _ s run open_).1.mp dancing
  exact absurd (idle.symm.trans one) (by decide)

end Jumpbox.Acs
