import Jumpbox.Acs.Counts

/-! The end of a dance. `acs_progress` starts a dance when `l_status` is OK, so a dance
stays finished as long as nobody records an OK after its last status. The thread that
queued a request does so when it is late with "Request sent": then the next poll starts
the dance again. -/

namespace Jumpbox.Acs

open Table

def Role.closes : Role → ℕ
  | .closing => 1
  | _ => 0

def Role.accepts : Role → ℕ
  | .adopting _ | .adopted _ => 1
  | _ => 0

theorem closes_le_dances (role : Role) : role.closes ≤ role.dances := by
  cases role with
  | closing => exact Nat.le_refl 1
  | _ => exact Nat.zero_le _

theorem accepts_le_locks (role : Role) : role.accepts ≤ role.locks := by
  cases role with
  | adopting net | adopted net => exact Nat.le_refl 1
  | _ => exact Nat.zero_le _

def DanceOver (s : State) : Prop :=
  s.shared.hist.ended = true ∨ 0 < held Role.closes s.threads

instance (s : State) : Decidable (DanceOver s) := by
  unfold DanceOver
  infer_instance

/-- A dance that has ended does not go on before a new NET is accepted. -/
def Finished (s : State) : Prop := s.shared.hist.ended = true → s.shared.lDancing = false

/-- Allocations succeed and the daemon is not shut down; a sleep may be interrupted. -/
def Undisturbed (s : State) : Event → Prop
  | .run t c => ∀ th ∈ s.threads[t]?, ∀ o ∈ th.prog.head, o.sleeps = false → c.ok = true
  | .shutdown | .exit _ => False
  | _ => True

def Role.isOutside : Role → Bool
  | .outside => true
  | _ => false

def Op.records : Op → Bool
  | .status _ _ _ => true
  | _ => false

/-- "Request sent" is not recorded after the last status of the dance. -/
def SentInTime (s : State) : Event → Prop
  | .run t _ => ∀ th ∈ s.threads[t]?, ∀ o ∈ th.prog.head,
      th.role.isOutside = true → o.records = true → ¬DanceOver s
  | _ => True

instance (s : State) : ∀ e, Decidable (Undisturbed s e)
  | .run t c => inferInstanceAs (Decidable (∀ th ∈ s.threads[t]?, ∀ o ∈ th.prog.head,
      o.sleeps = false → c.ok = true))
  | .shutdown | .exit _ => isFalse id
  | .progress _ _ | .setup _ _ | .peel _ _ | .answer _ _ _ => isTrue trivial

instance (s : State) : ∀ e, Decidable (SentInTime s e)
  | .run t _ => inferInstanceAs (Decidable (∀ th ∈ s.threads[t]?, ∀ o ∈ th.prog.head,
      th.role.isOutside = true → o.records = true → ¬DanceOver s))
  | .progress _ _ | .setup _ _ | .peel _ _ | .answer _ _ _ | .shutdown | .exit _ => isTrue trivial

structure Finishing (s : State) : Prop where
  balanced : Balanced s
  serving : s.shared.exited = false
  calm : DanceOver s → s.shared.lStatus ≠ .ok
  ended : s.shared.hist.ended = true → s.shared.lDancing = false
  accepted : s.shared.hist.ended = true → held Role.accepts s.threads = 0

theorem acsMsg_ne_ok {st : DjbStatus} (text : CStr) (bad : st ≠ .ok) :
    (Shared.acsMsg st text).status ≠ .ok := by
  unfold Shared.acsMsg
  split
  · exact bad
  · exact nofun

theorem acsStatus_ne_ok {s : Shared} {t : ℕ} {msg : AcsMsg} {memory : Bool}
    (bad : msg.status ≠ .ok) : (s.acsStatus t msg memory).lStatus ≠ .ok := by
  cases memory with
  | false => exact nofun
  | true => exact bad

theorem Balanced.none_closes {s : State} (h : Balanced s) (open_ : s.shared.exited = false)
    (idle : s.shared.lDancing = false) : held Role.closes s.threads = 0 :=
  Nat.le_zero.mp
    ((held_le_held closes_le_dances s.threads).trans_eq (h.none_dances open_ idle))

theorem Finishing.not_over_of_stage {s : State} (h : Finishing s) {t : ℕ} {known : Option Net}
    {prog : AcsM Unit} (at_t : s.threads[t]? = some ⟨.stage known, prog⟩) : ¬DanceOver s := by
  rintro (ended | closing)
  · exact absurd ((h.ended ended).symm.trans (h.balanced.dancing_of_stage at_t)) nofun
  · have sole := held_sole closes_le_dances (h.balanced.dances_one h.serving) at_t rfl
    rw [sole] at closing
    exact Nat.lt_irrefl 0 closing

theorem Finishing.not_over_of_accepts {s : State} (h : Finishing s) {t : ℕ} {role : Role}
    {prog : AcsM Unit} (at_t : s.threads[t]? = some ⟨role, prog⟩) (accepts : role.accepts = 1) :
    ¬DanceOver s := by
  have locks : role.locks = 1 :=
    Nat.le_antisymm ((worth_le_held Role.locks at_t).trans h.balanced.locks_one)
      (accepts.symm.trans_le (accepts_le_locks role))
  have idle := h.balanced.apart (h.balanced.locked_of_role at_t locks)
  rintro (ended | closing)
  · have own := worth_le_held Role.accepts at_t
    rw [h.accepted ended, accepts] at own
    exact Nat.not_succ_le_zero 0 own
  · rw [h.balanced.none_closes h.serving idle] at closing
    exact Nat.lt_irrefl 0 closing

section Act

variable {env : Env} {s : State} {t : ℕ} {c : Choice} {role role' : Role} {o : Op}
  {next : o.Result → AcsM Unit} {prog' : AcsM Unit} {shared' : Shared}

theorem over_of_over_act (at_t : s.threads[t]? = some ⟨role, .op o next⟩)
    (isOver : DanceOver ⟨shared', s.threads.set t ⟨role', prog'⟩⟩)
    (same : role'.closes = role.closes) (ended : shared'.hist.ended = s.shared.hist.ended) :
    DanceOver s := by
  unfold DanceOver at isOver ⊢
  rwa [ended, held_set_of_eq at_t same] at isOver

theorem calm_act (h : Finishing s) (at_t : s.threads[t]? = some ⟨role, .op o next⟩)
    (acts : Acts env t c s.shared role o role' shared') (succeeds : o.sleeps = false → c.ok = true)
    (inTime : role.isOutside = true → o.records = true → ¬DanceOver s)
    (isOver : DanceOver ⟨shared', s.threads.set t ⟨role', prog'⟩⟩) : shared'.lStatus ≠ .ok := by
  have serving := (h.balanced.orderly.exits_of_acting at_t).trans h.serving
  have before := over_of_over_act at_t isOver
  cases acts with
  | sent => exact absurd (before rfl rfl) (inTime rfl rfl)
  | report => exact absurd (before rfl rfl) (h.not_over_of_stage at_t)
  | adopting | ready => exact absurd (before rfl rfl) (h.not_over_of_accepts at_t rfl)
  | complain | refused | noObject | exitRefused => exact acsStatus_ne_ok (acsMsg_ne_ok _ nofun)
  | last _ ends => exact acsStatus_ne_ok (acsMsg_ne_ok _ ends)
  | sitdown => exact h.calm (.inr (worth_le_held Role.closes at_t))
  | queueFull _ full => exact absurd (full.symm.trans (succeeds rfl)) nofun
  | exitSitdown => cases serving
  | accept =>
    rcases isOver with ended | closing
    · cases ended
    · exact h.calm (.inr (closing.trans_eq (held_set_of_eq at_t (by rfl))))
  | _ => exact h.calm (before rfl rfl)

theorem ended_act (h : Finishing s) (acts : Acts env t c s.shared role o role' shared')
    (ended : shared'.hist.ended = true) : shared'.lDancing = false := by
  cases acts with
  | start _ _ ready => exact absurd ready (h.calm (.inl ended))
  | sitdown | exitSitdown => rfl
  | accept => cases ended
  | _ => exact h.ended ended

theorem accepted_act (h : Finishing s) (at_t : s.threads[t]? = some ⟨role, .op o next⟩)
    (acts : Acts env t c s.shared role o role' shared') (ended : shared'.hist.ended = true) :
    held Role.accepts (s.threads.set t ⟨role', prog'⟩) = 0 := by
  cases acts with
  | sitdown free | exitSitdown free =>
    exact (held_set_of_eq at_t (by rfl)).trans (held_of_unlocked accepts_le_locks h.balanced free)
  | accept => cases ended
  | @unlockAdopted net =>
    have adopters := held_set Role.accepts at_t ⟨.owns net, prog'⟩
    have before := h.accepted ended
    simp only [Role.accepts] at adopters
    omega
  | _ => exact (held_set_of_eq at_t (by rfl)).trans (h.accepted ended)

end Act

theorem finishing_begin {s : State} (h : Finishing s) {t : ℕ} {role : Role}
    {prog prog' : AcsM Unit} {shared : Shared} (at_t : s.threads[t]? = some ⟨.outside, prog⟩)
    (balanced : Balanced ⟨shared, s.threads.set t ⟨role, prog'⟩⟩) (closes : role.closes = 0)
    (accepts : role.accepts = 0) (exited : shared.exited = s.shared.exited)
    (status : shared.lStatus = s.shared.lStatus) (dancing : shared.lDancing = s.shared.lDancing)
    (ended : shared.hist.ended = s.shared.hist.ended) :
    Finishing ⟨shared, s.threads.set t ⟨role, prog'⟩⟩ := by
  refine ⟨balanced, exited.trans h.serving, fun isOver => ?_, fun already => ?_, fun already => ?_⟩
  · rw [status]
    exact h.calm (isOver.imp ended.symm.trans (·.trans_eq (held_set_of_eq at_t closes)))
  · exact dancing.trans (h.ended (ended.symm.trans already))
  · exact (held_set_of_eq at_t accepts).trans (h.accepted (ended.symm.trans already))

theorem finishing_step {env : Env} {s s' : State} {e : Event} (h : Finishing s)
    (balanced : Balanced s') (undisturbed : Undisturbed s e) (inTime : SentInTime s e)
    (st : Step env s e s') : Finishing s' := by
  cases st with
  | act at_t acts =>
    exact ⟨balanced, (exits_of_acts acts).2.trans h.serving,
      calm_act h at_t acts (undisturbed _ at_t _ rfl) (inTime _ at_t _ rfl), ended_act h acts,
      accepted_act h at_t acts⟩
  | handle _ at_t | answer _ at_t =>
    exact finishing_begin h at_t balanced rfl rfl rfl rfl rfl rfl
  | shutdown | exit => exact undisturbed.elim

theorem finishing_init (threads : ℕ) : Finishing (init threads) where
  balanced := balanced_init threads
  serving := rfl
  calm isOver := by
    rcases isOver with ended | closing
    · cases ended
    · have idle : held Role.closes (init threads).threads = 0 := total_replicate_zero _ _ _ rfl
      rw [idle] at closing
      exact absurd closing (Nat.lt_irrefl 0)
  ended := nofun
  accepted := nofun

/-- If "Request sent" is always recorded before the dance is over, a finished dance
stays finished. -/
theorem finished_of_sent_in_time (env : Env) (threads : ℕ) (es : List Event)
    (guard : (machine env).Meets (fun s e => Undisturbed s e ∧ SentInTime s e) (init threads) es) :
    (machine env).Always Finished (init threads) es := by
  have invariant := (machine env).always_of_meets
    (fun s e s' (h : Finishing s) guard moved => by
      obtain ⟨orderly, st⟩ := step_cases h.balanced.orderly moved
      exact finishing_step h (balanced_step h.balanced orderly st) guard.1 guard.2 st)
    (finishing_init threads) guard
  exact invariant.imp _ fun s h => h.ended

def endedRun : List Event :=
  danceRun ++ runs 0 3 ++ [.answer 1 0 (initialPush "500")] ++ runs 1 3

theorem finished_in_endedRun :
    (machine exampleEnv).Meets (fun s e => Undisturbed s e ∧ SentInTime s e) (init 2) endedRun ∧
      (machine exampleEnv).Always Finished (init 2) endedRun := by
  have guard : (machine exampleEnv).Meets (fun s e => Undisturbed s e ∧ SentInTime s e)
      (init 2) endedRun := by decide +kernel
  exact ⟨guard, finished_of_sent_in_time exampleEnv 2 endedRun guard⟩

def restartRun : List Event :=
  danceRun ++ [.answer 1 0 (initialPush "500")] ++ runs 1 3 ++ runs 0 3 ++
    [.progress 0 progressGet] ++ runs 0 1

theorem late_sent_restarts_dance :
    ¬∀ (env : Env) (threads : ℕ) (es : List Event) (s : State),
      (machine env).Meets Undisturbed (init threads) es →
        (machine env).exec (init threads) es = some s → Finished s := by
  intro always
  have finished := always exampleEnv 2 restartRun _ (by decide +kernel) rfl
  revert finished
  unfold Finished
  decide +kernel

end Jumpbox.Acs
