import Jumpbox.Acs.Baton

/-! The references to NETs. Each reference counted by jansson is held by `l_net` or by
a caller of `acs_set_net`; between `l_net = net` and `json_incref` the caller's serves
for both. From this every NET is released once, and none while a dance uses it. -/

namespace Jumpbox.Acs

open Table

def Net.at (net : Net) (p : ℕ) : ℕ := if net.ptr = p then 1 else 0

@[simp] theorem Net.at_ptr (net : Net) : net.at net.ptr = 1 := if_pos rfl

theorem Net.at_le (net : Net) (p : ℕ) : net.at p ≤ 1 := by
  unfold Net.at
  split <;> omega

def Role.references (p : ℕ) : Role → ℕ
  | .owns net | .refused net | .checking net | .adopting net | .adopted net | .rejected net =>
    net.at p
  | _ => 0

def Role.adopts (p : ℕ) : Role → ℕ
  | .checking net | .adopting net => net.at p
  | _ => 0

def netRef (s : Shared) (p : ℕ) : ℕ := (s.lNet.map fun net => net.at p).getD 0

theorem adopts_le_locks (p : ℕ) (role : Role) : role.adopts p ≤ role.locks := by
  cases role with
  | checking net | adopting net => exact net.at_le p
  | _ => exact Nat.zero_le _

theorem update_sub (refs : ℕ → ℕ) (net : Net) (p : ℕ) :
    Function.update refs net.ptr (refs net.ptr - 1) p = refs p - net.at p := by
  by_cases here : p = net.ptr
  · subst here
    simp
  · simp [here, Net.at, Ne.symm here]

theorem update_add (refs : ℕ → ℕ) (net : Net) (p : ℕ) :
    Function.update refs net.ptr (refs net.ptr + 1) p = refs p + net.at p := by
  by_cases here : p = net.ptr
  · subst here
    simp
  · simp [here, Net.at, Ne.symm here]

theorem held_of_unlocked {worth : Role → ℕ} (le : ∀ role, worth role ≤ role.locks) {s : State}
    (h : Balanced s) (free : s.shared.locked = false) : held worth s.threads = 0 := by
  have all := held_le_held le s.threads
  rw [h.lock, free] at all
  exact Nat.le_zero.mp all

theorem netRef_of_adopted {s : Shared} {net : Net} (adopted : net.at net.ptr ≤ netRef s net.ptr)
    (p : ℕ) : netRef s p = net.at p := by
  unfold netRef at adopted ⊢
  cases set : s.lNet with
  | none =>
    rw [set] at adopted
    simp at adopted
  | some other =>
    rw [set] at adopted
    have same : other.ptr = net.ptr := by
      by_contra apart
      simp [Net.at, apart] at adopted
    simp [Net.at, same]

structure Counted (s : State) : Prop where
  balanced : Balanced s
  refs : ∀ p, s.shared.refs p + held (Role.adopts p) s.threads =
    netRef s.shared p + held (Role.references p) s.threads
  adopting : ∀ p, held (Role.adopts p) s.threads ≤ netRef s.shared p
  young : ∀ p, s.shared.nextNet ≤ p → netRef s.shared p = 0 ∧ held (Role.references p) s.threads = 0

theorem Counted.references_le {s : State} (h : Counted s) {t : ℕ} {role : Role} {prog : AcsM Unit}
    (at_t : s.threads[t]? = some ⟨role, prog⟩) (p : ℕ) : role.references p ≤ s.shared.refs p := by
  have own := worth_le_held (Role.references p) at_t
  have refs := h.refs p
  have adopting := h.adopting p
  omega

theorem Counted.netRef_le {s : State} (h : Counted s) (free : s.shared.locked = false) (p : ℕ) :
    netRef s.shared p ≤ s.shared.refs p := by
  have refs := h.refs p
  have none := held_of_unlocked (adopts_le_locks p) h.balanced free
  omega

theorem refs_of_acts {env : Env} {t : ℕ} {c : Choice} {s s' : Shared} {role role' : Role} {o : Op}
    (acts : Acts env t c s role o role' s') (p : ℕ) (owned : ∀ q, role.references q ≤ s.refs q)
    (named : s.locked = false → ∀ q, netRef s q ≤ s.refs q)
    (adopted : ∀ q, role.adopts q ≤ netRef s q) (fresh : s.refs s.nextNet = 0) :
    s'.refs p + role'.adopts p + netRef s p + role.references p =
      s.refs p + role.adopts p + netRef s' p + role'.references p := by
  cases acts with
  | takeFirst _ _ first =>
    simp only [Role.adopts, Role.references, netRef, first, Shared.closeWindow, Option.map_some,
      Option.map_none, Option.getD_some, Option.getD_none]
    omega
  | @takeOver net old free idle current =>
    have named := named free p
    simp only [netRef, current, Option.map_some, Option.getD_some] at named
    simp only [Role.adopts, Role.references, netRef, current, Shared.closeWindow, Shared.jsonDecref,
      update_sub, Option.map_some, Option.getD_some]
    omega
  | exitFirst _ _ first =>
    simp only [Role.adopts, Role.references, netRef, first, Shared.closeWindow, Option.map_none,
      Option.getD_none]
  | exitOver free _ current =>
    have named := named free p
    simp only [netRef, current, Option.map_some, Option.getD_some] at named
    simp only [Role.adopts, Role.references, netRef, current, Shared.closeWindow, Shared.jsonDecref,
      update_sub, Option.map_some, Option.getD_some, Option.map_none, Option.getD_none]
    omega
  | drop =>
    have named := netRef_of_adopted (adopted _) p
    have gone : netRef { s with lNet := none } p = 0 := rfl
    rw [named, gone]
    simp only [Role.adopts, Role.references]
    omega
  | incref =>
    simp only [Role.adopts, Role.references, Shared.touch, update_add, netRef]
    omega
  | decref =>
    have owned := owned p
    simp only [Role.references] at owned
    simp only [Role.adopts, Role.references, Shared.jsonDecref, Shared.touch, update_sub, netRef]
    omega
  | load =>
    have same : netRef { s with
      nextNet := s.nextNet + 1, refs := Function.update s.refs s.nextNet 1 } p = netRef s p := rfl
    rw [same]
    by_cases here : p = s.nextNet
    · subst here
      simp [Role.adopts, Role.references, fresh, Net.at]
      omega
    · simp [Role.adopts, Role.references, here, Net.at, Ne.symm here]
  | _ => rfl

theorem Counted.fresh {s : State} (h : Counted s) {p : ℕ} (new : s.shared.nextNet ≤ p) :
    s.shared.refs p = 0 := by
  have refs := h.refs p
  obtain ⟨unset, unheld⟩ := h.young p new
  omega

theorem Counted.adopts_le {s : State} (h : Counted s) {t : ℕ} {role : Role} {prog : AcsM Unit}
    (at_t : s.threads[t]? = some ⟨role, prog⟩) (p : ℕ) : role.adopts p ≤ netRef s.shared p :=
  (worth_le_held (Role.adopts p) at_t).trans (h.adopting p)

section Act

variable {env : Env} {s : State} {t : ℕ} {c : Choice} {role role' : Role} {o : Op}
  {next : o.Result → AcsM Unit} {prog' : AcsM Unit} {shared' : Shared}

theorem refs_act (h : Counted s) (at_t : s.threads[t]? = some ⟨role, .op o next⟩)
    (acts : Acts env t c s.shared role o role' shared') (p : ℕ) :
    shared'.refs p + held (Role.adopts p) (s.threads.set t ⟨role', prog'⟩) =
      netRef shared' p + held (Role.references p) (s.threads.set t ⟨role', prog'⟩) := by
  have trade := refs_of_acts acts p (h.references_le at_t) h.netRef_le (h.adopts_le at_t)
    (h.fresh (Nat.le_refl _))
  have refs := h.refs p
  have adopters := held_set (Role.adopts p) at_t ⟨role', prog'⟩
  have owners := held_set (Role.references p) at_t ⟨role', prog'⟩
  dsimp only at adopters owners
  omega

theorem adopting_act (h : Counted s) (at_t : s.threads[t]? = some ⟨role, .op o next⟩)
    (acts : Acts env t c s.shared role o role' shared') (p : ℕ) :
    held (Role.adopts p) (s.threads.set t ⟨role', prog'⟩) ≤ netRef shared' p := by
  have adopters := held_set (Role.adopts p) at_t ⟨role', prog'⟩
  have adopting := h.adopting p
  have unlocked := held_of_unlocked (adopts_le_locks p) h.balanced
  cases acts with
  | takeFirst free | takeOver free =>
    have nobody := unlocked free
    simp only [Role.adopts, nobody, Nat.zero_add, Nat.add_zero] at adopters
    exact Nat.le_of_eq adopters
  | exitFirst free | exitOver free =>
    have nobody := unlocked free
    simp only [Role.adopts, nobody] at adopters
    exact (Nat.le_of_eq adopters).trans (Nat.zero_le _)
  | @drop net =>
    have sole : held (Role.adopts p) s.threads = net.at p :=
      held_sole (adopts_le_locks p) h.balanced.locks_one at_t rfl
    simp only [Role.adopts] at adopters
    omega
  | incref =>
    have same (refs : ℕ → ℕ) (hist : History) :
        netRef { s.shared with refs, hist } p = netRef s.shared p := rfl
    simp only [Role.adopts] at adopters
    simp only [Shared.touch, same]
    omega
  | _ => exact (Nat.add_right_cancel adopters).trans_le adopting

theorem young_act (h : Counted s) (at_t : s.threads[t]? = some ⟨role, .op o next⟩)
    (acts : Acts env t c s.shared role o role' shared') (p : ℕ) (new : shared'.nextNet ≤ p) :
    netRef shared' p = 0 ∧
      held (Role.references p) (s.threads.set t ⟨role', prog'⟩) = 0 := by
  have owners := held_set (Role.references p) at_t ⟨role', prog'⟩
  have own := worth_le_held (Role.references p) at_t
  cases acts with
  | @load text value =>
    have before := h.young p ((Nat.le_succ _).trans new)
    have other : (⟨s.shared.nextNet, value⟩ : Net).at p = 0 := if_neg (Nat.ne_of_lt new)
    simp only [Role.references] at owners
    exact ⟨before.1, by omega⟩
  | @takeFirst net | @takeOver net =>
    have before := h.young p new
    simp only [Role.references] at owners own
    have other : net.at p = 0 := by omega
    exact ⟨other, by omega⟩
  | exitFirst | exitOver | drop =>
    have before := h.young p new
    exact ⟨rfl, by simp only [Role.references] at owners; omega⟩
  | decref =>
    have before := h.young p new
    exact ⟨before.1, by simp only [Role.references] at owners; omega⟩
  | _ => exact ⟨(h.young p new).1, (Nat.add_right_cancel owners).trans (h.young p new).2⟩

end Act

theorem counted_begin {s : State} (h : Counted s) {t : ℕ} {role : Role} {prog prog' : AcsM Unit}
    {shared : Shared} (at_t : s.threads[t]? = some ⟨.outside, prog⟩)
    (balanced : Balanced ⟨shared, s.threads.set t ⟨role, prog'⟩⟩)
    (none_adopted : ∀ p, role.adopts p = 0) (none_owned : ∀ p, role.references p = 0)
    (refs : shared.refs = s.shared.refs) (net : shared.lNet = s.shared.lNet)
    (nextNet : shared.nextNet = s.shared.nextNet) :
    Counted ⟨shared, s.threads.set t ⟨role, prog'⟩⟩ := by
  have adopters (p : ℕ) : held (Role.adopts p) (s.threads.set t ⟨role, prog'⟩) =
      held (Role.adopts p) s.threads := held_set_of_eq at_t (none_adopted p)
  have owners (p : ℕ) : held (Role.references p) (s.threads.set t ⟨role, prog'⟩) =
      held (Role.references p) s.threads := held_set_of_eq at_t (none_owned p)
  have same (p : ℕ) : netRef shared p = netRef s.shared p := by rw [netRef, netRef, net]
  refine ⟨balanced, fun p => ?_, fun p => ?_, fun p new => ?_⟩
  · rw [refs, adopters, owners, same]
    exact h.refs p
  · rw [adopters, same]
    exact h.adopting p
  · rw [owners, same]
    exact h.young p (nextNet ▸ new)

theorem counted_step {env : Env} {s s' : State} {e : Event} (h : Counted s)
    (balanced : Balanced s') (st : Step env s e s') : Counted s' := by
  cases st with
  | act at_t acts =>
    exact ⟨balanced, refs_act h at_t acts, adopting_act h at_t acts, young_act h at_t acts⟩
  | shutdown => exact ⟨balanced, h.refs, h.adopting, h.young⟩
  | handle _ at_t | answer _ at_t | exit _ at_t =>
    exact counted_begin h at_t balanced (fun _ => rfl) (fun _ => rfl) rfl rfl rfl

theorem counted_init (threads : ℕ) : Counted (init threads) := by
  have nobody (worth : Role → ℕ) (outside : worth .outside = 0) :
      held worth (init threads).threads = 0 := total_replicate_zero _ _ _ outside
  refine ⟨balanced_init threads, fun p => ?_, fun p => ?_, fun p _ => ⟨rfl, nobody _ rfl⟩⟩
  · rw [nobody _ rfl, nobody _ rfl]
    rfl
  · rw [nobody _ rfl]
    exact Nat.zero_le _

def ReleasedOnce (s : Shared) : Prop :=
  ∀ p, s.hist.released.count p + min (s.refs p) 1 = if p < s.nextNet then 1 else 0

theorem touch_live {s : Shared} {net : Option Net} (live : ∀ n ∈ net, 0 < s.refs n.ptr) :
    s.touch net = s := by
  have none_dead : (net.toList.filter fun n => s.refs n.ptr = 0) = [] := by
    refine List.filter_eq_nil_iff.mpr fun n member => ?_
    have := live n (Option.mem_toList.mp member)
    simp only [decide_eq_true_eq]
    omega
  simp only [Shared.touch, none_dead, List.map_nil, List.append_nil]

theorem releasedOnce_decref {s : Shared} {net : Net} (once : ReleasedOnce s)
    (live : 0 < s.refs net.ptr) : ReleasedOnce (s.jsonDecref net) := by
  intro p
  have before := once p
  by_cases here : net.ptr = p
  · subst here
    by_cases last : s.refs net.ptr ≤ 1
    · simp [Shared.jsonDecref, Shared.touch, last] at before ⊢
      omega
    · simp [Shared.jsonDecref, Shared.touch, last] at before ⊢
      omega
  · have same : (s.jsonDecref net).hist.released.count p = s.hist.released.count p := by
      unfold Shared.jsonDecref
      split <;> simp [here]
    have refs : (s.jsonDecref net).refs p = s.refs p := by
      simp [Shared.jsonDecref, Ne.symm here]
    rw [same, refs]
    exact before

theorem releasedOnce_incref {s : Shared} {net : Net} (once : ReleasedOnce s)
    (live : 0 < s.refs net.ptr) :
    ReleasedOnce { s with refs := Function.update s.refs net.ptr (s.refs net.ptr + 1) } := by
  intro p
  have before := once p
  by_cases here : p = net.ptr
  · subst here
    simp at before ⊢
    omega
  · simp only [Function.update_of_ne here]
    exact before

theorem releasedOnce_load {s : Shared} (once : ReleasedOnce s) (fresh : s.refs s.nextNet = 0) :
    ReleasedOnce { s with
      nextNet := s.nextNet + 1, refs := Function.update s.refs s.nextNet 1 } := by
  intro p
  have before := once p
  by_cases here : p = s.nextNet
  · subst here
    rw [fresh] at before
    simp at before ⊢
    exact before
  · have same : (p < s.nextNet + 1) = (p < s.nextNet) := by
      simp only [eq_iff_iff]
      omega
    simp only [Function.update_of_ne here, same]
    exact before

theorem Balanced.dancing_of_stage {s : State} (h : Balanced s) {t : ℕ} {known : Option Net}
    {prog : AcsM Unit} (at_t : s.threads[t]? = some ⟨.stage known, prog⟩) :
    s.shared.lDancing = true := by
  have open_ : s.shared.exited = false := by
    cases exited : s.shared.exited with
    | false => rfl
    | true =>
      rcases h.orderly.after exited _ (List.mem_of_getElem? at_t) with exits | ⟨outside, _⟩
      · cases exits
      · cases outside
  exact Bool.toNat_eq_one.mp (Nat.le_antisymm (Bool.toNat_le _) (h.dances_le open_ at_t))

theorem Counted.live_of_dancing {s : State} (h : Counted s) (dancing : s.shared.lDancing = true)
    {net : Net} (set : s.shared.lNet = some net) : 0 < s.shared.refs net.ptr := by
  have free : s.shared.locked = false := by
    cases locked : s.shared.locked with
    | false => rfl
    | true => exact absurd (dancing.symm.trans (h.balanced.apart locked)) nofun
  have counted := h.netRef_le free net.ptr
  simp only [netRef, set, Option.map_some, Option.getD_some, Net.at_ptr] at counted
  exact counted

structure Steady (s : State) : Prop where
  counted : Counted s
  once : ReleasedOnce s.shared
  stale : s.shared.hist.stale = []
  dance : s.shared.lDancing = true →
    ∃ net, s.shared.lNet = some net ∧ s.shared.hist.danceNet = some net
  known : ∀ th ∈ s.threads, ∀ known, th.role = .stage known →
    known = none ∨ known = s.shared.lNet
  leavers : ∀ th ∈ s.threads, th.role.exits = true → th.role = .leaving ∨
    s.shared.lDancing = false ∧ (th.role = .seated ∨ s.shared.lNet = none)

section Act

variable {env : Env} {s : State} {t : ℕ} {c : Choice} {role role' : Role} {o : Op}
  {next : o.Result → AcsM Unit} {prog' : AcsM Unit} {shared' : Shared}

theorem Steady.live_borrowed (h : Steady s) {known borrowed : Option Net}
    (at_t : s.threads[t]? = some ⟨.stage known, .op o next⟩)
    (live : borrowed = none ∨ borrowed = known) : ∀ n ∈ borrowed, 0 < s.shared.refs n.ptr := by
  intro net member
  have dancing := h.counted.balanced.dancing_of_stage at_t
  rcases live with rfl | rfl
  · cases member
  · rcases h.known _ (List.mem_of_getElem? at_t) _ rfl with rfl | rfl
    · cases member
    · exact h.counted.live_of_dancing dancing member

theorem Steady.live_own (h : Steady s) {prog : AcsM Unit} {net : Net}
    (at_t : s.threads[t]? = some ⟨role, prog⟩) (own : role.references net.ptr = 1) :
    0 < s.shared.refs net.ptr := by
  have := h.counted.references_le at_t net.ptr
  omega

theorem Steady.live_old (h : Steady s) {old : Net} (free : s.shared.locked = false)
    (current : s.shared.lNet = some old) : 0 < s.shared.refs old.ptr := by
  have counted := h.counted.netRef_le free old.ptr
  simp only [netRef, current, Option.map_some, Option.getD_some, Net.at_ptr] at counted
  exact counted

theorem once_act (h : Steady s) (at_t : s.threads[t]? = some ⟨role, .op o next⟩)
    (acts : Acts env t c s.shared role o role' shared') : ReleasedOnce shared' := by
  cases acts with
  | takeOver free _ current | exitOver free _ current =>
    exact releasedOnce_decref h.once (h.live_old free current)
  | decref => exact releasedOnce_decref h.once (h.live_own at_t (Net.at_ptr _))
  | incref => exact releasedOnce_incref h.once (h.live_own at_t (Net.at_ptr _))
  | load => exact releasedOnce_load h.once (h.counted.fresh (Nat.le_refl _))
  | _ => exact h.once

theorem stale_act (h : Steady s) (at_t : s.threads[t]? = some ⟨role, .op o next⟩)
    (acts : Acts env t c s.shared role o role' shared') : shared'.hist.stale = [] := by
  have touched {net : Option Net} (live : ∀ n ∈ net, 0 < s.shared.refs n.ptr) :
      (s.shared.touch net).hist.stale = [] := by
    rw [touch_live live]
    exact h.stale
  have own {net : Net} (own : role.references net.ptr = 1) :
      (s.shared.touch (some net)).hist.stale = [] := by
    refine touched fun n member => ?_
    cases member
    exact h.live_own at_t own
  have old {net : Net} (free : s.shared.locked = false) (current : s.shared.lNet = some net) :
      (s.shared.touch (some net)).hist.stale = [] := by
    refine touched fun n member => ?_
    cases member
    exact h.live_old free current
  cases acts with
  | look =>
    exact touched fun n set =>
      h.counted.live_of_dancing (h.counted.balanced.dancing_of_stage at_t) set
  | sent | complain | refused | noObject | adopting | ready | exitRefused => exact touched nofun
  | report live | last live | queue live | queueFull live =>
    exact touched (h.live_borrowed at_t live)
  | takeOver free _ current | exitOver free _ current => exact old free current
  | accept | reject | dump | incref | decref => exact own (Net.at_ptr _)
  | _ => exact h.stale

theorem lNet_act (h : Balanced s) (at_t : s.threads[t]? = some ⟨role, .op o next⟩)
    (acts : Acts env t c s.shared role o role' shared') (dancing : s.shared.lDancing = true) :
    shared'.lNet = s.shared.lNet := by
  cases acts with
  | takeFirst _ idle | takeOver _ idle | exitFirst _ idle | exitOver _ idle =>
    exact absurd (idle.symm.trans dancing) nofun
  | drop =>
    have idle := h.apart (h.locked_of_role at_t rfl)
    exact absurd (idle.symm.trans dancing) nofun
  | _ => rfl

theorem dance_act (h : Steady s) (at_t : s.threads[t]? = some ⟨role, .op o next⟩)
    (acts : Acts env t c s.shared role o role' shared') (dancing : shared'.lDancing = true) :
    ∃ net, shared'.lNet = some net ∧ shared'.hist.danceNet = some net := by
  have before (still : s.shared.lDancing = true) :
      ∃ net, shared'.lNet = some net ∧ s.shared.hist.danceNet = some net := by
    rw [lNet_act h.counted.balanced at_t acts still]
    exact h.dance still
  cases acts with
  | start _ _ _ set => exact ⟨_, set, rfl⟩
  | sitdown | exitSitdown => cases dancing
  | _ => exact before dancing

theorem known_act (h : Steady s) (at_t : s.threads[t]? = some ⟨role, .op o next⟩)
    (acts : Acts env t c s.shared role o role' shared') :
    ∀ th ∈ s.threads.set t ⟨role', prog'⟩, ∀ known, th.role = .stage known →
      known = none ∨ known = shared'.lNet := by
  have others : ∀ th ∈ s.threads, ∀ known, th.role = .stage known →
      known = none ∨ known = shared'.lNet := by
    intro th member known stage
    obtain ⟨i, at_i⟩ := List.mem_iff_getElem?.mp member
    have dancing : s.shared.lDancing = true := by
      cases th
      cases stage
      exact h.counted.balanced.dancing_of_stage at_i
    rw [lNet_act h.counted.balanced at_t acts dancing]
    exact h.known th member known stage
  refine forall_set others fun known stage => ?_
  have own := h.known _ (List.mem_of_getElem? at_t)
  cases acts with
  | quiet | report => exact own known stage
  | look =>
    cases stage
    exact .inr rfl
  | start =>
    cases stage
    exact .inl rfl
  | _ => cases stage

theorem leavers_act (h : Steady s) (at_t : s.threads[t]? = some ⟨role, .op o next⟩)
    (acts : Acts env t c s.shared role o role' shared') :
    ∀ th ∈ s.threads.set t ⟨role', prog'⟩, th.role.exits = true → th.role = .leaving ∨
      shared'.lDancing = false ∧ (th.role = .seated ∨ shared'.lNet = none) := by
  have orderly := h.counted.balanced.orderly
  have own := h.leavers _ (List.mem_of_getElem? at_t)
  cases exits : role.exits with
  | false =>
    -- before `acs_exit` no thread has such a role
    have open_ := (orderly.exits_of_acting at_t).symm.trans exits
    have still := (exits_of_acts acts).1.trans exits
    have nobody := forall_set (i := t) (orderly.before open_) (y := ⟨role', prog'⟩) still
    exact fun th member gone => absurd ((nobody th member).symm.trans gone) nofun
  | true =>
    have own := own exits
    cases acts with
    | quiet => exact forall_set h.leavers fun _ => own
    | exitSitdown =>
      refine forall_set (fun th member exits => ?_) fun _ => .inr ⟨rfl, .inl rfl⟩
      exact (h.leavers th member exits).imp id fun seated => ⟨rfl, seated.2⟩
    | exitRefuse dancing =>
      rcases own with leaving | ⟨idle, _⟩
      · cases leaving
      · exact absurd (idle.symm.trans dancing) nofun
    | exitFirst _ idle | exitOver _ idle =>
      exact forall_set (fun _ _ _ => .inr ⟨idle, .inr rfl⟩) fun _ => .inr ⟨idle, .inr rfl⟩
    | exitUnlock | exitRefused | exitDone =>
      refine forall_set h.leavers fun _ => .inr ?_
      rcases own with leaving | ⟨idle, seated | unset⟩
      · cases leaving
      · cases seated
      · exact ⟨idle, .inr unset⟩
    | _ => cases exits

end Act

theorem steady_step {env : Env} {s s' : State} {e : Event} (h : Steady s)
    (balanced : Balanced s') (st : Step env s e s') : Steady s' := by
  have counted := counted_step h.counted balanced st
  cases st with
  | act at_t acts =>
    exact ⟨counted, once_act h at_t acts, stale_act h at_t acts, dance_act h at_t acts,
      known_act h at_t acts, leavers_act h at_t acts⟩
  | handle =>
    exact ⟨counted, h.once, h.stale, h.dance, forall_set h.known nofun, forall_set h.leavers nofun⟩
  | answer =>
    have unread (net : Option Net) : ∀ known, Role.stage none = .stage known →
        known = none ∨ known = net := by
      intro known same
      cases same
      exact .inl rfl
    exact ⟨counted, h.once, h.stale, h.dance, forall_set h.known (unread _),
      forall_set h.leavers nofun⟩
  | shutdown => exact ⟨counted, h.once, h.stale, h.dance, h.known, h.leavers⟩
  | exit =>
    exact ⟨counted, h.once, h.stale, h.dance, forall_set h.known nofun,
      forall_set h.leavers fun _ => .inl rfl⟩

theorem steady_init (threads : ℕ) : Steady (init threads) := by
  have idle : ∀ th ∈ (init threads).threads, th.role = .outside := fun th member =>
    congrArg Thread.role (List.eq_of_mem_replicate member)
  refine ⟨counted_init threads, fun p => rfl, rfl, nofun, fun th member known stage => ?_,
    fun th member exits => ?_⟩
  · rw [idle th member] at stage
    cases stage
  · rw [idle th member] at exits
    cases exits

theorem steady_always (env : Env) (threads : ℕ) (es : List Event) :
    (machine env).Always Steady (init threads) es :=
  (machine env).always_of_step
    (fun s e s' h moved => by
      obtain ⟨orderly, st⟩ := step_cases h.counted.balanced.orderly moved
      exact steady_step h (balanced_step h.counted.balanced orderly st) st)
    (steady_init threads) es

/-- The dance goes on with the live NET it began with, and no NET is used after its
release or released twice. -/
structure NetKept (s : State) : Prop where
  one : s.shared.lDancing = true → ∃ net,
    s.shared.lNet = some net ∧ s.shared.hist.danceNet = some net ∧ 1 ≤ s.shared.refs net.ptr
  live : s.shared.hist.stale = []
  once : ∀ p, s.shared.hist.released.count p ≤ 1

theorem Steady.netKept {s : State} (h : Steady s) : NetKept s where
  one dancing := by
    obtain ⟨net, set, same⟩ := h.dance dancing
    exact ⟨net, set, same, h.counted.live_of_dancing dancing set⟩
  live := h.stale
  once p := by
    have once := h.once p
    split at once <;> omega

theorem Steady.released {s : State} (h : Steady s) (exited : s.shared.exited = true)
    (ended : ∀ th ∈ s.threads, th.prog.isDone = true) (p : ℕ) (made : p < s.shared.nextNet) :
    s.shared.hist.released.count p = 1 := by
  have orderly := h.counted.balanced.orderly
  have final (th) (member : th ∈ s.threads) : th.role.final :=
    orderly.obeys.final_of_done member (ended th member)
  have unset : s.shared.lNet = none := by
    obtain ⟨th, member, exits⟩ := orderly.main exited
    rcases final th member with outside | gone
    · rw [outside] at exits
      cases exits
    · rcases h.leavers th member exits with leaving | ⟨_, seated | unset⟩
      · exact absurd (gone.symm.trans leaving) nofun
      · exact absurd (gone.symm.trans seated) nofun
      · exact unset
  have unheld : held (Role.references p) s.threads = 0 := by
    refine (total_eq_zero _).mpr fun th member => ?_
    rcases final th member with outside | gone
    · rw [outside]
      rfl
    · rw [gone]
      rfl
  have refs := h.counted.refs p
  have once := h.once p
  rw [unheld, netRef, unset] at refs
  rw [if_pos made] at once
  simp only [Option.map_none, Option.getD_none] at refs
  omega

/-- In every run the NET of a dance stays the same and live, and no NET is released twice;
after `acs_exit` each NET that was made has been released once. -/
theorem nets_kept_and_released (env : Env) (threads : ℕ) (es : List Event) (s : State)
    (run : (machine env).exec (init threads) es = some s) :
    (machine env).Always NetKept (init threads) es ∧
      (s.shared.exited = true → (∀ th ∈ s.threads, th.prog.isDone = true) →
        ∀ p < s.shared.nextNet, s.shared.hist.released.count p = 1) := by
  have always := steady_always env threads es
  exact ⟨always.imp _ fun s h => h.netKept, (always.finish _ run).released⟩

def refusedRun : List Event :=
  danceRun ++ runs 0 3 ++ [.setup 0 setupPost] ++ runs 0 5 ++ [.exit 0] ++ runs 0 4

theorem nets_released_in_refusedRun :
    ∃ s, (machine exampleEnv).exec (init 2) refusedRun = some s ∧ s.shared.nextNet = 2 ∧
      ∀ p < s.shared.nextNet, s.shared.hist.released.count p = 1 := by
  have exited : (((machine exampleEnv).exec (init 2) refusedRun).map fun s =>
      (s.shared.exited, s.threads.all fun th => th.prog.isDone)) = some (true, true) := by
    decide +kernel
  refine ⟨_, rfl, rfl, ?_⟩
  refine (nets_kept_and_released exampleEnv 2 refusedRun _ rfl).2 ?_ ?_
  · rfl
  · exact List.all_eq_true.mp (congrArg Prod.snd (Option.some.inj exited))

end Jumpbox.Acs
