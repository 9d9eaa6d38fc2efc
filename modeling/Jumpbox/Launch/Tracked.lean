import Jumpbox.Launch.Program
import Mathlib.Data.List.Nodup

/-! Which children the daemon knows of. `djb_launch` reads, terminates, clears, spawns and
stores without a lock; where the launches of one kind do not overlap, the child that runs
is the one recorded. -/

namespace Jumpbox.Launch

open Shared

abbrev State := Pool Shared Op Op.Result Role

inductive Event
  | launch (t : ℕ) (k : Kind) (hcl : HttpsrvClient) (argv : List CStr)
  | run (t : ℕ) (c : Choice)
  | exits (n : ℤ)

def step (processCmdline : List CStr → CStr) (s : State) : Event → Option State
  | .launch t k hcl argv => s.start t (.begun k) (djbLaunch processCmdline hcl argv k)
  | .run t c => s.run discipline exec t c
  | .exits n => some { s with shared := s.shared.kill fun c => c.number = n }

def machine (processCmdline : List CStr → CStr) : Machine State Event := ⟨step processCmdline⟩

def init (threads : ℕ) : State := ⟨{}, List.replicate threads ⟨.idle, .done ()⟩⟩

def Recorded (s : Shared) (k : Kind) : Prop := ∀ n ∈ s.runningOf k, n = s.pnum k

/-- Between launches, no child runs that is not recorded, and at most one of each kind. -/
def OneOfEach (s : State) : Prop :=
  (∀ th ∈ s.threads, th.prog.isDone) →
    ∀ k, Recorded s.shared k ∧ (s.shared.runningOf k).length ≤ 1

/-- A launch is not taken up before the last one of its kind has stored its number. -/
def Apart (s : State) : Event → Prop
  | .launch _ k _ _ => ∀ th ∈ s.threads, th.role.launching ≠ some k
  | _ => True

instance (s : State) : DecidablePred (Apart s)
  | .launch _ k _ _ => inferInstanceAs (Decidable (∀ th ∈ s.threads, th.role.launching ≠ some k))
  | .run .. => isTrue trivial
  | .exits _ => isTrue trivial

inductive Acts (s : Shared) : Role → Role → Shared → Prop
  | quiet {role} (answers : List (HttpsrvClient × List Out)) (stored : role.launching = none) :
      Acts s role role { s with answers }
  | vacant {k} (free : s.pnum k = 0) : Acts s (.begun k) (.ready k) s
  | occupied {k} : Acts s (.begun k) (.occupied k) s
  | look {k} : Acts s (.occupied k) (.stopping k (s.pnum k)) s
  | terminate {k n} : Acts s (.stopping k n) (.stopped k) (s.kill fun c => c.number = n)
  | clear {k} : Acts s (.stopped k) (.ready k) { s with pnum := Function.update s.pnum k 0 }
  | fail {k n} : Acts s (.ready k) (.spawned k n) s
  | spawn {k n} (positive : 0 < n) (fresh : n ∉ s.running) :
      Acts s (.ready k) (.spawned k n)
        { s with children := s.children ++ [{ kind := k, number := n }] }
  | skip {k} : Acts s (.ready k) (.stored k) s
  | store {k n} :
      Acts s (.spawned k n) (.stored k) { s with pnum := Function.update s.pnum k n }

theorem acts_num {t : ℕ} {c : Choice} {s s' : Shared} {role : Role} {k : Kind} {n : ℤ}
    (may : role.may (.num k)) (performed : exec t (.num k) c s = some (s', n)) :
    Acts s role (role.after (.num k) n) s' := by
  cases performed
  cases role with
  | begun k' =>
    obtain rfl := may
    change Acts s (.begun k) (Role.tested k (s.pnum k)) s
    unfold Role.tested
    split
    next free => exact .vacant free
    next => exact .occupied
  | occupied k' => obtain rfl := may; exact .look
  | ready k' => obtain rfl := may; exact .skip
  | stored k' => exact .quiet s.answers rfl
  | _ => exact may.elim

theorem acts_spawn {t : ℕ} {c : Choice} {s s' : Shared} {role : Role} {k : Kind}
    {argv : List CStr} {logfile : CStr} {n : ℤ} (may : role.may (.processSpawn k argv logfile))
    (performed : exec t (.processSpawn k argv logfile) c s = some (s', n)) :
    Acts s role (role.after (.processSpawn k argv logfile) n) s' := by
  cases role with
  | ready k' =>
    obtain rfl := may
    unfold exec at performed
    dsimp only at performed
    split at performed
    next => cases performed; exact .fail
    next positive =>
      split at performed
      next => cases performed
      next fresh => cases performed; exact .spawn (not_le.mp positive) fresh
  | _ => exact may.elim

theorem acts_of_exec {t : ℕ} {c : Choice} {s s' : Shared} {role : Role} {o : Op} {x : o.Result}
    (may : role.may o) (performed : exec t o c s = some (s', x)) :
    Acts s role (role.after o x) s' := by
  cases o with
  | num k => exact acts_num may performed
  | processSpawn => exact acts_spawn may performed
  | setNum k n =>
    cases performed
    cases role with
    | stopped k' => obtain ⟨rfl, rfl⟩ := may; exact .clear
    | spawned k' n' => obtain ⟨rfl, rfl⟩ := may; exact .store
    | _ => exact may.elim
  | processTerminate n =>
    cases performed
    cases role with
    | stopping k' n' => obtain rfl := may; exact .terminate
    | _ => exact may.elim
  | aprintf =>
    cases performed
    cases role with
    | stored k' => exact .quiet s.answers rfl
    | _ => exact may.elim
  | answer hcl outs =>
    cases performed
    cases role with
    | stored k' => exact .quiet _ rfl
    | _ => exact may.elim

def Holds (s : Shared) : Role → Prop
  | .begun k | .occupied k => Recorded s k
  | .stopping k n => Recorded s k ∧ n = s.pnum k
  | .stopped k | .ready k => s.runningOf k = []
  | .spawned k n => ∀ m ∈ s.runningOf k, m = n
  | .idle | .stored _ => True

structure Numbered (s : Shared) : Prop where
  positive : ∀ n ∈ s.running, 0 < n
  nodup : s.running.Nodup

structure Kept (s : State) : Prop where
  obeys : s.Obeys discipline Role.final
  numbered : Numbered s.shared
  one : ∀ (k : Kind) (i j : ℕ) (th th' : Thread Op Op.Result Role), s.threads[i]? = some th →
    s.threads[j]? = some th' → th.role.launching = some k → th'.role.launching = some k → i = j
  during : ∀ th ∈ s.threads, Holds s.shared th.role
  between : ∀ k, (∀ th ∈ s.threads, th.role.launching ≠ some k) → Recorded s.shared k

theorem numbers_kill (s : Shared) (dies : Child → Bool) (chosen : Kind → Bool) :
    (s.kill dies).numbers chosen =
      ((s.children.filter fun c => c.alive && chosen c.kind).filter fun c => !dies c).map
        Child.number := by
  unfold Shared.numbers Shared.kill
  induction s.children with
  | nil => rfl
  | cons c rest ih =>
    cases alive : c.alive <;> cases dead : dies c <;> cases pick : chosen c.kind <;>
      simp_all

theorem numbers_kill_sublist (s : Shared) (dies : Child → Bool) (chosen : Kind → Bool) :
    List.Sublist ((s.kill dies).numbers chosen) (s.numbers chosen) := by
  rw [numbers_kill]
  exact List.filter_sublist.map _

theorem ne_of_mem_numbers_kill {s : Shared} {n m : ℤ} {chosen : Kind → Bool}
    (runs : m ∈ (s.kill fun c => c.number = n).numbers chosen) : m ≠ n := by
  rw [numbers_kill] at runs
  obtain ⟨c, member, rfl⟩ := List.mem_map.mp runs
  simpa using (List.mem_filter.mp member).2

theorem numbers_sublist (s : Shared) (chosen : Kind → Bool) :
    List.Sublist (s.numbers chosen) s.running := by
  have split : (s.children.filter fun c => c.alive && chosen c.kind) =
      (s.children.filter fun c => c.alive && true).filter fun c => chosen c.kind := by
    simp [List.filter_filter, Bool.and_comm]
  rw [Shared.numbers, split]
  exact List.filter_sublist.map _

theorem numbers_spawn (s : Shared) (k : Kind) (n : ℤ) (chosen : Kind → Bool) :
    ({ s with children := s.children ++ [{ kind := k, number := n }] } : Shared).numbers chosen =
      s.numbers chosen ++ if chosen k then [n] else [] := by
  cases pick : chosen k <;> simp [numbers, List.filter_append, pick]

theorem acts_numbered {s s' : Shared} {role role' : Role} (h : Numbered s)
    (acts : Acts s role role' s') : Numbered s' := by
  cases acts with
  | @terminate k n =>
    have fewer := numbers_kill_sublist s (fun c => c.number = n) fun _ => true
    exact ⟨fun m runs => h.positive m (fewer.subset runs), fewer.nodup h.nodup⟩
  | @spawn k n positive fresh =>
    have more : Shared.running { s with children := s.children ++ [{ kind := k, number := n }] } =
        s.running ++ [n] := numbers_spawn s k n fun _ => true
    constructor
    · intro m runs
      rw [more] at runs
      rcases List.mem_append.mp runs with old | new
      · exact h.positive m old
      · rwa [List.mem_singleton.mp new]
    · rw [more]
      exact List.nodup_append.mpr ⟨h.nodup, List.nodup_singleton n, fun m old m' new => by
        rw [List.mem_singleton.mp new]
        exact fun same => fresh (same ▸ old)⟩
  | _ => exact ⟨h.positive, h.nodup⟩

theorem acts_others {s s' : Shared} {role role' : Role} {k : Kind} (acts : Acts s role role' s')
    (other : role.launching ≠ some k) :
    s'.pnum k = s.pnum k ∧ s'.runningOf k ⊆ s.runningOf k := by
  have apart {k' : Kind} (launching : role.launching = some k') : k ≠ k' := by
    rintro rfl
    exact other launching
  cases acts with
  | @terminate k' n =>
    exact ⟨rfl, (numbers_kill_sublist s (fun c => c.number = n) fun kind => kind = k).subset⟩
  | clear => exact ⟨Function.update_of_ne (apart rfl) _ _, List.Subset.refl _⟩
  | store => exact ⟨Function.update_of_ne (apart rfl) _ _, List.Subset.refl _⟩
  | @spawn k' n positive fresh =>
    refine ⟨rfl, ?_⟩
    rw [runningOf, numbers_spawn, if_neg (by simpa using (apart rfl).symm), List.append_nil]
    exact List.Subset.refl _
  | _ => exact ⟨rfl, List.Subset.refl _⟩

theorem holds_mono {s s' : Shared} {role : Role} (h : Holds s role)
    (same : ∀ k, role.launching = some k → s'.pnum k = s.pnum k ∧ s'.runningOf k ⊆ s.runningOf k) :
    Holds s' role := by
  cases role with
  | begun k | occupied k =>
    obtain ⟨num, fewer⟩ := same k rfl
    exact fun n runs => (h n (fewer runs)).trans num.symm
  | stopping k n =>
    obtain ⟨num, fewer⟩ := same k rfl
    exact ⟨fun n runs => (h.1 n (fewer runs)).trans num.symm, h.2.trans num.symm⟩
  | stopped k | ready k =>
    obtain ⟨_, fewer⟩ := same k rfl
    have none_runs : s.runningOf k = [] := h
    exact List.subset_nil.mp (none_runs ▸ fewer)
  | spawned k n =>
    obtain ⟨_, fewer⟩ := same k rfl
    exact fun m runs => h m (fewer runs)
  | idle | stored k => trivial

theorem acts_holds {s s' : Shared} {role role' : Role} (h : Holds s role) (numbered : Numbered s)
    (acts : Acts s role role' s') : Holds s' role' := by
  cases acts with
  | quiet answers stored =>
    cases role with
    | idle | stored => trivial
    | _ => cases stored
  | @vacant k free =>
    refine List.eq_nil_iff_forall_not_mem.mpr fun n runs => ?_
    have zero : n = 0 := (h n runs).trans free
    exact absurd (numbered.positive n ((numbers_sublist s _).subset runs)) (by omega)
  | occupied => exact h
  | look => exact ⟨h, rfl⟩
  | @terminate k n =>
    obtain ⟨recorded, rfl⟩ := h
    refine List.eq_nil_iff_forall_not_mem.mpr fun m runs => ?_
    have before := (numbers_kill_sublist s (fun c => c.number = s.pnum k) _).subset runs
    exact ne_of_mem_numbers_kill runs (recorded m before)
  | clear => exact h
  | @fail k n =>
    intro m runs
    have none_runs : s.runningOf k = [] := h
    rw [none_runs] at runs
    cases runs
  | @spawn k n positive fresh =>
    intro m runs
    have none_runs : s.numbers (fun kind => kind = k) = [] := h
    rw [Shared.runningOf, numbers_spawn, none_runs, if_pos (by simp)] at runs
    exact List.mem_singleton.mp runs
  | skip => trivial
  | store => trivial

theorem acts_launching {s s' : Shared} {role role' : Role} (h : Holds s role)
    (acts : Acts s role role' s') :
    role'.launching = role.launching ∨
      role'.launching = none ∧ ∀ k, role.launching = some k → Recorded s' k := by
  cases acts with
  | @skip k =>
    refine .inr ⟨rfl, fun k' launching n runs => ?_⟩
    obtain rfl : k = k' := Option.some.inj launching
    have none_runs : s.runningOf k = [] := h
    rw [none_runs] at runs
    cases runs
  | @store k n =>
    refine .inr ⟨rfl, fun k' launching m runs => ?_⟩
    obtain rfl : k = k' := Option.some.inj launching
    have now : Function.update s.pnum k n k = n := Function.update_self ..
    exact (h m runs).trans now.symm
  | _ => exact .inl rfl

theorem recorded_mono {s s' : Shared} {k : Kind} (h : Recorded s k) (num : s'.pnum k = s.pnum k)
    (fewer : s'.runningOf k ⊆ s.runningOf k) : Recorded s' k :=
  fun n runs => (h n (fewer runs)).trans num.symm

theorem kept_act {s : State} {t : ℕ} {role role' : Role} {o : Op} {next : o.Result → LaunchM Unit}
    {shared' : Shared} {prog' : LaunchM Unit} (h : Kept s)
    (at_t : s.threads[t]? = some ⟨role, .op o next⟩) (acts : Acts s.shared role role' shared')
    (obeys : (⟨shared', s.threads.set t ⟨role', prog'⟩⟩ : State).Obeys discipline Role.final) :
    Kept ⟨shared', s.threads.set t ⟨role', prog'⟩⟩ := by
  have own := h.during _ (List.mem_of_getElem? at_t)
  have still {k : Kind} (launching : role'.launching = some k) : role.launching = some k := by
    rcases acts_launching own acts with same | ⟨ended, _⟩
    · exact same ▸ launching
    · cases ended.symm.trans launching
  have at_set := Table.getElem?_set_of_some at_t (⟨role', prog'⟩ : Thread Op Op.Result Role)
  refine ⟨obeys, acts_numbered h.numbered acts, ?_, ?_, ?_⟩
  · intro k i j th th' at_i at_j first second
    have at_i := (at_set i).symm.trans at_i
    have at_j := (at_set j).symm.trans at_j
    split at at_i <;> split at at_j
    next own_i own_j => exact own_i.symm.trans own_j
    next own_i _ =>
      cases at_i
      exact own_i ▸ h.one k t j _ _ at_t at_j (still first) second
    next _ own_j =>
      cases at_j
      exact own_j ▸ h.one k i t _ _ at_i at_t first (still second)
    next => exact h.one k i j _ _ at_i at_j first second
  · intro th member
    obtain ⟨j, at_j⟩ := List.mem_iff_getElem?.mp member
    have at_j := (at_set j).symm.trans at_j
    split at at_j
    next => cases at_j; exact acts_holds own h.numbered acts
    next apart =>
      refine holds_mono (h.during th (List.mem_of_getElem? at_j)) fun k launching => ?_
      exact acts_others acts fun mine => apart (h.one k t j _ _ at_t at_j mine launching)
  · intro k none_launches
    have new := none_launches _ (List.mem_set (List.getElem?_eq_some_iff.mp at_t).1 _)
    by_cases mine : role.launching = some k
    · rcases acts_launching own acts with same | ⟨_, recorded⟩
      · exact absurd (same.trans mine) new
      · exact recorded k mine
    · obtain ⟨num, fewer⟩ := acts_others acts mine
      refine recorded_mono (h.between k fun th member => ?_) num fewer
      by_cases at_own : th = ⟨role, .op o next⟩
      · exact at_own ▸ mine
      · exact none_launches th (Table.mem_set_of_ne at_t _ member at_own)

theorem kept_launch {s : State} {t : ℕ} {k : Kind} {old : Role} {prog : LaunchM Unit} (h : Kept s)
    (at_t : s.threads[t]? = some ⟨old, .done ()⟩)
    (apart : ∀ th ∈ s.threads, th.role.launching ≠ some k)
    (obeys : (⟨s.shared, s.threads.set t ⟨.begun k, prog⟩⟩ : State).Obeys discipline Role.final) :
    Kept { s with threads := s.threads.set t ⟨.begun k, prog⟩ } := by
  have ended : old.launching = none := h.obeys.final_of_done (List.mem_of_getElem? at_t) rfl
  have at_set := Table.getElem?_set_of_some at_t (⟨.begun k, prog⟩ : Thread Op Op.Result Role)
  refine ⟨obeys, h.numbered, ?_, ?_, ?_⟩
  · intro k' i j th th' at_i at_j first second
    have at_i := (at_set i).symm.trans at_i
    have at_j := (at_set j).symm.trans at_j
    split at at_i <;> split at at_j
    next own_i own_j => exact own_i.symm.trans own_j
    next _ _ =>
      cases at_i
      exact absurd (second.trans first.symm) (apart th' (List.mem_of_getElem? at_j))
    next _ _ =>
      cases at_j
      exact absurd (first.trans second.symm) (apart th (List.mem_of_getElem? at_i))
    next => exact h.one k' i j _ _ at_i at_j first second
  · exact Table.forall_set h.during (h.between k apart)
  · intro k' none_launches
    refine h.between k' fun th member => ?_
    by_cases at_own : th = ⟨old, .done ()⟩
    · rw [at_own, ended]
      nofun
    · exact none_launches th (Table.mem_set_of_ne at_t _ member at_own)

theorem kept_exits {s : State} (h : Kept s) (n : ℤ) :
    Kept { s with shared := s.shared.kill fun c => c.number = n } := by
  have fewer := numbers_kill_sublist s.shared fun c => c.number = n
  refine ⟨h.obeys, ⟨fun m runs => ?_, (fewer _).nodup h.numbered.nodup⟩, h.one, ?_, ?_⟩
  · exact h.numbered.positive m ((fewer _).subset runs)
  · exact fun th member => holds_mono (h.during th member) fun k _ => ⟨rfl, (fewer _).subset⟩
  · exact fun k none_launches => recorded_mono (h.between k none_launches) rfl (fewer _).subset

theorem kept_step {processCmdline : List CStr → CStr} {s s' : State} {e : Event} (h : Kept s)
    (apart : Apart s e) (moved : step processCmdline s e = some s') : Kept s' := by
  cases e with
  | launch t k hcl argv =>
    obtain ⟨old, at_t, rfl⟩ := Pool.start_cases moved
    exact kept_launch h at_t apart
      (Pool.obeys_set h.obeys (djbLaunch_follows processCmdline hcl argv k))
  | run t c =>
    obtain ⟨obeys, role, o, next, shared, x, at_t, may, performed, rfl⟩ :=
      Pool.run_cases h.obeys moved
    exact kept_act h at_t (acts_of_exec may performed) obeys
  | exits n => cases moved; exact kept_exits h n

theorem kept_init (threads : ℕ) : Kept (init threads) := by
  have idle : ∀ th ∈ (init threads).threads, th = ⟨.idle, .done ()⟩ := fun th member =>
    List.eq_of_mem_replicate member
  refine ⟨fun th member => ?_, ⟨nofun, List.nodup_nil⟩, ?_, fun th member => ?_, fun k _ => nofun⟩
  · rw [idle th member]
    rfl
  · intro k i j th th' at_i at_j first
    rw [idle th (List.mem_of_getElem? at_i)] at first
    cases first
  · rw [idle th member]
    trivial

theorem Kept.oneOfEach {s : State} (h : Kept s) : OneOfEach s := by
  intro ended k
  have recorded : Recorded s.shared k := h.between k fun th member => by
    rw [show th.role.launching = none from h.obeys.final_of_done member (ended th member)]
    nofun
  have nodup := (numbers_sublist s.shared fun kind => kind = k).nodup h.numbered.nodup
  refine ⟨recorded, ?_⟩
  change ∀ n ∈ s.shared.numbers _, n = s.shared.pnum k at recorded
  change (s.shared.numbers _).length ≤ 1
  cases runs : s.shared.numbers fun kind => kind = k with
  | nil => exact Nat.zero_le 1
  | cons n rest =>
    cases rest with
    | nil => exact le_rfl
    | cons m rest =>
      rw [runs] at nodup recorded
      have first := recorded n List.mem_cons_self
      have second := recorded m (List.mem_cons_of_mem _ List.mem_cons_self)
      exact absurd (first.trans second.symm) (by simp_all)

/-- As long as the launches of one kind do not overlap, one child of it runs at most, and
that is the one recorded. -/
theorem one_of_each_of_apart (processCmdline : List CStr → CStr) (threads : ℕ) (es : List Event)
    (meets : (machine processCmdline).Meets Apart (init threads) es) :
    (machine processCmdline).Always OneOfEach (init threads) es :=
  ((machine processCmdline).always_of_meets (fun _ _ _ h apart => kept_step h apart)
    (kept_init threads) meets).imp _ fun _ h => h.oneOfEach

/-! Two requests on two threads. -/

def launchGet : HttpsrvClient where
  id := 1
  reqid := 1
  hostname := "127.0.0.1:6543".toList
  uri := "/launch/stegotorus/".toList

def stegotorusArgv : List CStr := ["/usr/sbin/stegotorus".toList]

def launchEvent (t : ℕ) : Event := .launch t .stegotorus launchGet stegotorusArgv

def runs (t n : ℕ) (spawned : ℤ) : List Event := List.replicate n (.run t { spawned })

def overlappingRun : List Event :=
  [launchEvent 0, launchEvent 1] ++ runs 0 1 0 ++ runs 1 1 0 ++ runs 0 6 10 ++ runs 1 6 11

theorem overlapping_launches_lose_child :
    ¬∀ (processCmdline : List CStr → CStr) (threads : ℕ) (es : List Event) (s : State),
      (machine processCmdline).exec (init threads) es = some s → OneOfEach s := by
  intro always
  have run : (((machine fun _ => []).exec (init 2) overlappingRun).map fun s =>
      (s.threads.all fun th => th.prog.isDone, s.shared.runningOf .stegotorus)) =
      some (true, [10, 11]) := by decide +kernel
  obtain ⟨s, run, facts⟩ := Option.map_eq_some_iff.mp run
  obtain ⟨ended, running⟩ := Prod.mk.inj facts
  have one := (always _ 2 overlappingRun s run (List.all_eq_true.mp ended) .stegotorus).2
  rw [running] at one
  exact absurd one (by decide)

def consecutiveRun : List Event :=
  [launchEvent 0] ++ runs 0 7 10 ++ [launchEvent 1] ++ runs 1 10 11

theorem one_of_each_consecutive :
    ∃ s, (machine fun _ => []).exec (init 2) consecutiveRun = some s ∧
      s.shared.runningOf .stegotorus = [11] ∧ OneOfEach s := by
  have run : (((machine fun _ => []).exec (init 2) consecutiveRun).map fun s =>
      s.shared.runningOf .stegotorus) = some [11] := by decide +kernel
  obtain ⟨s, run, running⟩ := Option.map_eq_some_iff.mp run
  have always := one_of_each_of_apart (fun _ => []) 2 consecutiveRun (by decide +kernel)
  exact ⟨s, run, running, always.finish _ run⟩

end Jumpbox.Launch
