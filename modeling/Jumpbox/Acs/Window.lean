import Jumpbox.Acs.Finish

/-! What is recorded from the acceptance of a NET to the end of its dance. The last
entry may be an error or `done`, and then the thread that recorded it sits down. Three
kinds of entries break this: an error that no stage records, a text too long for
`l_message`, and a "Request sent" that comes after the last status. -/

namespace Jumpbox.Acs

open Table

def LastOnly (ends : ℕ → Prop) (entries : List Recorded) : Prop :=
  (∀ r ∈ entries.dropLast, r.entry.status = .ok) ∧
    ∀ r ∈ entries.getLast?, r.entry.status ≠ .ok → ends r.thread

def AllOk (entries : List Recorded) : Prop := ∀ r ∈ entries, r.entry.status = .ok

def Closing (s : State) (t : ℕ) : Prop := ∃ th ∈ s.threads[t]?, th.role.closes = 1

/-- An error or `done` is the last entry of a dance, by the stage that ends it. -/
def ErrorsEndDances (s : State) : Prop :=
  (∀ entries ∈ s.shared.hist.window, LastOnly (Closing s) entries) ∧
    ∀ closed ∈ s.shared.hist.windows, LastOnly (fun t => closed.2 = some t) closed.1

instance {ends : ℕ → Prop} [DecidablePred ends] (entries : List Recorded) :
    Decidable (LastOnly ends entries) := by
  unfold LastOnly
  infer_instance

instance (s : State) : DecidablePred (Closing s) := fun t => by
  unfold Closing
  infer_instance

instance (s : State) : Decidable (ErrorsEndDances s) := by
  unfold ErrorsEndDances
  infer_instance

theorem AllOk.lastOnly {entries : List Recorded} (h : AllOk entries) (ends : ℕ → Prop) :
    LastOnly ends entries :=
  ⟨fun r member => h r (List.dropLast_subset _ member),
    fun r last bad => absurd (h r (List.mem_of_getLast? last)) bad⟩

theorem AllOk.nil : AllOk [] := List.forall_mem_nil _

theorem AllOk.append {entries new : List Recorded} (h : AllOk entries) (ok : AllOk new) :
    AllOk (entries ++ new) := List.forall_mem_append.mpr ⟨h, ok⟩

theorem AllOk.lastOnly_append {entries : List Recorded} (h : AllOk entries) {r : Recorded}
    {ends : ℕ → Prop} (last : ends r.thread) : LastOnly ends (entries ++ [r]) := by
  refine ⟨?_, fun x member _ => ?_⟩
  · rw [List.dropLast_concat]
    exact h
  · rw [List.getLast?_concat] at member
    cases member
    exact last

theorem LastOnly.allOk {ends : ℕ → Prop} {entries : List Recorded} (h : LastOnly ends entries)
    (nobody : ∀ t, ¬ends t) : AllOk entries := by
  intro r member
  rcases List.eq_nil_or_concat entries with rfl | ⟨front, last, rfl⟩
  · cases member
  · rw [List.concat_eq_append] at h member
    rw [LastOnly, List.dropLast_concat, List.getLast?_concat] at h
    rcases List.mem_append.mp member with earlier | this_one
    · exact h.1 r earlier
    · obtain rfl := List.mem_singleton.mp this_one
      by_contra bad
      exact nobody _ (h.2 r rfl bad)

theorem LastOnly.imp {ends ends' : ℕ → Prop} {entries : List Recorded}
    (h : LastOnly ends entries) (weaken : ∀ t, ends t → ends' t) : LastOnly ends' entries :=
  ⟨h.1, fun r last bad => weaken _ (h.2 r last bad)⟩

def Role.isComplaint : Role → Bool
  | .complains | .refused _ => true
  | _ => false

def Op.fits : Op → Bool
  | .status .ok text _ => text.length < djbMsglen
  | _ => true

/-- While the dance of an accepted NET is not over, OK texts fit, only stages record
errors, and "Request sent" is not recorded after the last status. -/
def OnCue (s : State) : Event → Prop
  | .run t _ => s.shared.hist.window.isSome = true →
      ∀ th ∈ s.threads[t]?, ∀ o ∈ th.prog.head, o.records = true →
        o.fits = true ∧ th.role.isComplaint = false ∧
          (th.role.isOutside = true → held Role.closes s.threads = 0)
  | .exit _ => False
  | _ => True

instance (s : State) : ∀ e, Decidable (OnCue s e)
  | .run t _ => inferInstanceAs (Decidable (s.shared.hist.window.isSome = true →
      ∀ th ∈ s.threads[t]?, ∀ o ∈ th.prog.head, o.records = true →
        o.fits = true ∧ th.role.isComplaint = false ∧
          (th.role.isOutside = true → held Role.closes s.threads = 0)))
  | .exit _ => isFalse id
  | .progress _ _ | .setup _ _ | .peel _ _ | .answer _ _ _ | .shutdown => isTrue trivial

def Role.rejects : Role → ℕ
  | .checking _ | .rejected _ => 1
  | _ => 0

theorem rejects_le_locks (role : Role) : role.rejects ≤ role.locks := by
  cases role with
  | checking net | rejected net => exact Nat.le_refl 1
  | _ => exact Nat.zero_le _

structure Windowed (s : State) : Prop where
  balanced : Balanced s
  serving : s.shared.exited = false
  unopened : 0 < held Role.rejects s.threads → s.shared.hist.window = none
  errors : ErrorsEndDances s

theorem not_closing {s : State} (none_closes : held Role.closes s.threads = 0) (t : ℕ) :
    ¬Closing s t := by
  rintro ⟨th, at_t, closes⟩
  have own := (total_eq_zero _).mp none_closes th (List.mem_of_getElem? at_t)
  exact absurd (own.symm.trans closes) nofun

theorem Windowed.none_closes_of_stage {s : State} (h : Windowed s) {t : ℕ} {known : Option Net}
    {prog : AcsM Unit} (at_t : s.threads[t]? = some ⟨.stage known, prog⟩) :
    held Role.closes s.threads = 0 :=
  held_sole closes_le_dances (h.balanced.dances_one h.serving) at_t rfl

theorem Windowed.closing_unique {s : State} (h : Windowed s) {t i : ℕ} {prog : AcsM Unit}
    (at_t : s.threads[t]? = some ⟨.closing, prog⟩) (closing : Closing s i) : i = t := by
  obtain ⟨th, at_i, closes⟩ := closing
  by_contra apart
  have both := weight_add_le_total (fun th : HttpThread => th.role.closes) at_t at_i apart
  have dancers := (held_le_held closes_le_dances s.threads).trans (h.balanced.dances_one h.serving)
  dsimp only at both
  rw [closes] at both
  exact absurd (both.trans dancers) (by decide)

section Act

variable {env : Env} {s : State} {t : ℕ} {c : Choice} {role role' : Role} {prog prog' : AcsM Unit}
  {shared' : Shared}

theorem closing_set (at_t : s.threads[t]? = some ⟨role, prog⟩)
    (keeps : role.closes = 1 → role'.closes = 1) {i : ℕ} (closing : Closing s i) :
    Closing ⟨shared', s.threads.set t ⟨role', prog'⟩⟩ i := by
  obtain ⟨th, at_i, closes⟩ := closing
  have now := getElem?_set_of_some at_t ⟨role', prog'⟩ i
  split at now
  next same =>
    subst same
    obtain rfl := Option.some.inj (at_t.symm.trans at_i)
    exact ⟨_, now, keeps closes⟩
  next => exact ⟨th, now.trans at_i, closes⟩

theorem errors_frame (h : ErrorsEndDances s) (at_t : s.threads[t]? = some ⟨role, prog⟩)
    (keeps : role.closes = 1 → role'.closes = 1)
    (window : shared'.hist.window = s.shared.hist.window)
    (windows : shared'.hist.windows = s.shared.hist.windows) :
    ErrorsEndDances ⟨shared', s.threads.set t ⟨role', prog'⟩⟩ := by
  refine ⟨fun entries recorded => ?_, fun closed earlier => h.2 closed (windows ▸ earlier)⟩
  exact (h.1 entries (window ▸ recorded)).imp fun _ => closing_set at_t keeps

theorem errors_status (h : ErrorsEndDances s) (at_t : s.threads[t]? = some ⟨role, prog⟩)
    {borrowed : Option Net} {msg : AcsMsg} {memory : Bool}
    (entry : ∀ entries ∈ s.shared.hist.window,
      AllOk entries ∧ (msg.status = .ok ∨ role'.closes = 1)) :
    ErrorsEndDances ⟨(s.shared.touch borrowed).acsStatus t msg memory,
      s.threads.set t ⟨role', prog'⟩⟩ := by
  refine ⟨fun entries recorded => ?_, h.2⟩
  obtain ⟨before, window, rfl⟩ := Option.map_eq_some_iff.mp recorded
  obtain ⟨allOk, kind⟩ := entry before window
  cases memory with
  | false => exact (allOk.append AllOk.nil).lastOnly _
  | true =>
    rcases kind with ok | closes
    · exact (allOk.append (List.forall_mem_singleton.mpr ok)).lastOnly _
    · have now := getElem?_set_of_some at_t ⟨role', prog'⟩ t
      rw [if_pos rfl] at now
      exact allOk.lastOnly_append ⟨_, now, closes⟩

theorem errors_close (h : ErrorsEndDances s) {endedBy : Option ℕ} {threads : List HttpThread}
    (last : ∀ entries ∈ s.shared.hist.window, LastOnly (fun t => endedBy = some t) entries)
    (window : shared'.hist.window = none)
    (windows : shared'.hist.windows = s.shared.hist.windows ++
      s.shared.hist.window.toList.map fun entries => (entries, endedBy)) :
    ErrorsEndDances ⟨shared', threads⟩ := by
  refine ⟨fun entries recorded => ?_, fun closed member => ?_⟩
  · exact absurd (window.symm.trans recorded) nofun
  rcases List.mem_append.mp (windows ▸ member) with earlier | now
  · exact h.2 closed earlier
  · obtain ⟨entries, current, rfl⟩ := List.mem_map.mp now
    exact last entries (Option.mem_toList.mp current)

end Act

theorem Windowed.allOk {s : State} (h : Windowed s)
    (none_closes : held Role.closes s.threads = 0) :
    ∀ entries ∈ s.shared.hist.window, AllOk entries := fun entries recorded =>
  (h.errors.1 entries recorded).allOk (not_closing none_closes)

theorem Windowed.allOk_of_locks {s : State} (h : Windowed s) {t : ℕ} {role : Role}
    {prog : AcsM Unit} (at_t : s.threads[t]? = some ⟨role, prog⟩) (locks : role.locks = 1) :
    ∀ entries ∈ s.shared.hist.window, AllOk entries := by
  have idle := h.balanced.apart (h.balanced.locked_of_role at_t locks)
  exact h.allOk (h.balanced.none_closes h.serving idle)

theorem acsMsg_ok {text : CStr} {borrowed : Option Net}
    (fits : (Op.status .ok text borrowed).fits = true) :
    (Shared.acsMsg .ok text).status = .ok := by
  unfold Shared.acsMsg
  rw [if_pos (of_decide_eq_true fits)]

section Act

variable {env : Env} {s : State} {t : ℕ} {c : Choice} {role role' : Role} {o : Op}
  {next : o.Result → AcsM Unit} {prog' : AcsM Unit} {shared' : Shared}

theorem errors_act (h : Windowed s) (at_t : s.threads[t]? = some ⟨role, .op o next⟩)
    (acts : Acts env t c s.shared role o role' shared')
    (cue : s.shared.hist.window.isSome = true → o.records = true →
      o.fits = true ∧ role.isComplaint = false ∧
        (role.isOutside = true → held Role.closes s.threads = 0)) :
    ErrorsEndDances ⟨shared', s.threads.set t ⟨role', prog'⟩⟩ := by
  have serving := (h.balanced.orderly.exits_of_acting at_t).trans h.serving
  cases acts with
  | sent =>
    refine errors_status h.errors at_t fun entries recorded => ?_
    obtain ⟨fits, _, inTime⟩ := cue (Option.isSome_of_mem recorded) rfl
    exact ⟨h.allOk (inTime rfl) entries recorded, .inl (acsMsg_ok fits)⟩
  | report =>
    refine errors_status h.errors at_t fun entries recorded => ?_
    obtain ⟨fits, _⟩ := cue (Option.isSome_of_mem recorded) rfl
    exact ⟨h.allOk (h.none_closes_of_stage at_t) entries recorded, .inl (acsMsg_ok fits)⟩
  | last =>
    refine errors_status h.errors at_t fun entries recorded => ?_
    exact ⟨h.allOk (h.none_closes_of_stage at_t) entries recorded, .inr rfl⟩
  | adopting | ready =>
    refine errors_status h.errors at_t fun entries recorded => ?_
    obtain ⟨fits, _⟩ := cue (Option.isSome_of_mem recorded) rfl
    exact ⟨h.allOk_of_locks at_t rfl entries recorded, .inl (acsMsg_ok fits)⟩
  | complain | refused =>
    refine errors_status h.errors at_t fun entries recorded => ?_
    obtain ⟨_, quiet, _⟩ := cue (Option.isSome_of_mem recorded) rfl
    exact absurd quiet nofun
  | noObject =>
    refine errors_status h.errors at_t fun entries recorded => ?_
    have unopened := h.unopened (worth_le_held Role.rejects at_t)
    exact absurd (unopened.symm.trans recorded) nofun
  | sitdown =>
    refine errors_close h.errors (fun entries recorded => ?_) rfl rfl
    exact (h.errors.1 entries recorded).imp fun i closing =>
      congrArg some (h.closing_unique at_t closing).symm
  | takeFirst _ idle | takeOver _ idle =>
    refine errors_close h.errors (fun entries recorded => ?_) rfl rfl
    exact (h.allOk (h.balanced.none_closes h.serving idle) entries recorded).lastOnly _
  | accept =>
    refine ⟨fun entries recorded => ?_, h.errors.2⟩
    cases recorded
    exact AllOk.nil.lastOnly _
  | exitRefused | exitSitdown | exitRefuse | exitFirst | exitOver | exitUnlock | exitDone =>
    cases serving
  | quiet => exact errors_frame h.errors at_t id rfl rfl
  | _ => exact errors_frame h.errors at_t nofun rfl rfl

theorem unopened_act (h : Windowed s) (at_t : s.threads[t]? = some ⟨role, .op o next⟩)
    (acts : Acts env t c s.shared role o role' shared')
    (rejected : 0 < held Role.rejects (s.threads.set t ⟨role', prog'⟩)) :
    shared'.hist.window = none := by
  have rejecters := held_set Role.rejects at_t ⟨role', prog'⟩
  cases acts with
  | sitdown | exitSitdown | takeFirst | takeOver | exitFirst | exitOver => rfl
  | accept =>
    have one := (held_le_held rejects_le_locks s.threads).trans h.balanced.locks_one
    simp only [Role.rejects] at rejecters
    omega
  | unlockRejected => exact h.unopened (by simp only [Role.rejects] at rejecters; omega)
  | sent | complain | report | last | refused | noObject | adopting | ready | exitRefused =>
    have before := h.unopened (rejected.trans_eq (held_set_of_eq at_t (by rfl)))
    exact congrArg (Option.map _) before
  | _ => exact h.unopened (rejected.trans_eq (held_set_of_eq at_t (by rfl)))

end Act

theorem windowed_begin {s : State} (h : Windowed s) {t : ℕ} {role : Role} {prog prog' : AcsM Unit}
    {shared : Shared} (at_t : s.threads[t]? = some ⟨.outside, prog⟩)
    (balanced : Balanced ⟨shared, s.threads.set t ⟨role, prog'⟩⟩) (rejects : role.rejects = 0)
    (exited : shared.exited = s.shared.exited) (hist : shared.hist = s.shared.hist) :
    Windowed ⟨shared, s.threads.set t ⟨role, prog'⟩⟩ := by
  refine ⟨balanced, exited.trans h.serving, fun rejected => ?_, ?_⟩
  · dsimp only
    rw [hist]
    exact h.unopened (rejected.trans_eq (held_set_of_eq at_t rejects))
  · exact errors_frame h.errors at_t nofun (by rw [hist]) (by rw [hist])

theorem windowed_step {env : Env} {s s' : State} {e : Event} (h : Windowed s)
    (balanced : Balanced s') (cue : OnCue s e) (st : Step env s e s') : Windowed s' := by
  cases st with
  | act at_t acts =>
    exact ⟨balanced, (exits_of_acts acts).2.trans h.serving, unopened_act h at_t acts,
      errors_act h at_t acts fun opened => cue opened _ at_t _ rfl⟩
  | handle _ at_t | answer _ at_t => exact windowed_begin h at_t balanced rfl rfl rfl
  | shutdown => exact ⟨balanced, h.serving, h.unopened, h.errors⟩
  | exit => exact cue.elim

theorem windowed_init (threads : ℕ) : Windowed (init threads) where
  balanced := balanced_init threads
  serving := rfl
  unopened _ := rfl
  errors := ⟨nofun, nofun⟩

/-- While every entry comes on cue, an error or `done` ends the dance. -/
theorem errors_end_dances_of_on_cue (env : Env) (threads : ℕ) (es : List Event)
    (guard : (machine env).Meets OnCue (init threads) es) :
    (machine env).Always ErrorsEndDances (init threads) es := by
  have invariant := (machine env).always_of_meets
    (fun s e s' (h : Windowed s) guard moved => by
      obtain ⟨orderly, st⟩ := step_cases h.balanced.orderly moved
      exact windowed_step h (balanced_step h.balanced orderly st) guard st)
    (windowed_init threads) guard
  exact invariant.imp _ fun s h => h.errors

theorem errors_end_dance_in_endedRun :
    (machine exampleEnv).Meets OnCue (init 2) endedRun ∧
      (machine exampleEnv).Always ErrorsEndDances (init 2) endedRun := by
  have guard : (machine exampleEnv).Meets OnCue (init 2) endedRun := by decide +kernel
  exact ⟨guard, errors_end_dances_of_on_cue exampleEnv 2 endedRun guard⟩

def heckledRun : List Event := danceRun ++ [.setup 1 setupPost] ++ runs 1 3 ++ runs 0 1

theorem refused_setup_is_not_last :
    ¬∀ (env : Env) (threads : ℕ) (es : List Event) (s : State),
      (machine env).Meets Undisturbed (init threads) es →
        (machine env).exec (init threads) es = some s → ErrorsEndDances s := by
  intro always
  have ends := always exampleEnv 2 heckledRun _ (by decide +kernel) rfl
  revert ends
  decide +kernel

end Jumpbox.Acs
