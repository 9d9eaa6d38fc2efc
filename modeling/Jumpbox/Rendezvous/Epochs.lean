import Jumpbox.Rendezvous.Step

/-! Whose result `rdv_peel_pow` adopts. A reset and a new image do not wait for the worker
of the onion that was current before; when neither comes while a worker is at it, each
result goes to the onion it was computed for. -/

namespace Jumpbox.Rendezvous

def State.epochs (s : State) : List ℕ := s.workers.map Worker.epoch

def State.last (s : State) : ℕ := s.workers.length - 1

/-- The onion adopted is the solution of the one it replaced, found by a worker that was
started after the last reset and the last image. -/
structure Sound (ext : Ext) (s : State) (a : Adoption) : Prop where
  old : a.inner < s.next ∧ a.outer < s.next
  outer : (s.mem a.inner).outer = some a.outer
  solution : powSolution ext (s.mem a.outer).onion = some (s.mem a.inner).onion
  worker : ∃ w, a.worker = some w ∧ s.epochs[w]? = some a.epoch

structure OwnResults (ext : Ext) (s : State) : Prop where
  adopted : ∀ a ∈ s.hist.adopted, Sound ext s a
  finished : s.lPowThreadStarted → s.lPowThreadFinished → s.hist.finishedBy = some s.last ∧
    s.epochs[s.last]? = some s.hist.epoch

/-- A reset finds every worker done, and an image is not taken during a proof of work. -/
def Awaited (ext : Ext) (s : State) : Event → Prop
  | .request hcl c => (asks hcl "reset".toList → ∀ worker ∈ s.workers, worker.pc = .done) ∧
      ((imageOnion ext c s hcl).isSome → s.lPowThreadStarted = false)
  | _ => True

instance (ext : Ext) (s : State) : DecidablePred (Awaited ext s)
  | .request _ _ => inferInstanceAs (Decidable (_ ∧ _))
  | .worker _ => isTrue trivial
  | .attempts .. => isTrue trivial

def Holds (ext : Ext) (s : State) (o : Ptr) : Prop :=
  s.hist.innerBy = some s.last ∧ ∀ inner, s.lPowInnerOnion = some inner →
    inner < s.next ∧ (s.mem inner).outer = some o ∧
      powSolution ext (s.mem o).onion = some (s.mem inner).onion

def Progress (ext : Ext) (s : State) (o : Ptr) : WorkerPc → Prop
  | .read seen => (∀ p ∈ seen, p = o) ∧ s.lPowInnerOnion = none ∧ s.lPowThreadFinished = false
  | .solve a b d e =>
    (∀ p ∈ [a, b, d, e], p = o) ∧ s.lPowInnerOnion = none ∧ s.lPowThreadFinished = false
  | .progress | .finish => Holds ext s o ∧ s.lPowThreadFinished = false
  | .done => Holds ext s o ∧ s.lPowThreadFinished ∧ s.hist.finishedBy = some s.last

structure Idle (s : State) : Prop where
  done : ∀ worker ∈ s.workers, worker.pc = .done
  inner : s.lPowInnerOnion = none
  finished : s.lPowThreadFinished = false

structure Busy (ext : Ext) (s : State) (o : Ptr) (worker : Worker) : Prop where
  current : Current s o pow
  last : s.workers[s.last]? = some worker
  others : ∀ v worker, s.workers[v]? = some worker → v ≠ s.last → worker.pc = .done
  epoch : worker.epoch = s.hist.epoch
  progress : Progress ext s o worker.pc

structure Own (ext : Ext) (s : State) : Prop where
  adopted : ∀ a ∈ s.hist.adopted, Sound ext s a
  current : ∀ o, s.lCurrentOnion = some o → o < s.next
  idle : s.lPowThreadStarted = false → Idle s
  busy : s.lPowThreadStarted → ∃ o worker, Busy ext s o worker

theorem setPc_epochs (s : State) (w : ℕ) (pc : WorkerPc) : (s.setPc w pc).epochs = s.epochs := by
  refine List.ext_getElem? fun v => ?_
  rw [State.epochs, State.setPc, List.getElem?_map, List.getElem?_modify, State.epochs,
    List.getElem?_map]
  split
  · cases s.workers[v]? <;> rfl
  · simp

theorem Sound.mono {ext : Ext} {s t : State} {a : Adoption} (h : Sound ext s a)
    (le : s.store.Le t.store) (epochs : s.epochs <+: t.epochs) : Sound ext t a := by
  have inner : t.mem a.inner = s.mem a.inner := le.mem _ h.old.1
  have outer : t.mem a.outer = s.mem a.outer := le.mem _ h.old.2
  refine ⟨⟨h.old.1.trans_le le.next, h.old.2.trans_le le.next⟩, ?_, ?_, ?_⟩
  · rw [inner, h.outer]
  · rw [inner, outer, h.solution]
  · obtain ⟨w, by_, epoch⟩ := h.worker
    obtain ⟨more, epochs⟩ := epochs
    refine ⟨w, by_, ?_⟩
    rw [← epochs, List.getElem?_append_left (List.getElem?_eq_some_iff.mp epoch).1, epoch]

theorem Current.mono {s t : State} {o : Ptr} {type : ℕ} (h : Current s o type)
    (le : s.store.Le t.store) (old : o < s.next) (current : t.lCurrentOnion = s.lCurrentOnion) :
    Current t o type := by
  have same : t.mem o = s.mem o := le.mem o old
  exact ⟨current.trans h.current, same ▸ h.isOnion, same ▸ h.type⟩

theorem Holds.mono {ext : Ext} {s t : State} {o : Ptr} (h : Holds ext s o)
    (le : s.store.Le t.store) (old : o < s.next) (inner : t.lPowInnerOnion = s.lPowInnerOnion)
    (innerBy : t.hist.innerBy = s.hist.innerBy) (last : t.last = s.last) : Holds ext t o := by
  obtain ⟨by_, result⟩ := h
  refine ⟨by rw [innerBy, by_, last], fun p stored => ?_⟩
  obtain ⟨lt, outer, solution⟩ := result p (inner ▸ stored)
  have same : t.mem o = s.mem o := le.mem o old
  have new : t.mem p = s.mem p := le.mem p lt
  exact ⟨lt.trans_le le.next, by rw [new, outer], by rw [same, new, solution]⟩

theorem Progress.mono {ext : Ext} {s t : State} {o : Ptr} {pc : WorkerPc}
    (h : Progress ext s o pc) (le : s.store.Le t.store) (old : o < s.next)
    (inner : t.lPowInnerOnion = s.lPowInnerOnion)
    (finished : t.lPowThreadFinished = s.lPowThreadFinished)
    (innerBy : t.hist.innerBy = s.hist.innerBy) (finishedBy : t.hist.finishedBy = s.hist.finishedBy)
    (last : t.last = s.last) : Progress ext t o pc := by
  have holds (h : Holds ext s o) : Holds ext t o := h.mono le old inner innerBy last
  cases pc with
  | read => exact ⟨h.1, inner ▸ h.2.1, finished ▸ h.2.2⟩
  | solve => exact ⟨h.1, inner ▸ h.2.1, finished ▸ h.2.2⟩
  | progress => exact ⟨holds h.1, finished ▸ h.2⟩
  | finish => exact ⟨holds h.1, finished ▸ h.2⟩
  | done => exact ⟨holds h.1, finished ▸ h.2.1, by rw [finishedBy, h.2.2, last]⟩

namespace Own

variable {ext : Ext} {c : Choice} {hcl : HttpsrvClient} {s t : State}

theorem busy_alike {o : Ptr} {worker : Worker} (a : Alike s t) (old : o < s.next)
    (h : Busy ext s o worker) : Busy ext t o worker := by
  have last : t.last = s.last := congrArg (List.length · - 1) a.workers
  have progress := h.progress.mono a.store_le old a.inner a.finished a.innerBy a.finishedBy last
  refine ⟨h.current.mono a.store_le old a.current, ?_, ?_, ?_, progress⟩
  · rw [last, a.workers, h.last]
  · rw [last, a.workers]; exact h.others
  · rw [h.epoch, a.epoch]

theorem alike (h : Own ext s) (a : Alike s t) : Own ext t := by
  have epochs : t.epochs = s.epochs := congrArg (List.map Worker.epoch) a.workers
  constructor
  · intro adoption mem
    rw [a.adopted] at mem
    exact (h.adopted adoption mem).mono a.store_le (epochs ▸ List.prefix_refl _)
  · intro o now
    exact (h.current o (a.current ▸ now)).trans_le a.next
  · intro idle
    obtain ⟨done, inner, finished⟩ := h.idle (a.started ▸ idle)
    exact ⟨a.workers ▸ done, a.inner ▸ inner, a.finished ▸ finished⟩
  · intro busy
    obtain ⟨o, worker, busy⟩ := h.busy (a.started ▸ busy)
    exact ⟨o, worker, busy_alike a (h.current o busy.current.current) busy⟩

theorem not_started {o : Ptr} {type : ℕ} (h : Own ext s) (current : Current s o type)
    (other : type ≠ pow) : s.lPowThreadStarted = false := by
  rw [← Bool.not_eq_true]
  intro started
  obtain ⟨p, worker, busy⟩ := h.busy started
  obtain rfl : o = p := Option.some.inj (current.current.symm.trans busy.current.current)
  exact other (current.type.symm.trans busy.current.type)

theorem forget (h : Own ext s) (done : ∀ worker ∈ s.workers, worker.pc = .done) :
    Own ext s.forget := by
  unfold State.forget rdvPowReset
  dsimp only
  split
  · exact {
      adopted := fun a mem => (h.adopted a mem).mono (.refl _) (List.prefix_refl _)
      current := by nofun
      idle := fun _ => ⟨done, rfl, rfl⟩
      busy := by nofun }
  · rename_i idle
    exact {
      adopted := fun a mem => (h.adopted a mem).mono (.refl _) (List.prefix_refl _)
      current := by nofun
      idle := fun idle => { h.idle idle with }
      busy := fun started => absurd started idle }

theorem accept {onion : Onion} (h : Own ext s) (idle : s.lPowThreadStarted = false) :
    Own ext (s.accept onion) where
  adopted a mem := (h.adopted a mem).mono (store_le_newOnion s _ [s.next]) (List.prefix_refl _)
  current := by
    rintro o ⟨⟩
    exact Nat.lt_succ_self _
  idle _ := { h.idle idle with }
  busy started := absurd started (idle ▸ Bool.false_ne_true)

theorem start {o : Ptr} (h : Own ext s) (current : Current s o pow)
    (idle : s.lPowThreadStarted = false) : Own ext s.start := by
  have last : s.start.last = s.workers.length := by simp [State.last, State.start]
  obtain ⟨done, inner, finished⟩ := h.idle idle
  refine {
    adopted := fun a mem => (h.adopted a mem).mono (.refl _) ?_
    current := h.current
    idle := by nofun
    busy := fun _ => ⟨o, { epoch := s.hist.epoch }, ⟨current.1, current.2, current.3⟩, ?_, ?_, rfl,
      by nofun, inner, finished⟩ }
  · exact (List.prefix_append s.workers _).map _
  · rw [last]
    exact List.getElem?_concat_length
  · intro v worker found other
    rw [last] at other
    have found : (s.workers ++ [{ epoch := s.hist.epoch }])[v]? = some worker := found
    have lt := (List.getElem?_eq_some_iff.mp found).1
    rw [List.length_append, List.length_singleton] at lt
    rw [List.getElem?_append_left (by omega)] at found
    exact done worker (List.mem_of_getElem? found)

theorem done_of_finished {o : Ptr} {pc : WorkerPc} (h : Progress ext s o pc)
    (finished : s.lPowThreadFinished) : pc = .done ∧ Holds ext s o := by
  cases pc with
  | read => exact absurd finished (h.2.2 ▸ Bool.false_ne_true)
  | solve => exact absurd finished (h.2.2 ▸ Bool.false_ne_true)
  | progress => exact absurd finished (h.2 ▸ Bool.false_ne_true)
  | finish => exact absurd finished (h.2 ▸ Bool.false_ne_true)
  | done => exact ⟨rfl, h.1⟩

theorem busy_epochs {o : Ptr} {worker : Worker} (busy : Busy ext s o worker) :
    s.epochs[s.last]? = some s.hist.epoch := by
  rw [State.epochs, List.getElem?_map, busy.last, Option.map_some, busy.epoch]

theorem adopt {o inner : Ptr} (h : Own ext s) (current : Current s o pow)
    (started : s.lPowThreadStarted) (finished : s.lPowThreadFinished)
    (stored : s.lPowInnerOnion = some inner) : Own ext (s.adopt o inner) := by
  obtain ⟨p, worker, busy⟩ := h.busy started
  obtain rfl : o = p := Option.some.inj (current.current.symm.trans busy.current.current)
  obtain ⟨done, by_, result⟩ := done_of_finished busy.progress finished
  obtain ⟨lt, outer, solution⟩ := result inner stored
  refine {
    adopted := fun a mem => ?_
    current := ?_
    idle := fun _ => ⟨fun other mem => ?_, rfl, rfl⟩
    busy := by nofun }
  · rcases List.mem_append.mp mem with old | new
    · exact (h.adopted a old).mono (.refl _) (List.prefix_refl _)
    · obtain rfl := List.mem_singleton.mp new
      have epoch := busy_epochs busy
      exact ⟨⟨lt, h.current o current.current⟩, outer, solution, s.last, by_, epoch⟩
  · rintro p ⟨⟩
    exact lt
  · obtain ⟨v, found⟩ := List.mem_iff_getElem?.mp mem
    have found : s.workers[v]? = some other := found
    by_cases last : v = s.last
    · rw [last, busy.last] at found
      exact Option.some.inj found ▸ done
    · exact busy.others v other found last

theorem move (h : Own ext s) (guard : Awaited ext s (.request hcl c))
    (moved : Move ext c hcl s t) : Own ext t := by
  cases moved with
  | stay => exact h
  | forget asked => exact h.forget (guard.1 asked)
  | accept image => exact h.accept (guard.2 (by rw [image]; rfl))
  | dance current net =>
    have idle := h.not_started current (by decide)
    exact {
      adopted := fun a mem => (h.adopted a mem).mono (.refl _) (List.prefix_refl _)
      current := h.current
      idle := fun idle => { h.idle idle with }
      busy := fun started => absurd started (idle ▸ Bool.false_ne_true) }
  | start current idle => exact h.start current idle
  | adopt current started finished stored => exact h.adopt current started finished stored
  | @peel o layer inner current notPow takes =>
    have other : (s.mem o).onion.type ≠ pow := by
      cases takes with
      | pow => exact absurd rfl notPow
      | captcha type => rw [type]; decide
      | signed type => rw [type]; decide
    have idle := h.not_started current other
    refine {
      adopted := fun a mem => (h.adopted a mem).mono (newOnion_alike s _).store_le
        (List.prefix_refl _)
      current := ?_
      idle := fun idle => { h.idle idle with }
      busy := fun started => absurd started (idle ▸ Bool.false_ne_true) }
    rintro p ⟨⟩
    exact Nat.lt_succ_self _

theorem advance {u : State} {o : Ptr} {worker : Worker} {pc : WorkerPc} (h : Own ext s)
    (busy : Busy ext s o worker) (le : s.store.Le u.store)
    (current : u.lCurrentOnion = s.lCurrentOnion) (started : u.lPowThreadStarted)
    (workers : u.workers = s.workers) (adopted : u.hist.adopted = s.hist.adopted)
    (epoch : u.hist.epoch = s.hist.epoch) (progress : Progress ext u o pc) :
    Own ext (u.setPc s.last pc) := by
  have same : (u.setPc s.last pc).last = u.last := by simp [State.last, State.setPc]
  have last : (u.setPc s.last pc).last = s.last := by rw [same, State.last, workers, State.last]
  have old := h.current o busy.current.current
  have progress := progress.mono (t := u.setPc s.last pc) (.refl _) (old.trans_le le.next)
    rfl rfl rfl rfl same
  have epochs : (u.setPc s.last pc).epochs = s.epochs := by
    rw [setPc_epochs, State.epochs, workers, State.epochs]
  refine {
    adopted := fun a mem => (h.adopted a (adopted ▸ mem)).mono le (epochs ▸ List.prefix_refl _)
    current := fun p now => (h.current p (current ▸ now)).trans_le le.next
    idle := fun idle => absurd started (idle ▸ Bool.false_ne_true)
    busy := fun _ => ⟨o, { worker with pc }, ?_, ?_, ?_, ?_, progress⟩ }
  · exact busy.current.mono le old current
  · rw [last, State.setPc, List.getElem?_modify_eq, workers, busy.last]
    rfl
  · intro v other found away
    rw [last] at away
    rw [State.setPc, List.getElem?_modify_ne _ _ (Ne.symm away), workers] at found
    exact busy.others v other found away
  · exact busy.epoch.trans epoch.symm

theorem work {w epoch : ℕ} {pc : WorkerPc} (h : Own ext s)
    (found : s.workers[w]? = some { pc, epoch }) (works : Works ext s w pc t) : Own ext t := by
  have undone : pc ≠ .done := by
    rintro rfl
    cases works
  have started : s.lPowThreadStarted := by
    by_contra idle
    exact undone ((h.idle (Bool.not_eq_true _ ▸ idle)).done _ (List.mem_of_getElem? found))
  obtain ⟨o, worker, busy⟩ := h.busy started
  obtain rfl : w = s.last := by
    by_contra other
    exact undone (busy.others w _ found other)
  obtain rfl : { pc, epoch } = worker := Option.some.inj (found.symm.trans busy.last)
  have progress : Progress ext s o pc := busy.progress
  cases works with
  | @read seen p current =>
    obtain rfl : p = o := Option.some.inj (current.symm.trans busy.current.current)
    obtain ⟨all, inner, finished⟩ := progress
    have all : ∀ q ∈ seen ++ [p], q = p := fun q mem =>
      (List.mem_append.mp mem).elim (all q) List.mem_singleton.mp
    refine h.advance busy (.refl _) rfl started rfl rfl rfl ?_
    unfold WorkerPc.saw
    split
    · rename_i saw
      exact ⟨saw ▸ all, inner, finished⟩
    · exact ⟨all, inner, finished⟩
  | @solve a b d e =>
    obtain ⟨all, inner, finished⟩ := progress
    obtain rfl : a = o := all a (by simp)
    obtain rfl : b = a := all b (by simp)
    obtain rfl : d = b := all d (by simp)
    obtain rfl : e = d := all e (by simp)
    have old := h.current e busy.current.current
    unfold State.solved
    split
    · rename_i onion solution
      have le := (newOnion_alike s {
        onion
        layers := (s.mem e).layers ++ [Layer.pow]
        outer := if e = e ∧ e = e ∧ e = e then some e else none }).store_le
      have solution : powSolution ext (s.mem e).onion = some onion := solution
      refine h.advance busy le rfl started rfl rfl rfl ⟨⟨rfl, ?_⟩, finished⟩
      rintro p ⟨⟩
      refine ⟨Nat.lt_succ_self _, ?_, ?_⟩
      · simp [State.newOnion]
      · simpa [State.newOnion, Function.update_of_ne (ne_of_lt old)] using solution
    · exact h.advance busy (.refl _) rfl started rfl rfl rfl ⟨⟨rfl, by nofun⟩, finished⟩
  | progress =>
    obtain ⟨holds, finished⟩ := progress
    exact h.advance busy (.refl _) rfl started rfl rfl rfl ⟨holds, finished⟩
  | finish =>
    obtain ⟨holds, finished⟩ := progress
    exact h.advance busy (.refl _) rfl started rfl rfl rfl ⟨holds, rfl, rfl⟩

theorem step {e : Event} (h : Own ext s) (guard : Awaited ext s e)
    (run : (machine ext).step s e = some t) : Own ext t := by
  cases e with
  | request hcl c =>
    obtain ⟨u, moved, a⟩ := rdvHandle_moves ext c hcl s
    cases run
    exact (h.move guard moved).alike a
  | worker w =>
    obtain ⟨worker, found, works⟩ := workerStep_works run
    exact h.work found works
  | attempts w progress =>
    simp only [machine, Rendezvous.step] at run
    split at run
    · cases run
      exact h.alike {}
    · cases run

theorem results (h : Own ext s) : OwnResults ext s where
  adopted := h.adopted
  finished started finished := by
    obtain ⟨o, worker, busy⟩ := h.busy started
    obtain ⟨done, _⟩ := done_of_finished busy.progress finished
    have progress := done ▸ busy.progress
    exact ⟨progress.2.2, busy_epochs busy⟩

end Own

theorem initial_own (ext : Ext) : Own ext initial where
  adopted := by nofun
  current := by nofun
  idle _ := ⟨by nofun, rfl, rfl⟩
  busy := by nofun

theorem own_of_awaited (ext : Ext) (es : List Event)
    (meets : (machine ext).Meets (Awaited ext) initial es) :
    (machine ext).Always (OwnResults ext) initial es :=
  ((machine ext).always_of_meets (fun _ _ _ h guard => h.step guard)
    (initial_own ext) meets).imp _ fun _ h => h.results

/-! Images of two proofs of work. -/

/-- A library that finds a proof of work in every image, and the data of it as solution. -/
def powLibrary : Ext where
  jsonLoads text := if text = "\x7b\x7d".toList then some (.object []) else none
  sizeofOnionHeader := 16
  extractNSave _ image := some image
  defiantPwdDecrypt _ contents := some ({
    size := 16 + contents.length, type := pow, puzzleSize := 22, dataSize := 3, contents },
    16 + contents.length)
  verifyOnion _ _ := true
  peelSignedOnion _ := none
  peelCaptchaOnion _ _ := none
  defiantPowAux _ _ data := some {
    size := 16 + data.length, type := base, dataSize := data.length, contents := data }
  generateDefiantRequestUrl _ _ server _ := .ok server

def powImage (n : UInt8) : Event :=
  posted "image".toList (List.replicate 22 n ++ [123, 125, n]) {}

def peelPow : Event := posted "peel".toList [123, 125] {}

def resetPow : Event := posted "reset".toList [] {}

def reads (w : ℕ) : List Event := List.replicate 4 (.worker w)

def solves (w : ℕ) : List Event := List.replicate 3 (.worker w)

theorem adopts_stale :
    ¬∀ ext es, (machine ext).Always (OwnResults ext) initial es := by
  intro always
  have run : ∃ s, (machine powLibrary).exec initial
      (powImage 1 :: peelPow :: reads 0 ++ resetPow :: powImage 2 :: peelPow :: solves 0 ++
        [peelPow]) = some s ∧
      (⟨1, 2, some 0, 3⟩ : Adoption) ∈ s.hist.adopted ∧ (s.mem 2).outer = some 0 :=
    ⟨_, rfl, by decide, by decide⟩
  obtain ⟨s, run, adopted, outer⟩ := run
  have sound := ((always _ _).finish _ run).adopted _ adopted
  exact absurd (outer.symm.trans sound.outer) (by decide)

theorem own_of_awaited_worker :
    ∃ s, (machine powLibrary).exec initial
        (powImage 1 :: peelPow :: reads 0 ++ solves 0 ++ [peelPow, resetPow]) = some s ∧
      s.hist.adopted = [⟨0, 1, some 0, 1⟩] ∧ OwnResults powLibrary s := by
  have run : ∃ s, (machine powLibrary).exec initial
      (powImage 1 :: peelPow :: reads 0 ++ solves 0 ++ [peelPow, resetPow]) = some s ∧
      s.hist.adopted = [⟨0, 1, some 0, 1⟩] := ⟨_, rfl, by decide⟩
  obtain ⟨s, run, adopted⟩ := run
  have always := own_of_awaited powLibrary
    (powImage 1 :: peelPow :: reads 0 ++ solves 0 ++ [peelPow, resetPow]) (by decide +kernel)
  exact ⟨s, run, adopted, always.finish _ run⟩

end Jumpbox.Rendezvous
