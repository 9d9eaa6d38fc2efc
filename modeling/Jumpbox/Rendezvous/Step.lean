import Jumpbox.Rendezvous.Outcome
import Jumpbox.Library.Machine

/-! Requests and proof of work threads as one machine. A request is one step: it is
assumed that requests are handled one after another, although the state of `rendezvous.c`
has no lock. A worker steps from one access of the globals to the next, and requests come
in between. -/

namespace Jumpbox.Rendezvous

open Acs (Json cstring)

namespace State

def setPc (s : State) (w : ℕ) (pc : WorkerPc) : State :=
  { s with workers := s.workers.modify w fun worker => { worker with pc } }

def solved (s : State) (ext : Ext) (w : ℕ) (a b d e : Ptr) : State :=
  let s := match defiantPow ext (s.mem a).onion (s.mem b).onion (s.mem d).onion (s.mem e).onion with
    | some onion =>
      { s.newOnion {
          onion
          layers := (s.mem a).layers ++ [Layer.pow]
          outer := if b = a ∧ d = a ∧ e = a then some a else none } with
        lPowInnerOnion := some s.next }
    | none => { s with lPowInnerOnion := none }
  { s with hist := { s.hist with innerBy := some w } }

end State

def WorkerPc.saw : List Ptr → WorkerPc
  | [a, b, d, e] => .solve a b d e
  | seen => .read seen

def workerStep (ext : Ext) (s : State) (w : ℕ) : Option State :=
  s.workers[w]?.bind fun worker =>
    match worker.pc with
    -- a `NULL` is read through, and the daemon is gone
    | .read seen => s.lCurrentOnion.map fun o => s.setPc w (.saw (seen ++ [o]))
    | .solve a b d e => some ((s.solved ext w a b d e).setPc w .progress)
    | .progress => some ({ s with lPowThreadProgress := maxAttempts }.setPc w .finish)
    | .finish =>
      some ({ s with
        lPowThreadFinished := true
        hist := { s.hist with finishedBy := some w } }.setPc w .done)
    | .done => none

inductive Event
  | request (hcl : HttpsrvClient) (choice : Choice)
  | worker (w : ℕ)
  | attempts (w : ℕ) (progress : ℕ)

def step (ext : Ext) (s : State) : Event → Option State
  | .request hcl c => some (rdvHandle ext c s hcl).state
  | .worker w => workerStep ext s w
  | .attempts w progress =>
    match s.workers[w]? with
    | some { pc := .solve .., .. } => some { s with lPowThreadProgress := progress }
    | _ => none

def machine (ext : Ext) : Machine State Event := ⟨step ext⟩

def initial : State := {}

/-- A POST below `/rendezvous/` with its body read in. -/
def posted (name : CStr) (body : List UInt8) (c : Choice) : Event :=
  .request {
    id := 1, reqid := 1, method := .post, uri := "/rendezvous/".toList ++ name
    body, readbody := true } c

/-- The first four steps of a worker that finds `o` each time bring it to `solve`. -/
example (o : Ptr) : WorkerPc.saw ([o, o, o] ++ [o]) = .solve o o o o := rfl

/-! What a request can do to the onions and the workers. -/

namespace State

def forget (s : State) : State :=
  let s := rdvPowReset { s with lCurrentOnion := none }
  { s with hist := { s.hist with epoch := s.hist.epoch + 1 } }

end State

inductive Move (ext : Ext) (c : Choice) (hcl : HttpsrvClient) (s : State) : State → Prop
  | stay : Move ext c hcl s s
  | forget : asks hcl "reset".toList → Move ext c hcl s s.forget
  | accept {onion} : imageOnion ext c s hcl = some onion → Move ext c hcl s (s.accept onion)
  | dance {o} : Current s o base → (net ext c (s.mem o).onion).isSome →
      Move ext c hcl s (s.dance o)
  | start {o} : Current s o pow → s.lPowThreadStarted = false → Move ext c hcl s s.start
  | adopt {o inner} : Current s o pow → s.lPowThreadStarted → s.lPowThreadFinished →
      s.lPowInnerOnion = some inner → Move ext c hcl s (s.adopt o inner)
  | peel {o layer inner} : Current s o (s.mem o).onion.type → layer ≠ .pow →
      Takes ext layer (s.mem o).onion inner → Move ext c hcl s (s.peeled o layer inner)

structure Alike (s s' : State) : Prop where
  current : s'.lCurrentOnion = s.lCurrentOnion := by rfl
  started : s'.lPowThreadStarted = s.lPowThreadStarted := by rfl
  finished : s'.lPowThreadFinished = s.lPowThreadFinished := by rfl
  inner : s'.lPowInnerOnion = s.lPowInnerOnion := by rfl
  workers : s'.workers = s.workers := by rfl
  next : s.next ≤ s'.next := by exact le_rfl
  mem : ∀ o < s.next, s'.mem o = s.mem o := by exact fun _ _ => rfl
  accepted : s'.hist.accepted = s.hist.accepted := by rfl
  danced : s'.hist.danced = s.hist.danced := by rfl
  adopted : s'.hist.adopted = s.hist.adopted := by rfl
  epoch : s'.hist.epoch = s.hist.epoch := by rfl
  innerBy : s'.hist.innerBy = s.hist.innerBy := by rfl
  finishedBy : s'.hist.finishedBy = s.hist.finishedBy := by rfl

theorem Alike.refl (s : State) : Alike s s := {}

theorem unlink_alike {s t : State} (ok : Bool) (path : CStr) (h : Alike s t) :
    Alike s (t.unlink ok path) := by
  unfold State.unlink
  split
  · exact { h with }
  · exact h

theorem rmdir_alike {s t : State} (ok : Bool) (dir : CStr) (h : Alike s t) :
    Alike s (t.rmdir ok dir) := by
  unfold State.rmdir
  split
  · exact { h with }
  · exact h

theorem newOnion_alike (s : State) (cell : Cell) : Alike s (s.newOnion cell) where
  next := Nat.le_succ _
  mem o old := Function.update_of_ne (ne_of_lt old) _ _

def Moves (ext : Ext) (c : Choice) (hcl : HttpsrvClient) (s s' : State) : Prop :=
  ∃ t, Move ext c hcl s t ∧ Alike t s'

section
variable {ext : Ext} {c : Choice} {hcl : HttpsrvClient} {s : State}

theorem Alike.moves {s' : State} (h : Alike s s') : Moves ext c hcl s s' := ⟨s, .stay, h⟩

theorem rdvCaptchaReset_alike {t : State} (h : Alike s t) : Alike s (rdvCaptchaReset c t) := by
  unfold rdvCaptchaReset
  split
  · exact h
  · exact { unlink_alike _ _ h with }

theorem rdvImageReset_alike {t : State} (h : Alike s t) : Alike s (rdvImageReset c t) := by
  unfold rdvImageReset
  split
  · exact h
  · exact { rmdir_alike _ _ (unlink_alike _ _ h) with }

theorem rdvPowReset_alike {t : State} (h : Alike s t) :
    Alike (rdvPowReset s) (rdvPowReset t) := by
  unfold rdvPowReset
  rw [h.started]
  split
  · exact { h with started := rfl, finished := rfl, inner := rfl }
  · exact h

theorem rdvReset_moves (asked : asks hcl "reset".toList) :
    Moves ext c hcl s (rdvReset c s).state := by
  have onion : Alike { s with lCurrentOnion := none } (rdvOnionReset s) := {}
  have files := rdvPowReset_alike (rdvImageReset_alike (c := c)
    (rdvCaptchaReset_alike (c := c) onion))
  exact ⟨_, .forget asked, { files with epoch := congrArg (· + 1) files.epoch }⟩

theorem Outcome.moves {s' : State} (h : Outcome ext c hcl s s') : Moves ext c hcl s s' := by
  cases h with
  | stay => exact (Alike.refl s).moves
  | password => exact Alike.moves {}
  | reset asked => exact rdvReset_moves asked
  | undecrypted => exact (unlink_alike _ _ (unlink_alike _ _ {})).moves
  | @refused onion =>
    have new := newOnion_alike s { onion }
    have freed : Alike s (((s.saved c).newOnion { onion }).freeOnion (some s.next)) :=
      { new with }
    exact (unlink_alike _ _ (unlink_alike _ _ freed)).moves
  | taken _ image => exact ⟨_, .accept image, {}⟩
  | danced peels net => exact ⟨_, .dance peels.toCurrent net, {}⟩
  | started peels idle => exact ⟨_, .start peels.toCurrent idle, {}⟩
  | adopted peels started finished stored =>
    exact ⟨_, .adopt peels.toCurrent started finished stored, {}⟩
  | wrote => exact Alike.moves {}
  | showed => exact Alike.moves {}
  | asked => exact Alike.moves {}
  | answered peels _ _ _ takes =>
    exact ⟨_, .peel ⟨peels.current, peels.isOnion, rfl⟩ (by nofun) takes, {}⟩
  | verified peels _ takes =>
    exact ⟨_, .peel ⟨peels.current, peels.isOnion, rfl⟩ (by nofun) takes, {}⟩

variable (ext c hcl s) in
theorem rdvHandle_moves : Moves ext c hcl s (rdvHandle ext c s hcl).state :=
  (rdvHandle_outcome ext c hcl s).moves

end

/-! What a worker can do to them. -/

inductive Works (ext : Ext) (s : State) (w : ℕ) : WorkerPc → State → Prop
  | read {seen o} : s.lCurrentOnion = some o →
      Works ext s w (.read seen) (s.setPc w (.saw (seen ++ [o])))
  | solve {a b d e} : Works ext s w (.solve a b d e) ((s.solved ext w a b d e).setPc w .progress)
  | progress : Works ext s w .progress
      ({ s with lPowThreadProgress := maxAttempts }.setPc w .finish)
  | finish : Works ext s w .finish
      ({ s with
        lPowThreadFinished := true
        hist := { s.hist with finishedBy := some w } }.setPc w .done)

theorem workerStep_works {ext : Ext} {s s' : State} {w : ℕ} (run : workerStep ext s w = some s') :
    ∃ worker, s.workers[w]? = some worker ∧ Works ext s w worker.pc s' := by
  obtain ⟨worker, found, stepped⟩ := Option.bind_eq_some_iff.mp run
  refine ⟨worker, found, ?_⟩
  obtain ⟨pc, epoch⟩ := worker
  cases pc with
  | read seen =>
    obtain ⟨o, current, rfl⟩ := Option.map_eq_some_iff.mp stepped
    exact .read current
  | solve a b d e => cases stepped; exact .solve
  | progress => cases stepped; exact .progress
  | finish => cases stepped; exact .finish
  | done => cases stepped

theorem mem_setPc {s : State} {w : ℕ} {pc : WorkerPc} {worker : Worker}
    (mem : worker ∈ (s.setPc w pc).workers) :
    worker ∈ s.workers ∨ worker.pc = pc := by
  obtain ⟨v, found⟩ := List.mem_iff_getElem?.mp mem
  rw [State.setPc, List.getElem?_modify] at found
  split at found
  · obtain ⟨old, _, rfl⟩ := Option.map_eq_some_iff.mp found
    exact .inr rfl
  · exact .inl (List.mem_of_getElem? (by simpa using found))

/-! The onions there have been. None of them changes. -/

structure Store where
  next : Ptr
  mem : Ptr → Cell
  accepted : List Ptr

def State.store (s : State) : Store := ⟨s.next, s.mem, s.hist.accepted⟩

structure Store.Le (m m' : Store) : Prop where
  next : m.next ≤ m'.next
  mem : ∀ o < m.next, m'.mem o = m.mem o
  accepted : m.accepted ⊆ m'.accepted

theorem Store.Le.refl (m : Store) : m.Le m := ⟨le_rfl, fun _ _ => rfl, List.Subset.refl _⟩

theorem Alike.store_le {s s' : State} (h : Alike s s') : s.store.Le s'.store :=
  ⟨h.next, h.mem, fun _ taken => (congrArg _ h.accepted).mpr taken⟩

theorem store_le_newOnion (s : State) (cell : Cell) (accepted : List Ptr) :
    s.store.Le ⟨s.next + 1, Function.update s.mem s.next cell, s.hist.accepted ++ accepted⟩ :=
  ⟨Nat.le_succ _, fun _ old => Function.update_of_ne (ne_of_lt old) _ _,
    List.subset_append_left _ _⟩

theorem forget_hist (s : State) : s.forget.hist = { s.hist with epoch := s.hist.epoch + 1 } := by
  unfold State.forget rdvPowReset
  dsimp only
  split <;> rfl

theorem forget_store (s : State) : s.forget.store = s.store := by
  unfold State.forget rdvPowReset
  dsimp only
  split <;> rfl

/-! What holds of every onion in use: the current one, the result of a proof of work, and
those that a worker has read. -/

structure InUse (P : Store → Ptr → Prop) (Q : Store → WorkerPc → Prop) (s : State) : Prop where
  current : ∀ o, s.lCurrentOnion = some o → P s.store o
  inner : ∀ o, s.lPowInnerOnion = some o → P s.store o
  workers : ∀ worker ∈ s.workers, Q s.store worker.pc

structure Passes (ext : Ext) (P : Store → Ptr → Prop) (Q : Store → WorkerPc → Prop) : Prop where
  mono : ∀ {m m' o}, Store.Le m m' → P m o → P m' o
  mono_pc : ∀ {m m' pc}, Store.Le m m' → Q m pc → Q m' pc
  layer : ∀ {s : State} {o layer cell}, P s.store o → (s.mem o).onion.isOnion →
    Takes ext layer (s.mem o).onion cell.onion → cell.outer = some o →
    cell.layers = (s.mem o).layers ++ [layer] → P (s.newOnion cell).store s.next
  new : ∀ m, Q m (.read [])
  late : ∀ m, Q m .progress ∧ Q m .finish ∧ Q m .done

namespace InUse

variable {ext : Ext} {c : Choice} {hcl : HttpsrvClient} {s t : State}
  {P : Store → Ptr → Prop} {Q : Store → WorkerPc → Prop}

theorem alike (passes : Passes ext P Q) (h : InUse P Q s) (a : Alike s t) : InUse P Q t where
  current o now := passes.mono a.store_le (h.current o (a.current ▸ now))
  inner o stored := passes.mono a.store_le (h.inner o (a.inner ▸ stored))
  workers worker mem := passes.mono_pc a.store_le (h.workers worker (a.workers ▸ mem))

theorem move (passes : Passes ext P Q) (h : InUse P Q s)
    (image : ∀ onion, imageOnion ext c s hcl = some onion → P (s.accept onion).store s.next)
    (moved : Move ext c hcl s t) : InUse P Q t := by
  cases moved with
  | stay => exact h
  | forget asked =>
    have reset : InUse P Q (rdvPowReset { s with lCurrentOnion := none }) := by
      unfold rdvPowReset
      split
      · exact { h with current := by nofun, inner := by nofun }
      · exact { h with current := by nofun }
    exact {
      current := reset.current
      inner := reset.inner
      workers := reset.workers }
  | @accept onion taken =>
    have le : s.store.Le (s.accept onion).store := store_le_newOnion s _ [s.next]
    refine {
      current := ?_
      inner := fun o stored => passes.mono le (h.inner o stored)
      workers := fun worker mem => passes.mono_pc le (h.workers worker mem) }
    rintro o ⟨⟩
    exact image onion taken
  | dance => exact { h with }
  | start =>
    refine { h with workers := fun worker mem => ?_ }
    rcases List.mem_append.mp mem with old | new
    · exact h.workers worker old
    · obtain rfl := List.mem_singleton.mp new
      exact passes.new _
  | adopt current started finished stored =>
    refine { h with current := ?_, inner := by nofun }
    rintro o ⟨⟩
    exact h.inner _ stored
  | peel current _ takes =>
    refine { h.alike passes (newOnion_alike s _) with current := ?_ }
    rintro o ⟨⟩
    exact passes.layer (h.current _ current.current) current.isOnion takes rfl rfl

theorem setPc {w : ℕ} {pc : WorkerPc} (h : InUse P Q s) (stands : Q s.store pc) :
    InUse P Q (s.setPc w pc) := by
  refine { h with workers := fun worker mem => ?_ }
  rcases mem_setPc mem with old | new
  · exact h.workers worker old
  · exact new ▸ stands

theorem work {w epoch : ℕ} {pc : WorkerPc} (passes : Passes ext P Q) (h : InUse P Q s)
    (found : s.workers[w]? = some { pc, epoch })
    (read : ∀ seen o, pc = .read seen → s.lCurrentOnion = some o → P s.store o →
      Q s.store pc → Q s.store (.saw (seen ++ [o])))
    (solve : ∀ a b d e cell, pc = .solve a b d e → Q s.store pc →
      defiantPow ext (s.mem a).onion (s.mem b).onion (s.mem d).onion (s.mem e).onion =
        some cell.onion → cell.layers = (s.mem a).layers ++ [Layer.pow] →
      (b = a ∧ d = a ∧ e = a → cell.outer = some a) → P (s.newOnion cell).store s.next)
    (works : Works ext s w pc t) : InUse P Q t := by
  have stands := h.workers _ (List.mem_of_getElem? found)
  cases works with
  | @read seen o current => exact h.setPc (read seen o rfl current (h.current o current) stands)
  | @solve a b d e =>
    refine setPc ?_ (passes.late _).1
    unfold State.solved
    split
    · rename_i onion solution
      have outer (same : b = a ∧ d = a ∧ e = a) :
          (if b = a ∧ d = a ∧ e = a then some a else none) = some a := if_pos same
      refine { h.alike passes (newOnion_alike s _) with inner := ?_ }
      rintro o ⟨⟩
      exact solve a b d e _ rfl stands solution rfl outer
    · exact { h with inner := by nofun }
  | progress => exact setPc { h with } (passes.late _).2.1
  | finish => exact setPc { h with } (passes.late _).2.2

end InUse

end Jumpbox.Rendezvous
