import Jumpbox.Rendezvous.Step

/-! Which onions have their NET danced. `rdv_peel` takes whatever layer is outermost, and
nothing asks for a `signed` one: what an image without a signature holds is danced too. -/

namespace Jumpbox.Rendezvous

/-- `o` came out of an accepted image, through layers whose checks have succeeded. -/
inductive Peeled (ext : Ext) (m : Store) : Ptr → Prop
  | image {o} : o ∈ m.accepted → o < m.next → Peeled ext m o
  | layer {outer o layer} : Peeled ext m outer → o < m.next → (m.mem o).outer = some outer →
      (m.mem o).layers = (m.mem outer).layers ++ [layer] → (m.mem outer).onion.isOnion →
      Takes ext layer (m.mem outer).onion (m.mem o).onion → Peeled ext m o

/-- A `signed` layer of `o` has been verified and taken off. -/
def Signed (m : Store) (o : Ptr) : Prop :=
  ∃ publicKey, Layer.signed publicKey ∈ (m.mem o).layers

/-- A NET can be reached in the onion without a signature. -/
inductive Bare (ext : Ext) : Onion → Prop
  | base {o} : o.isOnion → o.type = base → (ext.jsonLoads (nep o)).isSome → Bare ext o
  | captcha {o answer inner} : o.isOnion → Takes ext (.captcha answer) o inner →
      Bare ext inner → Bare ext o
  | pow {o inner} : o.isOnion → Takes ext .pow o inner → Bare ext inner → Bare ext o

def IsPow (m : Store) (o : Ptr) : Prop := (m.mem o).onion.isOnion ∧ (m.mem o).onion.type = pow

/-- No image is taken that holds a NET without a signature, and what a worker reads is one
proof of work. -/
def Sealed (ext : Ext) (s : State) : Event → Prop
  | .request hcl c => ∀ onion, imageOnion ext c s hcl = some onion → ¬Bare ext onion
  | .worker w => ∀ epoch seen o, s.workers[w]? = some { pc := .read seen, epoch } →
      s.lCurrentOnion = some o → IsPow s.store o ∧ ∀ p ∈ seen, p = o
  | .attempts .. => True

section
variable {ext : Ext} {m m' : Store} {o : Ptr}

theorem Peeled.lt (h : Peeled ext m o) : o < m.next := by
  cases h with
  | image _ old => exact old
  | layer _ old => exact old

theorem Peeled.mono (le : m.Le m') (h : Peeled ext m o) : Peeled ext m' o := by
  induction h with
  | image taken old => exact .image (le.accepted taken) (old.trans_le le.next)
  | @layer outer o layer peeled old from_ layers isOnion takes ih =>
    have same := le.mem _ peeled.lt
    have new := le.mem _ old
    have takes : Takes ext layer (m'.mem outer).onion (m'.mem o).onion := by
      rw [same, new]; exact takes
    refine .layer ih (old.trans_le le.next) ?_ ?_ ?_ takes
    · rw [new, from_]
    · rw [new, same, layers]
    · rw [same, isOnion]

theorem IsPow.mono (le : m.Le m') (old : o < m.next) (h : IsPow m o) : IsPow m' o := by
  unfold IsPow
  rw [le.mem o old]
  exact h

theorem Peeled.signed (unsigned : ∀ o ∈ m.accepted, ¬Bare ext (m.mem o).onion)
    (h : Peeled ext m o) : Bare ext (m.mem o).onion → Signed m o := by
  induction h with
  | image taken old => exact fun bare => absurd bare (unsigned _ taken)
  | @layer outer o layer _ old _ layers isOnion takes ih =>
    intro bare
    have from_outer (outer : Signed m outer) : Signed m o := by
      obtain ⟨key, peeled⟩ := outer
      exact ⟨key, layers ▸ List.mem_append_left _ peeled⟩
    cases layer with
    | pow => exact from_outer (ih (.pow isOnion takes bare))
    | captcha answer => exact from_outer (ih (.captcha isOnion takes bare))
    | signed key => exact ⟨key, layers ▸ List.mem_append_right _ (List.mem_singleton_self _)⟩

end

def Sees (ext : Ext) (m : Store) : WorkerPc → Prop
  | .solve a b d e => Peeled ext m a ∧ IsPow m a ∧ b = a ∧ d = a ∧ e = a
  | _ => True

structure Provenance (ext : Ext) (s : State) : Prop where
  unsigned : ∀ o ∈ s.hist.accepted, o < s.next ∧ ¬Bare ext (s.mem o).onion
  current : ∀ o, s.lCurrentOnion = some o → Peeled ext s.store o
  inner : ∀ o, s.lPowInnerOnion = some o → Peeled ext s.store o
  sees : ∀ worker ∈ s.workers, Sees ext s.store worker.pc
  danced : ∀ o ∈ s.hist.danced, Peeled ext s.store o ∧ Bare ext (s.mem o).onion

namespace Provenance

variable {ext : Ext} {c : Choice} {hcl : HttpsrvClient} {s s' t : State}

theorem danced_mono {o : Ptr} (le : s.store.Le t.store)
    (h : Peeled ext s.store o ∧ Bare ext (s.mem o).onion) :
    Peeled ext t.store o ∧ Bare ext (t.mem o).onion := by
  have same : t.mem o = s.mem o := le.mem o h.1.lt
  exact ⟨h.1.mono le, same ▸ h.2⟩

theorem newOnion {o : Ptr} {layer : Layer} {cell : Cell} (peeled : Peeled ext s.store o)
    (isOnion : (s.mem o).onion.isOnion) (takes : Takes ext layer (s.mem o).onion cell.onion)
    (outer : cell.outer = some o) (layers : cell.layers = (s.mem o).layers ++ [layer]) :
    Peeled ext (s.newOnion cell).store s.next := by
  have a := newOnion_alike s cell
  have same : (s.newOnion cell).store.mem o = s.mem o := a.mem o peeled.lt
  have new : (s.newOnion cell).store.mem s.next = cell := Function.update_self ..
  have takes : Takes ext layer ((s.newOnion cell).store.mem o).onion
      ((s.newOnion cell).store.mem s.next).onion := by
    rw [same, new]; exact takes
  refine .layer (peeled.mono a.store_le) (Nat.lt_succ_self _) ?_ ?_ ?_ takes
  · rw [new, outer]
  · rw [new, same, layers]
  · rw [same, isOnion]

theorem passes (ext : Ext) : Passes ext (Peeled ext) (Sees ext) where
  mono le h := h.mono le
  mono_pc {m m' pc} le h := by
    cases pc with
    | solve => exact ⟨h.1.mono le, h.2.1.mono le h.1.lt, h.2.2⟩
    | _ => trivial
  layer := newOnion
  new _ := trivial
  late _ := ⟨trivial, trivial, trivial⟩

theorem inUse (h : Provenance ext s) : InUse (Peeled ext) (Sees ext) s :=
  ⟨h.current, h.inner, h.sees⟩

theorem unsigned_mono (h : Provenance ext s) (le : s.store.Le t.store) {o : Ptr}
    (taken : o ∈ s.hist.accepted) : o < t.next ∧ ¬Bare ext (t.mem o).onion := by
  obtain ⟨old, bare⟩ := h.unsigned o taken
  have same : t.mem o = s.mem o := le.mem o old
  exact ⟨old.trans_le le.next, same ▸ bare⟩

theorem of_inUse (h : Provenance ext s) (use : InUse (Peeled ext) (Sees ext) t)
    (le : s.store.Le t.store) (accepted : t.hist.accepted = s.hist.accepted)
    (danced : t.hist.danced = s.hist.danced) : Provenance ext t where
  unsigned _ taken := h.unsigned_mono le (accepted ▸ taken)
  current := use.current
  inner := use.inner
  sees := use.workers
  danced o mem := danced_mono le (h.danced o (danced ▸ mem))

theorem alike (h : Provenance ext s) (a : Alike s t) : Provenance ext t :=
  h.of_inUse (h.inUse.alike (passes ext) a) a.store_le a.accepted a.danced

theorem dance {o : Ptr} (h : Provenance ext s) (current : Current s o base)
    (net : (net ext c (s.mem o).onion).isSome) : Provenance ext (s.dance o) := by
  refine { h with danced := fun p mem => ?_ }
  rcases List.mem_append.mp mem with old | new
  · exact h.danced p old
  · obtain rfl := List.mem_singleton.mp new
    have loads : (ext.jsonLoads (nep (s.mem p).onion)).isSome := by
      unfold Rendezvous.net jsonLoads at net
      split at net
      · exact net
      · cases net
    exact ⟨h.current p current.current, .base current.isOnion current.type loads⟩

theorem move (h : Provenance ext s)
    (guard : ∀ onion, imageOnion ext c s hcl = some onion → ¬Bare ext onion)
    (moved : Move ext c hcl s t) : Provenance ext t := by
  have use : InUse (Peeled ext) (Sees ext) t := by
    refine h.inUse.move (passes ext) (fun onion _ => ?_) moved
    exact .image (List.mem_append_right _ (List.mem_singleton_self _)) (Nat.lt_succ_self _)
  cases moved with
  | stay => exact h
  | forget =>
    have le : s.store.Le s.forget.store := by
      rw [forget_store]
      exact .refl _
    exact h.of_inUse use le (by rw [forget_hist]) (by rw [forget_hist])
  | @accept onion image =>
    have le : s.store.Le (s.accept onion).store := store_le_newOnion s _ [s.next]
    refine ⟨fun o taken => ?_, use.current, use.inner, use.workers,
      fun o mem => danced_mono le (h.danced o mem)⟩
    rcases List.mem_append.mp taken with old | new
    · exact h.unsigned_mono le old
    · obtain rfl := List.mem_singleton.mp new
      have cell : (s.accept onion).mem s.next = { onion } := Function.update_self ..
      exact ⟨Nat.lt_succ_self _, cell ▸ guard _ image⟩
  | dance current net => exact h.dance current net
  | start => exact h.of_inUse use (.refl _) rfl rfl
  | adopt => exact h.of_inUse use (.refl _) rfl rfl
  | peel => exact h.of_inUse use (newOnion_alike s _).store_le rfl rfl

theorem work {w epoch : ℕ} {pc : WorkerPc} (h : Provenance ext s)
    (found : s.workers[w]? = some { pc, epoch })
    (guard : Sealed ext s (.worker w)) (works : Works ext s w pc t) : Provenance ext t := by
  have use : InUse (Peeled ext) (Sees ext) t := by
    refine h.inUse.work (passes ext) found ?_ ?_ works
    · rintro seen o rfl current peeled -
      obtain ⟨isPow, one⟩ := guard epoch seen o found current
      unfold WorkerPc.saw
      split
      · rename_i a b d e saw
        have all : ∀ p ∈ [a, b, d, e], p = o := by
          rw [← saw]
          exact fun p mem => (List.mem_append.mp mem).elim (one p) List.mem_singleton.mp
        obtain rfl : a = o := all a (by simp)
        exact ⟨peeled, isPow, all b (by simp), all d (by simp), all e (by simp)⟩
      · trivial
    · rintro a b d e cell rfl ⟨peeled, isPow, rfl, rfl, rfl⟩ solution layers outer
      exact newOnion peeled isPow.1 (.pow isPow.2 solution) (outer ⟨rfl, rfl, rfl⟩) layers
  cases works with
  | read => exact h.of_inUse use (.refl _) rfl rfl
  | solve =>
    unfold State.solved at use ⊢
    split at use
    · exact h.of_inUse use (newOnion_alike s _).store_le rfl rfl
    · exact h.of_inUse use (.refl _) rfl rfl
  | progress => exact h.of_inUse use (.refl _) rfl rfl
  | finish => exact h.of_inUse use (.refl _) rfl rfl

theorem step {e : Event} (h : Provenance ext s) (guard : Sealed ext s e)
    (run : (machine ext).step s e = some t) : Provenance ext t := by
  cases e with
  | request hcl c =>
    obtain ⟨u, moved, a⟩ := rdvHandle_moves ext c hcl s
    cases run
    exact (h.move guard moved).alike a
  | worker w =>
    obtain ⟨worker, found, works⟩ := workerStep_works run
    exact h.work found guard works
  | attempts w progress =>
    simp only [machine, Rendezvous.step] at run
    split at run
    · cases run
      exact { h with }
    · cases run

end Provenance

theorem initial_provenance (ext : Ext) : Provenance ext initial where
  unsigned := by nofun
  current := by nofun
  inner := by nofun
  sees := by nofun
  danced := by nofun

/-- Every NET that has been danced was reached through a verified signature. -/
def Verified (ext : Ext) (s : State) : Prop :=
  ∀ o ∈ s.hist.danced, Peeled ext s.store o ∧ Signed s.store o

theorem Provenance.verified {ext : Ext} {s : State} (h : Provenance ext s) : Verified ext s := by
  intro o mem
  obtain ⟨peeled, bare⟩ := h.danced o mem
  exact ⟨peeled, peeled.signed (fun o taken => (h.unsigned o taken).2) bare⟩

theorem verified_of_sealed (ext : Ext) (es : List Event)
    (meets : (machine ext).Meets (Sealed ext) initial es) :
    (machine ext).Always (Verified ext) initial es :=
  ((machine ext).always_of_meets (fun _ _ _ h guard => h.step guard)
    (initial_provenance ext) meets).imp _ fun _ h => h.verified

/-! Two images: one holds a NET, the other holds it under a signature. -/

def netOnion : Onion := { size := 19, type := base, dataSize := 3, contents := [123, 125, 0] }

def signedOnion : Onion := { size := 20, type := signed, dataSize := 4, contents := [1, 2, 3, 4] }

/-- A library for which every image holds `onion`, and every signature is right. -/
def imageLibrary (onion : Onion) : Ext where
  jsonLoads text := if text = "\x7b\x7d".toList then some (.object []) else none
  sizeofOnionHeader := 16
  extractNSave _ image := some image
  defiantPwdDecrypt _ _ := some (onion, onion.size)
  verifyOnion _ _ := true
  peelSignedOnion _ := some netOnion
  peelCaptchaOnion _ _ := none
  defiantPowAux _ _ _ := none
  generateDefiantRequestUrl _ _ server _ := .ok server

def postedImage : Event := posted "image".toList [7] {}

def postedPeel : Event :=
  posted "peel".toList [123, 125] { publicKey := some (some "net.pem".toList) }

theorem dances_unsigned :
    ¬∀ ext es, (machine ext).Always (Verified ext) initial es := by
  intro always
  have run : ∃ s, (machine (imageLibrary netOnion)).exec initial
      [postedImage, postedPeel] = some s ∧ s.hist.danced = [0] ∧ (s.mem 0).layers = [] :=
    ⟨_, rfl, by decide, by decide⟩
  obtain ⟨s, run, danced, layers⟩ := run
  obtain ⟨_, publicKey, mem⟩ := (always _ _).finish _ run 0 (by simp [danced])
  have mem : Layer.signed publicKey ∈ (s.mem 0).layers := mem
  rw [layers] at mem
  cases mem

theorem signedOnion_not_bare (ext : Ext) : ¬Bare ext signedOnion := by
  intro bare
  cases bare with
  | base _ type => cases type
  | captcha _ takes =>
    cases takes with
    | captcha type => cases type
  | pow _ takes =>
    cases takes with
    | pow type => cases type

theorem imageOnion_imageLibrary {onion o : Onion} {c : Choice} {s : State} {hcl : HttpsrvClient}
    (image : imageOnion (imageLibrary onion) c s hcl = some o) : o = onion := by
  obtain ⟨_, decrypted⟩ := Option.ite_none_right_eq_some.mp image
  obtain ⟨_, read⟩ := Option.ite_none_right_eq_some.mp decrypted
  exact (Option.some.inj read).symm

theorem verified_of_sealed_signed :
    ∃ s, (machine (imageLibrary signedOnion)).exec initial
        [postedImage, postedPeel, postedPeel] = some s ∧
      s.hist.danced = [1] ∧ Verified (imageLibrary signedOnion) s := by
  have sealed (s : State) (hcl : HttpsrvClient) (c : Choice) :
      Sealed (imageLibrary signedOnion) s (.request hcl c) := by
    intro onion image
    rw [imageOnion_imageLibrary image]
    exact signedOnion_not_bare _
  have run : ∃ s, (machine (imageLibrary signedOnion)).exec initial
      [postedImage, postedPeel, postedPeel] = some s ∧ s.hist.danced = [1] :=
    ⟨_, rfl, by decide⟩
  obtain ⟨s, run, danced⟩ := run
  have always := verified_of_sealed (imageLibrary signedOnion) [postedImage, postedPeel, postedPeel]
    ⟨sealed _ _ _, fun _ _ => ⟨sealed _ _ _, fun _ _ => ⟨sealed _ _ _, fun _ _ => trivial⟩⟩⟩
  exact ⟨s, run, danced, always.finish _ run⟩

end Jumpbox.Rendezvous
