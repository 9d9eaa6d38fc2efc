import Jumpbox.Rendezvous.Verified

/-! Which onions become current. `rdv_image` checks the magic and the size of what it has
decrypted, and nothing checks what is under a layer: type and parts are taken as they are. -/

namespace Jumpbox.Rendezvous

/-- What the handlers rely on: `rdv_onion_name` knows the type, there is a hash in front of
the secret of a proof of work, and the parts lie within the buffer. -/
structure Onion.Proper (o : Onion) : Prop where
  type : o.type < onionNames.length
  puzzle : o.type = pow → shaDigestLength ≤ o.puzzleSize
  parts : o.puzzleSize + o.dataSize ≤ o.contents.length

inductive Within (ext : Ext) : Onion → Onion → Prop
  | self {o} : Within ext o o
  | layer {outer layer inner o} : outer.isOnion → Takes ext layer outer inner →
      Within ext inner o → Within ext outer o

def ProperThroughout (ext : Ext) (image : Onion) : Prop := ∀ o, Within ext image o → o.Proper

/-- The types that `rdv_onion_name` is asked for at most: that of an image, and those of the
current onion before and after a peel. -/
def namesAsked (ext : Ext) (s : State) : Event → List ℕ
  | .request hcl c =>
    let current (s : State) := s.lCurrentOnion.toList.map fun o => (s.mem o).onion.type
    ((imageOnion ext { c with response := true } s hcl).map Onion.type).toList ++
      if (peelRoot ext c hcl).isSome then current s ++ current (rdvHandle ext c s hcl).state else []
  | _ => []

def NamesInTable (ext : Ext) (s : State) (e : Event) : Prop :=
  ∀ type ∈ namesAsked ext s e, type < onionNames.length

/-- The current onion is proper, and no worker has computed a negative `secret_len`. -/
structure Sane (s : State) : Prop where
  current : ∀ o, s.lCurrentOnion = some o → (s.mem o).onion.Proper
  secret : ∀ worker ∈ s.workers, ∀ a b d e, worker.pc = .solve a b d e →
    shaDigestLength ≤ (s.mem a).onion.puzzleSize

/-- What comes in is proper throughout: an image, and what a worker makes of several onions.
A worker begins with a proof of work, or with a puzzle that is long enough for one. -/
def Vetted (ext : Ext) (s : State) : Event → Prop
  | .request hcl c => ∀ onion, imageOnion ext { c with response := true } s hcl = some onion →
      ProperThroughout ext onion
  | .worker w => ∀ worker, s.workers[w]? = some worker →
    match worker.pc with
    | .read [] => ∀ o, s.lCurrentOnion = some o →
        (s.mem o).onion.type = pow ∨ shaDigestLength ≤ (s.mem o).onion.puzzleSize
    | .solve a b d e => (IsPow s.store a ∧ b = a ∧ d = a ∧ e = a) ∨
        ∀ inner, defiantPow ext (s.mem a).onion (s.mem b).onion (s.mem d).onion (s.mem e).onion =
          some inner → ProperThroughout ext inner
    | _ => True
  | .attempts .. => True

def WorkerPc.seen : WorkerPc → List Ptr
  | .read seen => seen
  | .solve a b d e => [a, b, d, e]
  | _ => []

structure Vouched (ext : Ext) (m : Store) (o : Ptr) : Prop where
  old : o < m.next
  proper : ProperThroughout ext (m.mem o).onion

structure Reads (ext : Ext) (m : Store) (pc : WorkerPc) : Prop where
  seen : ∀ o ∈ pc.seen, Vouched ext m o
  puzzle : ∀ a ∈ pc.seen.head?, shaDigestLength ≤ (m.mem a).onion.puzzleSize

section
variable {ext : Ext} {c : Choice} {hcl : HttpsrvClient} {s t : State} {m m' : Store}

theorem ProperThroughout.self {image : Onion} (h : ProperThroughout ext image) : image.Proper :=
  h image .self

theorem ProperThroughout.layer {outer inner : Onion} {layer : Layer}
    (h : ProperThroughout ext outer) (isOnion : outer.isOnion)
    (takes : Takes ext layer outer inner) : ProperThroughout ext inner :=
  fun o within => h o (.layer isOnion takes within)

theorem Vouched.mono {o : Ptr} (le : m.Le m') (h : Vouched ext m o) : Vouched ext m' o :=
  ⟨h.old.trans_le le.next, le.mem o h.old ▸ h.proper⟩

theorem vouched_newOnion {cell : Cell} (proper : ProperThroughout ext cell.onion) :
    Vouched ext (s.newOnion cell).store s.next := by
  have new : (s.newOnion cell).store.mem s.next = cell := Function.update_self ..
  refine ⟨Nat.lt_succ_self _, ?_⟩
  rw [new]
  exact proper

theorem Reads.mono {pc : WorkerPc} (le : m.Le m') (h : Reads ext m pc) : Reads ext m' pc where
  seen o mem := (h.seen o mem).mono le
  puzzle a first := by
    rw [le.mem a (h.seen a (List.mem_of_mem_head? first)).old]
    exact h.puzzle a first

theorem passes_vouched (ext : Ext) : Passes ext (Vouched ext) (Reads ext) where
  mono le h := h.mono le
  mono_pc le h := h.mono le
  layer h isOnion takes _ _ := vouched_newOnion (h.proper.layer isOnion takes)
  new _ := ⟨by nofun, by nofun⟩
  late _ := ⟨⟨by nofun, by nofun⟩, ⟨by nofun, by nofun⟩, ⟨by nofun, by nofun⟩⟩

theorem imageOnion_response {onion : Onion} (image : imageOnion ext c s hcl = some onion) :
    imageOnion ext { c with response := true } s hcl = some onion := by
  obtain ⟨asked, decrypted⟩ := Option.ite_none_right_eq_some.mp image
  exact Option.ite_none_right_eq_some.mpr ⟨⟨asked.1, asked.2.1, asked.2.2.1, rfl⟩, decrypted⟩

theorem seen_saw (seen : List Ptr) : (WorkerPc.saw seen).seen = seen := by
  unfold WorkerPc.saw
  split <;> rfl

theorem InUse.vetted_request (h : InUse (Vouched ext) (Reads ext) s)
    (guard : Vetted ext s (.request hcl c)) :
    InUse (Vouched ext) (Reads ext) (rdvHandle ext c s hcl).state := by
  obtain ⟨u, moved, a⟩ := rdvHandle_moves ext c hcl s
  refine (h.move (passes_vouched ext) (fun onion image => ?_) moved).alike (passes_vouched ext) a
  have new : Vouched ext (s.newOnion { onion }).store s.next :=
    vouched_newOnion (guard onion (imageOnion_response image))
  exact ⟨new.old, new.proper⟩

theorem InUse.vetted_worker {w : ℕ} (h : InUse (Vouched ext) (Reads ext) s)
    (guard : Vetted ext s (.worker w)) (run : workerStep ext s w = some t) :
    InUse (Vouched ext) (Reads ext) t := by
  obtain ⟨⟨pc, epoch⟩, found, works⟩ := workerStep_works run
  have vetted := guard _ found
  refine h.work (passes_vouched ext) found ?_ ?_ works
  · rintro seen o rfl current vouched reads
    refine ⟨fun p mem => ?_, fun a first => ?_⟩
    · rw [seen_saw] at mem
      rcases List.mem_append.mp mem with old | new
      · exact reads.seen p old
      · exact List.mem_singleton.mp new ▸ vouched
    · rw [seen_saw] at first
      cases seen with
      | nil =>
        obtain rfl : o = a := Option.some.inj first
        exact (vetted o current).elim vouched.proper.self.puzzle id
      | cons b seen =>
        obtain rfl : b = a := Option.some.inj first
        exact reads.puzzle b rfl
  · rintro a b d e cell rfl reads solution - -
    refine vouched_newOnion ?_
    rcases vetted with ⟨isPow, rfl, rfl, rfl⟩ | proper
    · have vouched := reads.seen e (List.mem_cons_self ..)
      exact vouched.proper.layer isPow.1 (.pow isPow.2 solution)
    · exact proper _ solution

theorem InUse.vetted_step {e : Event} (h : InUse (Vouched ext) (Reads ext) s)
    (guard : Vetted ext s e) (run : (machine ext).step s e = some t) :
    InUse (Vouched ext) (Reads ext) t := by
  cases e with
  | request hcl c =>
    cases run
    exact h.vetted_request guard
  | worker w => exact h.vetted_worker guard run
  | attempts w progress =>
    simp only [machine, Rendezvous.step] at run
    split at run
    · cases run
      exact h.alike (passes_vouched ext) {}
    · cases run

theorem InUse.sane (h : InUse (Vouched ext) (Reads ext) s) : Sane s where
  current o now := (h.current o now).proper.self
  secret worker mem a b d e solving := by
    have reads := h.workers worker mem
    rw [solving] at reads
    exact reads.puzzle a rfl

theorem InUse.names (h : InUse (Vouched ext) (Reads ext) s) {e : Event}
    (guard : Vetted ext s e) : NamesInTable ext s e := by
  -- each name is that of a vetted image or of a current onion
  have current {t : State} (h : InUse (Vouched ext) (Reads ext) t) {type : ℕ}
      (mem : type ∈ t.lCurrentOnion.toList.map fun o => (t.mem o).onion.type) :
      type < onionNames.length := by
    obtain ⟨o, now, rfl⟩ := List.mem_map.mp mem
    exact (h.current o (Option.mem_toList.mp now)).proper.self.type
  cases e with
  | request hcl c =>
    intro type mem
    rcases List.mem_append.mp mem with image | peel
    · obtain ⟨onion, taken, rfl⟩ := Option.map_eq_some_iff.mp (Option.mem_toList.mp image)
      exact (guard onion taken).self.type
    · split at peel
      · rcases List.mem_append.mp peel with before | after
        · exact current h before
        · exact current (h.vetted_request guard) after
      · cases peel
  | worker => nofun
  | attempts => nofun

end

theorem initial_inUse (P : Store → Ptr → Prop) (Q : Store → WorkerPc → Prop) :
    InUse P Q initial :=
  ⟨by nofun, by nofun, by nofun⟩

theorem sane_of_vetted (ext : Ext) (es : List Event)
    (meets : (machine ext).Meets (Vetted ext) initial es) :
    (machine ext).Always Sane initial es ∧ (machine ext).Meets (NamesInTable ext) initial es :=
  ⟨((machine ext).always_of_meets (fun _ _ _ h guard => h.vetted_step guard)
      (initial_inUse _ _) meets).imp _ fun _ h => h.sane,
    meets.imp _ (fun _ _ _ h guard => h.vetted_step guard) (fun _ _ _ h guard => h.names guard)
      (initial_inUse _ _)⟩

def unknownOnion : Onion := { size := 16, type := 7 }

theorem takes_improper :
    ¬∀ ext es, (machine ext).Always Sane initial es ∧
      (machine ext).Meets (NamesInTable ext) initial es := by
  intro always
  have run : ∃ s, (machine (imageLibrary unknownOnion)).exec initial [postedImage] = some s ∧
      s.lCurrentOnion = some 0 ∧ (s.mem 0).onion = unknownOnion := ⟨_, rfl, rfl, rfl⟩
  obtain ⟨s, run, current, unknown⟩ := run
  have sane := (always (imageLibrary unknownOnion) [postedImage]).1.finish _ run
  have type := (sane.current 0 current).type
  rw [unknown] at type
  exact absurd type (by decide)

theorem signedOnion_proper : ProperThroughout (imageLibrary signedOnion) signedOnion := by
  intro o within
  cases within with
  | self => exact ⟨by decide, by decide, by decide⟩
  | layer _ takes below =>
    cases takes with
    | pow type => cases type
    | captcha type => cases type
    | signed _ _ peeled =>
      cases peeled
      cases below with
      | self => exact ⟨by decide, by decide, by decide⟩
      | layer _ takes =>
        cases takes with
        | pow type => cases type
        | captcha type => cases type
        | signed type => cases type

theorem sane_of_vetted_signed :
    ∃ s, (machine (imageLibrary signedOnion)).exec initial [postedImage, postedPeel] = some s ∧
      s.lCurrentOnion = some 1 ∧ Sane s := by
  have vetted (s : State) (hcl : HttpsrvClient) (c : Choice) :
      Vetted (imageLibrary signedOnion) s (.request hcl c) := by
    intro onion image
    rw [imageOnion_imageLibrary image]
    exact signedOnion_proper
  have run : ∃ s, (machine (imageLibrary signedOnion)).exec initial
      [postedImage, postedPeel] = some s ∧ s.lCurrentOnion = some 1 := ⟨_, rfl, rfl⟩
  obtain ⟨s, run, current⟩ := run
  have sane := sane_of_vetted (imageLibrary signedOnion) [postedImage, postedPeel]
    ⟨vetted _ _ _, fun _ _ => ⟨vetted _ _ _, fun _ _ => trivial⟩⟩
  exact ⟨s, run, current, sane.1.finish _ run⟩

end Jumpbox.Rendezvous
