import Jumpbox.Proxy.Pairing

/-! The body of a proxied POST on its way to a puller. `httpsrv_forward` moves
what is still unread on the client's connection, so what a puller has been sent
and what is still unread make up the body, or the puller never gets all of it.
The second hand-over of a request starts where the first one was cut off. -/

namespace Jumpbox.Proxy

open Table

def Out.bytes : Out → List UInt8
  | .body bytes => bytes
  | _ => []

def Cause.handOver : Cause → Option (Ptr × Ptr)
  | .request pr ar => some (pr, ar)
  | _ => none

/-- The hand-overs for which `httpsrv_forward` has been called. -/
def handOvers (s : State) : List (Ptr × Ptr) :=
  s.hist.forwarded.filterMap fun f => f.cause.handOver

/-- The part of the body of request `h.1` that puller `h.2` has been sent. -/
def sentBody (s : State) (h : Ptr × Ptr) : List UInt8 :=
  s.log.flatMap fun w =>
    if w.cause.handOver = some h ∧ w.dst = keyOf s h.2 then Out.bytes w.out else []

def unreadBody (s : State) (pr : Ptr) : List UInt8 :=
  (s.mem pr).hcl.body.drop (s.consumed (keyOf s pr))

/-- The puller has been sent all of the body but what is still unread, from the
first byte on. -/
def OnCourse (s : State) (h : Ptr × Ptr) : Prop :=
  sentBody s h ++ unreadBody s h.1 = (s.mem h.1).hcl.body

instance (s : State) (h : Ptr × Ptr) : Decidable (OnCourse s h) :=
  inferInstanceAs (Decidable (_ = _))

/-- The hand-over a worker is in, from its second list operation on. -/
def WorkerPc.pairing : WorkerPc → Option (Ptr × Ptr)
  | .forward pr ar | .enlist pr ar | .handOver pr ar => some (pr, ar)
  | _ => none

structure Transfers (s : State) : Prop where
  pending : ∀ pc ∈ s.workers, ∀ h ∈ pc.pairing, h.1 ∈ s.hist.accepted ∧ h.2 ∈ s.hist.pulls
  handed : ∀ h ∈ handOvers s, h.1 ∈ s.hist.accepted ∧ h.2 ∈ s.hist.pulls
  active : ∀ f ∈ s.forwards, f ∈ s.hist.forwarded
  sources : ∀ f ∈ s.hist.forwarded, ∀ h ∈ f.cause.handOver,
    f.src = (s.mem h.1).hcl ∧ f.dst = (s.mem h.2).hcl ∧ f.src.body ≠ []
  answers : ∀ f ∈ s.hist.forwarded, f.cause.handOver = none →
    ∃ p ∈ s.hist.accepted, (p, f.src) ∈ s.hist.completed ∧ f.dst = (s.mem p).hcl
  written : ∀ w ∈ s.log, Out.bytes w.out ≠ [] → ∀ h ∈ w.cause.handOver, h ∈ handOvers s
  left : ∀ h ∈ handOvers s, h.2 ∈ s.hist.released ∨ .release h.2 ∈ s.workers

theorem mem_handOvers {s : State} {h : Ptr × Ptr} :
    h ∈ handOvers s ↔ ∃ f ∈ s.hist.forwarded, f.cause.handOver = some h := by
  simp [handOvers]

theorem accepted_of_step {s s' : State} {e : Event} (st : Step s e s') :
    ∀ p ∈ s.hist.accepted, p ∈ s'.hist.accepted := by
  intro p member
  cases st with
  | accept | internal => exact List.mem_append_left _ member
  | _ => exact member

theorem pulls_of_step {s s' : State} {e : Event} (st : Step s e s') :
    ∀ p ∈ s.hist.pulls, p ∈ s'.hist.pulls := by
  intro p member
  cases st with
  | pull => exact List.mem_append_left _ member
  | _ => exact member

theorem transfers_pending {s s' : State} {e : Event} (h : Transfers s) (booked : Booked s)
    (st : Step s e s') :
    ∀ pc ∈ s'.workers, ∀ h ∈ pc.pairing, h.1 ∈ s'.hist.accepted ∧ h.2 ∈ s'.hist.pulls := by
  have accepted := accepted_of_step st
  have pulls := pulls_of_step st
  have before : ∀ pc ∈ s.workers, ∀ h ∈ pc.pairing,
      h.1 ∈ s'.hist.accepted ∧ h.2 ∈ s'.hist.pulls := fun pc member pair inside =>
    have := h.pending pc member pair inside
    ⟨accepted _ this.1, pulls _ this.2⟩
  cases st with
  | takeNew pc | drop pc | handBody pc | handPlain pc | release pc =>
    exact forall_set before (by simp [WorkerPc.pairing])
  | pair pc | enlist pc =>
    exact forall_set before fun pair inside => before _ (List.mem_of_getElem? pc) pair inside
  | @takePull t pr ar rest pc lst =>
    refine forall_set before fun pair inside => ?_
    obtain rfl := Option.some.inj inside
    have held : Held s pr :=
      .inr (.inr (.inl ⟨_, List.mem_of_getElem? pc, by simp [WorkerPc.requests]⟩))
    exact ⟨booked.accepted_of_held held, booked.pulled_of_listed (by simp [lst])⟩
  | _ => exact before

theorem transfers_handed {s s' : State} {e : Event} (h : Transfers s) (st : Step s e s') :
    ∀ h ∈ handOvers s', h.1 ∈ s'.hist.accepted ∧ h.2 ∈ s'.hist.pulls := by
  have accepted := accepted_of_step st
  have pulls := pulls_of_step st
  have before : ∀ h ∈ handOvers s, h.1 ∈ s'.hist.accepted ∧ h.2 ∈ s'.hist.pulls :=
    fun pair member =>
      have := h.handed pair member
      ⟨accepted _ this.1, pulls _ this.2⟩
  intro pair member
  obtain ⟨f, issued, cause⟩ := mem_handOvers.mp member
  cases st with
  | handBody pc =>
    rcases List.mem_append.mp issued with earlier | this_one
    · exact before pair (mem_handOvers.mpr ⟨f, earlier, cause⟩)
    · obtain rfl := List.mem_singleton.mp this_one
      cases cause
      exact h.pending _ (List.mem_of_getElem? pc) _ rfl
  | answerBody pc =>
    rcases List.mem_append.mp issued with earlier | this_one
    · exact before pair (mem_handOvers.mpr ⟨f, earlier, cause⟩)
    · obtain rfl := List.mem_singleton.mp this_one
      cases cause
  | _ => exact before pair (mem_handOvers.mpr ⟨f, issued, cause⟩)

theorem transfers_active {s s' : State} {e : Event} (h : Transfers s) (st : Step s e s') :
    ∀ f ∈ s'.forwards, f ∈ s'.hist.forwarded := by
  have append (g : Forward) : ∀ f ∈ s.forwards ++ [g], f ∈ s.hist.forwarded ++ [g] := by
    intro f member
    rcases List.mem_append.mp member with earlier | this_one
    · exact List.mem_append_left _ (h.active f earlier)
    · exact List.mem_append_right _ this_one
  cases st with
  | handBody | answerBody => exact append _
  | finish | abort => exact fun f member => h.active f (List.mem_of_mem_eraseIdx member)
  | _ => exact h.active

theorem body_of_forwardsBody {hcl : HttpsrvClient} (forwards : forwardsBody hcl = true) :
    hcl.body ≠ [] := by
  simp only [forwardsBody, HttpsrvClient.contentLength, Bool.and_eq_true, decide_eq_true_eq,
    ne_eq, List.length_eq_zero_iff] at forwards
  exact forwards.2

theorem transfers_sources {s s' : State} {e : Event} (h : Transfers s) (booked : Booked s)
    (st : Step s e s') : ∀ f ∈ s'.hist.forwarded, ∀ h ∈ f.cause.handOver,
      f.src = (s'.mem h.1).hcl ∧ f.dst = (s'.mem h.2).hcl ∧ f.src.body ≠ [] := by
  have before : ∀ f ∈ s.hist.forwarded, ∀ h ∈ f.cause.handOver,
      f.src = (s'.mem h.1).hcl ∧ f.dst = (s'.mem h.2).hcl ∧ f.src.body ≠ [] := by
    intro f issued pair cause
    obtain ⟨accepted, pulled⟩ := h.handed pair (mem_handOvers.mpr ⟨f, issued, cause⟩)
    have request := mem_of_step st (booked.old _ (List.mem_append_left _ accepted))
    have puller := mem_of_step st (booked.old _ (List.mem_append_right _ pulled))
    rw [request, puller]
    exact h.sources f issued pair cause
  cases st with
  | handBody pc body =>
    refine List.forall_mem_append.mpr ⟨before, fun f this_one pair cause => ?_⟩
    obtain rfl := List.mem_singleton.mp this_one
    cases cause
    exact ⟨rfl, rfl, body_of_forwardsBody body⟩
  | answerBody pc =>
    refine List.forall_mem_append.mpr ⟨before, fun f this_one pair cause => ?_⟩
    obtain rfl := List.mem_singleton.mp this_one
    cases cause
  | _ => exact before

theorem completed_of_step {s s' : State} {e : Event} (st : Step s e s') :
    ∀ c ∈ s.hist.completed, c ∈ s'.hist.completed := by
  intro c member
  cases st with
  | answerClosed | answerPlain | answerBody | callbackDone => exact List.mem_append_left _ member
  | _ => exact member

theorem Booked.accepted_of_found {s : State} (h : Booked s) {t : ℕ} {hcl : HttpsrvClient}
    {pr : Ptr} (pc : s.handlers[t]? = some (.found hcl pr)) : pr ∈ s.hist.accepted := by
  refine h.accepted_of_held (.inr (.inr (.inr ⟨_, List.mem_of_getElem? pc, ?_⟩)))
  simp [HandlerPc.requests]

theorem transfers_answers {s s' : State} {e : Event} (h : Transfers s) (booked : Booked s)
    (st : Step s e s') : ∀ f ∈ s'.hist.forwarded, f.cause.handOver = none →
      ∃ p ∈ s'.hist.accepted, (p, f.src) ∈ s'.hist.completed ∧ f.dst = (s'.mem p).hcl := by
  have before : ∀ f ∈ s.hist.forwarded, f.cause.handOver = none →
      ∃ p ∈ s'.hist.accepted, (p, f.src) ∈ s'.hist.completed ∧ f.dst = (s'.mem p).hcl := by
    intro f issued named
    obtain ⟨p, accepted, done, dest⟩ := h.answers f issued named
    have client := mem_of_step st (booked.old _ (List.mem_append_left _ accepted))
    exact ⟨p, accepted_of_step st p accepted, completed_of_step st _ done, by rw [client, dest]⟩
  cases st with
  | handBody pc =>
    refine List.forall_mem_append.mpr ⟨before, fun f this_one named => ?_⟩
    obtain rfl := List.mem_singleton.mp this_one
    cases named
  | @answerBody t hcl pr pc =>
    refine List.forall_mem_append.mpr ⟨before, fun f this_one _ => ?_⟩
    obtain rfl := List.mem_singleton.mp this_one
    refine ⟨pr, booked.accepted_of_found pc, ?_, rfl⟩
    exact List.mem_append_right _ (List.mem_singleton.mpr rfl)
  | _ => exact before

theorem transfers_left {s s' : State} {e : Event} (h : Transfers s) (st : Step s e s') :
    ∀ h ∈ handOvers s', h.2 ∈ s'.hist.released ∨ .release h.2 ∈ s'.workers := by
  have worker {t : ℕ} {old : WorkerPc} (new : WorkerPc) (pc : s.workers[t]? = some old)
      (other : ∀ ar, .release ar ≠ old) : ∀ h ∈ handOvers s,
      h.2 ∈ s.hist.released ∨ .release h.2 ∈ s.workers.set t new :=
    fun pair member => (h.left pair member).imp_right fun held => mem_set_of_ne pc _ held (other _)
  cases st with
  | takeNew pc | takePull pc | drop pc | pair pc | enlist pc | handPlain pc =>
    exact worker _ pc (by simp)
  | @handBody t pr ar pc =>
    intro pair member
    obtain ⟨f, issued, cause⟩ := mem_handOvers.mp member
    rcases List.mem_append.mp issued with earlier | this_one
    · exact worker _ pc (by simp) pair (mem_handOvers.mpr ⟨f, earlier, cause⟩)
    · obtain rfl := List.mem_singleton.mp this_one
      cases cause
      exact .inr (List.mem_iff_getElem?.mpr ⟨t, by simp [getElem?_set_of_some pc]⟩)
  | @release t ar pc =>
    intro pair member
    rcases h.left pair member with freed | held
    · exact .inl (List.mem_append_left _ freed)
    · by_cases same : pair.2 = ar
      · exact .inl (List.mem_append_right _ (List.mem_singleton.mpr same))
      · exact .inr (mem_set_of_ne pc _ held (by simpa using same))
  | answerBody pc =>
    intro pair member
    obtain ⟨f, issued, cause⟩ := mem_handOvers.mp member
    rcases List.mem_append.mp issued with earlier | this_one
    · exact h.left pair (mem_handOvers.mpr ⟨f, earlier, cause⟩)
    · obtain rfl := List.mem_singleton.mp this_one
      cases cause
  | _ => exact h.left

theorem handOvers_of_step {s s' : State} {e : Event} (st : Step s e s') :
    ∀ h ∈ handOvers s, h ∈ handOvers s' := by
  have append (f : Forward) : ∀ h ∈ handOvers s,
      h ∈ (s.hist.forwarded ++ [f]).filterMap fun f => f.cause.handOver := by
    intro pair member
    rw [List.filterMap_append]
    exact List.mem_append_left _ member
  cases st with
  | handBody | answerBody => exact append _
  | _ => exact fun pair member => member

def Write.Silent (w : Write) : Prop := w.cause.handOver = none ∨ Out.bytes w.out = []

theorem forwardHeaders_bytes (hcl : HttpsrvClient) :
    ∀ out ∈ forwardHeaders hcl, Out.bytes out = [] := by
  simp only [forwardHeaders, httpOk, List.forall_mem_append, List.forall_mem_cons]
  refine ⟨⟨⟨rfl, rfl, rfl, rfl, by simp⟩, ?_⟩, ?_⟩
  · split <;> simp only [List.forall_mem_cons, List.not_mem_nil, false_implies, implies_true,
      Out.bytes, and_self]
  · split <;> simp only [List.forall_mem_cons, List.not_mem_nil, false_implies, implies_true,
      Out.bytes, and_self]

theorem silent_map {cause : Cause} {dst : Key} {outs : List Out}
    (silent : cause.handOver = none ∨ ∀ out ∈ outs, Out.bytes out = []) :
    ∀ w ∈ outs.map (fun out => (⟨cause, dst, out⟩ : Write)), w.Silent := by
  intro w member
  obtain ⟨out, inside, rfl⟩ := List.mem_map.mp member
  exact silent.imp_right fun empty => empty out inside

theorem log_of_step {s s' : State} {e : Event} (st : Step s e s') (still : ∀ i n, e ≠ .move i n) :
    s'.consumed = s.consumed ∧ ∃ ws, s'.log = s.log ++ ws ∧ ∀ w ∈ ws, w.Silent := by
  cases st with
  | pair pc => exact ⟨rfl, _, rfl, silent_map (.inr (forwardHeaders_bytes _))⟩
  | handPlain pc => exact ⟨rfl, _, rfl, silent_map (.inr (by simp [Out.bytes]))⟩
  | refuse | drop | miss | answerClosed | callbackDone | finish | answerBody =>
    exact ⟨rfl, _, rfl, silent_map (.inl rfl)⟩
  | answerPlain =>
    refine ⟨rfl, _, List.append_assoc _ _ _, List.forall_mem_append.mpr ⟨?_, ?_⟩⟩
    · exact silent_map (.inl rfl)
    · exact silent_map (.inl rfl)
  | move => exact absurd rfl (still _ _)
  | _ => exact ⟨rfl, [], (List.append_nil _).symm, by simp⟩

theorem transfers_written {s s' : State} {e : Event} (h : Transfers s) (st : Step s e s') :
    ∀ w ∈ s'.log, Out.bytes w.out ≠ [] → ∀ h ∈ w.cause.handOver, h ∈ handOvers s' := by
  have before : ∀ w ∈ s.log, Out.bytes w.out ≠ [] → ∀ h ∈ w.cause.handOver, h ∈ handOvers s' :=
    fun w member bytes pair cause =>
      handOvers_of_step st pair (h.written w member bytes pair cause)
  by_cases still : ∀ i n, e ≠ .move i n
  · obtain ⟨_, ws, log, silent⟩ := log_of_step st still
    rw [log]
    refine List.forall_mem_append.mpr ⟨before, fun w member bytes pair cause => ?_⟩
    rcases silent w member with none | empty
    · simp [none] at cause
    · exact absurd empty bytes
  · cases st with
    | @move i n f active =>
      refine List.forall_mem_append.mpr ⟨before, fun w member _ pair cause => ?_⟩
      obtain rfl := List.mem_singleton.mp member
      exact mem_handOvers.mpr ⟨f, h.active f (List.mem_of_getElem? active), cause⟩
    | _ => exact absurd (fun _ _ => by simp) still

theorem transfers_step {s s' : State} {e : Event} (h : Transfers s) (booked : Booked s)
    (st : Step s e s') : Transfers s' where
  pending := transfers_pending h booked st
  handed := transfers_handed h st
  active := transfers_active h st
  sources := transfers_sources h booked st
  answers := transfers_answers h booked st
  written := transfers_written h st
  left := transfers_left h st

theorem transfers_init (workers handlers : ℕ) : Transfers (init workers handlers) := by
  refine ⟨fun pc member => ?_, ?_, ?_, ?_, ?_, ?_, ?_⟩
  · simp [List.eq_of_mem_replicate member, WorkerPc.pairing]
  all_goals simp [init, handOvers]

def Write.adds (w : Write) (h : Ptr × Ptr) (key : Key) : List UInt8 :=
  if w.cause.handOver = some h ∧ w.dst = key then Out.bytes w.out else []

theorem sentBody_step {s s' : State} {e : Event} (booked : Booked s) (st : Step s e s')
    {ws : List Write} (log : s'.log = s.log ++ ws) {h : Ptr × Ptr} (pulled : h.2 ∈ s.hist.pulls) :
    sentBody s' h = sentBody s h ++ ws.flatMap fun w => w.adds h (keyOf s h.2) := by
  have key : keyOf s' h.2 = keyOf s h.2 := by
    rw [keyOf, keyOf, mem_of_step st (booked.old _ (List.mem_append_right _ pulled))]
  simp only [sentBody, log, List.flatMap_append, key, Write.adds]

theorem sentBody_silent {s s' : State} {e : Event} (booked : Booked s) (st : Step s e s')
    {ws : List Write} (log : s'.log = s.log ++ ws) (silent : ∀ w ∈ ws, w.Silent) {h : Ptr × Ptr}
    (pulled : h.2 ∈ s.hist.pulls) : sentBody s' h = sentBody s h := by
  have nothing : (ws.flatMap fun w => w.adds h (keyOf s h.2)) = [] := by
    rw [List.flatMap_eq_nil_iff]
    intro w member
    rcases silent w member with none | empty
    · simp [Write.adds, none]
    · simp [Write.adds, empty]
  rw [sentBody_step booked st log pulled, nothing, List.append_nil]

theorem sentBody_eq_nil {s : State} (h : Transfers s) {pair : Ptr × Ptr}
    (absent : pair ∉ handOvers s) : sentBody s pair = [] := by
  rw [sentBody, List.flatMap_eq_nil_iff]
  intro w member
  split
  · next named =>
    by_contra bytes
    exact absent (h.written w member bytes pair named.1)
  · rfl

theorem pairing_of_handOvers {s : State} (h : Transfers s) (booked : Booked s) {t : ℕ}
    {pc : WorkerPc} {pair : Ptr × Ptr} (at_t : s.workers[t]? = some pc)
    (named : pc.pairing = some pair) : pair ∉ handOvers s := by
  intro member
  have once := booked.pulled_once pair.2
  have books := booked.pulls pair.2
  have here : pc.pulls.count pair.2 = 1 := by
    cases pc <;> cases named <;> simp [WorkerPc.pulls]
  have there : (WorkerPc.release pair.2).pulls.count pair.2 = 1 := by simp [WorkerPc.pulls]
  rcases h.left _ member with released | held
  · have one := weight_le_total (fun pc : WorkerPc => pc.pulls.count pair.2) at_t
    have freed := List.count_pos_iff.mpr released
    simp only [pullBook] at books
    omega
  · obtain ⟨i, at_i⟩ := List.mem_iff_getElem?.mp held
    have apart : i ≠ t := by
      rintro rfl
      obtain rfl := Option.some.inj (at_t.symm.trans at_i)
      cases named
    have two := weight_add_le_total (fun pc : WorkerPc => pc.pulls.count pair.2) at_t at_i apart
    omega

structure Moving (s : State) : Prop where
  booked : Booked s
  keyed : Keyed s
  transfers : Transfers s

theorem handOver_of_source {s : State} (m : Moving s) {f : Forward} {i : ℕ}
    (active : s.forwards[i]? = some f) {pr : Ptr} (accepted : pr ∈ s.hist.accepted)
    (same : keyOf s pr = f.src.key) : ∃ ar, f.cause.handOver = some (pr, ar) := by
  have issued := m.transfers.active f (List.mem_of_getElem? active)
  cases named : f.cause.handOver with
  | none =>
    obtain ⟨p, _, done, _⟩ := m.transfers.answers f issued named
    exact absurd same (m.keyed.ne_push (List.mem_append_left _ accepted)
      (pushUses_of_completed (List.mem_map.mpr ⟨_, done, rfl⟩)))
  | some own =>
    have source := (m.transfers.sources f issued own named).1
    have other := (m.transfers.handed own (mem_handOvers.mpr ⟨f, issued, named⟩)).1
    have : pr = own.1 := m.keyed.injective (List.mem_append_left _ accepted)
      (List.mem_append_left _ other) (by rw [same, source]; rfl)
    exact ⟨own.2, by rw [this]⟩

theorem onCourse_still {s s' : State} {e : Event} (m : Moving s) (st : Step s e s')
    (still : ∀ i n, e ≠ .move i n) {h : Ptr × Ptr} (accepted : h.1 ∈ s.hist.accepted)
    (pulled : h.2 ∈ s.hist.pulls) : OnCourse s' h ↔ OnCourse s h := by
  obtain ⟨consumed, ws, log, silent⟩ := log_of_step st still
  have client := mem_of_step st (m.booked.old _ (List.mem_append_left _ accepted))
  rw [OnCourse, OnCourse, sentBody_silent m.booked st log silent pulled]
  simp only [unreadBody, keyOf, client, consumed]

section Move

variable {s s' : State} {i n : ℕ} {f : Forward} {h : Ptr × Ptr}

theorem move_cases (active : s.forwards[i]? = some f) (st : Step s (.move i n) s') :
    0 < n ∧ s.consumed f.src.key + n ≤ f.src.contentLength ∧ s'.mem = s.mem ∧
      s'.consumed = Function.update s.consumed f.src.key (s.consumed f.src.key + n) ∧
      s'.log = s.log ++
        [⟨f.cause, f.dst.key, .body ((f.src.body.drop (s.consumed f.src.key)).take n)⟩] := by
  cases st with
  | move active' pos room =>
    rw [active] at active'
    cases active'
    exact ⟨pos, room, rfl, rfl, rfl⟩

theorem sentBody_move (m : Moving s) (st : Step s (.move i n) s')
    (active : s.forwards[i]? = some f) (handed : h ∈ handOvers s) :
    sentBody s' h = sentBody s h ++
      if f.cause.handOver = some h then (unreadBody s h.1).take n else [] := by
  have pulled := (m.transfers.handed h handed).2
  obtain ⟨_, _, _, _, log⟩ := move_cases active st
  rw [sentBody_step m.booked st log pulled, List.flatMap_singleton]
  congr 1
  by_cases named : f.cause.handOver = some h
  · have issued := m.transfers.active f (List.mem_of_getElem? active)
    obtain ⟨source, dest, _⟩ := m.transfers.sources f issued h named
    rw [Write.adds, if_pos named, if_pos ⟨named, by rw [dest, keyOf]⟩, Out.bytes, unreadBody,
      keyOf, ← source]
  · rw [Write.adds, if_neg named, if_neg fun both => named both.1]

theorem unreadBody_move (st : Step s (.move i n) s') (active : s.forwards[i]? = some f) (p : Ptr) :
    unreadBody s' p =
      if keyOf s p = f.src.key then (unreadBody s p).drop n else unreadBody s p := by
  obtain ⟨_, _, mem, consumed, _⟩ := move_cases active st
  have key : keyOf s' p = keyOf s p := by rw [keyOf, keyOf, mem]
  rw [unreadBody, unreadBody, key, mem, consumed]
  by_cases same : keyOf s p = f.src.key
  · rw [if_pos same, same, Function.update_self, List.drop_drop]
  · rw [if_neg same, Function.update_of_ne same]

theorem source_key (m : Moving s) (active : s.forwards[i]? = some f)
    (named : f.cause.handOver = some h) : keyOf s h.1 = f.src.key := by
  have issued := m.transfers.active f (List.mem_of_getElem? active)
  rw [(m.transfers.sources f issued h named).1]
  rfl

theorem onCourse_own_move (m : Moving s) (st : Step s (.move i n) s')
    (active : s.forwards[i]? = some f) (named : f.cause.handOver = some h)
    (course : OnCourse s h) : OnCourse s' h := by
  have issued := m.transfers.active f (List.mem_of_getElem? active)
  have handed := mem_handOvers.mpr ⟨f, issued, named⟩
  have client := mem_of_step st
    (m.booked.old _ (List.mem_append_left _ (m.transfers.handed h handed).1))
  rw [OnCourse, sentBody_move m st active handed, unreadBody_move st active, if_pos named,
    if_pos (source_key m active named), List.append_assoc, List.take_append_drop, client]
  exact course

theorem onCourse_other_move (m : Moving s) (st : Step s (.move i n) s')
    (active : s.forwards[i]? = some f) {other : Ptr} (named : f.cause.handOver = some (h.1, other))
    (handed : h ∈ handOvers s) (differ : h.2 ≠ other) (course : OnCourse s h) : ¬OnCourse s' h := by
  have not_named : f.cause.handOver ≠ some h := by
    rw [named]
    intro same
    exact differ (congrArg Prod.snd (Option.some.inj same)).symm
  have client := mem_of_step st
    (m.booked.old _ (List.mem_append_left _ (m.transfers.handed h handed).1))
  rw [OnCourse, sentBody_move m st active handed, unreadBody_move st active, if_neg not_named,
    if_pos (source_key m active named), List.append_nil, client, ← course]
  intro same
  have lengths := congrArg List.length (List.append_cancel_left same)
  obtain ⟨pos, room, _⟩ := move_cases active st
  have issued := m.transfers.active f (List.mem_of_getElem? active)
  have source := (m.transfers.sources f issued _ named).1
  rw [source, HttpsrvClient.contentLength] at room
  dsimp only at room
  simp only [unreadBody, keyOf, List.length_drop] at lengths
  omega

theorem onCourse_foreign_move (m : Moving s) (st : Step s (.move i n) s')
    (active : s.forwards[i]? = some f) (handed : h ∈ handOvers s)
    (foreign : keyOf s h.1 ≠ f.src.key) (course : OnCourse s h) : OnCourse s' h := by
  have not_named : f.cause.handOver ≠ some h := fun named => foreign (source_key m active named)
  have client := mem_of_step st
    (m.booked.old _ (List.mem_append_left _ (m.transfers.handed h handed).1))
  rw [OnCourse, sentBody_move m st active handed, unreadBody_move st active, if_neg not_named,
    if_neg foreign, List.append_nil, client]
  exact course

end Move

theorem shut_of_step {s s' : State} {e : Event} (st : Step s e s') :
    ∀ id ∈ s.shut, id ∈ s'.shut := by
  intro id member
  cases st with
  | disconnect => exact List.mem_cons_of_mem _ member
  | _ => exact member

theorem onCourse_handBody {s : State} (m : Moving s) {t : ℕ} {pr ar : Ptr}
    (pc : s.workers[t]? = some (.handOver pr ar)) (body : forwardsBody (s.mem pr).hcl = true) :
    OnCourse s (pr, ar) ↔ s.consumed (keyOf s pr) = 0 := by
  have nothing_sent :=
    sentBody_eq_nil m.transfers (pairing_of_handOvers m.transfers m.booked pc rfl)
  have some_bytes := List.length_pos_iff.mpr (body_of_forwardsBody body)
  rw [OnCourse, nothing_sent, List.nil_append, unreadBody]
  constructor
  · intro same
    have lengths := congrArg List.length same
    simp only [List.length_drop] at lengths
    omega
  · intro unread
    rw [unread, List.drop_zero]

theorem moving_step {s s' : State} {e : Event} (m : Moving s) (st : Step s e s') : Moving s' :=
  ⟨booked_step m.booked st, keyed_step m.keyed m.booked.toFresh st,
    transfers_step m.transfers m.booked st⟩

theorem moving_init (workers handlers : ℕ) : Moving (init workers handlers) :=
  ⟨booked_init _ _, keyed_init _ _, transfers_init _ _⟩

end Jumpbox.Proxy
