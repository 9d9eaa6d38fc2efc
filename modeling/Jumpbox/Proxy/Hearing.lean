import Jumpbox.Proxy.Bodies

/-! What a proxied client is told. Its request and the pushes share one completion
hook, `djb_bodyfwd_done`, which takes every source whose URI begins with `/push/`
for a push. A proxied POST with such a URI is answered as an API call. -/

namespace Jumpbox.Proxy

open Table

def Told (s : State) (p : Ptr) (hcl : HttpsrvClient) : Prop :=
  ∃ chunks : List (List UInt8), s.writesTo (keyOf s p) = pushAnswer hcl ++ chunks.map .body ∧
    chunks.flatten = hcl.body.take (s.consumed hcl.key)

/-- The client has been told nothing, or the answer of the push matched to it. -/
def Hears (s : State) (p : Ptr) : Prop :=
  s.writesTo (keyOf s p) = [] ∨ ∃ hcl, (p, hcl) ∈ s.hist.completed ∧ Told s p hcl

def OnlyAnswersHeard (s : State) : Prop := ∀ p ∈ s.hist.accepted, Hears s p

/-- The test of `djb_bodyfwd_done`. -/
def looksLikePush (hcl : HttpsrvClient) : Bool := strncaseEq hcl.uri "/push/".toList 6

/-- No body that has been forwarded to a puller comes from a request whose URI
looks like a push. -/
def NotTakenForPush (s : State) : Event → Prop
  | .finish i => ∀ f ∈ s.forwards[i]?, ∀ h ∈ f.cause.handOver,
      looksLikePush (s.mem h.1).hcl = false
  | _ => True

theorem djbBodyfwdDone_eq_nil {hcl : HttpsrvClient} (other : looksLikePush hcl = false) :
    djbBodyfwdDone hcl = [] := by
  unfold looksLikePush at other
  unfold djbBodyfwdDone
  rw [other]
  rfl

def Elsewhere (s : State) (k : Key) : Prop := ∀ p ∈ s.hist.accepted, keyOf s p ≠ k

theorem writesTo_append {s s' : State} {ws : List Write} (log : s'.log = s.log ++ ws) (k : Key) :
    s'.writesTo k = s.writesTo k ++ (ws.filter fun w => w.dst = k).map Write.out := by
  simp [State.writesTo, log]

theorem writesTo_other {s s' : State} {ws : List Write} (log : s'.log = s.log ++ ws) {k : Key}
    (other : ∀ w ∈ ws, w.dst ≠ k) : s'.writesTo k = s.writesTo k := by
  have none_here : (ws.filter fun w => w.dst = k) = [] :=
    List.filter_eq_nil_iff.mpr fun w member => by simpa using other w member
  rw [writesTo_append log, none_here, List.map_nil, List.append_nil]

theorem writesTo_this {s s' : State} {outs : List Out} {cause : Cause} {k : Key}
    (log : s'.log = s.log ++ outs.map fun out => ⟨cause, k, out⟩) :
    s'.writesTo k = s.writesTo k ++ outs := by
  have all_here : ∀ w ∈ outs.map fun out => (⟨cause, k, out⟩ : Write), decide (w.dst = k) := by
    simp
  rw [writesTo_append log, List.filter_eq_self.mpr all_here, List.map_map]
  congr 1
  exact List.map_id' outs

theorem writesTo_replies (s : State) (hcl : HttpsrvClient) (outs : List Out) :
    (s.replies hcl outs).writesTo hcl.key = s.writesTo hcl.key ++ outs := writesTo_this rfl

theorem writesTo_unseen {s : State} (addressed : ∀ w ∈ s.log, w.dst ∈ s.seen) {k : Key}
    (unseen : k ∉ s.seen) : s.writesTo k = [] := by
  have nothing : (s.log.filter fun w => w.dst = k) = [] := by
    refine List.filter_eq_nil_iff.mpr fun w member here => unseen ?_
    rw [← of_decide_eq_true here]
    exact addressed w member
  rw [State.writesTo, nothing, List.map_nil]

theorem elsewhere_pull {s : State} (m : Moving s) {ar : Ptr} (pulled : ar ∈ s.hist.pulls) :
    Elsewhere s (s.mem ar).hcl.key := by
  intro p accepted same
  have one := m.keyed.injective (List.mem_append_left _ accepted) (List.mem_append_right _ pulled)
    same
  exact (List.nodup_append.mp m.booked.nodup).2.2 p accepted ar pulled one

theorem elsewhere_push {s : State} (m : Moving s) {t : ℕ} {pc : HandlerPc}
    (at_t : s.handlers[t]? = some pc) {k : Key} (push : k ∈ pc.pushes) : Elsewhere s k :=
  fun _ accepted =>
    m.keyed.ne_push (List.mem_append_left _ accepted) (pushUses_of_handled at_t push)

def Answers (s : State) (e : Event) (p : Ptr) : Prop :=
  ∃ t hcl, e = .handler t ∧ s.handlers[t]? = some (.found hcl p)

structure Hearing (s : State) : Prop where
  hears : OnlyAnswersHeard s
  addressed : ∀ w ∈ s.log, w.dst ∈ s.seen
  read : ∀ k, s.consumed k ≠ 0 → ∃ f ∈ s.hist.forwarded, f.src.key = k
  answering : ∀ f ∈ s.hist.forwarded, f.cause.handOver = none → ∀ p,
    (p, f.src) ∈ s.hist.completed → Told s p f.src

theorem not_completed_of_found {s : State} (m : Moving s) {t : ℕ} {hcl : HttpsrvClient} {pr : Ptr}
    (pc : s.handlers[t]? = some (.found hcl pr)) : pr ∉ s.hist.completed.map Prod.fst := by
  intro completed
  have books := m.booked.requests pr
  have once := m.booked.accepted_once pr
  have held := weight_le_total (fun pc : HandlerPc => pc.requests.count pr) pc
  have one : (HandlerPc.found hcl pr).requests.count pr = 1 := by simp [HandlerPc.requests]
  have done := List.count_pos_iff.mpr completed
  simp only [requestBook] at books
  omega

theorem keyOf_ne_of_not_answers {s : State} (m : Moving s) {t : ℕ} {hcl : HttpsrvClient}
    {pr p : Ptr} (pc : s.handlers[t]? = some (.found hcl pr)) (accepted : p ∈ s.hist.accepted)
    (other : ¬Answers s (.handler t) p) : keyOf s pr ≠ keyOf s p := by
  intro same
  have one := m.keyed.injective (List.mem_append_left _ (m.booked.accepted_of_found pc))
    (List.mem_append_left _ accepted) same
  exact other ⟨t, hcl, rfl, one ▸ pc⟩

theorem forall_map_dst {P : Key → Prop} {k : Key} (holds : P k) (cause : Cause) (outs : List Out) :
    ∀ w ∈ outs.map (fun out => (⟨cause, k, out⟩ : Write)), P w.dst := by
  intro w member
  obtain ⟨out, _, rfl⟩ := List.mem_map.mp member
  exact holds

theorem map_dst_ne {k key : Key} (other : k ≠ key) (cause : Cause) (outs : List Out) :
    ∀ w ∈ outs.map (fun out => (⟨cause, k, out⟩ : Write)), w.dst ≠ key :=
  forall_map_dst (P := (· ≠ key)) other cause outs

theorem writesTo_step {s s' : State} {e : Event} (m : Moving s) (guard : NotTakenForPush s e)
    (st : Step s e s') (still : ∀ i n, e ≠ .move i n) {p : Ptr} (accepted : p ∈ s.hist.accepted)
    (other : ¬Answers s e p) : s'.writesTo (keyOf s p) = s.writesTo (keyOf s p) := by
  have puller {t : ℕ} {pc : WorkerPc} {pr ar : Ptr} (at_t : s.workers[t]? = some pc)
      (pairing : pc.pairing = some (pr, ar)) : (s.mem ar).hcl.key ≠ keyOf s p :=
    (elsewhere_pull m
      (m.transfers.pending pc (List.mem_of_getElem? at_t) _ pairing).2 p accepted).symm
  have push {t : ℕ} {pc : HandlerPc} {k : Key} (at_t : s.handlers[t]? = some pc)
      (push : k ∈ pc.pushes) : k ≠ keyOf s p := (elsewhere_push m at_t push p accepted).symm
  cases st with
  | refuse msg fresh =>
    have seen := m.keyed.seen_of_uses (uses_of_allocated (List.mem_append_left _ accepted))
    exact writesTo_other rfl (map_dst_ne (ne_of_mem_of_not_mem seen fresh).symm _ _)
  | pair pc | handPlain pc | drop pc => exact writesTo_other rfl (map_dst_ne (puller pc rfl) _ _)
  | miss _ pc | answerClosed pc | callbackDone pc =>
    exact writesTo_other rfl (map_dst_ne (push pc (by simp [HandlerPc.pushes])) _ _)
  | answerPlain pc =>
    have client := map_dst_ne (keyOf_ne_of_not_answers m pc accepted other)
    have caller := map_dst_ne (push pc (List.mem_singleton.mpr rfl))
    exact writesTo_other (List.append_assoc _ _ _)
      (List.forall_mem_append.mpr ⟨client _ _, caller _ _⟩)
  | answerBody pc =>
    exact writesTo_other rfl (map_dst_ne (keyOf_ne_of_not_answers m pc accepted other) _ _)
  | @finish i f active =>
    have issued := m.transfers.active f (List.mem_of_getElem? active)
    cases named : f.cause.handOver with
    | none =>
      obtain ⟨q, _, done, _⟩ := m.transfers.answers f issued named
      have key := m.keyed.ne_push (List.mem_append_left _ accepted)
        (pushUses_of_completed (List.mem_map.mpr ⟨_, done, rfl⟩))
      exact writesTo_other rfl (map_dst_ne key.symm _ _)
    | some h =>
      have uri := guard f active h named
      rw [← (m.transfers.sources f issued h named).1] at uri
      have log : (s.replies f.src (djbBodyfwdDone f.src)).log = s.log ++ [] := by
        rw [djbBodyfwdDone_eq_nil uri]
        rfl
      exact writesTo_other log (by simp)
  | move => exact absurd rfl (still _ _)
  | _ => rfl

theorem keyOf_step {s s' : State} {e : Event} (m : Moving s) (st : Step s e s') {p : Ptr}
    (accepted : p ∈ s.hist.accepted) : keyOf s' p = keyOf s p := by
  rw [keyOf, keyOf, mem_of_step st (m.booked.old _ (List.mem_append_left _ accepted))]

theorem Told.frame {s s' : State} {e : Event} (m : Moving s) (st : Step s e s') {p : Ptr}
    {hcl : HttpsrvClient} (accepted : p ∈ s.hist.accepted) (told : Told s p hcl)
    (writes : s'.writesTo (keyOf s p) = s.writesTo (keyOf s p))
    (consumed : s'.consumed hcl.key = s.consumed hcl.key) : Told s' p hcl := by
  obtain ⟨chunks, text, read⟩ := told
  exact ⟨chunks, by rw [keyOf_step m st accepted, writes, text], by rw [consumed, read]⟩

theorem consumed_of_step {s s' : State} {e : Event} (st : Step s e s')
    (still : ∀ i n, e ≠ .move i n) : s'.consumed = s.consumed := (log_of_step st still).1

theorem not_answers_of_completed {s : State} (m : Moving s) {e : Event} {p : Ptr}
    {hcl : HttpsrvClient} (done : (p, hcl) ∈ s.hist.completed) : ¬Answers s e p := by
  rintro ⟨t, push, _, pc⟩
  exact not_completed_of_found m pc (List.mem_map.mpr ⟨_, done, rfl⟩)

theorem pushAnswer_ne_nil (hcl : HttpsrvClient) : pushAnswer hcl ≠ [] := List.cons_ne_nil _ _

section Move

variable {s s' : State} {i n : ℕ} {f : Forward} {p : Ptr}

theorem writesTo_move (st : Step s (.move i n) s') (active : s.forwards[i]? = some f) (k : Key) :
    s'.writesTo k = s.writesTo k ++
      if f.dst.key = k then [.body ((f.src.body.drop (s.consumed f.src.key)).take n)] else [] := by
  obtain ⟨_, _, _, _, log⟩ := move_cases active st
  rw [writesTo_append log]
  split <;> simp [*]

theorem request_move (m : Moving s) (active : s.forwards[i]? = some f) {own : Ptr × Ptr}
    (named : f.cause.handOver = some own) (accepted : p ∈ s.hist.accepted) :
    f.dst.key ≠ keyOf s p := by
  have issued := m.transfers.active f (List.mem_of_getElem? active)
  have pulled := (m.transfers.handed own (mem_handOvers.mpr ⟨f, issued, named⟩)).2
  rw [(m.transfers.sources f issued own named).2.1]
  exact (elsewhere_pull m pulled p accepted).symm

theorem told_move (m : Moving s) (st : Step s (.move i n) s')
    (active : s.forwards[i]? = some f) {hcl : HttpsrvClient} (accepted : p ∈ s.hist.accepted)
    (done : (p, hcl) ∈ s.hist.completed) (told : Told s p hcl) : Told s' p hcl := by
  have issued := m.transfers.active f (List.mem_of_getElem? active)
  have writes := writesTo_move st active (keyOf s p)
  obtain ⟨_, _, _, consumed, _⟩ := move_cases active st
  cases named : f.cause.handOver with
  | some own =>
    rw [if_neg (request_move m active named accepted), List.append_nil] at writes
    refine told.frame m st accepted writes ?_
    have source : f.src.key = keyOf s own.1 := (source_key m active named).symm
    have request := (m.transfers.handed own (mem_handOvers.mpr ⟨f, issued, named⟩)).1
    have other := m.keyed.ne_push (List.mem_append_left _ request)
      (pushUses_of_completed (List.mem_map.mpr ⟨_, done, rfl⟩))
    rw [consumed, Function.update_of_ne (by rw [source]; exact other.symm)]
  | none =>
    obtain ⟨q, q_accepted, q_done, dest⟩ := m.transfers.answers f issued named
    have key : f.dst.key = keyOf s q := by rw [dest, keyOf]
    by_cases same : q = p
    · subst same
      have push : f.src = hcl :=
        congrArg Prod.snd (List.inj_on_of_nodup_map m.booked.completed_once q_done done rfl)
      subst push
      obtain ⟨chunks, text, read⟩ := told
      refine ⟨chunks ++ [(f.src.body.drop (s.consumed f.src.key)).take n], ?_, ?_⟩
      · rw [keyOf_step m st accepted, writes, if_pos key, text]
        simp
      · rw [consumed, Function.update_self, List.flatten_append, read, List.flatten_singleton,
          List.take_add]
    · have elsewhere : f.dst.key ≠ keyOf s p := by
        rw [key]
        intro one
        exact same (m.keyed.injective (List.mem_append_left _ q_accepted)
          (List.mem_append_left _ accepted) one)
      rw [if_neg elsewhere, List.append_nil] at writes
      refine told.frame m st accepted writes ?_
      have other : hcl.key ≠ f.src.key := fun one =>
        same (congrArg Prod.fst (List.inj_on_of_nodup_map m.keyed.pushes done q_done one)).symm
      rw [consumed, Function.update_of_ne other]

theorem silent_move (h : Hearing s) (m : Moving s) (st : Step s (.move i n) s')
    (active : s.forwards[i]? = some f) (accepted : p ∈ s.hist.accepted)
    (silent : s.writesTo (keyOf s p) = []) : s'.writesTo (keyOf s p) = [] := by
  have elsewhere : f.dst.key ≠ keyOf s p := by
    cases named : f.cause.handOver with
    | some own => exact request_move m active named accepted
    | none =>
      -- a push whose body is on its way has been answered to its client already
      have issued := m.transfers.active f (List.mem_of_getElem? active)
      obtain ⟨q, q_accepted, q_done, dest⟩ := m.transfers.answers f issued named
      obtain ⟨chunks, text, _⟩ := h.answering f issued named q q_done
      intro same
      rw [dest] at same
      have one := m.keyed.injective (List.mem_append_left _ q_accepted)
        (List.mem_append_left _ accepted) same
      rw [one, silent] at text
      exact pushAnswer_ne_nil _ (List.append_eq_nil_iff.mp text.symm).1
  rw [writesTo_move st active, if_neg elsewhere, silent, List.append_nil]

end Move

theorem told_step {s s' : State} {e : Event} (m : Moving s)
    (guard : NotTakenForPush s e) (st : Step s e s') {p : Ptr} {hcl : HttpsrvClient}
    (accepted : p ∈ s.hist.accepted) (done : (p, hcl) ∈ s.hist.completed)
    (told : Told s p hcl) : Told s' p hcl := by
  by_cases still : ∀ i n, e ≠ .move i n
  · have writes := writesTo_step m guard st still accepted (not_answers_of_completed m done)
    exact told.frame m st accepted writes (by rw [consumed_of_step st still])
  · cases st with
    | move active pos room => exact told_move m (.move active pos room) active accepted done told
    | _ => exact absurd (fun _ _ => by simp) still

theorem consumed_of_found {s : State} (h : Hearing s) (m : Moving s) {t : ℕ} {hcl : HttpsrvClient}
    {pr : Ptr} (pc : s.handlers[t]? = some (.found hcl pr)) : s.consumed hcl.key = 0 := by
  by_contra some_read
  obtain ⟨f, issued, source⟩ := h.read hcl.key some_read
  have push : hcl.key ∈ (HandlerPc.found hcl pr).pushes := List.mem_singleton.mpr rfl
  cases named : f.cause.handOver with
  | some own =>
    have request := (m.transfers.handed own (mem_handOvers.mpr ⟨f, issued, named⟩)).1
    rw [(m.transfers.sources f issued own named).1] at source
    exact m.keyed.ne_push (List.mem_append_left _ request) (pushUses_of_handled pc push) source
  | none =>
    -- its number would be in use twice
    have used := m.keyed.uses hcl.key
    have once := List.nodup_iff_count_le_one.mp m.keyed.seen hcl.key
    have handled := weight_le_total (fun pc : HandlerPc => pc.pushes.count hcl.key) pc
    have here := List.count_pos_iff.mpr push
    obtain ⟨q, _, done, _⟩ := m.transfers.answers f issued named
    have completed : 0 < (s.hist.completed.map fun c => c.2.key).count hcl.key :=
      List.count_pos_iff.mpr (List.mem_map.mpr ⟨_, done, source⟩)
    rw [timesUsed, pushBook] at used
    omega

theorem silent_of_found {s : State} (h : Hearing s) (m : Moving s) {t : ℕ} {hcl : HttpsrvClient}
    {pr : Ptr} (pc : s.handlers[t]? = some (.found hcl pr)) : s.writesTo (keyOf s pr) = [] := by
  rcases h.hears pr (m.booked.accepted_of_found pc) with silent | ⟨push, done, _⟩
  · exact silent
  · exact absurd (List.mem_map.mpr ⟨_, done, rfl⟩) (not_completed_of_found m pc)

theorem told_answer {s s' : State} {t : ℕ} (h : Hearing s) (m : Moving s)
    (st : Step s (.handler t) s') {hcl : HttpsrvClient} {pr : Ptr}
    (pc : s.handlers[t]? = some (.found hcl pr)) (own : List Out)
    (log : s'.log = s.log ++ ((pushAnswer hcl).map (fun out => ⟨.answer hcl, keyOf s pr, out⟩) ++
      own.map fun out => ⟨.reply hcl, hcl.key, out⟩)) : Told s' pr hcl := by
  have accepted := m.booked.accepted_of_found pc
  have caller := (elsewhere_push m pc (List.mem_singleton.mpr rfl) pr accepted).symm
  have answered : (s.writes (.answer hcl) (keyOf s pr) (pushAnswer hcl)).writesTo (keyOf s pr) =
      pushAnswer hcl := by
    rw [writesTo_this rfl, silent_of_found h m pc, List.nil_append]
  refine ⟨[], ?_, ?_⟩
  · rw [keyOf_step m st accepted, List.map_nil, List.append_nil, ← answered]
    refine writesTo_other ?_ (map_dst_ne caller (.reply hcl) own)
    rw [log, ← List.append_assoc]
    rfl
  · rw [consumed_of_step st (by simp), consumed_of_found h m pc, List.take_zero, List.flatten_nil]

theorem hears_silent {s s' : State} {e : Event} (h : Hearing s) (m : Moving s)
    (guard : NotTakenForPush s e) (st : Step s e s') {p : Ptr} (accepted : p ∈ s.hist.accepted)
    (silent : s.writesTo (keyOf s p) = []) : Hears s' p := by
  have key := keyOf_step m st accepted
  by_cases still : ∀ i n, e ≠ .move i n
  · by_cases answers : Answers s e p
    · obtain ⟨t, hcl, rfl, pc⟩ := answers
      have own (text : String) : ∀ w ∈ (pushReply text).map
          (fun out => (⟨.reply hcl, hcl.key, out⟩ : Write)), w.dst ≠ keyOf s p :=
        map_dst_ne (elsewhere_push m pc (List.mem_singleton.mpr rfl) p accepted).symm _ _
      have st' := st
      cases st with
      | enter pc' => exact .inl silent
      | answerClosed pc' =>
        rw [pc] at pc'
        cases pc'
        exact .inl (by rw [key, writesTo_other rfl (own _), silent])
      | answerPlain pc' =>
        rw [pc] at pc'
        cases pc'
        refine .inr ⟨hcl, List.mem_append_right _ (List.mem_singleton.mpr rfl), ?_⟩
        exact told_answer h m st' pc _ (List.append_assoc _ _ _)
      | answerBody pc' =>
        rw [pc] at pc'
        cases pc'
        refine .inr ⟨hcl, List.mem_append_right _ (List.mem_singleton.mpr rfl), ?_⟩
        exact told_answer h m st' pc [] (by simp [keyOf])
      | miss _ pc' | find pc' | putBack pc' | closeNone pc' | closeSome pc' | reschedule pc' =>
        rw [pc] at pc'
        cases pc'
    · exact .inl (by rw [key, writesTo_step m guard st still accepted answers, silent])
  · cases st with
    | move active pos room =>
      refine .inl ?_
      rw [key]
      exact silent_move h m (.move active pos room) active accepted silent
    | _ => exact absurd (fun _ _ => by simp) still

theorem hears_step {s s' : State} {e : Event} (h : Hearing s) (m : Moving s)
    (guard : NotTakenForPush s e) (st : Step s e s') {p : Ptr} (accepted : p ∈ s.hist.accepted) :
    Hears s' p := by
  rcases h.hears p accepted with silent | ⟨hcl, done, told⟩
  · exact hears_silent h m guard st accepted silent
  · exact .inr ⟨hcl, completed_of_step st _ done, told_step m guard st accepted done told⟩

theorem seen_of_step {s s' : State} {e : Event} (st : Step s e s') :
    ∀ k ∈ s.seen, k ∈ s'.seen := by
  intro k member
  cases st with
  | accept | pull | push | refuse | elsewhere | internal => exact List.mem_append_left _ member
  | _ => exact member

theorem uses_of_active {s : State} (m : Moving s) {i : ℕ} {f : Forward}
    (active : s.forwards[i]? = some f) : 0 < timesUsed s f.src.key ∧ 0 < timesUsed s f.dst.key := by
  have issued := m.transfers.active f (List.mem_of_getElem? active)
  cases named : f.cause.handOver with
  | some own =>
    obtain ⟨source, dest, _⟩ := m.transfers.sources f issued own named
    obtain ⟨request, pull⟩ := m.transfers.handed own (mem_handOvers.mpr ⟨f, issued, named⟩)
    rw [source, dest]
    exact ⟨uses_of_allocated (List.mem_append_left _ request),
      uses_of_allocated (List.mem_append_right _ pull)⟩
  | none =>
    obtain ⟨p, accepted, done, dest⟩ := m.transfers.answers f issued named
    rw [dest]
    exact ⟨uses_of_push (pushUses_of_completed (List.mem_map.mpr ⟨_, done, rfl⟩)),
      uses_of_allocated (List.mem_append_left _ accepted)⟩

theorem writes_of_step {s s' : State} {e : Event} (m : Moving s) (st : Step s e s') :
    ∃ ws, s'.log = s.log ++ ws ∧
      ∀ w ∈ ws, 0 < timesUsed s w.dst ∨ w.dst ∉ s.seen ∧ w.dst ∈ s'.seen := by
  have used {k : Key} (used : 0 < timesUsed s k) (cause : Cause) (outs : List Out) :
      ∀ w ∈ outs.map (fun out => (⟨cause, k, out⟩ : Write)),
        0 < timesUsed s w.dst ∨ w.dst ∉ s.seen ∧ w.dst ∈ s'.seen := by
    intro w member
    exact .inl (forall_map_dst (P := (0 < timesUsed s ·)) used cause outs w member)
  have puller {t : ℕ} {pc : WorkerPc} {pr ar : Ptr} (at_t : s.workers[t]? = some pc)
      (pairing : pc.pairing = some (pr, ar)) : 0 < timesUsed s (s.mem ar).hcl.key :=
    uses_of_allocated (List.mem_append_right _
      (m.transfers.pending pc (List.mem_of_getElem? at_t) _ pairing).2)
  have push {t : ℕ} {pc : HandlerPc} {k : Key} (at_t : s.handlers[t]? = some pc)
      (push : k ∈ pc.pushes) : 0 < timesUsed s k := uses_of_push (pushUses_of_handled at_t push)
  have client {t : ℕ} {hcl : HttpsrvClient} {pr : Ptr}
      (at_t : s.handlers[t]? = some (.found hcl pr)) : 0 < timesUsed s (keyOf s pr) :=
    uses_of_allocated (List.mem_append_left _ (m.booked.accepted_of_found at_t))
  cases st with
  | refuse msg fresh =>
    refine ⟨_, rfl, fun w member => .inr ?_⟩
    obtain ⟨out, _, rfl⟩ := List.mem_map.mp member
    exact ⟨fresh, List.mem_append_right _ (List.mem_singleton.mpr rfl)⟩
  | pair pc | handPlain pc | drop pc => exact ⟨_, rfl, used (puller pc rfl) _ _⟩
  | miss _ pc | answerClosed pc | callbackDone pc =>
    exact ⟨_, rfl, used (push pc (by simp [HandlerPc.pushes])) _ _⟩
  | answerPlain pc =>
    exact ⟨_, List.append_assoc _ _ _, List.forall_mem_append.mpr
      ⟨used (client pc) _ _, used (push pc (List.mem_singleton.mpr rfl)) _ _⟩⟩
  | answerBody pc => exact ⟨_, rfl, used (client pc) _ _⟩
  | move active => exact ⟨_, rfl, used (uses_of_active m active).2 _ [_]⟩
  | finish active => exact ⟨_, rfl, used (uses_of_active m active).1 _ _⟩
  | _ => exact ⟨[], (List.append_nil _).symm, by simp⟩

theorem addressed_step {s s' : State} {e : Event} (addressed : ∀ w ∈ s.log, w.dst ∈ s.seen)
    (m : Moving s) (st : Step s e s') : ∀ w ∈ s'.log, w.dst ∈ s'.seen := by
  obtain ⟨ws, log, written⟩ := writes_of_step m st
  rw [log]
  refine List.forall_mem_append.mpr ⟨fun w member => seen_of_step st _ (addressed w member), ?_⟩
  intro w member
  rcases written w member with used | ⟨_, arrived⟩
  · exact seen_of_step st _ (m.keyed.seen_of_uses used)
  · exact arrived

theorem read_step {s s' : State} {e : Event} (h : Hearing s) (m : Moving s) (st : Step s e s') :
    ∀ k, s'.consumed k ≠ 0 → ∃ f ∈ s'.hist.forwarded, f.src.key = k := by
  cases st with
  | @move i n f active =>
    intro k some_read
    by_cases here : k = f.src.key
    · exact ⟨f, m.transfers.active f (List.mem_of_getElem? active), here.symm⟩
    · dsimp only at some_read
      exact h.read k (by rwa [Function.update_of_ne here] at some_read)
  | handBody | answerBody =>
    intro k some_read
    obtain ⟨f, issued, source⟩ := h.read k some_read
    exact ⟨f, List.mem_append_left _ issued, source⟩
  | _ => exact h.read

theorem answering_step {s s' : State} {e : Event} (h : Hearing s) (m : Moving s)
    (guard : NotTakenForPush s e) (st : Step s e s') :
    ∀ f ∈ s'.hist.forwarded, f.cause.handOver = none → ∀ p, (p, f.src) ∈ s'.hist.completed →
      Told s' p f.src := by
  have after := moving_step m st
  have before : ∀ f ∈ s.hist.forwarded, f.cause.handOver = none → ∀ p,
      (p, f.src) ∈ s'.hist.completed → Told s' p f.src := by
    intro f issued named p done
    obtain ⟨q, accepted, q_done, _⟩ := m.transfers.answers f issued named
    have one : p = q := congrArg Prod.fst (List.inj_on_of_nodup_map after.keyed.pushes done
      (completed_of_step st _ q_done) rfl)
    rw [one]
    exact told_step m guard st accepted q_done (h.answering f issued named q q_done)
  have st' := st
  cases st with
  | handBody =>
    refine List.forall_mem_append.mpr ⟨before, fun f this_one named => ?_⟩
    obtain rfl := List.mem_singleton.mp this_one
    cases named
  | @answerBody t hcl pr pc =>
    refine List.forall_mem_append.mpr ⟨before, fun f this_one _ p done => ?_⟩
    obtain rfl := List.mem_singleton.mp this_one
    have one : p = pr := congrArg Prod.fst (List.inj_on_of_nodup_map after.keyed.pushes done
      (List.mem_append_right _ (List.mem_singleton.mpr rfl)) rfl)
    rw [one]
    exact told_answer h m st' pc [] (by simp [keyOf])
  | _ => exact before

theorem silent_of_new {s s' : State} {e : Event} (h : Hearing s) (st : Step s e s') {p : Ptr}
    (accepted : p ∈ s'.hist.accepted) (new : p ∉ s.hist.accepted) :
    s'.writesTo (keyOf s' p) = [] := by
  cases st with
  | accept _ _ _ fresh | internal fresh =>
    rcases List.mem_append.mp accepted with earlier | this_one
    · exact absurd earlier new
    · obtain rfl := List.mem_singleton.mp this_one
      simp only [keyOf, djbProxyAdd, Function.update_self]
      exact writesTo_unseen h.addressed fresh
  | _ => exact absurd accepted new

theorem hearing_step {s s' : State} {e : Event} (h : Hearing s) (m : Moving s)
    (guard : NotTakenForPush s e) (st : Step s e s') : Hearing s' := by
  refine ⟨fun p accepted => ?_, addressed_step h.addressed m st, read_step h m st,
    answering_step h m guard st⟩
  by_cases earlier : p ∈ s.hist.accepted
  · exact hears_step h m guard st earlier
  · exact .inl (silent_of_new h st accepted earlier)

def Out.isPut : Out → Bool
  | .put _ => true
  | _ => false

theorem pushAnswer_isPut (hcl : HttpsrvClient) : ∀ out ∈ pushAnswer hcl, Out.isPut out = false := by
  simp only [pushAnswer, List.forall_mem_append, List.forall_mem_cons]
  refine ⟨⟨⟨rfl, ?_⟩, rfl, by simp⟩, ?_⟩
  · split <;> simp only [List.forall_mem_cons, List.not_mem_nil, false_implies, implies_true,
      Out.isPut, and_self]
  · split <;> simp only [List.forall_mem_cons, List.not_mem_nil, false_implies, implies_true,
      Out.isPut, and_self]

theorem Hears.isPut {s : State} {p : Ptr} (h : Hears s p) :
    ∀ out ∈ s.writesTo (keyOf s p), Out.isPut out = false := by
  rcases h with silent | ⟨hcl, _, chunks, text, _⟩
  · simp [silent]
  · rw [text]
    refine List.forall_mem_append.mpr ⟨pushAnswer_isPut hcl, fun out member => ?_⟩
    obtain ⟨chunk, _, rfl⟩ := List.mem_map.mp member
    rfl

theorem not_onlyAnswersHeard_step {s s' : State} {e : Event} (m : Moving s)
    (broken : ¬NotTakenForPush s e) (st : Step s e s') : ¬OnlyAnswersHeard s' := by
  intro after
  refine broken ?_
  cases st with
  | @finish i f active =>
    intro g active' h named
    rw [active] at active'
    cases active'
    have issued := m.transfers.active f (List.mem_of_getElem? active)
    have source := (m.transfers.sources f issued h named).1
    by_contra taken
    rw [← source, Bool.not_eq_false] at taken
    have request := (m.transfers.handed h (mem_handOvers.mpr ⟨f, issued, named⟩)).1
    have no_put := (after h.1 request).isPut
    have reply : djbBodyfwdDone f.src =
        [httpOk (some .html), .put "Push Body Forward successful\r\n".toList] := by
      unfold looksLikePush at taken
      unfold djbBodyfwdDone
      rw [taken]
      rfl
    have told : ∀ out ∈ djbBodyfwdDone f.src, Out.isPut out = false := by
      intro out member
      refine no_put out ?_
      have key : f.src.key = keyOf s h.1 := by rw [source, keyOf]
      change out ∈ State.writesTo _ (keyOf s h.1)
      rw [← key, writesTo_this rfl]
      exact List.mem_append_right _ member
    rw [reply] at told
    cases told _ (List.mem_cons_of_mem _ (List.mem_singleton.mpr rfl))
  | _ => trivial

theorem hearing_init (workers handlers : ℕ) : Hearing (init workers handlers) where
  hears p accepted := by simp [init] at accepted
  addressed w member := by simp [init] at member
  read k some_read := by simp [init] at some_read
  answering f issued := by simp [init] at issued

/-- Every proxied client hears the pushed answer and nothing else, in every state
of a run, exactly when no forwarded body is taken for that of a push. -/
theorem only_answers_heard_iff_not_taken (workers handlers : ℕ) (es : List Event) (s : State)
    (run : machine.exec (init workers handlers) es = some s) :
    machine.Always OnlyAnswersHeard (init workers handlers) es ↔
      machine.Meets NotTakenForPush (init workers handlers) es := by
  refine machine.always_iff_meets (I := fun s => Moving s ∧ Hearing s) (fun s h => h.2.hears) ?_ ?_
    ⟨moving_init _ _, hearing_init _ _⟩ run
  · intro s e s' h guard moved
    have st := step_cases moved
    exact ⟨moving_step h.1 st, hearing_step h.2 h.1 guard st⟩
  · intro s e s' h broken moved
    exact not_onlyAnswersHeard_step h.1 broken (step_cases moved)

def pushLikePost : HttpsrvClient :=
  { clientPost with uri := "/push/photo".toList, rawuri := "/push/photo".toList }

/-- A client posts to `/push/photo` of some site, and its body reaches the puller. -/
def pushLikeRun : List Event :=
  [.request 0 pushLikePost none, .request 0 circuitPull none, .worker 0, .worker 0, .worker 0,
    .worker 0, .worker 0, .worker 0, .move 0 3, .finish 0]

theorem only_answers_heard_in_servedRun :
    ∃ s, machine.exec (init 1 1) servedRun = some s ∧
      (machine.Always OnlyAnswersHeard (init 1 1) servedRun ↔
        machine.Meets NotTakenForPush (init 1 1) servedRun) :=
  ⟨_, rfl, only_answers_heard_iff_not_taken 1 1 servedRun _ rfl⟩

theorem proxied_post_taken_for_push :
    ¬∀ (workers handlers : ℕ) (es : List Event) (s : State),
      machine.exec (init workers handlers) es = some s → OnlyAnswersHeard s := by
  intro always
  have heard := (always 1 1 pushLikeRun _ rfl 0 (by decide)).isPut
  revert heard
  decide

end Jumpbox.Proxy
