import Jumpbox.Proxy.Hearing
import Jumpbox.Proxy.Whole

/-! What a puller is told: the headers of the request it is handed, then the body
of that request or the end of the answer, and nothing else. -/

namespace Jumpbox.Proxy

open Table

def trails : Out → Bool
  | .body _ | .done | .handlingDone => true
  | _ => false

def Unserved (s : State) (ar : Ptr) : Prop :=
  ar ∉ s.hist.handed.map Prod.snd ∧ ar ∉ s.hist.refused

structure Pulled (s : State) : Prop extends Handing s where
  silent : ∀ ar ∈ s.hist.pulls, Unserved s ar → s.writesTo (keyOf s ar) = []
  told : ∀ h ∈ s.hist.handed, ∃ rest,
    s.writesTo (keyOf s h.2) = forwardHeaders (s.mem h.1).hcl ++ rest ∧ ∀ out ∈ rest, trails out

theorem unserved_of_forward {s : State} (booked : Booked s) {t : ℕ} {pr ar : Ptr}
    (pc : s.workers[t]? = some (.forward pr ar)) : Unserved s ar := by
  have books := booked.pairs ar
  have once := booked.pulled_once ar
  have held := weight_le_total (fun pc : WorkerPc => pc.unpaired.count ar) pc
  have one : (WorkerPc.forward pr ar).unpaired.count ar = 1 := by simp [WorkerPc.unpaired]
  simp only [pairBook] at books
  exact ⟨List.count_eq_zero.mp (by omega), List.count_eq_zero.mp (by omega)⟩

theorem writesTo_pull {s s' : State} {e : Event} (h : Pulled s) (m : Moving s) (st : Step s e s')
    {ar : Ptr} (pulled : ar ∈ s.hist.pulls) :
    (∃ t pr, e = .worker t ∧ s.workers[t]? = some (.forward pr ar)) ∨
      ∃ rest, s'.writesTo (keyOf s ar) = s.writesTo (keyOf s ar) ++ rest ∧
        (∀ out ∈ rest, trails out) ∧ (rest ≠ [] → ar ∈ s.hist.handed.map Prod.snd) := by
  have allocated_ar : ar ∈ allocated s := List.mem_append_right _ pulled
  have nothing (quiet : s'.writesTo (keyOf s ar) = s.writesTo (keyOf s ar)) :
      ∃ rest, s'.writesTo (keyOf s ar) = s.writesTo (keyOf s ar) ++ rest ∧
        (∀ out ∈ rest, trails out) ∧ (rest ≠ [] → ar ∈ s.hist.handed.map Prod.snd) :=
    ⟨[], by rw [quiet, List.append_nil], by simp, fun some_out => absurd rfl some_out⟩
  have client {p : Ptr} (accepted : p ∈ s.hist.accepted) : keyOf s p ≠ keyOf s ar :=
    elsewhere_pull m pulled p accepted
  have puller {other : Ptr} (also : other ∈ s.hist.pulls) (apart : other ≠ ar) :
      (s.mem other).hcl.key ≠ keyOf s ar := fun same =>
    apart (m.keyed.injective (List.mem_append_right _ also) allocated_ar same)
  have push {t : ℕ} {pc : HandlerPc} {k : Key} (at_t : s.handlers[t]? = some pc)
      (push : k ∈ pc.pushes) : k ≠ keyOf s ar :=
    (m.keyed.ne_push allocated_ar (pushUses_of_handled at_t push)).symm
  have found {t : ℕ} {hcl : HttpsrvClient} {pr : Ptr}
      (at_t : s.handlers[t]? = some (.found hcl pr)) : keyOf s pr ≠ keyOf s ar :=
    client (m.booked.accepted_of_found at_t)
  cases st with
  | refuse msg fresh =>
    have seen := m.keyed.seen_of_uses (uses_of_allocated allocated_ar)
    exact .inr (nothing (writesTo_other rfl
      (map_dst_ne (ne_of_mem_of_not_mem seen fresh).symm _ _)))
  | @pair t pr other pc | @drop t pr other pc =>
    by_cases own : other = ar
    · exact .inl ⟨t, pr, rfl, own ▸ pc⟩
    · have also := (m.transfers.pending _ (List.mem_of_getElem? pc) _ rfl).2
      exact .inr (nothing (writesTo_other rfl (map_dst_ne (puller also own) _ _)))
  | @handPlain t pr other pc =>
    right
    have announced := h.announced _ (List.mem_of_getElem? pc) _ rfl
    by_cases own : other = ar
    · subst own
      refine ⟨[.done, .handlingDone], writesTo_this rfl, by simp [trails], fun _ => ?_⟩
      exact List.mem_map.mpr ⟨_, announced, rfl⟩
    · exact nothing (writesTo_other rfl (map_dst_ne (puller (h.handed _ announced).2 own) _ _))
  | miss _ pc | answerClosed pc | callbackDone pc =>
    exact .inr (nothing (writesTo_other rfl
      (map_dst_ne (push pc (by simp [HandlerPc.pushes])) _ _)))
  | answerPlain pc =>
    have caller := push pc (List.mem_singleton.mpr rfl)
    exact .inr (nothing (writesTo_other (List.append_assoc _ _ _)
      (List.forall_mem_append.mpr ⟨map_dst_ne (found pc) _ _, map_dst_ne caller _ _⟩)))
  | answerBody pc =>
    exact .inr (nothing (writesTo_other rfl (map_dst_ne (found pc) _ _)))
  | @move i n f active =>
    right
    have issued := m.transfers.active f (List.mem_of_getElem? active)
    cases named : f.cause.handOver with
    | none =>
      obtain ⟨q, accepted, _, dest⟩ := m.transfers.answers f issued named
      have key : f.dst.key ≠ keyOf s ar := by
        rw [dest]
        exact client accepted
      exact nothing (writesTo_other rfl (map_dst_ne key _ [_]))
    | some own =>
      have dest := (m.transfers.sources f issued own named).2.1
      have carried := h.carried own (mem_handOvers.mpr ⟨f, issued, named⟩)
      by_cases this : own.2 = ar
      · subst this
        refine ⟨[.body ((f.src.body.drop (s.consumed f.src.key)).take n)], ?_, by simp [trails],
          fun _ => List.mem_map.mpr ⟨_, carried, rfl⟩⟩
        rw [keyOf, ← dest]
        exact writesTo_this rfl
      · have key : f.dst.key ≠ keyOf s ar := by
          rw [dest]
          exact puller (h.handed own carried).2 this
        exact nothing (writesTo_other rfl (map_dst_ne key _ [_]))
  | @finish i f active =>
    have issued := m.transfers.active f (List.mem_of_getElem? active)
    have source : f.src.key ≠ keyOf s ar := by
      cases named : f.cause.handOver with
      | none =>
        obtain ⟨q, _, done, _⟩ := m.transfers.answers f issued named
        exact (m.keyed.ne_push allocated_ar
          (pushUses_of_completed (List.mem_map.mpr ⟨_, done, rfl⟩))).symm
      | some own =>
        have accepted := (m.transfers.handed own (mem_handOvers.mpr ⟨f, issued, named⟩)).1
        rw [(m.transfers.sources f issued own named).1]
        exact client accepted
    exact .inr (nothing (writesTo_other rfl (map_dst_ne source _ _)))
  | _ => exact .inr (nothing rfl)

theorem keyOf_pull_step {s s' : State} {e : Event} (m : Moving s) (st : Step s e s') {ar : Ptr}
    (pulled : ar ∈ s.hist.pulls) : keyOf s' ar = keyOf s ar := by
  rw [keyOf, keyOf, mem_of_step st (m.booked.old _ (List.mem_append_right _ pulled))]

theorem unserved_before {s s' : State} {e : Event} (st : Step s e s') {ar : Ptr}
    (unserved : Unserved s' ar) : Unserved s ar := by
  obtain ⟨unhanded, unrefused⟩ := unserved
  cases st with
  | pair =>
    refine ⟨fun handed => unhanded ?_, unrefused⟩
    obtain ⟨pair, member, rfl⟩ := List.mem_map.mp handed
    exact List.mem_map.mpr ⟨pair, List.mem_append_left _ member, rfl⟩
  | drop => exact ⟨unhanded, fun refused => unrefused (List.mem_append_left _ refused)⟩
  | _ => exact ⟨unhanded, unrefused⟩

theorem served_of_forward {s s' : State} {t : ℕ} {pr ar : Ptr} (st : Step s (.worker t) s')
    (pc : s.workers[t]? = some (.forward pr ar)) : ¬Unserved s' ar := by
  rintro ⟨unhanded, unrefused⟩
  cases st with
  | pair pc' =>
    rw [pc] at pc'
    cases pc'
    exact unhanded (by simp)
  | drop pc' =>
    rw [pc] at pc'
    cases pc'
    exact unrefused (by simp)
  | takeNew pc' | takePull pc' | enlist pc' | handBody pc' | handPlain pc' | release pc' =>
    rw [pc] at pc'
    cases pc'

theorem silent_step {s s' : State} {e : Event} (h : Pulled s) (m : Moving s)
    (addressed : ∀ w ∈ s.log, w.dst ∈ s.seen) (st : Step s e s') :
    ∀ ar ∈ s'.hist.pulls, Unserved s' ar → s'.writesTo (keyOf s' ar) = [] := by
  intro ar pulled' unserved
  by_cases pulled : ar ∈ s.hist.pulls
  · rw [keyOf_pull_step m st pulled]
    have before := unserved_before st unserved
    rcases writesTo_pull h m st pulled with ⟨t, pr, rfl, pc⟩ | ⟨rest, text, _, handed⟩
    · exact absurd unserved (served_of_forward st pc)
    · have nothing : rest = [] := by
        by_contra some_out
        exact before.1 (handed some_out)
      rw [text, h.silent ar pulled before, nothing, List.append_nil]
  · cases st with
    | pull fresh =>
      rcases List.mem_append.mp pulled' with old | this_one
      · exact absurd old pulled
      · obtain rfl := List.mem_singleton.mp this_one
        simp only [keyOf, djbPullPost, Function.update_self]
        exact writesTo_unseen addressed fresh
    | _ => exact absurd pulled' pulled

theorem told_pull_step {s s' : State} {e : Event} (h : Pulled s) (m : Moving s)
    (st : Step s e s') : ∀ pair ∈ s'.hist.handed, ∃ rest,
      s'.writesTo (keyOf s' pair.2) = forwardHeaders (s'.mem pair.1).hcl ++ rest ∧
        ∀ out ∈ rest, trails out := by
  have before : ∀ pair ∈ s.hist.handed, ∃ rest,
      s'.writesTo (keyOf s' pair.2) = forwardHeaders (s'.mem pair.1).hcl ++ rest ∧
        ∀ out ∈ rest, trails out := by
    intro pair handed
    obtain ⟨accepted, pulled⟩ := h.handed pair handed
    obtain ⟨rest, text, trailing⟩ := h.told pair handed
    rw [keyOf_pull_step m st pulled,
      mem_of_step st (m.booked.old _ (List.mem_append_left _ accepted))]
    rcases writesTo_pull h m st pulled with ⟨t, pr, rfl, pc⟩ | ⟨more, written, trailing_more, _⟩
    · exact absurd (List.mem_map.mpr ⟨_, handed, rfl⟩) (unserved_of_forward m.booked pc).1
    · exact ⟨rest ++ more, by rw [written, text, List.append_assoc],
        List.forall_mem_append.mpr ⟨trailing, trailing_more⟩⟩
  have st' := st
  cases st with
  | @pair t pr ar pc =>
    refine List.forall_mem_append.mpr ⟨before, fun pair member => ⟨[], ?_, by simp⟩⟩
    obtain rfl := List.mem_singleton.mp member
    obtain ⟨accepted, pulled⟩ := m.transfers.pending _ (List.mem_of_getElem? pc) _ rfl
    have silent := h.silent ar pulled (unserved_of_forward m.booked pc)
    dsimp only
    rw [keyOf_pull_step m st' pulled,
      mem_of_step st' (m.booked.old _ (List.mem_append_left _ accepted)), List.append_nil]
    calc _ = s.writesTo (keyOf s ar) ++ forwardHeaders (s.mem pr).hcl := writesTo_this rfl
      _ = _ := by rw [silent, List.nil_append]
  | _ => exact before

theorem pulled_init (workers handlers : ℕ) : Pulled (init workers handlers) :=
  { handing_init workers handlers with
    silent := by simp [init]
    told := by simp [init] }

theorem pulled_of_exec {workers handlers : ℕ} {es : List Event} {s : State}
    (run : machine.exec (init workers handlers) es = some s) : Moving s ∧ Pulled s := by
  have all := machine.invariant
    (I := fun s => Moving s ∧ Pulled s ∧ ∀ w ∈ s.log, w.dst ∈ s.seen) ?_
    ⟨moving_init _ _, pulled_init _ _, by simp [init]⟩ run
  · exact ⟨all.1, all.2.1⟩
  rintro s e s' ⟨m, h, addressed⟩ moved
  have st := step_cases moved
  have handing := handing_step h.toHanding m st
  exact ⟨moving_step m st, ⟨handing, silent_step h m addressed st, told_pull_step h m st⟩,
    addressed_step addressed m st⟩

end Jumpbox.Proxy
