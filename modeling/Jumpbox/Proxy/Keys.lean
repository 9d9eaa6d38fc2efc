import Jumpbox.Proxy.Accounts

/-! The numbers of requests. libfutil gives each request a number of its own, and
the daemon uses it in one role: a queued request, a pull, or a push in play. A
number that is out of use stays out of use. -/

namespace Jumpbox.Proxy

open Table

def HandlerPc.pushes : HandlerPc → List Key
  | .find hcl | .found hcl _ | .callback hcl _ | .putBack hcl _ => [hcl.key]
  | _ => []

def keyOf (s : State) (p : Ptr) : Key := (s.mem p).hcl.key

def pushBook (s : State) (k : Key) : ℕ :=
  (s.reading.map HttpsrvClient.key).count k + (s.hist.completed.map fun c => c.2.key).count k

def timesUsed (s : State) (k : Key) : ℕ :=
  ((allocated s).map (keyOf s)).count k + pushBook s k +
    total (fun pc => pc.pushes.count k) s.handlers

structure Keyed (s : State) : Prop where
  seen : s.seen.Nodup
  uses : ∀ k, timesUsed s k ≤ s.seen.count k

theorem mem_of_step {s s' : State} {e : Event} (st : Step s e s') {p : Ptr} (old : p < s.next) :
    (s'.mem p).hcl = (s.mem p).hcl := by
  have other : p ≠ s.next := Nat.ne_of_lt old
  cases st with
  | accept | internal => simp [djbProxyAdd, Function.update_of_ne other]
  | pull => simp [djbPullPost, Function.update_of_ne other]
  | @pair t pr =>
    by_cases same : p = pr
    · subst same
      simp
    · simp [Function.update_of_ne same]
  | _ => rfl

theorem next_of_step {s s' : State} {e : Event} (st : Step s e s') : s.next ≤ s'.next := by
  cases st with
  | accept | internal | pull => exact Nat.le_succ _
  | _ => exact Nat.le_refl _

theorem keys_count_step {s s' : State} {e : Event} (fresh : Fresh s) (st : Step s e s')
    (news : List Ptr) (grown : (allocated s').Perm (allocated s ++ news)) (k : Key) :
    ((allocated s').map (keyOf s')).count k =
      ((allocated s).map (keyOf s)).count k + (news.map (keyOf s')).count k := by
  have earlier : (allocated s).map (keyOf s') = (allocated s).map (keyOf s) := by
    refine List.map_congr_left fun p member => ?_
    unfold keyOf
    rw [mem_of_step st (fresh.old p member)]
  rw [(grown.map (keyOf s')).count_eq, List.map_append, List.count_append, earlier]

theorem uses_handler {s s' : State} {e : Event} {t : ℕ} {old new : HandlerPc} (fresh : Fresh s)
    (st : Step s e s') (same : allocated s' = allocated s) (pc : s.handlers[t]? = some old)
    (handlers : s'.handlers = s.handlers.set t new)
    (trade : ∀ k, pushBook s' k + new.pushes.count k + s.seen.count k ≤
      pushBook s k + old.pushes.count k + s'.seen.count k) (k : Key) :
    timesUsed s' k + s.seen.count k ≤ timesUsed s k + s'.seen.count k := by
  have keys := keys_count_step fresh st [] (by rw [same, List.append_nil]) k
  have := trade k
  rw [List.map_nil, List.count_nil] at keys
  rw [timesUsed, timesUsed, handlers, total_set _ pc, total_split _ pc]
  omega

theorem uses_quiet {s s' : State} {e : Event} (fresh : Fresh s) (st : Step s e s')
    (same : allocated s' = allocated s) (handlers : s'.handlers = s.handlers)
    (book : pushBook s' = pushBook s) (k : Key) : timesUsed s' k = timesUsed s k := by
  have keys := keys_count_step fresh st [] (by rw [same, List.append_nil]) k
  rw [List.map_nil, List.count_nil, Nat.add_zero] at keys
  rw [timesUsed, timesUsed, handlers, keys, book]

theorem uses_request {s s' : State} {e : Event} (fresh : Fresh s) (st : Step s e s') {key : Key}
    (seen : s'.seen = s.seen ++ [key]) (grown : (allocated s').Perm (allocated s ++ [s.next]))
    (named : keyOf s' s.next = key) (handlers : s'.handlers = s.handlers)
    (book : pushBook s' = pushBook s) (k : Key) :
    timesUsed s' k + s.seen.count k ≤ timesUsed s k + s'.seen.count k := by
  have keys := keys_count_step fresh st _ grown k
  rw [List.map_cons, List.map_nil, named] at keys
  rw [timesUsed, timesUsed, handlers, keys, book, seen, List.count_append]
  omega

theorem uses_step {s s' : State} {e : Event} (fresh : Fresh s) (st : Step s e s') (k : Key) :
    timesUsed s' k + s.seen.count k ≤ timesUsed s k + s'.seen.count k := by
  have st' := st
  cases st with
  | accept | internal =>
    refine uses_request fresh st' rfl ?_ ?_ rfl rfl k
    · simp only [allocated, djbProxyAdd, List.append_assoc]
      exact List.perm_append_comm.append_left _
    · simp [keyOf, djbProxyAdd, HttpsrvClient.key]
  | pull =>
    refine uses_request fresh st' rfl ?_ ?_ rfl rfl k
    · simp [allocated, djbPullPost]
    · simp [keyOf, djbPullPost]
  | push _ _ _ pc =>
    refine uses_handler fresh st' rfl pc rfl (fun k => ?_) k
    simp only [pushBook, State.setHandler, HandlerPc.pushes, List.count_append, List.count_nil]
    omega
  | refuse | elsewhere =>
    refine Nat.add_le_add (Nat.le_of_eq (uses_quiet fresh st' rfl rfl rfl k)) ?_
    exact List.Sublist.count_le k (List.sublist_append_left _ _)
  | miss _ pc | find pc | enter pc | callbackWait pc | closeNone pc | closeSome pc | reschedule pc
  | close pc =>
    exact uses_handler fresh st' rfl pc rfl (fun k => by simp [pushBook, HandlerPc.pushes]) k
  | answerClosed pc | answerPlain pc | answerBody pc | callbackDone pc | putBack pc =>
    refine uses_handler fresh st' rfl pc rfl (fun k => ?_) k
    simp [pushBook, HandlerPc.pushes]
    omega
  | @again t hcl pc waiting =>
    refine uses_handler fresh st' rfl pc rfl (fun k => ?_) k
    have same_key : { hcl with readbody := true }.key = hcl.key := rfl
    have erased := ((List.perm_cons_erase waiting).map HttpsrvClient.key).count_eq k
    rw [List.map_cons, List.count_cons] at erased
    simp only [pushBook, State.setHandler, HandlerPc.pushes, same_key, List.count_cons,
      List.count_nil]
    omega
  | _ => exact Nat.le_of_eq (congrArg (· + _) (uses_quiet fresh st' rfl rfl rfl k))

theorem seen_nodup_step {s s' : State} {e : Event} (nodup : s.seen.Nodup) (st : Step s e s') :
    s'.seen.Nodup := by
  have arrival {key : Key} (unseen : key ∉ s.seen) : (s.seen ++ [key]).Nodup := by
    rw [← List.concat_eq_append]
    exact nodup.concat unseen
  cases st with
  | accept _ _ _ unseen | internal unseen | pull unseen | push unseen | refuse _ unseen
  | elsewhere unseen => exact arrival unseen
  | _ => exact nodup

theorem keyed_init (workers handlers : ℕ) : Keyed (init workers handlers) where
  seen := List.nodup_nil
  uses k := by
    have handlers_idle : total (fun pc : HandlerPc => pc.pushes.count k)
        (List.replicate handlers .idle) = 0 := total_replicate_zero _ _ _ rfl
    simp [timesUsed, init, pushBook, allocated, handlers_idle]

theorem keyed_step {s s' : State} {e : Event} (h : Keyed s) (fresh : Fresh s)
    (st : Step s e s') : Keyed s' := by
  refine ⟨seen_nodup_step h.seen st, fun k => ?_⟩
  have before := h.uses k
  have := uses_step fresh st k
  omega

theorem not_uses_step {s s' : State} {e : Event} (h : Keyed s) (fresh : Fresh s)
    (st : Step s e s') {k : Key} (seen : k ∈ s.seen) (unused : timesUsed s k = 0) :
    timesUsed s' k = 0 := by
  have := uses_step fresh st k
  have before := List.count_pos_iff.mpr seen
  have after := List.nodup_iff_count_le_one.mp (seen_nodup_step h.seen st) k
  omega

theorem uses_of_allocated {s : State} {p : Ptr} (p_in : p ∈ allocated s) :
    0 < timesUsed s (keyOf s p) := by
  have : 0 < ((allocated s).map (keyOf s)).count (keyOf s p) :=
    List.count_pos_iff.mpr (List.mem_map.mpr ⟨p, p_in, rfl⟩)
  rw [timesUsed]
  omega

theorem pushUses_of_handled {s : State} {t : ℕ} {pc : HandlerPc} (at_t : s.handlers[t]? = some pc)
    {k : Key} (push : k ∈ pc.pushes) :
    0 < pushBook s k + total (fun pc => pc.pushes.count k) s.handlers := by
  have weight := weight_le_total (fun pc : HandlerPc => pc.pushes.count k) at_t
  have := List.count_pos_iff.mpr push
  omega

theorem pushUses_of_completed {s : State} {hcl : HttpsrvClient}
    (completed : hcl ∈ s.hist.completed.map Prod.snd) :
    0 < pushBook s hcl.key + total (fun pc => pc.pushes.count hcl.key) s.handlers := by
  obtain ⟨c, member, rfl⟩ := List.mem_map.mp completed
  have : 0 < (s.hist.completed.map fun c => c.2.key).count c.2.key :=
    List.count_pos_iff.mpr (List.mem_map.mpr ⟨c, member, rfl⟩)
  rw [pushBook]
  omega

theorem uses_of_push {s : State} {k : Key}
    (push : 0 < pushBook s k + total (fun pc => pc.pushes.count k) s.handlers) :
    0 < timesUsed s k := by
  rw [timesUsed]
  omega

theorem Keyed.seen_of_uses {s : State} (h : Keyed s) {k : Key} (used : 0 < timesUsed s k) :
    k ∈ s.seen := by
  have := h.uses k
  exact List.count_pos_iff.mp (by omega)

theorem Keyed.keys {s : State} (h : Keyed s) : ((allocated s).map (keyOf s)).Nodup := by
  rw [List.nodup_iff_count_le_one]
  intro k
  have used := h.uses k
  have once := List.nodup_iff_count_le_one.mp h.seen k
  rw [timesUsed] at used
  omega

theorem Keyed.injective {s : State} (h : Keyed s) {p q : Ptr} (p_in : p ∈ allocated s)
    (q_in : q ∈ allocated s) (same : keyOf s p = keyOf s q) : p = q :=
  List.inj_on_of_nodup_map h.keys p_in q_in same

theorem Keyed.ne_push {s : State} (h : Keyed s) {p : Ptr} (p_in : p ∈ allocated s) {k : Key}
    (push : 0 < pushBook s k + total (fun pc => pc.pushes.count k) s.handlers) :
    keyOf s p ≠ k := by
  intro same
  have used := h.uses k
  have once := List.nodup_iff_count_le_one.mp h.seen k
  have request : 0 < ((allocated s).map (keyOf s)).count k :=
    List.count_pos_iff.mpr (List.mem_map.mpr ⟨p, p_in, same⟩)
  rw [timesUsed] at used
  omega

theorem Keyed.pushes {s : State} (h : Keyed s) :
    (s.hist.completed.map fun c => c.2.key).Nodup := by
  rw [List.nodup_iff_count_le_one]
  intro k
  have used := h.uses k
  have once := List.nodup_iff_count_le_one.mp h.seen k
  rw [timesUsed, pushBook] at used
  omega

end Jumpbox.Proxy
