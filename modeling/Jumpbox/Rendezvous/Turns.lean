import Jumpbox.Rendezvous.Step

/-! Which onions have had their turn. The result of a proof of work waits for its own; every
other onion that becomes current is new. -/

namespace Jumpbox.Rendezvous

variable {ext : Ext} {c : Choice} {hcl : HttpsrvClient} {s t : State}

abbrev Below (s : State) : Prop := InUse (fun m o => o < m.next) (fun _ _ => True) s

theorem passes_below (ext : Ext) : Passes ext (fun m o => o < m.next) fun _ _ => True where
  mono le h := h.trans_le le.next
  mono_pc _ _ := trivial
  layer _ _ _ _ _ := Nat.lt_succ_self _
  new _ := trivial
  late _ := ⟨trivial, trivial, trivial⟩

def Adopted (s : State) (o : Ptr) : Prop := o ∈ s.hist.adopted.map Adoption.inner

instance (s : State) (o : Ptr) : Decidable (Adopted s o) :=
  inferInstanceAs (Decidable (o ∈ _))

structure Turns (s : State) : Prop where
  below : Below s
  danced : ∀ o ∈ s.hist.danced, o < s.next
  adopted : ∀ o, Adopted s o → o < s.next
  waits : ∀ o ∈ s.lPowInnerOnion, s.lCurrentOnion ≠ some o ∧ o ∉ s.hist.danced ∧ ¬Adopted s o

theorem Turns.alike (h : Turns s) (a : Alike s t) : Turns t where
  below := h.below.alike (passes_below default) a
  danced := by
    rw [a.danced]
    exact fun o member => (h.danced o member).trans_le a.next
  adopted := by
    unfold Adopted
    rw [a.adopted]
    exact fun o member => (h.adopted o member).trans_le a.next
  waits := by
    unfold Adopted
    rw [a.inner, a.current, a.danced, a.adopted]
    exact h.waits

theorem Turns.spent (h : Turns s) : s.next ∉ s.hist.danced ∧ ¬Adopted s s.next :=
  ⟨fun member => absurd (h.danced _ member) (lt_irrefl _),
    fun member => absurd (h.adopted _ member) (lt_irrefl _)⟩

theorem Turns.next_waits (h : Turns s) :
    ∀ o ∈ s.lPowInnerOnion, some s.next ≠ some o ∧ o ∉ s.hist.danced ∧ ¬Adopted s o := by
  intro o stored
  refine ⟨fun same => ?_, (h.waits o stored).2⟩
  obtain rfl := Option.some.inj same
  exact absurd (h.below.inner _ stored) (lt_irrefl _)

theorem adopted_adopt {o outer inner : Ptr} :
    Adopted (s.adopt outer inner) o ↔ Adopted s o ∨ o = inner := by
  simp [Adopted, State.adopt]

theorem Turns.move (h : Turns s) (moved : Move ext c hcl s t) : Turns t := by
  have below : Below t := h.below.move (passes_below ext) (fun _ _ => Nat.lt_succ_self _) moved
  cases moved with
  | stay => exact h
  | forget asked =>
    have hist := forget_hist s
    have next : s.forget.next = s.next := congrArg Store.next (forget_store s)
    refine ⟨below, ?_, ?_, ?_⟩
    · rw [hist, next]
      exact h.danced
    · unfold Adopted
      rw [hist, next]
      exact h.adopted
    · intro o stored
      unfold Adopted
      rw [hist]
      unfold State.forget rdvPowReset at stored ⊢
      dsimp only at stored ⊢
      split at stored
      · cases stored
      · rw [if_neg (by assumption)]
        exact ⟨by nofun, (h.waits o stored).2⟩
  | accept =>
    exact ⟨below, fun o member => (h.danced o member).trans (Nat.lt_succ_self _),
      fun o member => (h.adopted o member).trans (Nat.lt_succ_self _), h.next_waits⟩
  | @dance o current =>
    refine ⟨below, fun p member => ?_, h.adopted, fun p stored => ?_⟩
    · rcases List.mem_append.mp member with old | new
      · exact h.danced p old
      · obtain rfl := List.mem_singleton.mp new
        exact h.below.current _ current.current
    · obtain ⟨other, fresh, new⟩ := h.waits p stored
      refine ⟨other, fun member => ?_, new⟩
      rcases List.mem_append.mp member with old | now
      · exact fresh old
      · obtain rfl := List.mem_singleton.mp now
        exact other current.current
  | start => exact ⟨below, h.danced, h.adopted, h.waits⟩
  | adopt _ _ _ stored =>
    refine ⟨below, h.danced, fun p member => ?_, by nofun⟩
    rcases adopted_adopt.mp member with old | rfl
    · exact h.adopted p old
    · exact h.below.inner _ stored
  | peel =>
    exact ⟨below, fun o member => (h.danced o member).trans (Nat.lt_succ_self _),
      fun o member => (h.adopted o member).trans (Nat.lt_succ_self _), h.next_waits⟩

theorem Turns.moves (h : Turns s) (moved : Moves ext c hcl s t) : Turns t := by
  obtain ⟨u, moved, a⟩ := moved
  exact (h.move moved).alike a

theorem Turns.works {w epoch : ℕ} {pc : WorkerPc} (h : Turns s)
    (found : s.workers[w]? = some { pc, epoch }) (works : Works ext s w pc t) : Turns t := by
  have below : Below t := h.below.work (passes_below ext) found (fun _ _ _ _ _ _ => trivial)
    (fun _ _ _ _ _ _ _ _ _ _ => Nat.lt_succ_self _) works
  cases works with
  | read => exact ⟨below, h.danced, h.adopted, h.waits⟩
  | @solve a b d e =>
    revert below
    unfold State.solved
    split
    · intro below
      refine ⟨below, fun o member => (h.danced o member).trans (Nat.lt_succ_self _),
        fun o member => (h.adopted o member).trans (Nat.lt_succ_self _), ?_⟩
      rintro o ⟨⟩
      exact ⟨fun current => absurd (h.below.current _ current) (lt_irrefl _), h.spent⟩
    · exact fun below => ⟨below, h.danced, h.adopted, by nofun⟩
  | progress => exact ⟨below, h.danced, h.adopted, h.waits⟩
  | finish => exact ⟨below, h.danced, h.adopted, h.waits⟩

theorem Turns.step {e : Event} (h : Turns s) (run : (machine ext).step s e = some t) :
    Turns t := by
  cases e with
  | request hcl c =>
    cases run
    exact h.moves (rdvHandle_moves ext c hcl s)
  | worker w =>
    obtain ⟨⟨pc, epoch⟩, found, works⟩ := workerStep_works run
    exact h.works found works
  | attempts w progress =>
    simp only [machine, Rendezvous.step] at run
    split at run
    · cases run
      exact h.alike {}
    · cases run

theorem initial_turns : Turns initial where
  below := ⟨by nofun, by nofun, by nofun⟩
  danced := by nofun
  adopted := by nofun
  waits := by nofun

theorem turns_of_exec {es : List Event} (run : (machine ext).exec initial es = some s) :
    Turns s :=
  (machine ext).invariant (fun _ _ _ turns moved => turns.step moved) initial_turns run

/-! The onion that is left at the base. -/

def Settled (ext : Ext) (s : State) : Prop :=
  ∀ o, s.lCurrentOnion = some o → (s.mem o).onion.type = base →
    (o ∈ s.hist.danced ↔ Adopted s o ∧ (ext.jsonLoads (nep (s.mem o).onion)).isSome)

theorem Settled.new (turns : Turns s) (current : t.lCurrentOnion = some s.next)
    (danced : t.hist.danced = s.hist.danced) (adopted : t.hist.adopted = s.hist.adopted) :
    Settled ext t := by
  rintro o now -
  obtain rfl := Option.some.inj (current.symm.trans now)
  unfold Adopted
  rw [danced, adopted]
  exact iff_of_false turns.spent.1 fun both => turns.spent.2 both.1

theorem Settled.alike (h : Settled ext s) (below : Below s) (a : Alike s t) : Settled ext t := by
  intro o now isBase
  rw [a.current] at now
  have same : t.mem o = s.mem o := a.mem o (below.current o now)
  unfold Adopted
  rw [same] at isBase ⊢
  rw [a.danced, a.adopted]
  exact h o now isBase

theorem Settled.moves (h : Settled ext s) (turns : Turns s)
    (away : ∀ o, s.lCurrentOnion = some o → (s.mem o).onion.type ≠ base)
    (moved : Moves ext c hcl s t) (same : t.hist.adopted = s.hist.adopted) : Settled ext t := by
  obtain ⟨u, moved, a⟩ := moved
  refine Settled.alike ?_ (turns.move moved).below a
  cases moved with
  | stay => exact h
  | forget =>
    have current : s.forget.lCurrentOnion = none := by
      unfold State.forget rdvPowReset
      dsimp only
      split <;> rfl
    exact fun o now => absurd (current.symm.trans now) (by nofun)
  | accept => exact .new turns rfl rfl rfl
  | dance current => exact absurd current.type (away _ current.current)
  | start => exact h
  | adopt =>
    have more := congrArg List.length (a.adopted.symm.trans same)
    exact absurd more (by simp [State.adopt])
  | peel => exact .new turns rfl rfl rfl

theorem Moves.isSome (moved : Moves ext c hcl s t) (other : ¬asks hcl "reset".toList)
    (some_onion : s.lCurrentOnion.isSome) : t.lCurrentOnion.isSome := by
  obtain ⟨u, moved, a⟩ := moved
  rw [a.current]
  cases moved with
  | stay => exact some_onion
  | forget asked => exact absurd asked other
  | dance => exact some_onion
  | start => exact some_onion
  | _ => rfl

theorem Turns.adopts (turns : Turns s) (moved : Moves ext c hcl s t) {a : Adoption}
    (more : t.hist.adopted = s.hist.adopted ++ [a]) :
    t.lCurrentOnion = some a.inner ∧ a.inner ∉ t.hist.danced ∧ Adopted t a.inner := by
  have listed : Adopted t a.inner := by simp [Adopted, more]
  obtain ⟨u, moved, alike⟩ := moved
  have grown : u.hist.adopted = s.hist.adopted ++ [a] := alike.adopted.symm.trans more
  cases moved with
  | @adopt o inner current _ _ stored =>
    have last := List.append_cancel_left grown
    obtain rfl : _ = a := List.singleton_injective last
    refine ⟨alike.current, ?_, listed⟩
    rw [alike.danced]
    exact (turns.waits inner stored).2.1
  | forget =>
    rw [forget_hist] at grown
    exact absurd (congrArg List.length grown) (by simp)
  | _ =>
    exact absurd (congrArg List.length grown) (by simp [State.accept, State.dance, State.start,
      State.peeled, State.replace, State.freeOnion, State.newOnion])

end Jumpbox.Rendezvous
