import Jumpbox.Plugin.AcsPage

/-! What goes on on the ACS page: one poll at a time, and a box to go on from at its end. An
empty NET leaves the page without either. -/

namespace Jumpbox.Plugin.AcsPage

open JsonText (Value)
open RendezvousPage (Reply)

namespace Page

variable {b : Browser} {p p' : Page}

/-! What is said leaves the requests alone, and shows a box at most. -/

def shows (b : Browser) (p : Page) (st : CStr) (msg : Option Value) (box : CStr) : Bool :=
  !sameMessage b.loose msg p.bar.msgPrev && st = box

structure Says (b : Browser) (p : Page) (st : CStr) (msg : Option Value) (p' : Page) : Prop where
  intro : p'.intro = (p.intro || shows b p st msg "error".toList)
  launch : p'.launch = (p.launch || shows b p st msg "done".toList)
  calls : p'.calls = p.calls
  xhrs : p'.xhrs = p.xhrs

theorem setStatus_said (b : Browser) (p : Page) (st : CStr) (msg : Option Value) :
    Says b p st msg (p.setStatus b st msg) := by
  unfold setStatus
  split
  next same =>
    have silent (box : CStr) : shows b p st msg box = false := by rw [shows, same]; rfl
    exact ⟨by rw [silent, Bool.or_false], by rw [silent, Bool.or_false], rfl, rfl⟩
  next new =>
    have new : sameMessage b.loose msg p.bar.msgPrev = false := by simpa using new
    have shown (box : CStr) : shows b p st msg box = decide (st = box) := by rw [shows, new]; rfl
    exact ⟨by rw [shown], by rw [shown], rfl, rfl⟩

structure SameBoxes (p p' : Page) : Prop where
  intro : p'.intro = p.intro := by rfl
  launch : p'.launch = p.launch := by rfl
  calls : p'.calls = p.calls := by rfl
  xhrs : p'.xhrs = p.xhrs := by rfl

theorem SameBoxes.trans {q : Page} (h : SameBoxes p q) (h' : SameBoxes q p') : SameBoxes p p' :=
  ⟨h'.intro.trans h.intro, h'.launch.trans h.launch, h'.calls.trans h.calls,
    h'.xhrs.trans h.xhrs⟩

theorem Says.quiet {st : CStr} {msg : Option Value} (h : Says b p st msg p')
    (other : st ≠ "error".toList ∧ st ≠ "done".toList) : SameBoxes p p' where
  intro := by rw [h.intro, shows, decide_eq_false other.1, Bool.and_false, Bool.or_false]
  launch := by rw [h.launch, shows, decide_eq_false other.2, Bool.and_false, Bool.or_false]
  calls := h.calls
  xhrs := h.xhrs

theorem say_ok (b : Browser) (p : Page) (msg : CStr) :
    SameBoxes p (p.say b "ok".toList msg) :=
  (setStatus_said b p "ok".toList (some (.string msg))).quiet (by decide)

theorem emptyStatus_boxes (b : Browser) (p : Page) : SameBoxes p (p.emptyStatus b) :=
  SameBoxes.trans {} (say_ok b { p with bar.log := [] } _)

theorem SameBoxes.send (h : SameBoxes p p') (call : Call) :
    SameBoxes (p.send call) (p'.send call) where
  intro := h.intro
  launch := h.launch
  calls := by simp only [Page.send, h.calls]
  xhrs := by simp only [Page.send, h.xhrs, h.calls]

def hidden (p : Page) : Page := { p with intro := false }

theorem butDanceRdv_boxes (b : Browser) (p : Page) :
    SameBoxes (p.hidden.send .progress) (p.butDanceRdv b) :=
  ((emptyStatus_boxes b p.hidden).trans (say_ok b _ _)).send .progress

theorem butRestart_boxes (b : Browser) (p : Page) :
    SameBoxes { p with launch := false, intro := true } (p.butRestart b) :=
  emptyStatus_boxes b _

def Refused (b : Browser) (p : Page) (net : CStr) : Prop :=
  shows b (p.hidden.emptyStatus b) (manual b net).1 (some (.string (manual b net).2))
    "error".toList

instance (b : Browser) (p : Page) (net : CStr) : Decidable (Refused b p net) :=
  inferInstanceAs (Decidable (_ = true))

theorem manual_cases (b : Browser) (net : CStr) :
    (manual b net).1 = "ok".toList ∨ (manual b net).1 = "error".toList := by
  unfold manual
  dsimp only
  split
  · exact .inl rfl
  · split
    · exact .inr rfl
    · split
      · exact .inr rfl
      · exact .inr rfl
      · split
        · exact .inr rfl
        · split
          · exact .inr rfl
          · split
            · exact .inr rfl
            · exact .inl rfl

theorem butDanceNet_nil (b : Browser) (p : Page) : SameBoxes p.hidden (p.butDanceNet b []) :=
  (emptyStatus_boxes b p.hidden).trans (say_ok b _ _)

theorem butDanceNet_boxes (b : Browser) (p : Page) {net : CStr} (typed : net ≠ []) :
    SameBoxes ({ p with intro := decide (Refused b p net) }.send (.setup net))
      (p.butDanceNet b net) := by
  have emptied := emptyStatus_boxes b p.hidden
  have said := setStatus_said b (p.hidden.emptyStatus b) (manual b net).1
    (some (.string (manual b net).2))
  have silent : shows b (p.hidden.emptyStatus b) (manual b net).1
      (some (.string (manual b net).2)) "done".toList = false := by
    have other : (manual b net).1 ≠ "done".toList := by
      rcases manual_cases b net with ok | error
      · rw [ok]
        decide
      · rw [error]
        decide
    rw [shows, decide_eq_false other, Bool.and_false]
  have boxes : SameBoxes { p with intro := decide (Refused b p net) }
      ((p.hidden.emptyStatus b).say b (manual b net).1 (manual b net).2) := by
    refine ⟨?_, ?_, said.calls.trans emptied.calls, said.xhrs.trans emptied.xhrs⟩
    · refine said.intro.trans ?_
      rw [emptied.intro]
      exact (Bool.decide_eq_true (b := shows _ _ _ _ _)).symm
    · refine said.launch.trans ?_
      rw [silent, Bool.or_false, emptied.launch]
      rfl
  unfold butDanceNet
  dsimp only
  rw [if_neg typed]
  exact boxes.send (.setup net)

/-! What a step is. -/

def off (p : Page) (i : ℕ) : Page := { p with xhrs := p.xhrs.eraseIdx i }

inductive Step (b : Browser) (p : Page) : Event → Page → Prop
  | nothing {q} : p.intro → SameBoxes p.hidden q → Step b p (.dancenet []) q
  | sets {net q} : p.intro → net ≠ [] →
      SameBoxes ({ p with intro := decide (Refused b p net) }.send (.setup net)) q →
      Step b p (.dancenet net) q
  | polls {q} : p.intro → SameBoxes (p.hidden.send .progress) q → Step b p .dancerdv q
  | opens {q} : p.launch → SameBoxes p q → Step b p .launchtools q
  | restarts {q} : p.launch → SameBoxes { p with launch := false, intro := true } q →
      Step b p .restart q
  | goesOn {i reply q} : i < p.xhrs.length → (verdict reply).more →
      SameBoxes ((p.off i).send .progress) q → Step b p (.complete i reply) q
  | ends {i reply q} : i < p.xhrs.length → (verdict reply).more = false →
      Says b (p.off i) (verdict reply).st (verdict reply).msg q → Step b p (.complete i reply) q

theorem verdict_more {reply : Reply} (more : (verdict reply).more) :
    (verdict reply).st = "ok".toList := by
  unfold verdict at more ⊢
  split at more
  next okay =>
    rw [if_pos okay]
    exact setStatusJson_more more
  next => split at more <;> cases more

theorem step_cases {e : Event} (moved : step b p e = some p') : Step b p e p' := by
  cases e with
  | dancenet net =>
    simp only [step, Option.ite_none_right_eq_some, Option.some.injEq] at moved
    obtain ⟨shown, rfl⟩ := moved
    by_cases typed : net = []
    · subst typed
      exact .nothing shown (butDanceNet_nil b p)
    · exact .sets shown typed (butDanceNet_boxes b p typed)
  | dancerdv =>
    simp only [step, Option.ite_none_right_eq_some, Option.some.injEq] at moved
    obtain ⟨shown, rfl⟩ := moved
    exact .polls shown (butDanceRdv_boxes b p)
  | launchtools =>
    simp only [step, Option.ite_none_right_eq_some, Option.some.injEq] at moved
    obtain ⟨shown, rfl⟩ := moved
    exact .opens shown {}
  | restart =>
    simp only [step, Option.ite_none_right_eq_some, Option.some.injEq] at moved
    obtain ⟨shown, rfl⟩ := moved
    exact .restarts shown (butRestart_boxes b p)
  | complete i reply =>
    simp only [step, Option.ite_none_right_eq_some, Option.some.injEq] at moved
    obtain ⟨under_way, rfl⟩ := moved
    have said := setStatus_said b (p.off i) (verdict reply).st (verdict reply).msg
    by_cases more : (verdict reply).more
    · have ok := verdict_more more
      have quiet := said.quiet (by rw [ok]; decide)
      refine .goesOn under_way more ?_
      unfold processResponse
      dsimp only
      rw [if_pos more]
      exact quiet.send .progress
    · refine .ends under_way (by simpa using more) ?_
      unfold processResponse
      dsimp only
      rw [if_neg more]
      exact said

/-! One poll at a time. -/

structure Calm (p : Page) : Prop where
  one : p.xhrs.length ≤ 1
  idle : p.intro ∨ p.launch → p.xhrs = []
  apart : ¬(p.intro ∧ p.launch)

/-- What the user can press waits until the request under way is complete. -/
def Single (p : Page) : Prop := p.xhrs.length ≤ 1 ∧ (p.intro ∨ p.launch → p.xhrs = [])

/-- A NET that is typed in is not refused. -/
def Fine (b : Browser) (p : Page) : Event → Prop
  | .dancenet net => net = [] ∨ ¬Refused b p net
  | _ => True

instance (b : Browser) (p : Page) : ∀ e, Decidable (Fine b p e)
  | .dancenet _ => inferInstanceAs (Decidable (_ ∨ _))
  | .dancerdv | .launchtools | .restart | .complete _ _ => isTrue trivial

theorem Calm.send {call : Call} (h : SameBoxes (p.send call) p') (nothing : p.xhrs = [])
    (intro : p.intro = false) (launch : p.launch = false) : Calm p' where
  one := by rw [h.xhrs, Page.send, nothing]; exact le_rfl
  idle shown := by
    rw [h.intro, h.launch] at shown
    simp [Page.send, intro, launch] at shown
  apart both := by
    rw [h.intro] at both
    simp [Page.send, intro] at both

theorem Calm.same (h : Calm p) (same : SameBoxes p p') : Calm p' where
  one := by rw [same.xhrs]; exact h.one
  idle := by rw [same.xhrs, same.intro, same.launch]; exact h.idle
  apart := by rw [same.intro, same.launch]; exact h.apart

theorem Calm.off {i : ℕ} (h : Calm p) (under_way : i < p.xhrs.length) :
    (p.off i).xhrs = [] ∧ p.intro = false ∧ p.launch = false := by
  have some_request : p.xhrs ≠ [] := List.ne_nil_of_length_pos (Nat.zero_lt_of_lt under_way)
  have boxes : ¬(p.intro ∨ p.launch) := fun shown => some_request (h.idle shown)
  simp only [not_or, Bool.not_eq_true] at boxes
  refine ⟨List.length_eq_zero_iff.mp ?_, boxes⟩
  have one := h.one
  rw [Page.off, List.length_eraseIdx, if_pos under_way]
  omega

theorem Calm.step {e : Event} (h : Calm p) (fine : Fine b p e) (moved : step b p e = some p') :
    Calm p' := by
  cases step_cases moved with
  | nothing shown same =>
    have launch : p.launch = false := by simpa [shown] using h.apart
    refine Calm.same (p := p.hidden) ⟨h.one, fun box => ?_, by simp [hidden]⟩ same
    simp [hidden, launch] at box
  | sets shown typed same =>
    have launch : p.launch = false := by simpa [shown] using h.apart
    have fine := fine.resolve_left typed
    exact .send same (h.idle (.inl shown)) (decide_eq_false fine) launch
  | polls shown same =>
    have launch : p.launch = false := by simpa [shown] using h.apart
    exact .send same (h.idle (.inl shown)) rfl launch
  | opens _ same => exact h.same same
  | restarts shown same =>
    exact Calm.same (p := { p with launch := false, intro := true })
      ⟨h.one, fun _ => h.idle (.inr shown), by simp⟩ same
  | goesOn under_way more same =>
    obtain ⟨off, intro, launch⟩ := h.off under_way
    exact .send same off intro launch
  | ends under_way more said =>
    obtain ⟨off, intro, launch⟩ := h.off under_way
    refine ⟨?_, fun _ => said.xhrs.trans off, ?_⟩
    · rw [said.xhrs, off]
      exact Nat.zero_le _
    · -- an error is not the end
      rw [said.intro, said.launch]
      simp only [Page.off, intro, launch, Bool.false_or, shows, Bool.and_eq_true,
        decide_eq_true_eq]
      rintro ⟨⟨_, error⟩, _, isDone⟩
      exact absurd (error.symm.trans isDone) (by decide)

theorem not_single_of_refused {e : Event} (refused : ¬Fine b p e) (moved : step b p e = some p') :
    ¬Single p' := by
  rintro ⟨_, idle⟩
  cases step_cases moved with
  | nothing => exact refused (.inl rfl)
  | @sets net _ _ typed same =>
    have refusal : Refused b p net := by
      by_contra fine
      exact refused (.inr fine)
    have nothing := idle (.inl (same.intro.trans (decide_eq_true refusal)))
    rw [same.xhrs] at nothing
    exact absurd (List.append_eq_nil_iff.mp nothing).2 (List.cons_ne_nil _ _)
  | polls => exact refused trivial
  | opens => exact refused trivial
  | restarts => exact refused trivial
  | goesOn => exact refused trivial
  | ends => exact refused trivial

theorem init_boxes (b : Browser) : SameBoxes {} (init b) := say_ok b {} _

theorem init_calm (b : Browser) : Calm (init b) :=
  Calm.same ⟨Nat.zero_le _, fun _ => rfl, by decide⟩ (init_boxes b)

theorem one_poll (b : Browser) {es : List Event} {p : Page}
    (run : (machine b).exec (init b) es = some p) :
    (machine b).Always Single (init b) es ↔ (machine b).Meets (Fine b) (init b) es :=
  (machine b).always_iff_meets (fun _ calm => ⟨calm.one, calm.idle⟩)
    (fun _ _ _ calm fine moved => calm.step fine moved)
    (fun _ _ _ _ refused moved => not_single_of_refused refused moved) (init_calm b) run

def setsArray : List Event := [.dancenet "[]".toList]

theorem one_poll_array :
    ∃ p, (machine {}).exec (init {}) setsArray = some p ∧ (p.intro ∧ p.xhrs = [0]) ∧
      ¬(machine {}).Always Single (init {}) setsArray := by
  have run : ((machine {}).exec (init {}) setsArray).map
      (fun p => decide (p.intro ∧ p.xhrs = [0])) = some true := by
    decide +kernel
  obtain ⟨p, run, shown⟩ := Option.map_eq_some_iff.mp run
  refine ⟨p, run, of_decide_eq_true shown, fun always => ?_⟩
  exact absurd ((one_poll {} run).mp always) (by decide +kernel)

/-! A page that is stuck. -/

/-- Something can still happen on the page. -/
def Alive (p : Page) : Prop := p.xhrs ≠ [] ∨ p.intro ∨ p.launch

/-- An empty NET is not sent for, and the last answer shows a box or is asked on for. -/
def Sensible (b : Browser) (p : Page) : Event → Prop
  | .dancenet net => net = [] → p.xhrs ≠ [] ∨ p.launch
  | .complete _ reply => (verdict reply).more ∨ 1 < p.xhrs.length ∨ p.intro ∨ p.launch ∨
      shows b p (verdict reply).st (verdict reply).msg "error".toList ∨
      shows b p (verdict reply).st (verdict reply).msg "done".toList
  | _ => True

instance (b : Browser) (p : Page) : ∀ e, Decidable (Sensible b p e)
  | .dancenet _ => inferInstanceAs (Decidable (_ → _))
  | .complete _ _ => inferInstanceAs (Decidable (_ ∨ _))
  | .dancerdv | .launchtools | .restart => isTrue trivial

theorem alive_iff {q : Page} (h : SameBoxes q p') : Alive p' ↔ Alive q := by
  rw [Alive, h.xhrs, h.intro, h.launch, Alive]

theorem alive_send (q : Page) (call : Call) : Alive (q.send call) :=
  .inl (List.append_ne_nil_of_right_ne_nil _ (List.cons_ne_nil _ _))

theorem alive_step {e : Event} (moved : step b p e = some p') :
    Alive p' ↔ Sensible b p e := by
  cases step_cases moved with
  | nothing shown same =>
    rw [alive_iff same]
    simp [Alive, hidden, Sensible]
  | sets shown typed same =>
    rw [alive_iff same]
    exact iff_of_true (alive_send _ _) fun none => absurd none typed
  | polls shown same =>
    rw [alive_iff same]
    exact iff_of_true (alive_send _ _) trivial
  | opens shown same =>
    rw [alive_iff same]
    exact iff_of_true (.inr (.inr shown)) trivial
  | restarts shown same =>
    rw [alive_iff same]
    exact iff_of_true (.inr (.inl rfl)) trivial
  | goesOn _ more same =>
    rw [alive_iff same]
    exact iff_of_true (alive_send _ _) (.inl more)
  | @ends i reply _ under_way more said =>
    have others : (p.off i).xhrs ≠ [] ↔ 1 < p.xhrs.length := by
      rw [ne_eq, ← List.length_eq_zero_iff, Page.off, List.length_eraseIdx, if_pos under_way]
      omega
    simp only [Alive, said.xhrs, others, said.intro, said.launch, Bool.or_eq_true, Sensible, more,
      Bool.false_eq_true, false_or]
    change 1 < p.xhrs.length ∨ (p.intro ∨ shows b p _ _ _) ∨ (p.launch ∨ shows b p _ _ _) ↔ _
    tauto

theorem stuck_step {e : Event} (stuck : ¬Alive p) : step b p e = none := by
  simp only [Alive, not_or, not_not, Bool.not_eq_true] at stuck
  obtain ⟨xhrs, intro, launch⟩ := stuck
  cases e <;> simp [step, xhrs, intro, launch]

theorem stuck_without_net (b : Browser) {es : List Event} {p : Page}
    (run : (machine b).exec (init b) es = some p) :
    ((machine b).Always Alive (init b) es ↔ (machine b).Meets (Sensible b) (init b) es) ∧
      (¬Alive p → ∀ es' p', (machine b).exec p es' = some p' → es' = []) := by
  constructor
  · exact (machine b).always_iff_meets (fun _ alive => alive)
      (fun _ _ _ _ sensible moved => (alive_step moved).mpr sensible)
      (fun _ _ _ _ other moved alive => other ((alive_step moved).mp alive))
      ((alive_iff (init_boxes b)).mpr (.inr (.inl rfl))) run
  · intro stuck es' p' later
    cases es' with
    | nil => rfl
    | cons e es' =>
      obtain ⟨next, first, _⟩ := (machine b).exec_cons_eq_some.mp later
      exact absurd ((stuck_step stuck).symm.trans first) nofun

theorem stuck_without_net_empty :
    ∃ p, (machine {}).exec (init {}) [.dancenet []] = some p ∧
      ∀ es' p', (machine {}).exec p es' = some p' → es' = [] := by
  obtain ⟨p, run⟩ := Option.isSome_iff_exists.mp
    (show ((machine {}).exec (init {}) [.dancenet []]).isSome by decide +kernel)
  obtain ⟨alive, stuck⟩ := stuck_without_net {} run
  have senseless : ¬(machine {}).Meets (Sensible {}) (init {}) [.dancenet []] := by decide +kernel
  refine ⟨p, run, stuck fun going => senseless (alive.mp ⟨?_, fun next first => ?_⟩)⟩
  · exact (alive_iff (init_boxes {})).mpr (.inr (.inl rfl))
  · obtain rfl : next = p := by simpa [Machine.exec] using first.symm.trans run
    exact going

end Page

end Jumpbox.Plugin.AcsPage
