import Jumpbox.Plugin.Display

/-! How many requests the press of a button sends. A wrong answer to a captcha, and a proof of
work that fails, leave two listeners on a button for good. -/

namespace Jumpbox.Plugin.RendezvousPage

open JsonText (Value)

namespace Page

variable {p p' : Page} {opens : CStr → Bool} {t : CStr} {robj : Value}

/-- A press sends one request at most. -/
def Single (p : Page) : Prop := ∀ button answer,
  ((p.listeners button).foldl (fire answer) p).calls.length ≤ p.calls.length + 1

structure Listens (p : Page) : Prop where
  base : p.listeners .base ∈ [[], [Listener.dance]]
  signed : p.listeners .signed = [.peelAway]
  captcha : p.listeners .captcha ∈ [[], [Listener.peelAway], [.peelCaptcha]]
  pow : p.listeners .pow ∈
    if p.powCommenced then [[Listener.peelAway]] else [[], [.powCommence]]

structure SameListeners (p p' : Page) : Prop where
  listeners : p'.listeners = p.listeners := by rfl
  commenced : p'.powCommenced = p.powCommenced := by rfl

theorem SameListeners.trans {q : Page} (h : SameListeners p q) (h' : SameListeners q p') :
    SameListeners p p' := ⟨h'.listeners.trans h.listeners, h'.commenced.trans h.commenced⟩

theorem Listens.same (h : Listens p) (same : SameListeners p p') : Listens p' where
  base := by rw [same.listeners]; exact h.base
  signed := by rw [same.listeners]; exact h.signed
  captcha := by rw [same.listeners]; exact h.captcha
  pow := by rw [same.listeners, same.commenced]; exact h.pow

theorem foldl_send_length (calls : List Call) (p : Page) :
    (calls.foldl send p).calls.length = p.calls.length + calls.length := by
  induction calls generalizing p with
  | nil => rfl
  | cons call calls ih =>
    have first : (p.send call).calls.length = p.calls.length + 1 := List.length_append
    rw [List.foldl_cons, ih, first, List.length_cons]
    omega

theorem single_iff : Single p ↔ ∀ button answer,
    ((p.listeners button).flatMap (Listener.sends answer)).length ≤ 1 := by
  have sent (button : Peeler) (answer : CStr) :
      ((p.listeners button).foldl (fire answer) p).calls.length =
        p.calls.length + ((p.listeners button).flatMap (Listener.sends answer)).length := by
    rw [(foldl_fire_traffic answer (p.listeners button) p).calls, foldl_send_length]
  unfold Single
  simp only [sent, Nat.add_le_add_iff_left]

theorem Single.same (same : SameListeners p p') : Single p' ↔ Single p := by
  rw [single_iff, single_iff, same.listeners]

theorem length_sends_le (answer : CStr) (l : Listener) : (l.sends answer).length ≤ 1 := by
  cases l with
  | peelCaptcha =>
    unfold Listener.sends
    dsimp only
    split <;> simp
  | _ => simp [Listener.sends]

theorem Listens.single (h : Listens p) : Single p := by
  have one (button : Peeler) : (p.listeners button).length ≤ 1 := by
    cases button with
    | base => have := h.base; grind
    | signed => rw [h.signed]; rfl
    | captcha => have := h.captcha; grind
    | pow => have := h.pow; grind
  rw [single_iff]
  intro button answer
  match p.listeners button, one button with
  | [], _ => exact Nat.zero_le _
  | [l], _ =>
    rw [List.flatMap_singleton]
    exact length_sends_le answer l

/-! A reply that displays an onion. -/

/-- The display of the onion does not throw before its listeners are there. -/
def Shows (p : Page) (t : CStr) : Prop :=
  t = p.onion ∨ (querySelector t).isSome ∧
    (p.onion = [] ∨ ∃ old ∈ p.controls, querySelector p.onion = some old)

instance (p : Page) (t : CStr) : Decidable (p.Shows t) := inferInstanceAs (Decidable (_ ∨ _))

/-- A proof of work that has shown its progress shows it again, and a captcha that has shown
its picture comes with a picture. -/
def Fits (p : Page) (t : CStr) (robj : Value) : Prop :=
  (t = Peeler.pow.name → p.powCommenced → hasNumber robj) ∧
    (t = Peeler.captcha.name → .peelCaptcha ∈ p.listeners .captcha → hasText robj)

instance (p : Page) (t : CStr) (robj : Value) : Decidable (p.Fits t robj) :=
  inferInstanceAs (Decidable (_ ∧ _))

theorem updateCurrent_commenced (p : Page) (t : CStr) (robj : Value) :
    (p.updateCurrent t robj).powCommenced =
      (p.powCommenced || (t = Peeler.pow.name && hasNumber robj)) := by
  have added (q : Page) (button : Peeler) (l : Listener) :
      (q.addEventListener button l).powCommenced = q.powCommenced := by
    unfold addEventListener
    split <;> rfl
  unfold updateCurrent
  by_cases isPow : t = Peeler.pow.name
  · have not_base : t ≠ Peeler.base.name := by
      rintro rfl
      exact absurd isPow (by decide)
    rw [if_pos isPow, if_neg not_base]
    have commences : p.powCommences.powCommenced = true := by
      unfold powCommences
      split
      · assumption
      · exact added _ _ _
    unfold updatePowDisplay
    split
    next info number =>
      simp only [isPow, hasNumber_of_number number, decide_true, Bool.and_self, Bool.or_true]
      split <;> exact commences
    next other =>
      rw [added, hasNumber_of_other other, Bool.and_false, Bool.or_false]
  · rw [if_neg isPow]
    simp only [isPow, decide_false, Bool.false_and, Bool.or_false]
    split
    · exact added _ _ _
    · split
      · unfold updateCaptchaDisplay
        split <;> exact added _ _ _
      · rfl

theorem Listens.updateCurrent (h : Listens p) (fits : p.Fits t robj) :
    Listens (p.updateCurrent t robj) where
  base := by
    rw [updateCurrent_listeners, heard]
    split
    · have base := h.base
      simp only [List.mem_cons, List.not_mem_nil, or_false] at base
      rcases base with none | one
      · rw [none]
        decide
      · rw [one]
        decide
    · exact h.base
  signed := by
    rw [updateCurrent_listeners, heard]
    split
    · exact h.signed
    · exact h.signed
  captcha := by
    rw [updateCurrent_listeners, heard]
    split
    next isCaptcha =>
      have captcha := h.captcha
      have text := fits.2 isCaptcha
      simp only [List.mem_cons, List.not_mem_nil, or_false] at captcha
      rcases captcha with none | asks | shown
      · rw [none]
        split <;> decide
      · rw [asks]
        split <;> decide
      · rw [shown, List.mem_singleton] at text
        rw [shown, if_pos (text rfl)]
        decide
    next => exact h.captcha
  pow := by
    rw [updateCurrent_listeners, updateCurrent_commenced, heard]
    have pow := h.pow
    by_cases isPow : t = Peeler.pow.name
    · have number := fits.1 isPow
      rw [if_pos isPow]
      cases commenced : p.powCommenced with
      | true =>
        rw [commenced] at pow
        simpa only [number commenced, if_true, Bool.true_or] using pow
      | false =>
        rw [commenced] at pow
        simp only [Bool.false_eq_true, if_false, List.mem_cons, List.not_mem_nil, or_false] at pow
        simp only [isPow, decide_true, Bool.true_and, Bool.false_or]
        rcases pow with none | asks
        · rw [none]
          cases hasNumber robj <;> decide
        · rw [asks]
          cases hasNumber robj <;> decide
    · simpa only [isPow, if_false, decide_false, Bool.false_and, Bool.or_false] using pow

theorem Listens.not_single (h : Listens p) (unfit : ¬p.Fits t robj) :
    ¬Single (p.updateCurrent t robj) := by
  rw [single_iff]
  intro single
  by_cases pow : t = Peeler.pow.name → p.powCommenced → hasNumber robj
  · have captcha : ¬(t = Peeler.captcha.name → .peelCaptcha ∈ p.listeners .captcha →
        hasText robj) := fun captcha => unfit ⟨pow, captcha⟩
    simp only [Classical.not_imp] at captcha
    obtain ⟨isCaptcha, shown, text⟩ := captcha
    have listeners : p.listeners .captcha = [.peelCaptcha] := by
      have := h.captcha
      grind
    have more := single .captcha "x".toList
    rw [updateCurrent_listeners, heard, if_pos isCaptcha, listeners] at more
    have text : hasText robj = false := by simpa using text
    simp only [text, Bool.false_eq_true, if_false] at more
    exact absurd more (by decide)
  · simp only [Classical.not_imp] at pow
    obtain ⟨isPow, commenced, number⟩ := pow
    have listeners : p.listeners .pow = [.peelAway] := by
      have pow := h.pow
      rw [commenced] at pow
      exact List.mem_singleton.mp pow
    have more := single .pow []
    rw [updateCurrent_listeners, heard, if_pos isPow, listeners] at more
    have number : hasNumber robj = false := by simpa using number
    simp only [number, Bool.false_eq_true, if_false] at more
    exact absurd more (by decide)

theorem Listens.displays {r : Except Page Page} (h : Listens p) (displays : Displays p robj t r) :
    ((p.Shows t → p.Fits t robj) → Listens (settle r)) ∧
      (p.Shows t → ¬p.Fits t robj → ¬Single (settle r)) := by
  -- the parts of the page are moved first, and the listeners are not
  have shown (q : Page) (same : SameListeners p q) (shows : p.Shows t) :
      ((p.Shows t → p.Fits t robj) → Listens { q.updateCurrent t robj with onion := t }) ∧
        (p.Shows t → ¬p.Fits t robj → ¬Single { q.updateCurrent t robj with onion := t }) := by
    have fits_iff : q.Fits t robj ↔ p.Fits t robj := by
      unfold Fits
      rw [same.listeners, same.commenced]
    constructor
    · intro fits
      have listens := (h.same same).updateCurrent (fits_iff.mpr (fits shows))
      exact listens.same {}
    · intro _ unfit single
      exact (h.same same).not_single (mt fits_iff.mp unfit) ((Single.same {}).mp single)
  cases displays with
  | same same => exact shown p {} (.inl same)
  | first other nothing found =>
    exact shown (brought p _ _ _) {} (.inr ⟨found ▸ rfl, .inl nothing⟩)
  | next other some_onion current among found =>
    exact shown (brought p _ _ _) {} (.inr ⟨found ▸ rfl, .inr ⟨_, among, current⟩⟩)
  | lost other some_onion current among missing =>
    refine ⟨fun _ => h.same {}, fun shows => ?_⟩
    rcases shows with same | ⟨found, _⟩
    · exact absurd same other
    · rw [missing] at found
      cases found
  | none other nothing missing =>
    refine ⟨fun _ => h, fun shows => ?_⟩
    rcases shows with same | ⟨found, _⟩
    · exact absurd same other
    · rw [missing] at found
      cases found
  | stuck other some_onion away =>
    refine ⟨fun _ => h, fun shows => ?_⟩
    rcases shows with same | ⟨_, nothing | ⟨old, among, current⟩⟩
    · exact absurd same other
    · exact absurd nothing some_onion
    · exact absurd among (away old current)

theorem showImage_same (p : Page) (robj : Value) : SameListeners p (p.showImage robj) := by
  unfold showImage
  split <;> exact {}

theorem bind_removeModFreedomControls_same (r : Except Page Page) :
    SameListeners (settle r) (settle (r >>= removeModFreedomControls)) := by
  cases r with
  | error p => exact {}
  | ok p =>
    change SameListeners p (settle p.removeModFreedomControls)
    unfold removeModFreedomControls
    split <;> exact {}

def Suits (p : Page) (call : Call) (reply : Reply) : Prop :=
  ∀ t ∈ displayed call reply, ∀ robj ∈ JsonText.parse reply.responseText,
    p.Shows t → p.Fits t robj

instance (p : Page) (call : Call) (reply : Reply) : Decidable (p.Suits call reply) :=
  inferInstanceAs (Decidable (∀ t ∈ displayed call reply, _))

theorem Listens.completes {reply : Reply} {call : Call} {r : Except Page Page} (h : Listens p)
    (completes : Completes p opens reply call r) :
    (p.Suits call reply → Listens (settle r)) ∧ (¬p.Suits call reply → ¬Single (settle r)) := by
  have silent (none : displayed call reply = none) (same : SameListeners p (settle r)) :
      (p.Suits call reply → Listens (settle r)) ∧
        (¬p.Suits call reply → ¬Single (settle r)) := by
    refine ⟨fun _ => h.same same, fun unfit => absurd (fun t shows => ?_) unfit⟩
    exact absurd (none.symm.trans shows) nofun
  -- what is displayed, on a page that has the listeners and the places of `p`
  have shows {t : CStr} {robj : Value} {q : Page} (shown : displayed call reply = some t)
      (parsed : JsonText.parse reply.responseText = some robj) (same : SameListeners p q)
      (places : SamePlaces p q)
      (rest : SameListeners (settle (q.updateDisplay t robj)) (settle r)) :
      (p.Suits call reply → Listens (settle r)) ∧
        (¬p.Suits call reply → ¬Single (settle r)) := by
    obtain ⟨kept, broken⟩ := (h.same same).displays (updateDisplay_displays q robj t)
    have shows_iff : q.Shows t ↔ p.Shows t := by
      unfold Shows
      rw [places.onion, places.controls]
    have fits_iff : q.Fits t robj ↔ p.Fits t robj := by
      unfold Fits
      rw [same.listeners, same.commenced]
    have suits_iff : p.Suits call reply ↔ (p.Shows t → p.Fits t robj) := by
      simp [Suits, shown, parsed]
    rw [suits_iff, ← shows_iff, ← fits_iff]
    refine ⟨fun fits => (kept fits).same rest, fun unfit single => ?_⟩
    simp only [Classical.not_imp] at unfit
    exact broken unfit.1 unfit.2 ((Single.same rest).mp single)
  cases completes with
  | told status none => exact silent none {}
  | refused => exact silent rfl {}
  | fetches => exact silent rfl {}
  | posts => exact silent rfl {}
  | @prepares _ _ robj status _ _ none =>
    have image := showImage_same { p with status } robj
    have removed := bind_removeModFreedomControls_same (.ok (showImage { p with status } robj))
    exact silent none (SameListeners.trans ⟨image.listeners, image.commenced⟩ removed)
  | @accepts _ _ robj t status parsed shown =>
    have image := showImage_same { p with status } robj
    have places := showImage_places { p with status } robj
    exact shows shown parsed ⟨image.listeners, image.commenced⟩
      ⟨places.onion, places.controls, places.grabBag⟩ (bind_removeModFreedomControls_same _)
  | @peels _ robj t status parsed shown =>
    exact shows (q := { p with status }) shown parsed {} {} {}

/-- A reply that comes fits. -/
def Orderly (p : Page) : Event → Prop
  | .complete i reply => ∀ call ∈ p.xhrs[i]?.bind fun n => p.calls[n]?, p.Suits call reply
  | _ => True

instance (p : Page) : ∀ e, Decidable (p.Orderly e)
  | .complete _ _ => inferInstanceAs (Decidable (∀ call ∈ _, _))
  | .click _ _ | .go _ _ | .timeout => isTrue trivial

theorem Listens.step {e : Event} (h : Listens p) (moved : step opens p e = some p') :
    (p.Orderly e → Listens p') ∧ (¬p.Orderly e → ¬Single p') := by
  cases step_cases moved with
  | @click button answer =>
    have commenced (ls : List Listener) (q : Page) :
        (ls.foldl (fire answer) q).powCommenced = q.powCommenced := by
      induction ls generalizing q with
      | nil => rfl
      | cons l ls ih =>
        refine (ih _).trans ?_
        cases l with
        | peelCaptcha =>
          unfold fire
          dsimp only
          split <;> rfl
        | _ => rfl
    exact ⟨fun _ => h.same ⟨foldl_fire_listeners _ _ p, commenced _ p⟩,
      fun unfit => absurd trivial unfit⟩
  | go =>
    refine ⟨fun _ => h.same ?_, fun unfit => absurd trivial unfit⟩
    unfold sendUrl
    split <;> exact {}
  | timeout => exact ⟨fun _ => h.same {}, fun unfit => absurd trivial unfit⟩
  | @complete i n call reply under_way made =>
    have suits : p.Orderly (.complete i reply) ↔ (p.off i).Suits call reply := by
      simp only [Orderly, under_way, made, Option.bind_some, Option.mem_def, Option.some.injEq,
        forall_eq']
      rfl
    rw [suits]
    exact Listens.completes (p := p.off i) (h.same {})
      (onreadystatechange_completes _ opens reply call)

theorem init_listens : Listens init := ⟨by decide, by decide, by decide, by decide⟩

theorem presses_once (opens : CStr → Bool) {es : List Event} {p : Page}
    (run : (machine opens).exec init es = some p) :
    (machine opens).Always Single init es ↔ (machine opens).Meets Orderly init es :=
  (machine opens).always_iff_meets (fun _ listens => listens.single)
    (fun _ _ _ listens fits moved => (listens.step moved).1 fits)
    (fun _ _ _ listens unfit moved => (listens.step moved).2 unfit) init_listens run

def answersWrong : List Event :=
  gets "captcha".toList ++
    [.click .captcha [], .complete 0 (Reply.named "captcha".toList "/captcha.png".toList),
      .click .captcha "x".toList, .complete 0 (Reply.named "captcha".toList)]

theorem presses_once_captcha :
    ∃ p, (machine fun _ => true).exec init answersWrong = some p ∧
      p.listeners .captcha = [.peelCaptcha, .peelAway] ∧
      ¬(machine fun _ => true).Always Single init answersWrong := by
  have run : ((machine fun _ => true).exec init answersWrong).map
      (fun p => p.listeners .captcha) = some [.peelCaptcha, .peelAway] := by
    decide +kernel
  obtain ⟨p, run, listeners⟩ := Option.map_eq_some_iff.mp run
  refine ⟨p, run, listeners, fun always => ?_⟩
  exact absurd ((presses_once (fun _ => true) run).mp always) (by decide +kernel)

end Page

end Jumpbox.Plugin.RendezvousPage
