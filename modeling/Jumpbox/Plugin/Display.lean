import Jumpbox.Plugin.Traffic

/-! What the rendezvous page makes of the replies it waits for: whom a button calls, what a
reply with a known onion leaves behind, and what has been before there is one. -/

namespace Jumpbox.Plugin.RendezvousPage

open JsonText (Value)

namespace Page

variable {p p' : Page} {opens : CStr → Bool}

/-! Whom a button calls. -/

/-- A listener is called once, however often it is added. -/
def add (l : Listener) (ls : List Listener) : List Listener := if l ∈ ls then ls else ls ++ [l]

def swap (old new : Listener) (ls : List Listener) : List Listener :=
  add new (ls.filter (· ≠ old))

def hasNumber (robj : Value) : Bool := robj.get "info".toList matches some (.number _)

def hasText (robj : Value) : Bool := robj.get "info".toList matches some (.string (_ :: _))

theorem hasNumber_of_number {robj : Value} {q : ℚ}
    (number : robj.get "info".toList = some (.number q)) : hasNumber robj = true := by
  rw [hasNumber, number]

theorem hasNumber_of_other {robj : Value}
    (other : ∀ q, robj.get "info".toList = some (.number q) → False) :
    hasNumber robj = false := by
  unfold hasNumber
  split
  next q number => exact (other q number).elim
  next => rfl

theorem hasText_of_text {robj : Value} {c : Char} {info : CStr}
    (text : robj.get "info".toList = some (.string (c :: info))) : hasText robj = true := by
  rw [hasText, text]

theorem hasText_of_other {robj : Value}
    (other : ∀ c info, robj.get "info".toList = some (.string (c :: info)) → False) :
    hasText robj = false := by
  unfold hasText
  split
  next c info text => exact (other c info text).elim
  next => rfl

def heard (t : CStr) (robj : Value) (commenced : Bool) (button : Peeler) (ls : List Listener) :
    List Listener :=
  if t = button.name then
    match button with
    | .base => swap .peelAway .dance ls
    | .pow =>
      if hasNumber robj then if commenced then ls else swap .powCommence .peelAway ls
      else add .powCommence ls
    | .captcha => if hasText robj then swap .peelAway .peelCaptcha ls else add .peelAway ls
    | .signed => ls
  else ls

theorem addEventListener_listeners (p : Page) (button b : Peeler) (l : Listener) :
    (p.addEventListener button l).listeners b =
      if b = button then add l (p.listeners b) else p.listeners b := by
  unfold addEventListener add
  by_cases same : b = button
  · subst same
    rw [if_pos rfl]
    split
    · rfl
    · simp
  · rw [if_neg same]
    split
    · rfl
    · exact Function.update_of_ne same _ _

theorem removeEventListener_listeners (p : Page) (button b : Peeler) (l : Listener) :
    (p.removeEventListener button l).listeners b =
      if b = button then (p.listeners b).filter (· ≠ l) else p.listeners b := by
  unfold removeEventListener
  by_cases same : b = button
  · subst same
    simp
  · rw [if_neg same]
    exact Function.update_of_ne same _ _

theorem swap_listeners (p : Page) (button b : Peeler) (old new : Listener) :
    ((p.removeEventListener button old).addEventListener button new).listeners b =
      if b = button then swap old new (p.listeners b) else p.listeners b := by
  rw [addEventListener_listeners, removeEventListener_listeners]
  split <;> rfl

theorem name_inj {b b' : Peeler} : b.name = b'.name ↔ b = b' := by
  cases b <;> cases b' <;> decide

theorem updatePowDisplay_listeners (p : Page) (robj : Value) (b : Peeler) :
    (p.updatePowDisplay robj).listeners b =
      heard Peeler.pow.name robj p.powCommenced b (p.listeners b) := by
  have commences : p.powCommences.listeners b = if b = .pow then
      if p.powCommenced then p.listeners b else swap .powCommence .peelAway (p.listeners b)
      else p.listeners b := by
    unfold powCommences
    split
    · split <;> rfl
    · exact swap_listeners { p with powCommenced := true } .pow b .powCommence .peelAway
  unfold updatePowDisplay heard
  simp only [name_inj, eq_comm (a := Peeler.pow)]
  split
  next info number =>
    simp only [hasNumber_of_number number, if_true]
    by_cases isPow : b = .pow
    · subst isPow
      simp only [if_true] at commences ⊢
      split <;> exact commences
    · simp only [if_neg isPow] at commences ⊢
      split <;> exact commences
  next other =>
    rw [addEventListener_listeners, hasNumber_of_other other]
    by_cases isPow : b = .pow
    · subst isPow
      simp only [if_true]
      rfl
    · simp only [if_neg isPow]

theorem updateCaptchaDisplay_listeners (p : Page) (robj : Value) (b : Peeler) :
    (p.updateCaptchaDisplay robj).listeners b =
      heard Peeler.captcha.name robj p.powCommenced b (p.listeners b) := by
  unfold updateCaptchaDisplay heard
  simp only [name_inj, eq_comm (a := Peeler.captcha)]
  split
  next c info text =>
    simp only [hasText_of_text text, if_true]
    refine (swap_listeners _ .captcha b .peelAway .peelCaptcha).trans ?_
    by_cases isCaptcha : b = .captcha
    · subst isCaptcha
      rfl
    · simp only [if_neg isCaptcha]
  next other =>
    rw [addEventListener_listeners, hasText_of_other other]
    by_cases isCaptcha : b = .captcha
    · subst isCaptcha
      simp only [if_true]
      rfl
    · simp only [if_neg isCaptcha]

theorem updateCurrent_listeners (p : Page) (t : CStr) (robj : Value) (b : Peeler) :
    (p.updateCurrent t robj).listeners b = heard t robj p.powCommenced b (p.listeners b) := by
  unfold updateCurrent
  split
  next isBase =>
    subst isBase
    refine (swap_listeners _ .base b .peelAway .dance).trans ?_
    unfold heard
    simp only [name_inj, eq_comm (a := Peeler.base)]
    by_cases isBase : b = .base
    · subst isBase
      rfl
    · simp only [if_neg isBase]
  next not_base =>
    split
    next isPow =>
      subst isPow
      exact updatePowDisplay_listeners p robj b
    next not_pow =>
      split
      next isCaptcha =>
        subst isCaptcha
        exact updateCaptchaDisplay_listeners p robj b
      next not_captcha =>
        unfold heard
        split
        next isName =>
          subst isName
          cases b with
          | signed => rfl
          | base => exact absurd rfl not_base
          | pow => exact absurd rfl not_pow
          | captcha => exact absurd rfl not_captcha
        next => rfl

def Dances (p : Page) : Prop := ∀ l ∈ p.listeners .base, l = .dance

theorem Dances.same (h : Dances p) (same : p'.listeners .base = p.listeners .base) :
    Dances p' := by
  unfold Dances
  rw [same]
  exact h

theorem mem_swap {old new l : Listener} {ls : List Listener} (listens : l ∈ swap old new ls) :
    l ∈ ls ∨ l = new := by
  unfold swap add at listens
  split at listens
  · exact .inl (List.mem_of_mem_filter listens)
  · rcases List.mem_append.mp listens with kept | added
    · exact .inl (List.mem_of_mem_filter kept)
    · exact .inr (List.mem_singleton.mp added)

theorem Dances.updateCurrent (h : Dances p) (t : CStr) (robj : Value) :
    Dances (p.updateCurrent t robj) := by
  intro l listens
  rw [updateCurrent_listeners, heard] at listens
  split at listens
  · rcases mem_swap listens with old | new
    · exact h l old
    · exact new
  · exact h l listens

theorem Dances.displays {robj : Value} {t : CStr} {r : Except Page Page} (h : Dances p)
    (displays : Displays p robj t r) : Dances (settle r) := by
  cases displays with
  | same => exact h.updateCurrent t robj
  | first => exact Dances.updateCurrent (p := brought p _ _ _) h t robj
  | next => exact Dances.updateCurrent (p := brought p _ _ _) h t robj
  | lost => exact h
  | none => exact h
  | stuck => exact h

theorem bind_removeModFreedomControls_listeners (r : Except Page Page) :
    (settle (r >>= removeModFreedomControls)).listeners = (settle r).listeners := by
  cases r with
  | error p => rfl
  | ok p =>
    change (settle p.removeModFreedomControls).listeners = p.listeners
    unfold removeModFreedomControls
    split <;> rfl

theorem showImage_listeners (p : Page) (robj : Value) :
    (p.showImage robj).listeners = p.listeners := by
  unfold showImage
  split <;> rfl

theorem Dances.completes {reply : Reply} {call : Call} {r : Except Page Page} (h : Dances p)
    (completes : Completes p opens reply call r) : Dances (settle r) := by
  have shows (status : Status) (robj : Value) : Dances (showImage { p with status } robj) := by
    unfold Dances
    rw [showImage_listeners]
    exact h
  cases completes with
  | told => exact h
  | refused => exact h
  | fetches => exact h
  | posts => exact h
  | @prepares _ _ robj status =>
    have removed := bind_removeModFreedomControls_listeners
      (.ok (showImage { p with status } robj))
    exact (shows status robj).same (congrFun removed _)
  | @accepts _ _ robj t status =>
    have removed := bind_removeModFreedomControls_listeners
      ((showImage { p with status } robj).updateDisplay t robj)
    exact ((shows status robj).displays (updateDisplay_displays _ _ _)).same (congrFun removed _)
  | @peels _ _ _ status =>
    exact Dances.displays (p := { p with status }) h (updateDisplay_displays _ _ _)

structure Shown (p : Page) (t : CStr) (robj : Value) (p' : Page) : Prop where
  onion : p'.onion = t
  traffic : SameTraffic (p.go (onward t robj)) p'

theorem Displays.shown {robj : Value} {t : CStr} {r : Except Page Page} (placed : Placed p)
    (found : (querySelector t).isSome) (h : Displays p robj t r) : Shown p t robj (settle r) := by
  have absent : querySelector t ≠ Option.none := Option.isSome_iff_ne_none.mp found
  have goes (q : Page) (same : SameTraffic p q) :
      SameTraffic (p.go (onward t robj)) (q.updateCurrent t robj) :=
    (same.go _).trans (updateCurrent_traffic q t robj)
  cases h with
  | same =>
    have traffic := goes p {}
    exact ⟨rfl, ⟨traffic.calls, traffic.xhrs, traffic.timers, traffic.disabled⟩⟩
  | @first ui =>
    have traffic := goes (brought p p.controls p.grabBag ui) {}
    exact ⟨rfl, ⟨traffic.calls, traffic.xhrs, traffic.timers, traffic.disabled⟩⟩
  | @next old ui =>
    have traffic := goes (brought p (p.controls.erase old) (p.grabBag ++ [old]) ui) {}
    exact ⟨rfl, ⟨traffic.calls, traffic.xhrs, traffic.timers, traffic.disabled⟩⟩
  | lost _ _ _ _ missing => exact absurd missing absent
  | none _ _ missing => exact absurd missing absent
  | stuck _ some_onion away =>
    obtain ⟨old, current⟩ := Option.isSome_iff_exists.mp (placed.named some_onion)
    have among : old ∈ p.controls := by
      rw [placed.controls_singleton current]
      exact List.mem_singleton_self old
    exact absurd among (away old current)

theorem Completes.shown {reply : Reply} {call : Call} {t : CStr} {r : Except Page Page}
    (placed : Placed p) (h : Completes p opens reply call r) (shows : displayed call reply = some t)
    (found : (querySelector t).isSome) :
    ∃ robj, JsonText.parse reply.responseText = some robj ∧ Shown p t robj (settle r) := by
  cases h with
  | told _ silent => exact absurd (silent.symm.trans shows) nofun
  | refused => cases shows
  | fetches => cases shows
  | posts => cases shows
  | prepares _ _ _ silent => exact absurd (silent.symm.trans shows) nofun
  | @accepts _ _ robj other status parsed shows' =>
    obtain rfl := Option.some.inj (shows'.symm.trans shows)
    have places := showImage_places { p with status } robj
    have image := showImage_traffic { p with status } robj
    have placed' : Placed (showImage { p with status } robj) :=
      placed.same ⟨places.onion, places.controls, places.grabBag⟩
    have shown := (updateDisplay_displays _ robj other).shown placed' found
    have places := settle_bind_removeModFreedomControls
      ((showImage { p with status } robj).updateDisplay other robj)
    have traffic := bind_removeModFreedomControls_traffic
      ((showImage { p with status } robj).updateDisplay other robj)
    have before : SameTraffic p (showImage { p with status } robj) :=
      ⟨image.calls, image.xhrs, image.timers, image.disabled⟩
    exact ⟨robj, parsed, places.onion.trans shown.onion,
      (before.go _).trans (shown.traffic.trans traffic)⟩
  | @peels _ robj other status parsed shows' =>
    obtain rfl := Option.some.inj (shows'.symm.trans shows)
    have shown := (updateDisplay_displays { p with status } robj other).shown
      (placed.same {}) found
    exact ⟨robj, parsed, shown.onion, (SameTraffic.go (p := p) {} _).trans shown.traffic⟩

theorem fire_listeners (answer : CStr) (p : Page) (l : Listener) :
    (fire answer p l).listeners = p.listeners := by
  cases l with
  | peelCaptcha =>
    unfold fire
    dsimp only
    split <;> rfl
  | _ => rfl

theorem foldl_fire_listeners (answer : CStr) (ls : List Listener) (p : Page) :
    (ls.foldl (fire answer) p).listeners = p.listeners := by
  induction ls generalizing p with
  | nil => rfl
  | cons l ls ih => exact (ih _).trans (fire_listeners answer p l)

theorem Dances.step {e : Event} (h : Dances p) (moved : step opens p e = some p') : Dances p' := by
  cases step_cases moved with
  | click => exact h.same (congrFun (foldl_fire_listeners _ _ p) _)
  | go =>
    unfold sendUrl
    split <;> exact h
  | timeout => exact h
  | @complete i n call reply =>
    exact Dances.completes (p := p.off i) h (onreadystatechange_completes _ opens reply call)

def Begun (p : Page) : Prop :=
  p.modFreedomDisabled = false → p.onion = [] ∧ p.timers = 0 ∧ ∀ call ∈ p.calls, call = .reset

theorem GoesOn.disabled {reply : Reply} {call : Call} (h : GoesOn p opens reply call p') :
    p'.modFreedomDisabled = p.modFreedomDisabled := by
  cases h with
  | stop same => exact same.disabled
  | fetch _ _ same => exact same.disabled
  | post same => exact same.disabled
  | @display _ t robj _ _ _ same =>
    rw [same.disabled]
    cases onward t robj <;> rfl

theorem Begun.step {e : Event} (h : Begun p) (nothing : p.onion = [] → p.controls = [])
    (moved : step opens p e = some p') : Begun p' := by
  cases step_cases moved with
  | @click button answer pressable =>
    intro enabled
    have enabled : p.modFreedomDisabled = false := by
      have sent (calls : List Call) (q : Page) :
          (calls.foldl send q).modFreedomDisabled = q.modFreedomDisabled := by
        induction calls generalizing q with
        | nil => rfl
        | cons call calls ih => exact ih _
      rw [(foldl_fire_traffic answer (p.listeners button) p).disabled, sent] at enabled
      exact enabled
    have among : button ∈ p.controls := by
      simp only [Page.pressable, Bool.and_eq_true, decide_eq_true_eq] at pressable
      exact pressable.1
    exact absurd (nothing (h enabled).1 ▸ among) List.not_mem_nil
  | go =>
    unfold sendUrl
    split
    · exact h
    · intro enabled
      cases enabled
  | timeout running =>
    intro enabled
    exact absurd ((h enabled).2.1.symm.trans running) (Nat.succ_ne_zero _).symm
  | @complete i n call reply under_way made =>
    have completes := onreadystatechange_completes (p.off i) opens reply call
    intro enabled
    have enabled : p.modFreedomDisabled = false :=
      (completes_goesOn completes).disabled.symm.trans enabled
    obtain ⟨onion, timers, calls⟩ := h enabled
    obtain rfl : call = .reset := calls call (List.mem_of_getElem? made)
    unfold onreadystatechange resetResponse
    dsimp only
    split <;> exact ⟨onion, timers, calls⟩

theorem init_dances : Dances init := (by decide : ∀ l ∈ init.listeners .base, l = .dance)

theorem init_begun : Begun init := fun _ => ⟨rfl, rfl, by decide⟩

theorem foldl_send_calls (calls : List Call) (p : Page) :
    p.calls.length ≤ (calls.foldl send p).calls.length := by
  induction calls generalizing p with
  | nil => exact le_rfl
  | cons call calls ih =>
    have first : (p.send call).calls.length = p.calls.length + 1 := List.length_append
    have rest := ih (p.send call)
    simp only [List.foldl_cons]
    omega

theorem step_calls {e : Event} (moved : step opens p e = some p') :
    p.calls.length ≤ p'.calls.length := by
  have sent (q : Page) (call : Call) : q.calls.length ≤ (q.send call).calls.length :=
    foldl_send_calls [call] q
  rcases step_traffic moved with ⟨button, answer, _, same⟩ | ⟨address, ssl, _, _, same | same⟩ |
    ⟨timers, _, _, same⟩ | ⟨i, n, call, reply, _, _, _, goes⟩
  · exact same.calls ▸ foldl_send_calls _ p
  · exact same.calls ▸ le_rfl
  · exact same.calls ▸ sent { p with modFreedomDisabled := true } _
  · exact same.calls ▸ sent { p with timers } _
  · cases goes with
    | stop same => exact same.calls ▸ le_rfl
    | fetch _ _ same => exact same.calls ▸ sent (p.off i) _
    | post same => exact same.calls ▸ sent (p.off i) _
    | @display _ t robj _ _ _ same =>
      rw [same.calls]
      cases onward t robj with
      | peel => exact sent (p.off i) _
      | _ => exact le_rfl

end Page

end Jumpbox.Plugin.RendezvousPage
