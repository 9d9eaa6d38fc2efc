import Jumpbox.Plugin.Rendezvous

/-! Where the parts of the rendezvous page are: the peeler of the current onion is the one
among the controls, until an onion comes that the page has no peeler for. -/

namespace Jumpbox.Plugin.RendezvousPage

open JsonText (Value)

def Reply.onionType (reply : Reply) : Option CStr :=
  match (JsonText.parse reply.responseText).bind fun robj => robj.get "onion_type".toList with
  | some (.string onionType) => some onionType
  | _ => none

def displayed (call : Call) (reply : Reply) : Option CStr :=
  match call with
  | .image _ _ => if reply.status = 200 then reply.onionType else none
  | .peel _ => if reply.status = 200 then reply.onionType.filter (· ≠ []) else none
  | _ => none

def Reply.named (onionType : CStr) (info : CStr := []) : Reply where
  status := 200
  responseText := JsonText.print JsonText.compact
    [("info".toList, .string info), ("onion_type".toList, .string onionType)]

namespace Page

variable {p p' : Page} {opens : CStr → Bool}

/-! What the functions of `UI` leave alone. -/

/-- The two pages differ at most in what is inside of their parts. -/
structure SamePlaces (p p' : Page) : Prop where
  onion : p'.onion = p.onion := by rfl
  controls : p'.controls = p.controls := by rfl
  grabBag : p'.grabBag = p.grabBag := by rfl

theorem SamePlaces.trans {q : Page} (h : SamePlaces p q) (h' : SamePlaces q p') :
    SamePlaces p p' :=
  ⟨h'.onion.trans h.onion, h'.controls.trans h.controls, h'.grabBag.trans h.grabBag⟩

theorem addEventListener_places (p : Page) (button : Peeler) (l : Listener) :
    SamePlaces p (p.addEventListener button l) := by
  unfold addEventListener
  split <;> exact {}

theorem powCommences_places (p : Page) : SamePlaces p p.powCommences := by
  unfold powCommences
  split
  · exact {}
  · exact .trans {} (addEventListener_places _ _ _)

theorem updatePowDisplay_places (p : Page) (robj : Value) :
    SamePlaces p (p.updatePowDisplay robj) := by
  unfold updatePowDisplay
  split
  · dsimp only
    split
    · exact .trans (powCommences_places p) {}
    · exact .trans (powCommences_places p) {}
  · exact addEventListener_places p _ _

theorem updateCaptchaDisplay_places (p : Page) (robj : Value) :
    SamePlaces p (p.updateCaptchaDisplay robj) := by
  unfold updateCaptchaDisplay
  split
  · exact .trans {} (addEventListener_places _ _ _)
  · exact addEventListener_places p _ _

theorem updateCurrent_places (p : Page) (newState : CStr) (robj : Value) :
    SamePlaces p (p.updateCurrent newState robj) := by
  unfold updateCurrent
  split
  · exact .trans {} (addEventListener_places _ _ _)
  · split
    · exact updatePowDisplay_places p robj
    · split
      · exact updateCaptchaDisplay_places p robj
      · exact {}

theorem fire_places (answer : CStr) (p : Page) (l : Listener) :
    SamePlaces p (fire answer p l) := by
  cases l with
  | peelCaptcha =>
    unfold fire
    dsimp only
    split <;> exact {}
  | _ => exact {}

theorem foldl_fire_places (answer : CStr) (ls : List Listener) (p : Page) :
    SamePlaces p (ls.foldl (fire answer) p) := by
  induction ls generalizing p with
  | nil => exact {}
  | cons l ls ih => exact .trans (fire_places answer p l) (ih _)

/-! What `UI.update_display` does. -/

def brought (p : Page) (controls grabBag : List Peeler) (ui : Peeler) : Page :=
  { p with controls := controls.erase ui ++ [ui], grabBag := grabBag.erase ui }

inductive Displays (p : Page) (robj : Value) (t : CStr) : Except Page Page → Prop
  | same : t = p.onion → Displays p robj t (.ok { p.updateCurrent t robj with onion := t })
  | first {ui} : t ≠ p.onion → p.onion = [] → querySelector t = some ui →
      Displays p robj t
        (.ok { (p.brought p.controls p.grabBag ui).updateCurrent t robj with onion := t })
  | next {old ui} : t ≠ p.onion → p.onion ≠ [] → querySelector p.onion = some old →
      old ∈ p.controls → querySelector t = some ui →
      Displays p robj t (.ok {
        (p.brought (p.controls.erase old) (p.grabBag ++ [old]) ui).updateCurrent t robj with
        onion := t })
  | lost {old} : t ≠ p.onion → p.onion ≠ [] → querySelector p.onion = some old →
      old ∈ p.controls → querySelector t = none →
      Displays p robj t
        (.error { p with controls := p.controls.erase old, grabBag := p.grabBag ++ [old] })
  | none : t ≠ p.onion → p.onion = [] → querySelector t = none → Displays p robj t (.error p)
  | stuck : t ≠ p.onion → p.onion ≠ [] → (∀ old, querySelector p.onion = some old →
      old ∉ p.controls) → Displays p robj t (.error p)

theorem updateDisplay_displays (p : Page) (robj : Value) (t : CStr) :
    Displays p robj t (p.updateDisplay t robj) := by
  unfold updateDisplay
  by_cases same : t = p.onion
  · rw [if_neg (not_not.mpr same)]
    exact .same same
  rw [if_pos same]
  by_cases nothing : p.onion = []
  · rw [if_neg (not_not.mpr nothing)]
    cases found : querySelector t with
    | none => exact .none same nothing found
    | some ui => exact .first same nothing found
  rw [if_pos nothing]
  cases current : querySelector p.onion with
  | none => exact .stuck same nothing (by simp [current])
  | some old =>
    by_cases among : old ∈ p.controls
    · simp only [putAway, if_pos among]
      cases found : querySelector t with
      | none => exact .lost same nothing current among found
      | some ui => exact .next same nothing current among found
    · simp only [putAway, if_neg among]
      refine .stuck same nothing fun other same_onion => ?_
      obtain rfl := Option.some.inj (current.symm.trans same_onion)
      exact among

/-! What the handler of a complete request does. -/

def showImage (p : Page) (robj : Value) : Page :=
  match robj.get "image".toList with
  | some (.string image) => { p with onionImage := some (jbHost ++ image) }
  | _ => p

inductive Completes (p : Page) (opens : CStr → Bool) (reply : Reply) :
    Call → Except Page Page → Prop
  | told {call} (status : Status) : displayed call reply = none →
      Completes p opens reply call (.ok { p with status })
  | refused {server secure} (status : Status) : opens reply.responseText = false →
      Completes p opens reply (.genRequest server secure) (.error { p with status })
  | fetches {server secure} (status : Status) : reply.status = 200 → opens reply.responseText →
      Completes p opens reply (.genRequest server secure)
        (.ok { p.send (.freedom reply.responseText) with status })
  | posts {uri} (status : Status) : reply.status = 200 →
      Completes p opens reply (.freedom uri)
        (.ok { p.send (.image (jsString (reply.getResponseHeader "Content-Type".toList))
          (reply.response.getD [])) with status })
  | prepares {contentType body robj} (status : Status) : reply.status = 200 →
      JsonText.parse reply.responseText = some robj →
      displayed (.image contentType body) reply = none →
      Completes p opens reply (.image contentType body)
        ((showImage { p with status } robj).removeModFreedomControls)
  | accepts {contentType body robj t} (status : Status) :
      JsonText.parse reply.responseText = some robj →
      displayed (.image contentType body) reply = some t →
      Completes p opens reply (.image contentType body)
        ((showImage { p with status } robj).updateDisplay t robj >>= removeModFreedomControls)
  | peels {action robj t} (status : Status) : JsonText.parse reply.responseText = some robj →
      displayed (.peel action) reply = some t →
      Completes p opens reply (.peel action) ({ p with status }.updateDisplay t robj)

theorem onionType_of_none {reply : Reply} (refused : JsonText.parse reply.responseText = none) :
    reply.onionType = none := by
  rw [Reply.onionType, refused]
  rfl

theorem onionType_of_get {reply : Reply} {robj : Value}
    (parsed : JsonText.parse reply.responseText = some robj) :
    reply.onionType = match robj.get "onion_type".toList with
      | some (.string onionType) => some onionType
      | _ => none := by
  rw [Reply.onionType, parsed]
  rfl

theorem imagePostResponse_completes (p : Page) (opens : CStr → Bool) (reply : Reply)
    (contentType : CStr) (body : List UInt8) :
    Completes p opens reply (.image contentType body) (p.imagePostResponse reply) := by
  unfold imagePostResponse
  by_cases okay : reply.status = 200
  · rw [if_pos okay]
    have shown : displayed (.image contentType body) reply = reply.onionType := if_pos okay
    unfold withObject
    split
    next refused => exact .told _ (shown.trans (onionType_of_none refused))
    next robj parsed =>
      have named := onionType_of_get parsed
      split
      next object =>
        unfold prepareForPeeling
        cases got : robj.get "onion_type".toList with
        | none =>
          exact .prepares _ okay parsed (by rw [shown, named, got])
        | some v =>
          rw [got] at named
          cases v with
          | string t => exact .accepts _ parsed (by rw [shown, named])
          | _ => exact .prepares _ okay parsed (by rw [shown, named])
      next other =>
        have none : displayed (.image contentType body) reply = none := by
          rw [shown, named]
          cases robj <;> first | rfl | exact absurd rfl other
        split
        · exact .told _ none
        · exact .told _ none
  · rw [if_neg okay]
    exact .told _ (if_neg okay)

theorem handlePeelResponse_completes (p : Page) (opens : CStr → Bool) (reply : Reply)
    (action : Option CStr) :
    Completes p opens reply (.peel action) (p.handlePeelResponse reply) := by
  unfold handlePeelResponse
  by_cases okay : reply.status = 200
  · rw [if_pos okay]
    have shown : displayed (.peel action) reply = reply.onionType.filter (· ≠ []) := if_pos okay
    unfold withObject
    split
    next refused => exact .told _ (by rw [shown, onionType_of_none refused]; rfl)
    next robj parsed =>
      have named := onionType_of_get parsed
      split
      next object =>
        unfold peelResponse
        have told : ∃ status : Status,
            p.setStatusValue (robj.get "status".toList) = { p with status } := by
          unfold setStatusValue
          split
          · exact ⟨_, rfl⟩
          · exact ⟨p.status, rfl⟩
        obtain ⟨status, told⟩ := told
        rw [told]
        cases got : robj.get "onion_type".toList with
        | none => exact .told _ (by rw [shown, named, got]; rfl)
        | some v =>
          rw [got] at named
          cases v with
          | string t =>
            cases t with
            | nil => exact .told _ (by rw [shown, named]; rfl)
            | cons c t => exact .peels _ parsed (by rw [shown, named]; rfl)
          | _ => exact .told _ (by rw [shown, named]; rfl)
      next other =>
        have none : displayed (.peel action) reply = none := by
          rw [shown, named]
          cases robj <;> first | rfl | exact absurd rfl other
        split
        · exact .told p.status none
        · exact .told _ none
  · rw [if_neg okay]
    exact .told _ (if_neg okay)

theorem onreadystatechange_completes (p : Page) (opens : CStr → Bool) (reply : Reply)
    (call : Call) : Completes p opens reply call (p.onreadystatechange opens reply call) := by
  cases call with
  | reset =>
    simp only [onreadystatechange, resetResponse]
    split <;> exact .told _ rfl
  | genRequest server secure =>
    simp only [onreadystatechange, handleGenResponse, handleResponse]
    split
    next okay =>
      split
      next opened => exact .fetches _ okay opened
      next closed => exact .refused _ (by simpa using closed)
    next => exact .told _ rfl
  | freedom uri =>
    simp only [onreadystatechange, processImage]
    split
    next okay => exact .posts _ okay
    next => exact .told _ rfl
  | image contentType body => exact imagePostResponse_completes p opens reply contentType body
  | peel action => exact handlePeelResponse_completes p opens reply action

/-! The peeler among the controls. -/

/-- The controls show the peeler of the onion, and each peeler is in one place. -/
structure Placed (p : Page) : Prop where
  shown : p.controls = (querySelector p.onion).toList
  named : p.onion ≠ [] → (querySelector p.onion).isSome
  all : (p.controls ++ p.grabBag).Perm peelers

/-- The onion has a peeler, and it is not among the controls. -/
structure Lost (p : Page) : Prop where
  onion : p.onion ≠ []
  named : (querySelector p.onion).isSome
  controls : p.controls = []

theorem Placed.not_lost (h : Placed p) : ¬Lost p := by
  intro lost
  have none : querySelector p.onion = none := by
    rw [← Option.toList_eq_nil_iff, ← h.shown, lost.controls]
  exact absurd lost.named (by rw [none]; exact Bool.false_ne_true)

theorem Placed.same (h : Placed p) (places : SamePlaces p p') : Placed p' where
  shown := by rw [places.controls, places.onion, h.shown]
  named := by rw [places.onion]; exact h.named
  all := by rw [places.controls, places.grabBag]; exact h.all

theorem Lost.same (h : Lost p) (places : SamePlaces p p') : Lost p' where
  onion := by rw [places.onion]; exact h.onion
  named := by rw [places.onion]; exact h.named
  controls := places.controls.trans h.controls

theorem querySelector_nil : querySelector [] = none := by decide

theorem Placed.controls_nil (h : Placed p) (nothing : p.onion = []) : p.controls = [] := by
  rw [h.shown, nothing, querySelector_nil]
  rfl

theorem Placed.controls_singleton (h : Placed p) {old : Peeler}
    (current : querySelector p.onion = some old) : p.controls = [old] := by
  rw [h.shown, current]
  rfl

theorem placed_brought {t : CStr} {ui : Peeler} {grabBag : List Peeler}
    (found : querySelector t = some ui) (all : grabBag.Perm peelers) (robj : Value) :
    Placed { (p.brought [] grabBag ui).updateCurrent t robj with onion := t } := by
  have places := updateCurrent_places (p.brought [] grabBag ui) t robj
  have listed : ui ∈ grabBag := all.symm.mem_iff.mp (by cases ui <;> decide)
  refine ⟨places.controls.trans ?_, fun _ => ?_, ?_⟩
  · rw [found]
    rfl
  · simp [found]
  · change List.Perm (((p.brought [] grabBag ui).updateCurrent t robj).controls ++
      ((p.brought [] grabBag ui).updateCurrent t robj).grabBag) peelers
    rw [places.controls, places.grabBag]
    exact (List.perm_cons_erase listed).symm.trans all

def Displayable (p : Page) (t : CStr) : Prop :=
  p.onion = [] ∨ t = p.onion ∨ (querySelector t).isSome

instance (p : Page) (t : CStr) : Decidable (p.Displayable t) :=
  inferInstanceAs (Decidable (_ ∨ _ ∨ _))

theorem Placed.displays {robj : Value} {t : CStr} {r : Except Page Page} (h : Placed p)
    (displays : Displays p robj t r) :
    (p.Displayable t → Placed (settle r)) ∧ (¬p.Displayable t → Lost (settle r)) := by
  cases displays with
  | same same =>
    have places := updateCurrent_places p t robj
    refine ⟨fun _ => h.same ⟨same, places.controls, places.grabBag⟩, fun unknown => ?_⟩
    exact absurd (.inr (.inl same)) unknown
  | first _ nothing found =>
    have empty := h.controls_nil nothing
    have all : p.grabBag.Perm peelers := by simpa [empty] using h.all
    rw [empty]
    exact ⟨fun _ => placed_brought found all robj, fun unknown => absurd (.inl nothing) unknown⟩
  | next _ _ current among found =>
    have single := h.controls_singleton current
    have all : (p.grabBag ++ [_]).Perm peelers :=
      List.perm_append_comm.trans (single ▸ h.all)
    rw [single, List.erase_cons_head]
    refine ⟨fun _ => placed_brought found all robj, fun unknown => absurd ?_ unknown⟩
    exact .inr (.inr (by simp [found]))
  | lost other some_onion current among missing =>
    have single := h.controls_singleton current
    refine ⟨fun known => ?_, fun _ => ⟨some_onion, h.named some_onion, ?_⟩⟩
    · rcases known with nothing | same | found
      · exact absurd nothing some_onion
      · exact absurd same other
      · rw [missing] at found
        cases found
    · change p.controls.erase _ = []
      rw [single, List.erase_cons_head]
  | none _ nothing => exact ⟨fun _ => h, fun unknown => absurd (.inl nothing) unknown⟩
  | stuck _ some_onion away =>
    obtain ⟨old, current⟩ := Option.isSome_iff_exists.mp (h.named some_onion)
    have among : old ∈ p.controls := by
      rw [h.controls_singleton current]
      exact List.mem_singleton_self old
    exact absurd among (away old current)

theorem Lost.displays {robj : Value} {t : CStr} {r : Except Page Page} (h : Lost p)
    (displays : Displays p robj t r) : Lost (settle r) ∧ (settle r).onion = p.onion := by
  cases displays with
  | same same =>
    have places := updateCurrent_places p t robj
    exact ⟨h.same ⟨same, places.controls, places.grabBag⟩, same⟩
  | first _ nothing => exact absurd nothing h.onion
  | next _ _ _ among => exact absurd (h.controls ▸ among) List.not_mem_nil
  | lost _ _ _ among => exact absurd (h.controls ▸ among) List.not_mem_nil
  | none => exact ⟨h, rfl⟩
  | stuck => exact ⟨h, rfl⟩

theorem showImage_places (p : Page) (robj : Value) : SamePlaces p (p.showImage robj) := by
  unfold showImage
  split <;> exact {}

theorem settle_bind_removeModFreedomControls (r : Except Page Page) :
    SamePlaces (settle r) (settle (r >>= removeModFreedomControls)) := by
  cases r with
  | error p => exact {}
  | ok p =>
    change SamePlaces p (settle p.removeModFreedomControls)
    unfold removeModFreedomControls
    split <;> exact {}

theorem completes_places {reply : Reply} {call : Call} {r : Except Page Page}
    (h : Completes p opens reply call r) :
    displayed call reply = none ∧ SamePlaces p (settle r) ∨
      ∃ t robj q shown, displayed call reply = some t ∧ SamePlaces p q ∧
        Displays q robj t shown ∧ SamePlaces (settle shown) (settle r) := by
  cases h with
  | told status silent => exact .inl ⟨silent, {}⟩
  | refused => exact .inl ⟨rfl, {}⟩
  | fetches => exact .inl ⟨rfl, {}⟩
  | posts => exact .inl ⟨rfl, {}⟩
  | @prepares contentType body robj status okay parsed silent =>
    refine .inl ⟨silent, ?_⟩
    have image := showImage_places { p with status } robj
    have removed := settle_bind_removeModFreedomControls (.ok (showImage { p with status } robj))
    exact SamePlaces.trans (p := p) ⟨image.onion, image.controls, image.grabBag⟩ removed
  | @accepts contentType body robj t status parsed shows =>
    have image := showImage_places { p with status } robj
    exact .inr ⟨t, robj, _, _, shows, ⟨image.onion, image.controls, image.grabBag⟩,
      updateDisplay_displays _ _ _, settle_bind_removeModFreedomControls _⟩
  | @peels action robj t status parsed shows =>
    exact .inr ⟨t, robj, { p with status }, _, shows, {}, updateDisplay_displays _ _ _, {}⟩

/-- A reply that displays an onion is displayable when it comes. -/
def Known (p : Page) : Event → Prop
  | .complete i reply => ∀ call ∈ p.xhrs[i]?.bind fun n => p.calls[n]?,
    ∀ t ∈ displayed call reply, p.Displayable t
  | _ => True

theorem step_places {e : Event} (moved : step opens p e = some p') :
    Known p e ∧ SamePlaces p p' ∨
      ∃ t robj q shown, (Known p e ↔ p.Displayable t) ∧ SamePlaces p q ∧
        Displays q robj t shown ∧ SamePlaces (settle shown) p' := by
  cases step_cases moved with
  | click => exact .inl ⟨trivial, foldl_fire_places _ _ p⟩
  | go =>
    refine .inl ⟨trivial, ?_⟩
    unfold sendUrl
    split <;> exact {}
  | timeout => exact .inl ⟨trivial, {}⟩
  | @complete i n call reply under_way made =>
    have known : Known p (.complete i reply) ↔ ∀ t ∈ displayed call reply, p.Displayable t := by
      simp [Known, under_way, made]
    rcases completes_places (onreadystatechange_completes { p with xhrs := p.xhrs.eraseIdx i }
      opens reply call) with ⟨silent, places⟩ | ⟨t, robj, q, shown, shows, places, displays, rest⟩
    · refine .inl ⟨known.mpr (by simp [silent]), ?_⟩
      exact ⟨places.onion, places.controls, places.grabBag⟩
    · refine .inr ⟨t, robj, q, shown, known.trans (by simp [shows]), ?_, displays, rest⟩
      exact ⟨places.onion, places.controls, places.grabBag⟩

theorem SamePlaces.displayable {q : Page} (h : SamePlaces p q) (t : CStr) :
    q.Displayable t ↔ p.Displayable t := by
  unfold Displayable
  rw [h.onion]

theorem Placed.step {e : Event} (h : Placed p) (moved : step opens p e = some p') :
    (Known p e → Placed p') ∧ (¬Known p e → Lost p') := by
  rcases step_places moved with ⟨known, places⟩ | ⟨t, robj, q, shown, known, before, displays, rest⟩
  · exact ⟨fun _ => h.same places, fun unknown => absurd known unknown⟩
  · have shows := (h.same before).displays displays
    rw [known, ← before.displayable t]
    exact ⟨fun displayable => (shows.1 displayable).same rest,
      fun not_displayable => (shows.2 not_displayable).same rest⟩

theorem Lost.step {e : Event} (h : Lost p) (moved : step opens p e = some p') :
    Lost p' ∧ p'.onion = p.onion := by
  rcases step_places moved with ⟨_, places⟩ | ⟨t, robj, q, shown, _, before, displays, rest⟩
  · exact ⟨h.same places, places.onion⟩
  · obtain ⟨lost, onion⟩ := (h.same before).displays displays
    exact ⟨lost.same rest, rest.onion.trans (onion.trans before.onion)⟩

theorem placed_init : Placed init where
  shown := rfl
  named := absurd rfl
  all := .refl _

theorem controls_show_onion (opens : CStr → Bool) {es : List Event} {p : Page}
    (run : (machine opens).exec init es = some p) :
    ((machine opens).Always Placed init es ↔ (machine opens).Meets Known init es) ∧
      (¬Placed p → ∀ es' p', (machine opens).exec p es' = some p' →
        p'.controls = [] ∧ p'.onion = p.onion) := by
  constructor
  · refine (machine opens).always_iff_meets (fun _ placed => placed) ?_ ?_ placed_init run
    · exact fun p e p' placed known moved => (placed.step moved).1 known
    · exact fun p e p' placed unknown moved kept =>
        kept.not_lost ((placed.step moved).2 unknown)
  · have either : Placed p ∨ Lost p := by
      refine (machine opens).invariant (I := fun p => Placed p ∨ Lost p) ?_ (.inl placed_init) run
      rintro p e p' (placed | lost) moved
      · by_cases known : Known p e
        · exact .inl ((placed.step moved).1 known)
        · exact .inr ((placed.step moved).2 known)
      · exact .inr (lost.step moved).1
    intro misplaced es' p' later
    have lost := either.resolve_left misplaced
    have kept : Lost p' ∧ p'.onion = p.onion := by
      refine (machine opens).invariant (I := fun q => Lost q ∧ q.onion = p.onion) ?_
        ⟨lost, rfl⟩ later
      rintro q e q' ⟨lost, onion⟩ moved
      exact ⟨(lost.step moved).1, (lost.step moved).2.trans onion⟩
    exact ⟨kept.1.controls, kept.2⟩

def gets (onionType : CStr) : List Event :=
  [.complete 0 { status := 200 }, .go "onions.org".toList false,
    .complete 0 { status := 200, responseText := "onions.org/1".toList },
    .complete 0 { status := 200 }, .complete 0 (Reply.named onionType)]

def getsCollection : List Event :=
  gets "signed".toList ++ [.click .signed [], .complete 0 (Reply.named "collection".toList)]

theorem controls_show_onion_collection :
    ∃ p, (machine fun _ => true).exec init getsCollection = some p ∧
      ¬(machine fun _ => true).Always Placed init getsCollection ∧
      ∀ es p', (machine fun _ => true).exec p es = some p' →
        p'.controls = [] ∧ p'.onion = "signed".toList := by
  have run : ((machine fun _ => true).exec init getsCollection).map
      (fun p => (p.controls, p.onion)) = some ([], "signed".toList) := by
    decide +kernel
  obtain ⟨p, run, same⟩ := Option.map_eq_some_iff.mp run
  obtain ⟨controls, onion⟩ := Prod.mk.inj same
  have misplaced : ¬Placed p := by
    intro placed
    have shown := placed.shown
    rw [controls, onion] at shown
    exact absurd shown (by decide)
  obtain ⟨always_iff, stays⟩ := controls_show_onion (fun _ => true) run
  refine ⟨p, run, fun always => misplaced (always.finish _ run), fun es p' later => ?_⟩
  exact onion ▸ stays misplaced es p' later

end Page

end Jumpbox.Plugin.RendezvousPage
