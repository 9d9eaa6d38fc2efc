import Jumpbox.Plugin.Peelers

/-! What the rendezvous page has under way: its requests and its timers. It fetches one
onion in its life, and left alone it never has more under way than it had. -/

namespace Jumpbox.Plugin.RendezvousPage

open JsonText (Value)

inductive Onward
  | stop
  | wait
  | peel
  deriving DecidableEq, Repr

def onward (t : CStr) (robj : Value) : Onward :=
  if t = Peeler.pow.name then
    match robj.get "info".toList with
    | some (.number info) => if info < 100 then .wait else .peel
    | _ => .stop
  else .stop

def Call.fetches : Call → Bool
  | .genRequest _ _ | .freedom _ | .image _ _ => true
  | .reset | .peel _ => false

def Listener.sends (answer : CStr) : Listener → List Call
  | .peelAway | .powCommence => [.peel none]
  | .peelCaptcha => if answer = [] then [] else [.peel (some answer)]
  | .dance => []

namespace Page

variable {p p' q : Page} {opens : CStr → Bool}

def pending (p : Page) : ℕ := p.xhrs.length + p.timers

def go (p : Page) : Onward → Page
  | .stop => p
  | .wait => { p with timers := p.timers + 1 }
  | .peel => p.peelAway

structure SameTraffic (p p' : Page) : Prop where
  calls : p'.calls = p.calls := by rfl
  xhrs : p'.xhrs = p.xhrs := by rfl
  timers : p'.timers = p.timers := by rfl
  disabled : p'.modFreedomDisabled = p.modFreedomDisabled := by rfl

theorem SameTraffic.trans (h : SameTraffic p q) (h' : SameTraffic q p') : SameTraffic p p' :=
  ⟨h'.calls.trans h.calls, h'.xhrs.trans h.xhrs, h'.timers.trans h.timers,
    h'.disabled.trans h.disabled⟩

theorem SameTraffic.send (h : SameTraffic p p') (call : Call) :
    SameTraffic (p.send call) (p'.send call) where
  calls := by simp only [Page.send, h.calls]
  xhrs := by simp only [Page.send, h.xhrs, h.calls]
  timers := h.timers
  disabled := h.disabled

theorem SameTraffic.go (h : SameTraffic p p') (onward : Onward) :
    SameTraffic (p.go onward) (p'.go onward) := by
  cases onward with
  | stop => exact h
  | wait => exact ⟨h.calls, h.xhrs, congrArg (· + 1) h.timers, h.disabled⟩
  | peel => exact h.send _

theorem SameTraffic.pending (h : SameTraffic p p') : p'.pending = p.pending := by
  unfold Page.pending
  rw [h.xhrs, h.timers]

theorem addEventListener_traffic (p : Page) (button : Peeler) (l : Listener) :
    SameTraffic p (p.addEventListener button l) := by
  unfold addEventListener
  split <;> exact {}

theorem powCommences_traffic (p : Page) : SameTraffic p p.powCommences := by
  unfold powCommences
  split
  · exact {}
  · exact .trans {} (addEventListener_traffic _ _ _)

theorem updateCaptchaDisplay_traffic (p : Page) (robj : Value) :
    SameTraffic p (p.updateCaptchaDisplay robj) := by
  unfold updateCaptchaDisplay
  split
  · exact .trans {} (addEventListener_traffic _ _ _)
  · exact addEventListener_traffic p _ _

theorem updateCurrent_traffic (p : Page) (t : CStr) (robj : Value) :
    SameTraffic (p.go (onward t robj)) (p.updateCurrent t robj) := by
  unfold updateCurrent onward
  by_cases isPow : t = Peeler.pow.name
  · have not_base : t ≠ Peeler.base.name := by
      rintro rfl
      exact absurd isPow (by decide)
    rw [if_pos isPow, if_neg not_base, if_pos isPow]
    unfold updatePowDisplay
    have commenced := powCommences_traffic p
    have asks := addEventListener_traffic p .pow .powCommence
    generalize robj.get "info".toList = info
    cases info with
    | none => exact asks
    | some v =>
      cases v with
      | number info =>
        by_cases small : info < 100
        · simp only [if_pos small]
          exact ⟨commenced.calls, commenced.xhrs, congrArg (· + 1) commenced.timers,
            commenced.disabled⟩
        · simp only [if_neg small]
          exact (commenced.send (.peel none)).trans {}
      | _ => exact asks
  · rw [if_neg isPow, if_neg isPow]
    split
    · exact .trans {} (addEventListener_traffic _ _ _)
    · split
      · exact updateCaptchaDisplay_traffic p robj
      · exact {}

theorem Displays.traffic {robj : Value} {t : CStr} {r : Except Page Page}
    (h : Displays p robj t r) :
    SameTraffic p (settle r) ∨ SameTraffic (p.go (onward t robj)) (settle r) := by
  cases h with
  | same =>
    have current := updateCurrent_traffic p t robj
    exact .inr ⟨current.calls, current.xhrs, current.timers, current.disabled⟩
  | first =>
    refine .inr (.trans ?_ (.trans (updateCurrent_traffic _ t robj) {}))
    exact SameTraffic.go (p := p) {} _
  | next =>
    refine .inr (.trans ?_ (.trans (updateCurrent_traffic _ t robj) {}))
    exact SameTraffic.go (p := p) {} _
  | lost => exact .inl {}
  | none => exact .inl {}
  | stuck => exact .inl {}

theorem showImage_traffic (p : Page) (robj : Value) : SameTraffic p (p.showImage robj) := by
  unfold showImage
  split <;> exact {}

theorem bind_removeModFreedomControls_traffic (r : Except Page Page) :
    SameTraffic (settle r) (settle (r >>= removeModFreedomControls)) := by
  cases r with
  | error p => exact {}
  | ok p =>
    change SameTraffic p (settle p.removeModFreedomControls)
    unfold removeModFreedomControls
    split <;> exact {}

inductive GoesOn (p : Page) (opens : CStr → Bool) (reply : Reply) : Call → Page → Prop
  | stop {call p'} : SameTraffic p p' → GoesOn p opens reply call p'
  | fetch {server secure p'} : reply.status = 200 → opens reply.responseText →
      SameTraffic (p.send (.freedom reply.responseText)) p' →
      GoesOn p opens reply (.genRequest server secure) p'
  | post {uri contentType body p'} : SameTraffic (p.send (.image contentType body)) p' →
      GoesOn p opens reply (.freedom uri) p'
  | display {call t robj p'} : displayed call reply = some t →
      JsonText.parse reply.responseText = some robj →
      SameTraffic (p.go (onward t robj)) p' → GoesOn p opens reply call p'

theorem completes_goesOn {reply : Reply} {call : Call} {r : Except Page Page}
    (h : Completes p opens reply call r) : GoesOn p opens reply call (settle r) := by
  cases h with
  | told => exact .stop {}
  | refused => exact .stop {}
  | fetches _ okay opened => exact .fetch okay opened {}
  | posts => exact .post {}
  | @prepares _ _ robj status =>
    have image := showImage_traffic { p with status } robj
    have removed := bind_removeModFreedomControls_traffic (.ok (showImage { p with status } robj))
    exact .stop (SameTraffic.trans ⟨image.calls, image.xhrs, image.timers, image.disabled⟩ removed)
  | @accepts _ _ robj t status parsed shown =>
    have image := showImage_traffic { p with status } robj
    have image : SameTraffic p (showImage { p with status } robj) :=
      ⟨image.calls, image.xhrs, image.timers, image.disabled⟩
    have rest := bind_removeModFreedomControls_traffic
      ((showImage { p with status } robj).updateDisplay t robj)
    rcases (updateDisplay_displays (showImage { p with status } robj) robj t).traffic
      with thrown | displayed
    · exact .stop (image.trans (thrown.trans rest))
    · exact .display shown parsed ((image.go _).trans (displayed.trans rest))
  | @peels _ robj t status parsed shown =>
    rcases (updateDisplay_displays { p with status } robj t).traffic with thrown | displayed
    · exact .stop (SameTraffic.trans (p := p) {} thrown)
    · refine .display shown parsed (SameTraffic.trans ?_ displayed)
      exact SameTraffic.go (p := p) {} _

theorem foldl_fire_traffic (answer : CStr) (ls : List Listener) (p : Page) :
    SameTraffic ((ls.flatMap (Listener.sends answer)).foldl send p) (ls.foldl (fire answer) p) := by
  induction ls generalizing p with
  | nil => exact {}
  | cons l ls ih =>
    have first : SameTraffic ((l.sends answer).foldl send p) (fire answer p l) := by
      cases l with
      | peelCaptcha =>
        unfold fire Listener.sends
        dsimp only
        split <;> exact {}
      | powCommence => exact {}
      | _ => exact {}
    have others : ∀ (calls : List Call) (p p' : Page), SameTraffic p p' →
        SameTraffic (calls.foldl send p) (calls.foldl send p') := by
      intro calls
      induction calls with
      | nil => exact fun _ _ same => same
      | cons call calls ih => exact fun _ _ same => ih _ _ (same.send call)
    rw [List.flatMap_cons, List.foldl_append]
    exact (others _ _ _ first).trans (ih _)

/-! What is under way. -/

def underWay (p : Page) : List Call := p.xhrs.filterMap fun n => p.calls[n]?

def Made (p : Page) : Prop := ∀ n ∈ p.xhrs, n < p.calls.length

theorem Made.same (h : Made p) (same : SameTraffic p p') : Made p' := by
  unfold Made
  rw [same.xhrs, same.calls]
  exact h

theorem SameTraffic.underWay (h : SameTraffic p p') : p'.underWay = p.underWay := by
  unfold Page.underWay
  rw [h.xhrs, h.calls]

theorem Made.send (h : Made p) (call : Call) : Made (p.send call) := by
  intro n member
  have bound : (p.send call).calls.length = p.calls.length + 1 := List.length_append
  rcases List.mem_append.mp member with old | new
  · have := h n old
    omega
  · have := List.mem_singleton.mp new
    omega

theorem Made.underWay_send (h : Made p) (call : Call) :
    (p.send call).underWay = p.underWay ++ [call] := by
  have old : p.xhrs.filterMap (fun n => (p.calls ++ [call])[n]?) =
      p.xhrs.filterMap fun n => p.calls[n]? := by
    refine List.filterMap_congr fun n member => ?_
    exact List.getElem?_append_left (h n member)
  simp only [underWay, Page.send, List.filterMap_append, old, List.filterMap_cons,
    List.getElem?_concat_length, List.filterMap_nil]

def off (p : Page) (i : ℕ) : Page := { p with xhrs := p.xhrs.eraseIdx i }

theorem Made.off (h : Made p) (i : ℕ) : Made (p.off i) :=
  fun n member => h n (List.mem_of_mem_eraseIdx member)

theorem underWay_off {i n : ℕ} {call : Call} (under_way : p.xhrs[i]? = some n)
    (made : p.calls[n]? = some call) : p.underWay.Perm (call :: (p.off i).underWay) := by
  obtain ⟨bound, rfl⟩ := List.getElem?_eq_some_iff.mp under_way
  have split : p.xhrs.Perm (p.xhrs[i] :: p.xhrs.eraseIdx i) :=
    (List.getElem_cons_eraseIdx_perm bound).symm
  have mapped := split.filterMap fun n => p.calls[n]?
  rwa [List.filterMap_cons_some made] at mapped

theorem step_traffic {e : Event} (moved : step opens p e = some p') :
    (∃ button answer, e = .click button answer ∧
      SameTraffic (((p.listeners button).flatMap (Listener.sends answer)).foldl send p) p') ∨
    (∃ address ssl, e = .go address ssl ∧ p.modFreedomDisabled = false ∧
      (SameTraffic p p' ∨
        SameTraffic ({ p with modFreedomDisabled := true }.send (.genRequest address ssl)) p')) ∨
    (∃ timers, e = .timeout ∧ p.timers = timers + 1 ∧
      SameTraffic { p with timers }.peelAway p') ∨
    ∃ i n call reply, e = .complete i reply ∧ p.xhrs[i]? = some n ∧ p.calls[n]? = some call ∧
      GoesOn (p.off i) opens reply call p' := by
  cases step_cases moved with
  | @click button answer =>
    exact .inl ⟨button, answer, rfl, foldl_fire_traffic answer _ p⟩
  | @go address ssl fetching enabled =>
    refine .inr (.inl ⟨address, ssl, rfl, enabled, ?_⟩)
    unfold sendUrl
    split
    · exact .inl {}
    · exact .inr {}
  | @timeout timers running => exact .inr (.inr (.inl ⟨timers, rfl, running, {}⟩))
  | @complete i n call reply under_way made =>
    exact .inr (.inr (.inr ⟨i, n, call, reply, rfl, under_way, made,
      completes_goesOn (onreadystatechange_completes _ opens reply call)⟩))

/-! One onion. -/

def fetched (p : Page) : List Call := p.calls.filter Call.fetches

def Chain : List Call → Prop
  | [] | [.genRequest _ _] | [.genRequest _ _, .freedom _]
  | [.genRequest _ _, .freedom _, .image _ _] => True
  | _ => False

/-- The onion is got once, one request at a time. -/
structure OneFetch (p : Page) : Prop where
  made : Made p
  chain : Chain p.fetched
  fresh : p.modFreedomDisabled = false → p.fetched = []
  one : p.underWay.filter Call.fetches = [] ∨
    ∃ call, p.underWay.filter Call.fetches = [call] ∧ p.fetched.getLast? = some call

theorem fetched_send (p : Page) (call : Call) :
    (p.send call).fetched = p.fetched ++ [call].filter Call.fetches :=
  List.filter_append ..

theorem OneFetch.same (h : OneFetch p) (same : SameTraffic p p') : OneFetch p' := by
  have fetched : p'.fetched = p.fetched := by rw [Page.fetched, same.calls, Page.fetched]
  refine ⟨h.made.same same, fetched ▸ h.chain, ?_, ?_⟩
  · rw [same.disabled, fetched]
    exact h.fresh
  · rw [same.underWay, fetched]
    exact h.one

theorem OneFetch.peel (h : OneFetch p) (action : Option CStr) : OneFetch (p.peel action) := by
  have fetched : (p.peel action).fetched = p.fetched :=
    (fetched_send p (.peel action)).trans (List.append_nil _)
  refine ⟨h.made.send _, fetched ▸ h.chain, fun fresh => fetched.trans (h.fresh fresh), ?_⟩
  have under : (p.peel action).underWay.filter Call.fetches = p.underWay.filter Call.fetches := by
    change (p.send (.peel action)).underWay.filter _ = _
    rw [h.made.underWay_send, List.filter_append]
    exact List.append_nil _
  rw [under, fetched]
  exact h.one

theorem OneFetch.peels (h : OneFetch p) (answer : CStr) (ls : List Listener) :
    OneFetch ((ls.flatMap (Listener.sends answer)).foldl send p) := by
  have only : ∀ call ∈ ls.flatMap (Listener.sends answer), ∃ action, call = .peel action := by
    intro call member
    obtain ⟨l, _, sent⟩ := List.mem_flatMap.mp member
    unfold Listener.sends at sent
    split at sent
    · exact ⟨_, List.mem_singleton.mp sent⟩
    · exact ⟨_, List.mem_singleton.mp sent⟩
    · split at sent
      · cases sent
      · exact ⟨_, List.mem_singleton.mp sent⟩
    · cases sent
  generalize ls.flatMap (Listener.sends answer) = calls at only
  induction calls generalizing p with
  | nil => exact h
  | cons call calls ih =>
    obtain ⟨action, rfl⟩ := only _ List.mem_cons_self
    exact ih (h.peel action) fun call member => only call (List.mem_cons_of_mem _ member)

theorem OneFetch.go (h : OneFetch p) (onward : Onward) : OneFetch (p.go onward) := by
  cases onward with
  | stop => exact h
  | wait => exact ⟨h.made, h.chain, h.fresh, h.one⟩
  | peel => exact h.peel none

theorem OneFetch.off {i n : ℕ} {call : Call} (h : OneFetch p) (under_way : p.xhrs[i]? = some n)
    (made : p.calls[n]? = some call) : OneFetch (p.off i) ∧
      (call.fetches → p.fetched.getLast? = some call ∧
        (p.off i).underWay.filter Call.fetches = []) := by
  have split := (underWay_off under_way made).filter Call.fetches
  cases fetches : call.fetches with
  | false =>
    rw [List.filter_cons_of_neg (by simp [fetches])] at split
    refine ⟨⟨h.made.off i, h.chain, h.fresh, ?_⟩, nofun⟩
    rcases h.one with none | ⟨last, one, newest⟩
    · exact .inl (List.perm_nil.mp (none ▸ split).symm)
    · exact .inr ⟨last, List.perm_singleton.mp (one ▸ split).symm, newest⟩
  | true =>
    rw [List.filter_cons_of_pos fetches] at split
    rcases h.one with none | ⟨last, one, newest⟩
    · rw [none] at split
      exact absurd (List.nil_perm.mp split) (List.cons_ne_nil _ _)
    · have single := List.perm_singleton.mp (one ▸ split).symm
      obtain ⟨rfl, others⟩ := List.cons.inj single
      exact ⟨⟨h.made.off i, h.chain, h.fresh, .inl others⟩, fun _ => ⟨newest, others⟩⟩

theorem OneFetch.next {call next : Call} (h : OneFetch p)
    (last : p.fetched.getLast? = some call) (none : p.underWay.filter Call.fetches = [])
    (fetches : next.fetches) (chain : Chain (p.fetched ++ [next])) : OneFetch (p.send next) := by
  have fetched : (p.send next).fetched = p.fetched ++ [next] := by
    rw [fetched_send, List.filter_cons_of_pos fetches, List.filter_nil]
  refine ⟨h.made.send _, fetched ▸ chain, fun fresh => ?_, .inr ⟨next, ?_, ?_⟩⟩
  · rw [h.fresh fresh] at last
    cases last
  · rw [h.made.underWay_send, List.filter_append, none, List.filter_cons_of_pos fetches]
    rfl
  · rw [fetched, List.getLast?_concat]

theorem Chain.fetch {calls : List Call} {server uri : CStr} {secure : Bool} (h : Chain calls)
    (last : calls.getLast? = some (.genRequest server secure)) :
    Chain (calls ++ [.freedom uri]) := by
  unfold Chain at h
  split at h <;> first | exact h.elim | (cases last <;> trivial)

theorem Chain.post {calls : List Call} {uri contentType : CStr} {body : List UInt8}
    (h : Chain calls) (last : calls.getLast? = some (.freedom uri)) :
    Chain (calls ++ [.image contentType body]) := by
  unfold Chain at h
  split at h <;> first | exact h.elim | (cases last <;> trivial)

theorem Chain.image {calls : List Call} {contentType : CStr} {body : List UInt8} (h : Chain calls)
    (listed : .image contentType body ∈ calls) :
    ∃ server secure uri,
      calls = [.genRequest server secure, .freedom uri, .image contentType body] := by
  unfold Chain at h
  split at h
  next => cases listed
  next => simp at listed
  next => simp at listed
  next server secure uri contentType' body' =>
    obtain ⟨rfl, rfl⟩ : contentType = contentType' ∧ body = body' := by simpa using listed
    exact ⟨server, secure, uri, rfl⟩
  next => exact h.elim

theorem OneFetch.step {e : Event} (h : OneFetch p) (moved : step opens p e = some p') :
    OneFetch p' := by
  rcases step_traffic moved with ⟨button, answer, _, same⟩ | ⟨address, ssl, _, enabled, same⟩ |
    ⟨timers, _, _, same⟩ | ⟨i, n, call, reply, _, under_way, made, goes⟩
  · exact (h.peels answer _).same same
  · have fresh := h.fresh enabled
    rcases same with same | same
    · exact h.same same
    · have none : p.underWay.filter Call.fetches = [] := by
        rcases h.one with none | ⟨last, _, newest⟩
        · exact none
        · rw [fresh] at newest
          cases newest
      refine OneFetch.same ⟨?_, ?_, (by intro fresh; cases fresh),
        .inr ⟨.genRequest address ssl, ?_, ?_⟩⟩ same
      · exact Made.send (p := { p with modFreedomDisabled := true }) h.made _
      · change Chain (p.send (.genRequest address ssl)).fetched
        rw [fetched_send, fresh]
        trivial
      · change (p.send (.genRequest address ssl)).underWay.filter _ = _
        rw [h.made.underWay_send, List.filter_append, none]
        rfl
      · change (p.send (.genRequest address ssl)).fetched.getLast? = _
        rw [fetched_send, fresh]
        rfl
  · exact (OneFetch.peel (p := { p with timers }) ⟨h.made, h.chain, h.fresh, h.one⟩ none).same same
  · obtain ⟨off, last⟩ := h.off under_way made
    cases goes with
    | stop same => exact off.same same
    | fetch _ _ same =>
      obtain ⟨newest, none⟩ := last rfl
      exact (off.next newest none rfl (h.chain.fetch newest)).same same
    | post same =>
      obtain ⟨newest, none⟩ := last rfl
      exact (off.next newest none rfl (h.chain.post newest)).same same
    | display _ _ same => exact (off.go _).same same

theorem init_oneFetch : OneFetch init where
  made := (by decide : ∀ n ∈ [0], n < 1)
  chain := trivial
  fresh := fun _ => rfl
  one := .inl rfl

/-! Alone. -/

theorem pending_go_le (p : Page) (onward : Onward) : (p.go onward).pending ≤ p.pending + 1 := by
  cases onward with
  | stop => exact Nat.le_succ _
  | wait => exact Nat.le_of_eq (Nat.add_assoc ..).symm
  | peel =>
    simp only [go, peelAway, peel, pending, send, List.length_append, List.length_singleton]
    omega

theorem pending_off {i n : ℕ} (under_way : p.xhrs[i]? = some n) :
    (p.off i).pending + 1 = p.pending := by
  have bound : i < p.xhrs.length := (List.getElem?_eq_some_iff.mp under_way).1
  simp only [pending, off, List.length_eraseIdx, bound, if_true]
  omega

theorem pending_send (p : Page) (call : Call) : (p.send call).pending = p.pending + 1 := by
  simp only [pending, send, List.length_append, List.length_singleton]
  omega

def Event.alone : Event → Prop
  | .click _ _ | .go _ _ => False
  | .timeout | .complete _ _ => True

theorem pending_step {e : Event} (alone : e.alone) (moved : step opens p e = some p') :
    p'.pending ≤ p.pending := by
  rcases step_traffic moved with ⟨button, answer, rfl, _⟩ | ⟨address, ssl, rfl, _⟩ |
    ⟨timers, _, running, same⟩ | ⟨i, n, call, reply, _, under_way, made, goes⟩
  · exact False.elim alone
  · exact False.elim alone
  · rw [same.pending, peelAway, peel, pending_send]
    simp only [pending]
    omega
  · have off := pending_off under_way
    cases goes with
    | stop same => rw [same.pending]; omega
    | fetch _ _ same => rw [same.pending, pending_send]; omega
    | post same => rw [same.pending, pending_send]; omega
    | @display _ t robj _ _ _ same =>
      have := pending_go_le (p.off i) (onward t robj)
      rw [same.pending]
      omega

theorem fetches_once (opens : CStr → Bool) {es es' : List Event} {p p' : Page}
    (run : (machine opens).exec init es = some p) (later : (machine opens).exec p es' = some p')
    (alone : ∀ e ∈ es', e.alone) :
    Chain p.fetched ∧ (p.underWay.filter Call.fetches).length ≤ 1 ∧ p'.pending ≤ p.pending := by
  have one := (machine opens).invariant (fun p e p' h moved => OneFetch.step h moved)
    init_oneFetch run
  refine ⟨one.chain, ?_, ?_⟩
  · rcases one.one with none | ⟨call, single, _⟩
    · simp [none]
    · simp [single]
  · clear run one
    induction es' generalizing p with
    | nil => cases later; exact le_rfl
    | cons e es' ih =>
      obtain ⟨next, first, rest⟩ := (machine opens).exec_cons_eq_some.mp later
      have less := pending_step (alone e List.mem_cons_self) first
      exact (ih rest fun e member => alone e (List.mem_cons_of_mem _ member)).trans less

theorem fetches_once_signed :
    ∃ p p', (machine fun _ => true).exec init (gets "signed".toList ++ [.click .signed []]) =
        some p ∧
      (machine fun _ => true).exec p [.complete 0 (Reply.named "base".toList)] = some p' ∧
      Chain p.fetched ∧ p'.pending ≤ p.pending ∧ p.fetched.length = 3 := by
  have run : (((machine fun _ => true).exec init
      (gets "signed".toList ++ [.click .signed []])).bind fun p =>
        ((machine fun _ => true).exec p [.complete 0 (Reply.named "base".toList)]).map
          fun _ => p.fetched.length) = some 3 := by
    decide +kernel
  obtain ⟨p, run, later⟩ := Option.bind_eq_some_iff.mp run
  obtain ⟨p', later, three⟩ := Option.map_eq_some_iff.mp later
  obtain ⟨chain, _, less⟩ := fetches_once (fun _ => true) run later
    (fun e member => List.mem_singleton.mp member ▸ trivial)
  exact ⟨p, p', run, later, chain, less, three⟩

end Page

end Jumpbox.Plugin.RendezvousPage
