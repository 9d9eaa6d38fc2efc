import Jumpbox.Plugin.Agreement
import Jumpbox.Rendezvous.Verified

/-! The rendezvous page and the daemon in step: one thing is under way at a time, and what
the page is told is what the daemon has. -/

namespace Jumpbox.Plugin.RendezvousPage

open Rendezvous hiding Takes Event step machine initial
open Rendezvous (Turns Settled)

namespace System

inductive Phase (ext : Ext) (s : System) : Prop
  | rest : s.page.xhrs = [] → s.page.timers = 0 → Agree ext s.page.onion s.daemon → Phase ext s
  | pause : s.page.xhrs = [] → s.page.timers = 1 → Agree ext s.page.onion s.daemon →
      s.page.onion = Peeler.pow.name → Phase ext s
  | waits {n call} : s.page.xhrs = [n] → s.page.timers = 0 → s.page.calls[n]? = some call →
      s.handled n = none → Waits ext s.page s.daemon call → Phase ext s
  | answered {n call reply} : s.page.xhrs = [n] → s.page.timers = 0 →
      s.page.calls[n]? = some call → s.handled n = some (some reply) →
      Tidings ext s.page.onion s.daemon call reply → Phase ext s
  | kept {n call} : s.page.xhrs = [n] → s.page.timers = 0 → s.page.calls[n]? = some call →
      call.arrives.isSome → s.handled n = some none → Phase ext s

structure Sync (ext : Ext) (s : System) : Prop where
  placed : s.page.Placed
  dances : s.page.Dances
  begun : s.page.Begun
  one : s.page.OneFetch
  turns : Turns s.daemon
  fresh : ∀ n, s.page.calls.length ≤ n → s.handled n = none
  phase : Phase ext s

/-- A button is pressed when nothing is under way, and calls one listener at most; the
library works, and the onion that comes is of a kind that is peeled. -/
def Careful (ext : Ext) (s : System) : Event → Prop
  | .page (.click button _) => s.page.pending = 0 ∧ (s.page.listeners button).length ≤ 1
  | .page (.go _ _) => s.page.pending = 0
  | .serve i c => Ample c ∧ ∀ r ∈ s.under i, ∀ hcl ∈ r.2.arrives,
      Peelable (served ext c s.daemon hcl).state
  | _ => True

instance (ext : Ext) (s : System) : ∀ e, Decidable (Careful ext s e)
  | .page (.click _ _) => inferInstanceAs (Decidable (_ ∧ _))
  | .page (.go _ _) => inferInstanceAs (Decidable (_ = _))
  | .page .timeout | .page (.complete _ _) | .deliver _ | .network _ _ | .work _ => isTrue trivial
  | .serve _ _ => inferInstanceAs (Decidable (_ ∧ _))

section
variable {ext : Ext} {opens : CStr → Bool} {d : Rendezvous.State} {p q : Page} {s s' : System}
  {handled : ℕ → Option (Option Reply)} {call : Call}

theorem phase_send (call : Call) (none : handled p.calls.length = none) (xhrs : p.xhrs = [])
    (timers : p.timers = 0) (same : Page.SameTraffic (p.send call) q)
    (waits : Waits ext q d call) :
    Phase ext ⟨q, d, handled⟩ := by
  refine .waits (n := p.calls.length) ?_ (same.timers.trans timers) ?_ none waits
  · rw [same.xhrs, Page.send, xhrs, List.nil_append]
  · rw [same.calls, Page.send, List.getElem?_concat_length]

theorem phase_completes {reply : Reply} {r : Except Page Page} (placed : p.Placed)
    (none : handled p.calls.length = none) (xhrs : p.xhrs = []) (timers : p.timers = 0)
    (listed : call ∈ p.calls) (tidings : Tidings ext p.onion d call reply)
    (completes : Page.Completes p opens reply call r) :
    Phase ext ⟨Page.settle r, d, handled⟩ ∧
      ∀ t ∈ displayed call reply, (querySelector t).isSome := by
  cases tidings with
  | silent quiet agree brings =>
    refine ⟨?_, fun t shows => absurd (quiet.symm.trans shows) nofun⟩
    have onion : (Page.settle r).onion = p.onion := by
      rcases Page.completes_places completes with ⟨_, places⟩ | ⟨t, _, _, _, shows, _⟩
      · exact places.onion
      · exact absurd (quiet.symm.trans shows) nofun
    have agree : Agree ext (Page.settle r).onion d := onion ▸ agree
    have goes := Page.completes_goesOn completes
    generalize Page.settle r = p' at agree goes ⊢
    cases goes with
    | stop same => exact .rest (same.xhrs.trans xhrs) (same.timers.trans timers) agree
    | fetch okay _ same => exact phase_send _ none xhrs timers same ⟨agree, brings okay⟩
    | post same =>
      refine phase_send _ none xhrs timers same ⟨agree, _, ?_, brings⟩
      rw [same.calls]
      exact List.mem_append_left _ listed
    | display shows => exact absurd (quiet.symm.trans shows) nofun
  | current some_onion shows ready settled =>
    have found := ready.displayable some_onion
    obtain ⟨robj, _, onion, traffic⟩ := completes.shown placed shows found
    have agree : Agree ext (Page.settle r).onion d := ⟨ready, onion, settled⟩
    refine ⟨?_, fun t shows' => Option.some.inj (shows.symm.trans shows') ▸ found⟩
    have isPow (goes : onward (currentName d) robj ≠ .stop) :
        (Page.settle r).onion = Peeler.pow.name := by
      by_contra other
      exact goes (if_neg (onion ▸ other))
    cases goes : onward (currentName d) robj with
    | stop =>
      rw [goes] at traffic
      exact .rest (traffic.xhrs.trans xhrs) (traffic.timers.trans timers) agree
    | wait =>
      rw [goes] at traffic
      exact .pause (traffic.xhrs.trans xhrs) (traffic.timers.trans (congrArg (· + 1) timers))
        agree (isPow (by rw [goes]; nofun))
    | peel =>
      rw [goes] at traffic
      refine phase_send _ none xhrs timers traffic (.inl ⟨agree, ?_⟩)
      rw [isPow (by rw [goes]; nofun)]
      decide
  | adopts shows parsed goes lag =>
    have found : (querySelector Peeler.pow.name).isSome := by decide
    obtain ⟨robj, parsed', onion, traffic⟩ := completes.shown placed shows found
    obtain rfl := Option.some.inj (parsed.symm.trans parsed')
    refine ⟨?_, fun t shows' => Option.some.inj (shows.symm.trans shows') ▸ found⟩
    rw [goes] at traffic
    exact phase_send _ none xhrs timers traffic (.inr ⟨rfl, onion.symm ▸ lag⟩)

theorem Phase.at_rest (h : Phase ext s) (rest : s.page.pending = 0) :
    s.page.xhrs = [] ∧ s.page.timers = 0 ∧ Agree ext s.page.onion s.daemon := by
  simp only [Page.pending, Nat.add_eq_zero_iff, List.length_eq_zero_iff] at rest
  obtain ⟨xhrs, timers⟩ := rest
  cases h with
  | rest _ _ agree => exact ⟨xhrs, timers, agree⟩
  | pause _ _ agree => exact ⟨xhrs, timers, agree⟩
  | waits one => exact absurd (one.symm.trans xhrs) (List.cons_ne_nil _ _)
  | answered one => exact absurd (one.symm.trans xhrs) (List.cons_ne_nil _ _)
  | kept one => exact absurd (one.symm.trans xhrs) (List.cons_ne_nil _ _)

theorem Phase.pending_le (h : Phase ext s) : s.page.pending ≤ 1 := by
  unfold Page.pending
  cases h with
  | rest xhrs timers => simp [xhrs, timers]
  | pause xhrs timers => simp [xhrs, timers]
  | waits xhrs timers => simp [xhrs, timers]
  | answered xhrs timers => simp [xhrs, timers]
  | kept xhrs timers => simp [xhrs, timers]

theorem sends_cases (answer : CStr) (l : Listener) :
    l.sends answer = [] ∨ l ≠ .dance ∧ ∃ action, l.sends answer = [.peel action] := by
  cases l with
  | dance => exact .inl rfl
  | peelCaptcha =>
    by_cases none : answer = []
    · exact .inl (if_pos none)
    · exact .inr ⟨nofun, _, if_neg none⟩
  | _ => exact .inr ⟨nofun, _, rfl⟩

theorem Sync.click {button : Peeler} {answer : CStr} (h : Sync ext s)
    (rest : s.page.pending = 0) (one : (s.page.listeners button).length ≤ 1)
    (pressable : s.page.pressable button) :
    Phase ext { s with page := (s.page.listeners button).foldl (Page.fire answer) s.page } := by
  obtain ⟨xhrs, timers, agree⟩ := h.phase.at_rest rest
  have places := Page.foldl_fire_places answer (s.page.listeners button) s.page
  have traffic := Page.foldl_fire_traffic answer (s.page.listeners button) s.page
  generalize page_eq : (s.page.listeners button).foldl (Page.fire answer) s.page = page
    at places traffic ⊢
  have agree : Agree ext page.onion s.daemon := places.onion.symm ▸ agree
  have silent (same : Page.SameTraffic s.page page) : Phase ext { s with page } :=
    .rest (same.xhrs.trans xhrs) (same.timers.trans timers) agree
  match listeners : s.page.listeners button, one with
  | [], _ =>
    rw [listeners] at traffic
    exact silent traffic
  | [l], _ =>
    rw [listeners, List.flatMap_singleton] at traffic
    rcases sends_cases answer l with none | ⟨other, action, sends⟩
    · rw [none] at traffic
      exact silent traffic
    · rw [sends] at traffic
      refine phase_send _ (h.fresh _ le_rfl) xhrs timers traffic (.inl ⟨agree, fun isBase => ?_⟩)
      have among : button ∈ s.page.controls := by
        simp only [Page.pressable, Bool.and_eq_true, decide_eq_true_eq] at pressable
        exact pressable.1
      rw [h.placed.shown, ← places.onion, isBase] at among
      obtain rfl : button = .base := List.mem_singleton.mp among
      exact other (h.dances l (listeners ▸ List.mem_cons_self))

theorem Sync.go {address : CStr} {ssl : Bool} (h : Sync ext s) (rest : s.page.pending = 0) :
    Phase ext { s with page := s.page.sendUrl address ssl } := by
  obtain ⟨xhrs, timers, agree⟩ := h.phase.at_rest rest
  unfold Page.sendUrl
  split
  · exact .rest xhrs timers agree
  · exact phase_send (p := { s.page with modFreedomDisabled := true }) (.genRequest address ssl)
      (h.fresh _ le_rfl) xhrs timers {} agree

theorem Sync.timeout {timers : ℕ} (h : Sync ext s) (running : s.page.timers = timers + 1) :
    Phase ext { s with page := { s.page with timers }.peelAway } := by
  cases h.phase with
  | pause xhrs one agree isPow =>
    obtain rfl : timers = 0 := Nat.succ_injective (running.symm.trans one)
    have away : s.page.onion ≠ Peeler.base.name := by
      rw [isPow]
      decide
    exact phase_send (p := { s.page with timers := 0 }) (.peel none) (h.fresh _ le_rfl) xhrs rfl {}
      (.inl ⟨agree, away⟩)
  | rest _ none => exact absurd (running.symm.trans none) (Nat.succ_ne_zero _)
  | waits _ none => exact absurd (running.symm.trans none) (Nat.succ_ne_zero _)
  | answered _ none => exact absurd (running.symm.trans none) (Nat.succ_ne_zero _)
  | kept _ none => exact absurd (running.symm.trans none) (Nat.succ_ne_zero _)

theorem Sync.page {e : Page.Event} {page : Page} (h : Sync ext s) (known : s.page.Known e)
    (moved : s.page.step opens e = some page) (phase : Phase ext { s with page }) :
    Sync ext { s with page } where
  placed := (h.placed.step moved).1 known
  dances := h.dances.step moved
  begun := h.begun.step h.placed.controls_nil moved
  one := h.one.step moved
  turns := h.turns
  fresh n old := h.fresh n ((Page.step_calls moved).trans old)
  phase := phase

theorem under_eq {i n : ℕ} (found : s.under i = some (n, call)) :
    s.page.xhrs[i]? = some n ∧ s.page.calls[n]? = some call := by
  obtain ⟨m, under_way, made⟩ := Option.bind_eq_some_iff.mp found
  obtain ⟨call', made, same⟩ := Option.map_eq_some_iff.mp made
  cases same
  exact ⟨under_way, made⟩

theorem under_way_singleton {i n m : ℕ} {xhrs : List ℕ} (one : xhrs = [n])
    (found : xhrs[i]? = some m) : i = 0 ∧ m = n := by
  subst one
  cases i with
  | zero => exact ⟨rfl, (Option.some.inj found).symm⟩
  | succ i => cases found

theorem Sync.complete {i n : ℕ} {reply : Reply} {page : Page} (h : Sync ext s)
    (under_way : s.page.xhrs = [n]) (timers : s.page.timers = 0)
    (made : s.page.calls[n]? = some call) (found : s.page.xhrs[i]? = some n)
    (tidings : Tidings ext s.page.onion s.daemon call reply)
    (moved : s.page.step opens (.complete i reply) = some page) :
    Sync ext { s with page } := by
  obtain ⟨rfl, _⟩ := under_way_singleton under_way found
  have placed : (s.page.off 0).Placed := h.placed.same {}
  have off : (s.page.off 0).xhrs = [] := by rw [Page.off, under_way, List.eraseIdx_cons_zero]
  obtain ⟨phase, shown⟩ := phase_completes (p := s.page.off 0) placed
    (h.fresh _ le_rfl) off timers (List.mem_of_getElem? made) tidings
    (Page.onreadystatechange_completes _ opens reply call)
  have settled : page =
      Page.settle ((s.page.off 0).onreadystatechange opens reply call) := by
    simp only [Page.step, found, Option.bind_some, made, Option.map_some, Option.some.injEq]
      at moved
    exact moved.symm
  refine h.page ?_ moved (settled ▸ phase)
  intro call' same t shows
  rw [found, Option.bind_some, made] at same
  obtain rfl := Option.some.inj same
  exact .inr (.inr (shown t shows))

inductive Step (opens : CStr → Bool) (ext : Ext) (s : System) : Event → System → Prop
  | page {e page} : e.own → s.page.step opens e = some page →
      Step opens ext s (.page e) { s with page }
  | serve {i n c call hcl} : s.under i = some (n, call) → call.arrives = some hcl →
      s.handled n = none → Step opens ext s (.serve i c) {
        s with
        daemon := (served ext c s.daemon hcl).state
        handled := Function.update s.handled n
          (some (replyOf (served ext c s.daemon hcl).outs)) }
  | deliver {i n call reply page} : s.under i = some (n, call) →
      s.handled n = some (some reply) → s.page.step opens (.complete i reply) = some page →
      Step opens ext s (.deliver i) { s with page }
  | network {i n uri reply page} : s.under i = some (n, .freedom uri) →
      s.page.step opens (.complete i reply) = some page →
      Step opens ext s (.network i reply) { s with page }
  | work {e daemon} : ofWorker e → Rendezvous.step ext s.daemon e = some daemon →
      Step opens ext s (.work e) { s with daemon }

theorem step_cases {e : Event} (moved : step opens ext s e = some s') :
    Step opens ext s e s' := by
  cases e with
  | page e =>
    simp only [step, Option.ite_none_right_eq_some] at moved
    obtain ⟨own, moved⟩ := moved
    obtain ⟨page, stepped, rfl⟩ := Option.map_eq_some_iff.mp moved
    exact .page own stepped
  | serve i c =>
    simp only [step] at moved
    split at moved
    next => cases moved
    next n call found =>
      split at moved
      next hcl arrives none =>
        cases moved
        exact .serve found arrives none
      next => cases moved
  | deliver i =>
    simp only [step] at moved
    split at moved
    next => cases moved
    next n call found =>
      split at moved
      next reply handled =>
        obtain ⟨page, stepped, rfl⟩ := Option.map_eq_some_iff.mp moved
        exact .deliver found handled stepped
      next => cases moved
  | network i reply =>
    simp only [step] at moved
    split at moved
    next n uri found =>
      obtain ⟨page, stepped, rfl⟩ := Option.map_eq_some_iff.mp moved
      exact .network found stepped
    next => cases moved
  | work e =>
    simp only [step, Option.ite_none_right_eq_some] at moved
    obtain ⟨worker, moved⟩ := moved
    obtain ⟨daemon, stepped, rfl⟩ := Option.map_eq_some_iff.mp moved
    exact .work worker stepped

theorem Sync.serve {i n : ℕ} {c : Choice} {hcl : HttpsrvClient} (reads : ReadsPeel ext)
    (h : Sync ext s) (ample : Ample c) (found : s.under i = some (n, call))
    (arrives : call.arrives = some hcl) (none : s.handled n = none)
    (peelable : Peelable (served ext c s.daemon hcl).state) :
    Sync ext {
      s with
      daemon := (served ext c s.daemon hcl).state
      handled := Function.update s.handled n
        (some (replyOf (served ext c s.daemon hcl).outs)) } := by
  obtain ⟨under_way, made⟩ := under_eq found
  have old : n < s.page.calls.length := (List.getElem?_eq_some_iff.mp made).1
  have stored : Function.update s.handled n (some (replyOf (served ext c s.daemon hcl).outs)) n =
      some (replyOf (served ext c s.daemon hcl).outs) := Function.update_self ..
  refine ⟨h.placed, h.dances, h.begun, h.one, turns_served h.turns c hcl, fun m new => ?_, ?_⟩
  · exact (Function.update_of_ne (ne_of_gt (old.trans_le new)) _ _).trans (h.fresh m new)
  · have contradiction {reply : Option Reply} (handled : s.handled n = some reply) : False :=
      absurd (none.symm.trans handled) nofun
    cases h.phase with
    | rest empty => exact absurd (empty ▸ under_way) nofun
    | pause empty => exact absurd (empty ▸ under_way) nofun
    | waits one timers made' _ waits =>
      obtain ⟨_, rfl⟩ := under_way_singleton one under_way
      obtain rfl := Option.some.inj (made'.symm.trans made)
      cases sent : replyOf (served ext c s.daemon hcl).outs with
      | none =>
        rw [sent] at stored
        exact .kept one timers made (arrives ▸ rfl) stored
      | some reply =>
        rw [sent] at stored
        exact .answered one timers made stored
          (waits.served reads ample h.turns arrives peelable sent)
    | answered one _ _ handled =>
      obtain ⟨_, rfl⟩ := under_way_singleton one under_way
      exact (contradiction handled).elim
    | kept one _ _ _ handled =>
      obtain ⟨_, rfl⟩ := under_way_singleton one under_way
      exact (contradiction handled).elim

theorem Sync.work {e : Rendezvous.Event} {daemon : Rendezvous.State} (h : Sync ext s)
    (worker : ofWorker e) (moved : Rendezvous.step ext s.daemon e = some daemon) :
    Sync ext { s with daemon } := by
  have same := work_sameOnion worker moved
  refine ⟨h.placed, h.dances, h.begun, h.one, h.turns.step moved, h.fresh, ?_⟩
  cases h.phase with
  | rest xhrs timers agree => exact .rest xhrs timers (agree.same h.turns same)
  | pause xhrs timers agree isPow => exact .pause xhrs timers (agree.same h.turns same) isPow
  | waits xhrs timers made none waits =>
    exact .waits xhrs timers made none (waits.same h.turns same)
  | answered xhrs timers made handled tidings =>
    exact .answered xhrs timers made handled (tidings.same h.turns same)
  | kept xhrs timers made arrives handled => exact .kept xhrs timers made arrives handled

theorem Sync.own {e : Page.Event} {page : Page} (h : Sync ext s) (own : e.own)
    (careful : Careful ext s (.page e)) (moved : s.page.step opens e = some page) :
    Sync ext { s with page } := by
  cases e with
  | click button answer =>
    refine h.page (e := .click button answer) trivial moved ?_
    cases Page.step_cases moved with
    | click pressable => exact h.click careful.1 careful.2 pressable
  | go address ssl =>
    refine h.page (e := .go address ssl) trivial moved ?_
    cases Page.step_cases moved with
    | go => exact h.go careful
  | timeout =>
    refine h.page (e := .timeout) trivial moved ?_
    cases Page.step_cases moved with
    | timeout running => exact h.timeout running
  | complete => cases own

theorem Sync.deliver {i n : ℕ} {reply : Reply} {page : Page} (h : Sync ext s)
    (found : s.under i = some (n, call)) (handled : s.handled n = some (some reply))
    (moved : s.page.step opens (.complete i reply) = some page) : Sync ext { s with page } := by
  obtain ⟨under_way, made⟩ := under_eq found
  cases h.phase with
  | rest empty => exact absurd (empty ▸ under_way) nofun
  | pause empty => exact absurd (empty ▸ under_way) nofun
  | waits one _ _ none =>
    obtain ⟨_, rfl⟩ := under_way_singleton one under_way
    exact absurd (none.symm.trans handled) nofun
  | answered one timers made' handled' tidings =>
    obtain ⟨_, rfl⟩ := under_way_singleton one under_way
    obtain rfl := Option.some.inj (made'.symm.trans made)
    obtain rfl := Option.some.inj (Option.some.inj (handled'.symm.trans handled))
    exact h.complete one timers made under_way tidings moved
  | kept one _ _ _ handled' =>
    obtain ⟨_, rfl⟩ := under_way_singleton one under_way
    exact absurd (handled'.symm.trans handled) nofun

theorem Sync.network {i n : ℕ} {uri : CStr} {reply : Reply} {page : Page} (h : Sync ext s)
    (found : s.under i = some (n, .freedom uri))
    (moved : s.page.step opens (.complete i reply) = some page) : Sync ext { s with page } := by
  obtain ⟨under_way, made⟩ := under_eq found
  cases h.phase with
  | rest empty => exact absurd (empty ▸ under_way) nofun
  | pause empty => exact absurd (empty ▸ under_way) nofun
  | waits one timers made' _ waits =>
    obtain ⟨_, rfl⟩ := under_way_singleton one under_way
    obtain rfl := Option.some.inj (made'.symm.trans made)
    exact h.complete one timers made under_way (.silent rfl waits.1 waits.2) moved
  | answered one timers made' handled tidings =>
    obtain ⟨_, rfl⟩ := under_way_singleton one under_way
    obtain rfl := Option.some.inj (made'.symm.trans made)
    refine h.complete one timers made under_way ?_ moved
    cases tidings with
    | silent quiet agree brings => exact .silent quiet agree brings
    | current _ shows => cases shows
    | adopts shows => cases shows
  | kept one _ made' arrives =>
    obtain ⟨_, rfl⟩ := under_way_singleton one under_way
    obtain rfl := Option.some.inj (made'.symm.trans made)
    cases arrives

theorem Sync.step {e : Event} (reads : ReadsPeel ext) (h : Sync ext s) (careful : Careful ext s e)
    (moved : System.step opens ext s e = some s') : Sync ext s' := by
  cases step_cases moved with
  | page own stepped => exact h.own own careful stepped
  | serve found arrives none =>
    exact h.serve reads careful.1 found arrives none (careful.2 _ found _ arrives)
  | deliver found handled stepped => exact h.deliver found handled stepped
  | network found stepped => exact h.network found stepped
  | work worker stepped => exact h.work worker stepped

theorem loaded_sync (turns : Turns d) : Sync ext (loaded d) where
  placed := Page.placed_init
  dances := Page.init_dances
  begun := Page.init_begun
  one := Page.init_oneFetch
  turns := turns
  fresh _ _ := rfl
  phase := Phase.waits (n := 0) rfl rfl (show _ = some Call.reset from rfl) rfl rfl

theorem sync_always (opens : CStr → Bool) {ds : List Rendezvous.Event} {es : List Event}
    (reads : ReadsPeel ext)
    (used : (Rendezvous.machine ext).exec Rendezvous.initial ds = some d)
    (careful : (machine opens ext).Meets (Careful ext) (loaded d) es) :
    (machine opens ext).Always (Sync ext) (loaded d) es :=
  (machine opens ext).always_of_meets
    (fun _ _ _ sync careful moved => sync.step reads careful moved)
    (loaded_sync (Rendezvous.turns_of_exec used)) careful

theorem shows_current (opens : CStr → Bool) {ds : List Rendezvous.Event} {es : List Event}
    (reads : ReadsPeel ext)
    (used : (Rendezvous.machine ext).exec Rendezvous.initial ds = some d)
    (careful : (machine opens ext).Meets (Careful ext) (loaded d) es) :
    (machine opens ext).Always (fun s => s.page.pending ≤ 1 ∧
      (s.page.pending = 0 → s.page.onion = currentName s.daemon ∧
        s.page.controls = (querySelector (currentName s.daemon)).toList)) (loaded d) es := by
  refine (sync_always opens reads used careful).imp _ fun s sync => ⟨sync.phase.pending_le, ?_⟩
  intro rest
  obtain ⟨_, _, agree⟩ := sync.phase.at_rest rest
  exact ⟨agree.onion, agree.onion ▸ sync.placed.shown⟩

/-- A library that reads what the page posts, and finds `onion` in each image and a NET under
each proof of work. -/
def pageLibrary (onion : Onion) : Ext :=
  { imageLibrary onion with
    jsonLoads := fun text =>
      if text = "\x7b\x7d".toList then some (.object [])
      else if text = genRequestBody "onions.org".toList false then
        some (.object [("server".toList, .string "onions.org".toList)])
      else none
    defiantPowAux := fun _ _ _ => some netOnion
    generateDefiantRequestUrl := fun _ password server _ => .ok (server ++ '/' :: password) }

theorem pageLibrary_reads (onion : Onion) : ReadsPeel (pageLibrary onion) := by
  have loaded : (pageLibrary onion).jsonLoads "\x7b\x7d".toList = some (.object []) := by
    unfold pageLibrary
    dsimp only
    rw [if_pos rfl]
  exact ⟨_, loaded, rfl⟩

def getsImage : List Event :=
  [.serve 0 {}, .deliver 0, .page (.go "onions.org".toList false),
    .serve 0 { randomPassword := "secret".toList }, .deliver 0,
    .network 0 { status := 200, response := some [7] }]

theorem shows_current_base :
    ∃ s, (machine (fun _ => true) (pageLibrary netOnion)).exec (loaded Rendezvous.initial)
        (getsImage ++ [.serve 0 {}, .deliver 0]) = some s ∧ s.page.pending = 0 ∧
      currentName s.daemon = Peeler.base.name ∧ s.page.controls = [.base] := by
  have run : ((machine (fun _ => true) (pageLibrary netOnion)).exec (loaded Rendezvous.initial)
      (getsImage ++ [.serve 0 {}, .deliver 0])).map
        (fun s => (s.page.pending, currentName s.daemon)) = some (0, Peeler.base.name) := by
    decide +kernel
  obtain ⟨s, run, same⟩ := Option.map_eq_some_iff.mp run
  obtain ⟨rest, name⟩ := Prod.mk.inj same
  have always := shows_current (fun _ => true) (pageLibrary_reads netOnion)
    (show (Rendezvous.machine _).exec Rendezvous.initial [] = some _ from rfl)
    (show (machine (fun _ => true) (pageLibrary netOnion)).Meets (Careful (pageLibrary netOnion))
      (loaded Rendezvous.initial) (getsImage ++ [.serve 0 {}, .deliver 0]) by decide +kernel)
  obtain ⟨_, shows⟩ := always.finish _ run
  refine ⟨s, run, rest, name, (shows rest).2.trans ?_⟩
  rw [name]
  rfl

theorem image_password (opens : CStr → Bool) {ds : List Rendezvous.Event} {es : List Event}
    (reads : ReadsPeel ext)
    (used : (Rendezvous.machine ext).exec Rendezvous.initial ds = some d)
    (careful : (machine opens ext).Meets (Careful ext) (loaded d) es) :
    (machine opens ext).Always (fun s => ∀ i n contentType body,
      s.under i = some (n, .image contentType body) → s.handled n = none →
        ∃ server secure uri, MadeWith ext s.daemon uri ∧
          s.page.fetched = [.genRequest server secure, .freedom uri, .image contentType body])
      (loaded d) es := by
  refine (sync_always opens reads used careful).imp _ fun s sync => ?_
  intro i n contentType body found none
  obtain ⟨under_way, made⟩ := under_eq found
  have listed : .image contentType body ∈ s.page.fetched :=
    List.mem_filter.mpr ⟨List.mem_of_getElem? made, rfl⟩
  obtain ⟨server, secure, uri, fetched⟩ := sync.one.chain.image listed
  refine ⟨server, secure, uri, ?_, fetched⟩
  cases sync.phase with
  | rest empty => exact absurd (empty ▸ under_way) nofun
  | pause empty => exact absurd (empty ▸ under_way) nofun
  | waits one timers made' _ waits =>
    obtain ⟨_, rfl⟩ := under_way_singleton one under_way
    obtain rfl := Option.some.inj (made'.symm.trans made)
    obtain ⟨_, other, asked, with_password⟩ := waits
    have asked : .freedom other ∈ s.page.fetched := List.mem_filter.mpr ⟨asked, rfl⟩
    rw [fetched] at asked
    obtain rfl : other = uri := by simpa using asked
    exact with_password
  | answered one _ _ handled =>
    obtain ⟨_, rfl⟩ := under_way_singleton one under_way
    exact absurd (none.symm.trans handled) nofun
  | kept one _ _ _ handled =>
    obtain ⟨_, rfl⟩ := under_way_singleton one under_way
    exact absurd (none.symm.trans handled) nofun

theorem image_password_secret :
    ∃ s, (machine (fun _ => true) (pageLibrary netOnion)).exec (loaded Rendezvous.initial)
        getsImage = some s ∧ s.under 0 = some (3, .image "null".toList [7]) ∧
      ∃ server secure uri, MadeWith (pageLibrary netOnion) s.daemon uri ∧
        s.page.fetched =
          [.genRequest server secure, .freedom uri, .image "null".toList [7]] := by
  have run : ((machine (fun _ => true) (pageLibrary netOnion)).exec (loaded Rendezvous.initial)
      getsImage).map (fun s => (s.under 0, (s.handled 3).isNone)) =
        some (some (3, .image "null".toList [7]), true) := by
    decide +kernel
  obtain ⟨s, run, same⟩ := Option.map_eq_some_iff.mp run
  obtain ⟨found, none⟩ := Prod.mk.inj same
  have always := image_password (fun _ => true) (pageLibrary_reads netOnion)
    (show (Rendezvous.machine _).exec Rendezvous.initial [] = some _ from rfl)
    (show (machine (fun _ => true) (pageLibrary netOnion)).Meets (Careful (pageLibrary netOnion))
      (loaded Rendezvous.initial) getsImage by decide +kernel)
  have none := Option.isNone_iff_eq_none.mp none
  exact ⟨s, run, found, always.finish _ run 0 3 _ _ found none⟩

end

end System

end Jumpbox.Plugin.RendezvousPage
