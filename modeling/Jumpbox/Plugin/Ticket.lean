import Jumpbox.Plugin.Sync

/-! When the page is left with the base, its NET has been passed to the dance if the onion
came out of a proof of work, and is not passed on any more if it did not. -/

namespace Jumpbox.Plugin.RendezvousPage

open Rendezvous hiding Takes Event step machine initial
open Rendezvous (Turns Settled Adopted)

namespace System

variable {ext : Ext} {opens : CStr → Bool} {s s' : System} {calls : List Call} {o : Ptr}

structure Based (ext : Ext) (calls : List Call) (o : Ptr) (s : System) : Prop where
  placed : s.page.Placed
  dances : s.page.Dances
  begun : s.page.modFreedomDisabled
  calls : s.page.calls = calls
  xhrs : s.page.xhrs = []
  timers : s.page.timers = 0
  shown : s.page.onion = Peeler.base.name
  turns : Turns s.daemon
  current : s.daemon.lCurrentOnion = some o
  type : (s.daemon.mem o).onion.type = base
  settled : Settled ext s.daemon

theorem Sync.based (h : Sync ext s) (rest : s.page.pending = 0)
    (shown : s.page.onion = Peeler.base.name) : ∃ o, Based ext s.page.calls o s := by
  obtain ⟨xhrs, timers, agree⟩ := h.phase.at_rest rest
  have name : currentName s.daemon = Peeler.base.name := agree.onion.symm.trans shown
  have some_onion : s.daemon.lCurrentOnion.isSome := by
    by_contra none
    rw [currentName, if_neg none] at name
    cases name
  obtain ⟨o, current⟩ := Option.isSome_iff_exists.mp some_onion
  refine ⟨o, h.placed, h.dances, ?_, rfl, xhrs, timers, shown, h.turns, current,
    (currentName_base agree.toReady current).mp name, agree.settled⟩
  by_contra enabled
  have nothing := (h.begun (Bool.not_eq_true _ ▸ enabled)).1
  rw [shown] at nothing
  cases nothing

theorem Based.click {button : Peeler} (answer : CStr) (h : Based ext calls o s)
    (pressable : s.page.pressable button) :
    Page.SameTraffic s.page ((s.page.listeners button).foldl (Page.fire answer) s.page) := by
  have among : button ∈ s.page.controls := by
    simp only [Page.pressable, Bool.and_eq_true, decide_eq_true_eq] at pressable
    exact pressable.1
  rw [h.placed.shown, h.shown] at among
  obtain rfl : button = .base := List.mem_singleton.mp among
  have nothing : (s.page.listeners .base).flatMap (Listener.sends answer) = [] := by
    refine List.flatMap_eq_nil_iff.mpr fun l listens => ?_
    rw [h.dances l listens]
    rfl
  have traffic := Page.foldl_fire_traffic answer (s.page.listeners .base) s.page
  rwa [nothing] at traffic

theorem Based.page {e : Page.Event} {page : Page} (h : Based ext calls o s) (own : e.own)
    (moved : s.page.step opens e = some page) : Based ext calls o { s with page } := by
  have dances := h.dances.step moved
  have placed := fun known => (h.placed.step moved).1 known
  cases Page.step_cases moved with
  | @click button answer pressable =>
    have same := h.click answer pressable
    have places := Page.foldl_fire_places answer (s.page.listeners button) s.page
    exact ⟨placed trivial, dances, same.disabled.trans h.begun, same.calls.trans h.calls,
      same.xhrs.trans h.xhrs, same.timers.trans h.timers, places.onion.trans h.shown, h.turns,
      h.current, h.type, h.settled⟩
  | go _ enabled => exact absurd (h.begun.symm.trans enabled) nofun
  | timeout running => exact absurd (h.timers.symm.trans running) (Nat.succ_ne_zero _).symm
  | complete => cases own

theorem Based.step {e : Event} (h : Based ext calls o s)
    (moved : System.step opens ext s e = some s') : Based ext calls o s' := by
  have idle {i : ℕ} {r : ℕ × Call} (found : s.under i = some r) : False := by
    unfold under at found
    rw [h.xhrs] at found
    cases found
  cases step_cases moved with
  | page own stepped => exact h.page own stepped
  | serve found => exact (idle found).elim
  | deliver found => exact (idle found).elim
  | network found => exact (idle found).elim
  | work worker stepped =>
    have same := work_sameOnion worker stepped
    exact ⟨h.placed, h.dances, h.begun, h.calls, h.xhrs, h.timers, h.shown, h.turns.step stepped,
      same.current.trans h.current, by rw [same.cell h.turns h.current]; exact h.type,
      same.settled h.turns h.settled⟩

theorem base_ticket (opens : CStr → Bool) {ds : List Rendezvous.Event} {d : Rendezvous.State}
    {es es' : List Event} (reads : ReadsPeel ext)
    (used : (Rendezvous.machine ext).exec Rendezvous.initial ds = some d)
    (run : (machine opens ext).exec (loaded d) es = some s)
    (careful : (machine opens ext).Meets (Careful ext) (loaded d) es)
    (rest : s.page.pending = 0) (shown : s.page.onion = Peeler.base.name)
    (later : (machine opens ext).exec s es' = some s') :
    s'.page.calls = s.page.calls ∧ ∃ o, s'.daemon.lCurrentOnion = some o ∧
      (o ∈ s'.daemon.hist.danced ↔
        Adopted s'.daemon o ∧ (ext.jsonLoads (nep (s'.daemon.mem o).onion)).isSome) := by
  have sync := (sync_always opens reads used careful).finish _ run
  obtain ⟨o, based⟩ := sync.based rest shown
  have based := (machine opens ext).invariant (fun _ _ _ h moved => Based.step h moved) based later
  exact ⟨based.calls, o, based.current, based.settled o based.current based.type⟩

def workOnion : Onion := { size := 19, type := pow, dataSize := 3, contents := [1, 2, 3] }

def worksItOut : List Event :=
  getsImage ++ [.serve 0 {}, .deliver 0, .page (.click .pow []), .serve 0 {}, .deliver 0] ++
    List.replicate 7 (.work (.worker 0)) ++
    [.page .timeout, .serve 0 {}, .deliver 0, .serve 0 {}, .deliver 0]

theorem base_ticket_pow :
    ∃ s s', (machine (fun _ => true) (pageLibrary workOnion)).exec (loaded Rendezvous.initial)
        worksItOut = some s ∧
      (machine (fun _ => true) (pageLibrary workOnion)).exec s [.page (.click .base [])] =
        some s' ∧
      s'.page.dances = 1 ∧ s'.page.calls = s.page.calls ∧ 1 ∈ s'.daemon.hist.danced := by
  have run : ((machine (fun _ => true) (pageLibrary workOnion)).exec (loaded Rendezvous.initial)
      worksItOut).bind (fun s =>
        ((machine (fun _ => true) (pageLibrary workOnion)).exec s [.page (.click .base [])]).map
          fun s' => decide (s.page.pending = 0 ∧ s.page.onion = Peeler.base.name ∧
            s'.page.dances = 1 ∧ s'.daemon.lCurrentOnion = some 1 ∧ Adopted s'.daemon 1 ∧
            (s'.daemon.mem 1).onion = netOnion)) = some true := by
    decide +kernel
  obtain ⟨s, run, later⟩ := Option.bind_eq_some_iff.mp run
  obtain ⟨s', later, same⟩ := Option.map_eq_some_iff.mp later
  obtain ⟨rest, shown, dances, current, adopted, inner⟩ := of_decide_eq_true same
  obtain ⟨calls, o, current', ticket⟩ := base_ticket (fun _ => true)
    (pageLibrary_reads workOnion)
    (show (Rendezvous.machine _).exec Rendezvous.initial [] = some _ from rfl) run
    (show (machine (fun _ => true) (pageLibrary workOnion)).Meets (Careful (pageLibrary workOnion))
      (loaded Rendezvous.initial) worksItOut by decide +kernel) rest shown later
  obtain rfl := Option.some.inj (current.symm.trans current')
  refine ⟨s, s', run, later, dances, calls, ticket.mpr ⟨adopted, ?_⟩⟩
  rw [inner]
  decide +kernel

end System

end Jumpbox.Plugin.RendezvousPage
