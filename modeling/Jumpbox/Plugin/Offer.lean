import Jumpbox.Plugin.Dancing

/-! What the page makes of the answers of the daemon, and when it offers to launch: only
once the end of a dance has been recorded, whatever else goes on. -/

namespace Jumpbox.Plugin.AcsPage

open Acs (AcsMsg Desk desking Env Staffed Modest Ended Silent statusName)
open RendezvousPage (Reply)
open StatusBar (text)
open Jumpbox.Plugin.AcsPage.Page (verdict)

section

variable {decode : CStr → Option CStr} {reply : Reply} {outs : List Out}

/-! What the page makes of an answer. -/

def told (decode : CStr → Option CStr) (st msg : CStr) : CStr × CStr :=
  match decode msg with
  | some msg => (st, msg)
  | none => ("error".toList, "Error".toList)

theorem setStatusJson_resultBody (st msg : CStr) :
    (setStatusJson (resultBody decode st msg)).st = (told decode st msg).1 ∧
      (setStatusJson (resultBody decode st msg)).msg = text (told decode st msg).2 := by
  unfold resultBody told
  cases decode msg with
  | some msg =>
    dsimp only
    rw [setStatusJson_resultText]
    exact ⟨rfl, rfl⟩
  | none => exact ⟨by with_unfolding_all rfl, by with_unfolding_all rfl⟩

theorem verdict_of_result {st msg : CStr}
    (sent : replyOf decode [.result st msg, .done] = some reply) :
    (verdict reply).st = (told decode st msg).1 ∧
      (verdict reply).msg = text (told decode st msg).2 := by
  have okay : reply.status = 200 ∧ reply.responseText = resultBody decode st msg := by
    cases sent
    exact ⟨rfl, List.append_nil _⟩
  rw [verdict, if_pos okay.1, okay.2]
  exact setStatusJson_resultBody st msg

theorem verdict_of_modest (modest : Modest outs) (sent : replyOf decode outs = some reply) :
    (verdict reply).st ≠ "done".toList ∧ ∃ msg, (verdict reply).msg = text msg := by
  cases modest with
  | @result st going msg =>
    obtain ⟨heard, said⟩ := verdict_of_result sent
    refine ⟨?_, _, said⟩
    rw [heard, told]
    cases decode msg with
    | some msg =>
      cases st with
      | done => exact absurd rfl going
      | ok => exact (by decide : "ok".toList ≠ "done".toList)
      | err => exact (by decide : "error".toList ≠ "done".toList)
    | none => exact (by decide : "error".toList ≠ "done".toList)
  | error msg =>
    cases sent
    exact ⟨(by decide : "error".toList ≠ "done".toList), _, rfl⟩

end

namespace System

variable {b : Browser} {env : Env} {decode : CStr → Option CStr} {s s' : System}
  {desks desks' : List Desk} {e : Event}

structure Unsaid (s : System) (desks : List Desk) : Prop where
  silent : Silent s.daemon.shared
  brings : ∀ m, .brings m ∈ desks → m.status ≠ .done
  course : ∀ n outs, s.course n = .answered outs → Modest outs
  launch : s.page.launch = false

theorem own_launch {p p' : Page} {e : Page.Event} (own : e.own = true)
    (moved : p.step b e = some p') (hides : p.launch = false) : p'.launch = false := by
  cases Page.step_cases moved with
  | nothing _ same => exact same.launch.trans hides
  | sets _ _ same => exact same.launch.trans hides
  | polls _ same => exact same.launch.trans hides
  | opens shown => cases hides.symm.trans shown
  | restarts shown => cases hides.symm.trans shown
  | goesOn => cases own
  | ends => cases own

theorem complete_launch {p p' : Page} {i : ℕ} {reply : Reply}
    (moved : p.step b (.complete i reply) = some p') (other : (verdict reply).st ≠ "done".toList)
    (hides : p.launch = false) : p'.launch = false := by
  cases Page.step_cases moved with
  | goesOn _ _ same => exact same.launch.trans hides
  | ends _ _ said =>
    rw [said.launch, Page.shows, decide_eq_false other, Bool.and_false, Bool.or_false]
    exact hides

theorem Step.ended (step : Step b env decode s desks e s' desks')
    (h : Ended s.daemon.shared) : Ended s'.daemon.shared := by
  cases step with
  | acts _ _ _ performed => exact (Acs.silent_of_exec performed).1 h
  | begins _ _ _ same => exact (Acs.silent_iff same).1.mpr h
  | shutdown same => exact (Acs.silent_iff same).1.mpr h
  | serve _ _ _ _ _ same => exact (Acs.silent_iff same).1.mpr h
  | page | deliver | fail => exact h

theorem Unsaid.step (h : Unsaid s desks) (step : Step b env decode s desks e s' desks') :
    Ended s'.daemon.shared ∨ Unsaid s' desks' := by
  cases step with
  | page own moved => exact .inr ⟨h.silent, h.brings, h.course, own_launch own moved h.launch⟩
  | @acts t c role o next desk x shared threads at_t desk_t may performed =>
    refine ((Acs.silent_of_exec performed).2 h.silent).imp_right fun ⟨silent, found⟩ => ?_
    have own (m : AcsMsg) (has : desk = .brings m) : m.status ≠ .done :=
      h.brings m (has ▸ List.mem_of_getElem? desk_t)
    refine ⟨silent, fun m member => ?_, fun n outs answered => ?_, h.launch⟩
    · rcases List.mem_or_eq_of_mem_set member with old | new
      · exact h.brings m old
      · exact (Acs.brings_of_after new.symm).elim (own m) (found m)
    · rcases hears_cases s t o x n with same | ⟨_, after⟩
      · exact h.course n outs (same.symm.trans answered)
      · obtain ⟨hcl, rfl⟩ := answer_of_after (after.trans (congrArg some answered))
        rcases Acs.modest_of_may may with modest | ⟨m, has, rfl⟩
        · exact modest
        · exact AcsMsg.modest (own m has)
  | begins given _ _ same =>
    refine .inr ⟨(Acs.silent_iff same).2.mpr h.silent, fun m member => ?_, h.course, h.launch⟩
    rcases List.mem_or_eq_of_mem_set member with old | rfl
    · exact h.brings m old
    · exact absurd given (Acs.begins_ne_brings m)
  | shutdown same => exact .inr ⟨(Acs.silent_iff same).2.mpr h.silent, h.brings, h.course, h.launch⟩
  | @serve i t n call hcl course old daemon _ _ taken _ _ same =>
    refine .inr ⟨(Acs.silent_iff same).2.mpr h.silent, fun m member => ?_,
      fun k outs answered => ?_, h.launch⟩
    · rcases List.mem_or_eq_of_mem_set member with old | new
      · exact h.brings m old
      · cases call <;> cases new
    · dsimp only at answered
      rw [Function.update_apply] at answered
      split at answered
      · rw [answered] at taken
        exact absurd taken (takeUp_ne_answered outs)
      · exact h.course k outs answered
  | deliver _ answered sent moved =>
    have modest := verdict_of_modest (h.course _ _ answered) sent
    exact .inr ⟨h.silent, h.brings, h.course, complete_launch moved modest.1 h.launch⟩
  | fail moved =>
    have other : (verdict { status := 0 }).st ≠ "done".toList :=
      (by decide : "error".toList ≠ "done".toList)
    exact .inr ⟨h.silent, h.brings, h.course, complete_launch moved other h.launch⟩

def Honest (s : System) : Prop :=
  ∃ desks, Staffed desks s.daemon ∧ (Ended s.daemon.shared ∨ Unsaid s desks)

theorem honest_step (h : Honest s) (moved : step b env decode s e = some s') : Honest s' := by
  obtain ⟨desks, staffed, honest⟩ := h
  obtain ⟨desks', step, staffed'⟩ := step_cases staffed moved
  exact ⟨desks', staffed', honest.elim (fun ended => .inl (step.ended ended)) fun h => h.step step⟩

theorem honest_init (b : Browser) (threads : ℕ) : Honest (init b threads) := by
  refine ⟨_, Acs.staffed_init threads, .inr ⟨⟨nofun, ?_⟩, fun m member => ?_, nofun, ?_⟩⟩
  · exact (by decide : ∀ m ∈ Acs.acsInit.lMessages, m.status ≠ .done)
  · cases List.eq_of_mem_replicate member
  · exact (Page.init_boxes b).launch

theorem launch_after_done (b : Browser) (env : Env) (decode : CStr → Option CStr) (threads : ℕ)
    {es : List Event} {s : System}
    (run : (machine b env decode).exec (init b threads) es = some s)
    (offers : s.page.launch = true) : ∃ m ∈ s.daemon.shared.recorded, m.status = .done := by
  obtain ⟨desks, _, ended | unsaid⟩ := (machine b env decode).invariant
    (fun _ _ _ honest moved => honest_step honest moved) (honest_init b threads) run
  · exact ended
  · cases unsaid.launch.symm.trans offers

def danceEnv : Env := {
  Acs.exampleEnv with
  jsonLoads := fun text =>
    if text = "\x7b\x7d".toList then some (.object []) else Acs.exampleEnv.jsonLoads text
  stegDecode := fun _ _ => some "\x7b\x7d".toList }

def ascii (msg : CStr) : Option CStr := if msg.all fun c => c.toNat < 128 then some msg else none

def pushed : HttpsrvClient := { Acs.initialPush "200" with readbody := true }

def goes (n : ℕ) : List Event := List.replicate n (.daemon (.run 0 {}))

def others (n : ℕ) : List Event := [.daemon (.progress 0 Acs.progressGet)] ++ goes n

def asked (n : ℕ) : List Event := [.serve 0 0] ++ goes n ++ [.deliver 0]

def danced : List Event :=
  [.daemon (.setup 0 Acs.setupPost)] ++ goes 10 ++ others 12 ++
    [.daemon (.answer 0 0 pushed)] ++ goes 17 ++ [.daemon (.answer 0 0 pushed)] ++ goes 6 ++
    (List.replicate 11 (others 3)).flatten ++ [.page .dancerdv] ++ asked 3

theorem launch_after_done_danced :
    ∃ s, (machine {} danceEnv ascii).exec (init {} 1) danced = some s ∧ s.page.launch = true ∧
      ∃ m ∈ s.daemon.shared.recorded, m.status = .done := by
  have run : ((machine {} danceEnv ascii).exec (init {} 1) danced).map (fun s => s.page.launch) =
      some true := by
    decide +kernel
  obtain ⟨s, run, offers⟩ := Option.map_eq_some_iff.mp run
  exact ⟨s, run, offers, launch_after_done {} danceEnv ascii 1 run offers⟩

end System

end Jumpbox.Plugin.AcsPage
