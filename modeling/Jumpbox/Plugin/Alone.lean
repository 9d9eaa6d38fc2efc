import Jumpbox.Plugin.Offer

/-! A page that polls alone: what is on its console, and which of its requests the threads
of the daemon are at. -/

namespace Jumpbox.Plugin.AcsPage

open Acs (AcsMsg Desk desking Env Staffed Modest statusName)
open RendezvousPage (Reply)
open StatusBar (text)

namespace Page

variable {b : Browser} {p p' : Page} {stream : List CStr}

/-! What is on the console. -/

theorem setStatus_bar (b : Browser) (p : Page) (st : CStr) (msg : Option JsonText.Value) :
    (p.setStatus b st msg).bar = p.bar.setStatus b.loose st msg := by
  unfold setStatus StatusBar.setStatus
  split <;> rfl

theorem say_shows (h : p.bar.Shows stream) (st msg : CStr) :
    (p.say b st msg).bar.Shows stream := by
  rw [say, setStatus_bar]
  exact (h.setStatus st msg).1

theorem emptyStatus_shows (h : p.bar.Shows stream) : (p.emptyStatus b).bar.Shows stream :=
  say_shows (p := { p with bar.log := [] }) h _ _

theorem own_shows {e : Event} (own : e.own = true) (moved : p.step b e = some p')
    (h : p.bar.Shows stream) : p'.bar.Shows stream := by
  cases e with
  | dancenet net =>
    simp only [step, Option.ite_none_right_eq_some, Option.some.injEq] at moved
    obtain ⟨_, rfl⟩ := moved
    have emptied : (p.hidden.emptyStatus b).bar.Shows stream := emptyStatus_shows (p := p.hidden) h
    unfold butDanceNet
    split
    · exact say_shows emptied _ _
    · exact say_shows emptied _ _
  | dancerdv =>
    simp only [step, Option.ite_none_right_eq_some, Option.some.injEq] at moved
    obtain ⟨_, rfl⟩ := moved
    exact say_shows (emptyStatus_shows (p := p.hidden) h) _ _
  | launchtools =>
    simp only [step, Option.ite_none_right_eq_some, Option.some.injEq] at moved
    obtain ⟨_, rfl⟩ := moved
    exact h
  | restart =>
    simp only [step, Option.ite_none_right_eq_some, Option.some.injEq] at moved
    obtain ⟨_, rfl⟩ := moved
    exact emptyStatus_shows (p := { p with launch := false, intro := true }) h
  | complete => cases own

theorem complete_shows {i : ℕ} {reply : Reply} {msg : CStr}
    (moved : p.step b (.complete i reply) = some p') (shown : (verdict reply).msg = text msg)
    (h : p.bar.Shows stream) : p'.bar.Shows stream ∧ p'.bar.Shows (stream ++ [msg]) := by
  simp only [step, Option.ite_none_right_eq_some, Option.some.injEq] at moved
  obtain ⟨_, rfl⟩ := moved
  have bar : ((p.off i).processResponse b reply).bar =
      p.bar.setStatus b.loose (verdict reply).st (text msg) := by
    unfold processResponse
    dsimp only
    rw [shown]
    split <;> exact setStatus_bar b (p.off i) _ _
  change ((p.off i).processResponse b reply).bar.Shows _ ∧
    ((p.off i).processResponse b reply).bar.Shows _
  rw [bar]
  exact h.setStatus _ msg

/-! What requests there are. -/

structure Grows (p p' : Page) : Prop where
  calls : ∃ more, p'.calls = p.calls ++ more
  xhrs : ∀ n ∈ p'.xhrs, n ∈ p.xhrs ∨ p.calls.length ≤ n ∧ n < p'.calls.length

theorem SameBoxes.grows {q : Page} (h : SameBoxes q p') (calls : q.calls = p.calls)
    (xhrs : ∀ n ∈ q.xhrs, n ∈ p.xhrs) : Grows p p' where
  calls := ⟨[], by rw [h.calls, calls, List.append_nil]⟩
  xhrs n member := .inl (xhrs n (h.xhrs ▸ member))

theorem SameBoxes.grows_send {q : Page} {call : Call} (h : SameBoxes (q.send call) p')
    (calls : q.calls = p.calls) (xhrs : ∀ n ∈ q.xhrs, n ∈ p.xhrs) : Grows p p' where
  calls := ⟨[call], by rw [h.calls, Page.send, calls]⟩
  xhrs n member := by
    rw [h.xhrs] at member
    rcases List.mem_append.mp member with old | new
    · exact .inl (xhrs n old)
    · obtain rfl := List.mem_singleton.mp new
      rw [h.calls, Page.send, calls, List.length_append]
      exact .inr ⟨le_rfl, Nat.lt_succ_self _⟩

theorem step_grows {e : Event} (moved : p.step b e = some p') : Grows p p' := by
  have off {i n : ℕ} (member : n ∈ (p.off i).xhrs) : n ∈ p.xhrs := List.mem_of_mem_eraseIdx member
  cases step_cases moved with
  | nothing _ same => exact same.grows rfl fun _ => id
  | sets _ _ same => exact same.grows_send rfl fun _ => id
  | polls _ same => exact same.grows_send rfl fun _ => id
  | opens _ same => exact same.grows rfl fun _ => id
  | restarts _ same => exact same.grows rfl fun _ => id
  | goesOn _ _ same => exact same.grows_send rfl fun _ => off
  | ends _ _ said =>
    refine ⟨⟨[], said.calls.trans (List.append_nil _).symm⟩, fun n member => ?_⟩
    rw [said.xhrs] at member
    exact .inl (off member)

theorem complete_fresh {i : ℕ} {reply : Reply} (calm : p.Calm)
    (moved : p.step b (.complete i reply) = some p') : ∀ n ∈ p'.xhrs, p.calls.length ≤ n := by
  intro n member
  cases step_cases moved with
  | goesOn under_way _ same =>
    rw [same.xhrs, Page.send, (calm.off under_way).1] at member
    exact (List.mem_singleton.mp member).ge
  | ends under_way _ said =>
    rw [said.xhrs, (calm.off under_way).1] at member
    exact absurd member List.not_mem_nil

end Page

namespace System

variable {b : Browser} {env : Env} {decode : CStr → Option CStr} {s s' : System}
  {desks desks' : List Desk} {e : Event}

/-- Nobody else polls and nothing is shut down, entries can be allocated, and no poll fails once
it is taken up; no NET that is typed in is refused. -/
def Alone (b : Browser) (s : System) : Event → Prop
  | .page e => Page.Fine b s.page e
  | .daemon (.run t c) => ∀ th ∈ s.daemon.threads[t]?, ∀ o ∈ th.prog.head,
      o.records = true → c.ok = true
  | .daemon (.progress _ _) | .daemon (.exit _) => False
  | .fail i => ∀ n ∈ s.page.xhrs[i]?, s.page.calls[n]? = some .progress → s.course n = .sent
  | _ => True

instance (b : Browser) (s : System) : ∀ e, Decidable (Alone b s e)
  | .page e => inferInstanceAs (Decidable (Page.Fine b s.page e))
  | .daemon (.run t c) => inferInstanceAs (Decidable (∀ th ∈ s.daemon.threads[t]?,
      ∀ o ∈ th.prog.head, o.records = true → c.ok = true))
  | .daemon (.progress _ _) | .daemon (.exit _) => isFalse id
  | .fail i => inferInstanceAs (Decidable (∀ n ∈ s.page.xhrs[i]?,
      s.page.calls[n]? = some .progress → s.course n = .sent))
  | .daemon (.setup _ _) | .daemon (.peel _ _) | .daemon (.answer _ _ _) | .daemon .shutdown
  | .serve _ _ | .deliver _ => isTrue trivial

structure Sound (s : System) (desks : List Desk) : Prop where
  calm : s.page.Calm
  placed : ∀ n ∈ s.page.xhrs, n < s.page.calls.length
  fresh : ∀ n, s.page.calls.length ≤ n → s.course n = .sent
  served : ∀ t n, s.serving t = some n → s.course n ≠ .sent
  server : ∀ t n, s.serving t = some n → s.page.calls[n]? = some .progress →
    desks[t]? ≠ some .free
  unread : ∀ n, s.page.calls[n]? = some .progress → s.course n ≠ .wanted
  stays : ∀ desk ∈ desks, desk ≠ .leaves

theorem Sound.served_lt (h : Sound s desks) {t n : ℕ} (serves : s.serving t = some n) :
    n < s.page.calls.length := by
  by_contra beyond
  exact h.served t n serves (h.fresh n (not_lt.mp beyond))

theorem Sound.page {page : Page} {e : Page.Event} (h : Sound s desks)
    (fine : Page.Fine b s.page e) (moved : s.page.step b e = some page) :
    Sound { s with page } desks := by
  obtain ⟨⟨more, calls⟩, xhrs⟩ := Page.step_grows moved
  have longer : s.page.calls.length ≤ page.calls.length := by
    rw [calls, List.length_append]
    exact Nat.le_add_right _ _
  have known {n : ℕ} (old : n < s.page.calls.length) : page.calls[n]? = s.page.calls[n]? := by
    rw [calls, List.getElem?_append_left old]
  refine ⟨h.calm.step fine moved, fun n member => ?_, fun n beyond => ?_, h.served,
    fun t n serves => ?_, fun n => ?_, h.stays⟩
  · rcases xhrs n member with old | new
    · exact (h.placed n old).trans_le longer
    · exact new.2
  · exact h.fresh n (longer.trans beyond)
  · rw [known (h.served_lt serves)]
    exact h.server t n serves
  · by_cases old : n < s.page.calls.length
    · rw [known old]
      exact h.unread n
    · intro _ wanted
      cases (h.fresh n (not_lt.mp old)).symm.trans wanted

theorem Sound.step (h : Sound s desks) (alone : Alone b s e)
    (step : Step b env decode s desks e s' desks') : Sound s' desks' := by
  cases step with
  | page own moved => exact h.page alone moved
  | deliver _ _ _ moved => exact h.page (show Page.Fine b s.page (.complete _ _) from trivial) moved
  | fail moved => exact h.page (show Page.Fine b s.page (.complete _ _) from trivial) moved
  | shutdown => exact ⟨h.calm, h.placed, h.fresh, h.served, h.server, h.unread, h.stays⟩
  | @acts t c role o next desk x shared threads at_t desk_t may performed =>
    have stays := h.stays desk (List.mem_of_getElem? desk_t)
    have busy {n : ℕ} (serves : s.serving t = some n)
        (poll : s.page.calls[n]? = some .progress) : desk ≠ .free := by
      rintro rfl
      exact h.server t n serves poll desk_t
    refine ⟨h.calm, h.placed, fun n beyond => ?_, fun t' n serves => ?_, fun t' n serves poll => ?_,
      fun n poll wanted => ?_, Table.forall_set h.stays (Acs.after_ne_leaves stays)⟩
    · rcases hears_cases s t o x n with same | ⟨serves, _⟩
      · exact same.trans (h.fresh n beyond)
      · exact absurd (h.served_lt serves) (not_lt.mpr beyond)
    · intro sent
      rcases hears_cases s t o x n with same | ⟨_, after⟩
      · exact h.served t' n serves (same.symm.trans sent)
      · exact after_ne_sent (after.trans (congrArg some sent))
    · rw [Table.getElem?_set_of_some desk_t]
      split
      next same =>
        subst same
        intro free
        exact busy serves poll (Acs.free_of_after (Option.some.inj free))
      next => exact h.server t' n serves poll
    · rcases hears_cases s t o x n with same | ⟨serves, after⟩
      · exact h.unread n poll (same.symm.trans wanted)
      · obtain rfl := wanted_of_after (after.trans (congrArg some wanted))
        rcases Acs.desk_of_readbodyAlloc may with free | leaves
        · exact busy serves poll free
        · exact stays leaves
  | @begins e t desk old daemon given desk_t idle same =>
    have idle_of {t' n : ℕ} (serves : Function.update s.serving t none t' = some n) :
        t ≠ t' ∧ s.serving t' = some n := by
      rw [Function.update_apply] at serves
      split at serves
      · cases serves
      next other => exact ⟨Ne.symm other, serves⟩
    refine ⟨h.calm, h.placed, h.fresh, fun t' n serves => h.served t' n (idle_of serves).2,
      fun t' n serves => ?_, h.unread, Table.forall_set h.stays ?_⟩
    · rw [Table.getElem?_set_of_some desk_t, if_neg (idle_of serves).1]
      exact h.server t' n (idle_of serves).2
    · rintro rfl
      obtain rfl := Acs.exit_of_begins given
      exact alone
  | @serve i t n call hcl course old daemon under listed taken desk_t idle same =>
    have kinds := course_of_takeUp taken
    refine ⟨h.calm, h.placed, fun k beyond => ?_, fun t' k serves => ?_, fun t' k serves poll => ?_,
      fun k poll => ?_, Table.forall_set h.stays (by cases call <;> exact nofun)⟩
    · have old : n < s.page.calls.length := (List.getElem?_eq_some_iff.mp listed).1
      have other : k ≠ n := fun same => absurd old (not_lt.mpr (same ▸ beyond))
      exact (Function.update_of_ne other _ _).trans (h.fresh k beyond)
    · dsimp only at serves ⊢
      rw [Function.update_apply] at serves ⊢
      split
      · rcases kinds with ⟨_, rfl⟩ | ⟨_, rfl⟩ <;> exact nofun
      next other =>
        split at serves
        · exact absurd (Option.some.inj serves).symm other
        · exact h.served t' k serves
    · dsimp only at serves
      rw [Function.update_apply] at serves
      rw [Table.getElem?_set_of_some desk_t]
      split at serves
      next at_t =>
        obtain rfl := Option.some.inj serves
        rw [if_pos at_t.symm]
        obtain rfl : call = .progress := Option.some.inj (listed.symm.trans poll)
        exact nofun
      next other =>
        rw [if_neg (Ne.symm other)]
        exact h.server t' k serves poll
    · dsimp only
      rw [Function.update_apply]
      split
      · rcases kinds with ⟨_, rfl⟩ | ⟨_, rfl⟩ <;> exact nofun
      · exact h.unread k poll

end System

end Jumpbox.Plugin.AcsPage
