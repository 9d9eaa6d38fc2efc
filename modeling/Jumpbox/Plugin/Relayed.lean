import Jumpbox.Plugin.Alone

/-! What the daemon records and what the page shows. A page that polls alone shows all of it
in its order, but for the answer that is on its way and for what is in the queue. -/

namespace Jumpbox.Plugin.AcsPage

open Acs (AcsMsg Desk desking Env Staffed Modest statusName)
open RendezvousPage (Reply)
open StatusBar (text)

namespace System

variable {b : Browser} {env : Env} {decode : CStr → Option CStr} {s s' : System}
  {desks desks' : List Desk} {e : Event} {shown flight : List AcsMsg}

def message (decode : CStr → Option CStr) (m : AcsMsg) : CStr :=
  (told decode (statusName m.status) m.message).2

def Carries : Desk → List AcsMsg → Prop
  | .brings m, flight => flight = [] ∨ flight = [m]
  | _, flight => flight = []

inductive Phase (s : System) (desks : List Desk) (flight : List AcsMsg) : Prop
  | rest (idle : ∀ desk ∈ desks, desk.asks = false) (nothing : flight = [])
      (modest : ∀ n ∈ s.page.xhrs, ∀ outs, s.course n = .answered outs → Modest outs)
  | polls {t n desk} (one : s.page.xhrs = [n]) (poll : s.page.calls[n]? = some .progress)
      (serves : s.serving t = some n) (handled : s.course n = .handled)
      (desk_t : desks[t]? = some desk) (asks : desk.asks = true)
      (alone : ∀ t' other, desks[t']? = some other → other.asks = true → t' = t)
      (carries : Carries desk flight)
  | told {n m} (one : s.page.xhrs = [n]) (poll : s.page.calls[n]? = some .progress)
      (answered : s.course n = .answered m.result) (idle : ∀ desk ∈ desks, desk.asks = false)
      (carries : flight = [] ∨ flight = [m])

/-- All that was recorded is shown, on its way or in the queue. -/
structure Relay (decode : CStr → Option CStr) (s : System) (desks : List Desk)
    (shown flight : List AcsMsg) : Prop where
  books : s.daemon.shared.recorded = shown ++ flight ++ s.daemon.shared.lMessages
  console : s.page.bar.Shows (shown.map (message decode))
  phase : Phase s desks flight

theorem Phase.short (h : Phase s desks flight) :
    flight.length ≤ 1 ∧ (s.page.xhrs = [] → flight = []) := by
  have short {m : AcsMsg} (carries : flight = [] ∨ flight = [m]) : flight.length ≤ 1 := by
    rcases carries with rfl | rfl
    · exact Nat.zero_le _
    · exact le_rfl
  cases h with
  | rest _ nothing => exact ⟨nothing ▸ Nat.zero_le _, fun _ => nothing⟩
  | @polls t n desk one _ _ _ _ _ _ carries =>
    refine ⟨?_, fun none => absurd (one.symm.trans none) (List.cons_ne_nil _ _)⟩
    cases desk with
    | brings m => exact short carries
    | _ => exact short (m := ⟨.ok, []⟩) (.inl carries)
  | told one _ _ _ carries =>
    exact ⟨short carries, fun none => absurd (one.symm.trans none) (List.cons_ne_nil _ _)⟩

theorem Phase.at_rest {page : Page} (sound : Sound s desks)
    (idle : ∀ desk ∈ desks, desk.asks = false)
    (modest : ∀ n ∈ page.xhrs, s.page.calls.length ≤ n ∨
      ∀ outs, s.course n = .answered outs → Modest outs) : Phase { s with page } desks [] := by
  refine .rest idle rfl fun n member outs answered => ?_
  rcases modest n member with beyond | modest
  · cases (sound.fresh n beyond).symm.trans answered
  · exact modest outs answered

theorem Phase.of_own {page : Page} {e : Page.Event} (sound : Sound s desks)
    (own : e.own = true) (moved : s.page.step b e = some page) (h : Phase s desks flight) :
    Phase { s with page } desks flight := by
  have none_of (shown : s.page.intro ∨ s.page.launch) : s.page.xhrs = [] := sound.calm.idle shown
  have rest : s.page.xhrs = [] := by
    cases Page.step_cases moved with
    | nothing shown => exact none_of (.inl shown)
    | sets shown => exact none_of (.inl shown)
    | polls shown => exact none_of (.inl shown)
    | opens shown => exact none_of (.inr shown)
    | restarts shown => exact none_of (.inr shown)
    | goesOn => cases own
    | ends => cases own
  cases h with
  | rest idle nothing modest =>
    subst nothing
    refine .at_rest sound idle fun n member => ?_
    rcases (Page.step_grows moved).xhrs n member with old | ⟨beyond, _⟩
    · exact .inr (modest n old)
    · exact .inl beyond
  | polls one => exact absurd (one.symm.trans rest) (List.cons_ne_nil _ _)
  | told one => exact absurd (one.symm.trans rest) (List.cons_ne_nil _ _)

theorem Phase.of_complete {page : Page} {i : ℕ} {reply : Reply} (sound : Sound s desks)
    (moved : s.page.step b (.complete i reply) = some page)
    (idle : ∀ desk ∈ desks, desk.asks = false) : Phase { s with page } desks [] :=
  .at_rest sound idle fun n member => .inl (Page.complete_fresh sound.calm moved n member)

theorem Phase.daemon {daemon : Acs.State} (h : Phase s desks flight) :
    Phase { s with daemon } desks flight := by
  cases h with
  | rest idle nothing modest => exact .rest idle nothing modest
  | polls one poll serves handled desk_t asks alone carries =>
    exact .polls one poll serves handled desk_t asks alone carries
  | told one poll answered idle carries => exact .told one poll answered idle carries

theorem Phase.aside {t : ℕ} {old desk : Desk} (h : Phase s desks flight)
    (page : s'.page = s.page) (serving : ∀ t', t' ≠ t → s'.serving t' = s.serving t')
    (course : ∀ n, s.page.calls[n]? = some .progress → s'.course n = s.course n)
    (modest : ∀ n outs, s'.course n = .answered outs → s.course n = .answered outs ∨ Modest outs)
    (desk_t : desks[t]? = some old) (idle : old.asks = false) (still : desk.asks = false) :
    Phase s' (desks.set t desk) flight := by
  cases h with
  | rest others nothing before =>
    refine .rest (Table.forall_set others still) nothing fun n member outs answered => ?_
    exact (modest n outs answered).elim (before n (page ▸ member) outs) id
  | @polls t' n desk' one poll serves handled desk_t' asks alone carries =>
    have other : t' ≠ t := by
      rintro rfl
      obtain rfl := Option.some.inj (desk_t.symm.trans desk_t')
      cases idle.symm.trans asks
    refine .polls (page ▸ one) (page ▸ poll) ((serving t' other).trans serves)
      ((course n poll).trans handled) ?_ asks (fun k d at_k asks => ?_) carries
    · rw [Table.getElem?_set_of_some desk_t, if_neg (Ne.symm other)]
      exact desk_t'
    · rw [Table.getElem?_set_of_some desk_t] at at_k
      split at at_k
      · obtain rfl := Option.some.inj at_k
        cases still.symm.trans asks
      · exact alone k d at_k asks
  | @told n m one poll answered others carries =>
    exact .told (page ▸ one) (page ▸ poll) ((course n poll).trans answered)
      (Table.forall_set others still) carries

theorem Relay.deliver {i n : ℕ} {outs : List Out} {reply : Reply} {page : Page}
    (sound : Sound s desks) (h : Relay decode s desks shown flight)
    (under : s.page.xhrs[i]? = some n) (answered : s.course n = .answered outs)
    (sent : replyOf decode outs = some reply)
    (moved : s.page.step b (.complete i reply) = some page) :
    Relay decode { s with page } desks (shown ++ flight) [] := by
  have member := List.mem_of_getElem? under
  have books : s.daemon.shared.recorded =
      shown ++ flight ++ [] ++ s.daemon.shared.lMessages := by
    rw [List.append_nil]
    exact h.books
  cases h.phase with
  | rest idle nothing modest =>
    subst nothing
    obtain ⟨_, msg, said⟩ := verdict_of_modest (modest n member outs answered) sent
    rw [List.append_nil] at books ⊢
    exact ⟨books, (Page.complete_shows moved said h.console).1, .of_complete sound moved idle⟩
  | polls one _ _ handled =>
    obtain rfl := List.mem_singleton.mp (one ▸ member)
    cases handled.symm.trans answered
  | @told n' m one _ told idle carries =>
    obtain rfl := List.mem_singleton.mp (one ▸ member)
    obtain rfl := Course.answered.inj (told.symm.trans answered)
    have both := Page.complete_shows moved (verdict_of_result sent).2 h.console
    refine ⟨books, ?_, .of_complete sound moved idle⟩
    rcases carries with rfl | rfl
    · rw [List.append_nil]
      exact both.1
    · rw [List.map_append]
      exact both.2

theorem Relay.fail {i : ℕ} {page : Page} (sound : Sound s desks)
    (h : Relay decode s desks shown flight) (alone : Alone b s (.fail i))
    (moved : s.page.step b (.complete i { status := 0 }) = some page) :
    Relay decode { s with page } desks shown flight := by
  have unsent {n : ℕ} (one : s.page.xhrs = [n]) (poll : s.page.calls[n]? = some .progress) :
      s.course n = .sent := by
    refine alone n ?_ poll
    have under_way : i < s.page.xhrs.length := by
      by_contra beyond
      rw [Page.step, if_neg beyond] at moved
      cases moved
    rw [one, List.length_singleton, Nat.lt_one_iff] at under_way
    rw [one, under_way]
    rfl
  refine ⟨h.books, (Page.complete_shows moved rfl h.console).1, ?_⟩
  cases h.phase with
  | rest idle nothing => exact nothing ▸ .of_complete sound moved idle
  | polls one poll _ handled => cases handled.symm.trans (unsent one poll)
  | told one poll answered => cases answered.symm.trans (unsent one poll)

section Acts

variable {t : ℕ} {c : Acs.Choice} {o : Acs.Op} {x : o.Result} {shared : Acs.Shared}
  {threads : List (Thread Acs.Op Acs.Op.Result Acs.Role)}

theorem Relay.taken (h : Relay decode s desks shown flight)
    (allocates : o.records = true → c.ok = true) (stays : o ≠ .listDestroy)
    (performed : Acs.exec env t o c s.daemon.shared = some (shared, x)) {course : ℕ → Course}
    (phase : Phase { s with daemon := ⟨shared, threads⟩, course } desks'
      (flight ++ o.takes s.daemon.shared x)) :
    Relay decode { s with daemon := ⟨shared, threads⟩, course } desks' shown
      (flight ++ o.takes s.daemon.shared x) := by
  refine ⟨?_, h.console, phase⟩
  obtain ⟨new, recorded, queue⟩ := Acs.queue_of_exec allocates stays performed
  change shared.recorded = shown ++ (flight ++ o.takes s.daemon.shared x) ++ shared.lMessages
  rw [recorded, h.books, List.append_assoc, queue]
  simp only [List.append_assoc]

theorem Relay.free (sound : Sound s desks) (h : Relay decode s desks shown flight)
    (desk_t : desks[t]? = some .free) (may : desking.may .free o)
    (allocates : o.records = true → c.ok = true)
    (performed : Acs.exec env t o c s.daemon.shared = some (shared, x)) :
    Relay decode { s with daemon := ⟨shared, threads⟩, course := s.hears t o x }
      (desks.set t (desking.after .free o x)) shown flight := by
  obtain ⟨takes, stays, after⟩ := Acs.takes_of_free (s := s.daemon.shared) (x := x) may
  have course (n : ℕ) (poll : s.page.calls[n]? = some .progress) :
      s.hears t o x n = s.course n := by
    rcases hears_cases s t o x n with same | ⟨serves, _⟩
    · exact same
    · exact absurd desk_t (sound.server t n serves poll)
  have modest (n : ℕ) (outs : List Out) (answered : s.hears t o x n = .answered outs) :
      s.course n = .answered outs ∨ Modest outs := by
    rcases hears_cases s t o x n with same | ⟨_, told⟩
    · exact .inl (same.symm.trans answered)
    · obtain ⟨hcl, rfl⟩ := answer_of_after (told.trans (congrArg some answered))
      exact .inr may
  have phase : Phase { s with daemon := ⟨shared, threads⟩, course := s.hears t o x }
      (desks.set t (desking.after .free o x)) (flight ++ o.takes s.daemon.shared x) := by
    rw [takes, List.append_nil, after]
    exact h.phase.aside rfl (fun _ _ => rfl) course modest desk_t rfl rfl
  have relayed := h.taken allocates stays performed phase
  rwa [takes, List.append_nil] at relayed

theorem Relay.asks {desk : Desk} (h : Relay decode s desks shown flight)
    (desk_t : desks[t]? = some desk) (asks : desk.asks = true) (may : desking.may desk o)
    (allocates : o.records = true → c.ok = true)
    (performed : Acs.exec env t o c s.daemon.shared = some (shared, x)) :
    ∃ flight', Relay decode { s with daemon := ⟨shared, threads⟩, course := s.hears t o x }
      (desks.set t (desking.after desk o x)) shown flight' := by
  have member := List.mem_of_getElem? desk_t
  cases h.phase with
  | rest idle => cases (idle desk member).symm.trans asks
  | told _ _ _ idle => cases (idle desk member).symm.trans asks
  | @polls t' n desk' one poll serves handled desk_t' asks' alone carries =>
    obtain rfl := alone t desk desk_t asks
    obtain rfl := Option.some.inj (desk_t.symm.trans desk_t')
    have others (t' : ℕ) (other next : Desk) (at_t' : (desks.set t next)[t']? = some other)
        (asks : other.asks = true) : t' = t := by
      rw [Table.getElem?_set_of_some desk_t] at at_t'
      split at at_t'
      next same => exact same.symm
      next => exact alone t' other at_t' asks
    have now (next : Desk) : (desks.set t next)[t]? = some next := by
      rw [Table.getElem?_set_of_some desk_t, if_pos rfl]
    cases desk with
    | polls =>
      obtain rfl : flight = [] := carries
      have hears : s.hears t o x = s.course := by
        rw [System.hears, after_of_polls may, serves]
      have stays : o ≠ .listDestroy := by
        rintro rfl
        exact may
      rw [hears]
      refine ⟨_, h.taken allocates stays performed ?_⟩
      rw [List.nil_append]
      rcases Acs.takes_of_polls (s := s.daemon.shared) (x := x) may with ⟨after, takes⟩ |
        ⟨m, after, takes⟩
      · rw [after, takes]
        exact .polls one poll serves handled (now .polls) rfl (fun k d => others k d .polls) rfl
      · rw [after]
        exact .polls one poll serves handled (now _) rfl (fun k d => others k d _) takes
    | brings m =>
      cases o with
      | answer hcl outs =>
        obtain rfl : outs = m.result := may
        have hears : s.hears t (.answer hcl m.result) x n = .answered m.result := by
          rw [System.hears, serves]
          exact Function.update_self n _ _
        have phase : Phase { s with
            daemon := ⟨shared, threads⟩, course := s.hears t (.answer hcl m.result) x }
            (desks.set t .told) (flight ++ []) := by
          rw [List.append_nil]
          refine .told one poll hears (fun d member => ?_) carries
          obtain ⟨k, at_k⟩ := List.mem_iff_getElem?.mp member
          by_contra asks
          obtain rfl := others k d .told at_k (by simpa using asks)
          obtain rfl := Option.some.inj ((now .told).symm.trans at_k)
          exact asks rfl
        exact ⟨_, h.taken allocates nofun performed phase⟩
      | _ => exact False.elim may
    | free | told | leaves => cases asks

end Acts

theorem Relay.same {daemon : Acs.State} {serving : ℕ → Option ℕ} {course : ℕ → Course}
    (h : Relay decode s desks shown flight) (same : daemon.shared.stream = s.daemon.shared.stream)
    (phase : Phase { s with daemon, serving, course } desks' flight) :
    Relay decode { s with daemon, serving, course } desks' shown flight := by
  simp only [Acs.Shared.stream, Prod.mk.injEq] at same
  refine ⟨?_, h.console, phase⟩
  change daemon.shared.recorded = shown ++ flight ++ daemon.shared.lMessages
  rw [same.1, same.2.1, h.books]

theorem Phase.serve {i t n : ℕ} {call : Call} {hcl : HttpsrvClient} {course : Course} {old : Desk}
    {daemon : Acs.State} (sound : Sound s desks) (h : Phase s desks flight)
    (under : s.page.xhrs[i]? = some n) (listed : s.page.calls[n]? = some call)
    (taken : takeUp call (s.course n) = some (hcl, course)) (desk_t : desks[t]? = some old)
    (idle : old.asks = false) :
    Phase { s with
      daemon
      serving := Function.update s.serving t (some n)
      course := Function.update s.course n course } (desks.set t (call.desk)) flight := by
  have member := List.mem_of_getElem? under
  cases call with
  | setup net =>
    refine h.aside rfl (fun t' other => Function.update_of_ne other _ _) (fun k poll => ?_)
      (fun k outs answered => ?_) desk_t idle rfl
    · refine Function.update_of_ne ?_ _ _
      rintro rfl
      cases listed.symm.trans poll
    · dsimp only at answered
      rw [Function.update_apply] at answered
      split at answered
      · rw [answered] at taken
        exact absurd taken (takeUp_ne_answered outs)
      · exact .inl answered
  | progress =>
    have one : s.page.xhrs = [n] := by
      have length := le_antisymm sound.calm.one (List.length_pos_of_mem member)
      obtain ⟨k, xhrs⟩ := List.length_eq_one_iff.mp length
      rw [xhrs] at member ⊢
      rw [List.mem_singleton.mp member]
    have handled : course = .handled := by
      rcases course_of_takeUp taken with ⟨_, handled⟩ | ⟨wanted, _⟩
      · exact handled
      · exact absurd wanted (sound.unread n listed)
    cases h with
    | rest others nothing =>
      refine .polls one listed (Function.update_self ..) ?_
        ((Table.getElem?_set_of_some desk_t _ t).trans (if_pos rfl)) rfl (fun k d at_k asks => ?_)
        (show Carries .polls flight from nothing)
      · exact (Function.update_self n course s.course).trans handled
      · rw [Table.getElem?_set_of_some desk_t] at at_k
        split at at_k
        next same => exact same.symm
        next => cases (others d (List.mem_of_getElem? at_k)).symm.trans asks
    | polls one' _ _ before =>
      obtain rfl := List.singleton_inj.mp (one.symm.trans one')
      rw [before] at taken
      cases taken
    | told one' _ answered =>
      obtain rfl := List.singleton_inj.mp (one.symm.trans one')
      rw [answered] at taken
      cases taken

theorem Relay.step (sound : Sound s desks) (h : Relay decode s desks shown flight)
    (alone : Alone b s e) (step : Step b env decode s desks e s' desks') :
    ∃ shown flight, Relay decode s' desks' shown flight := by
  cases step with
  | page own moved =>
    have console := Page.own_shows own moved h.console
    exact ⟨shown, flight, h.books, console, h.phase.of_own sound own moved⟩
  | @acts t c role o next desk x shared threads at_t desk_t may performed =>
    have allocates := alone _ at_t _ rfl
    cases desk with
    | free => exact ⟨_, _, h.free sound desk_t may allocates performed⟩
    | polls => exact ⟨_, h.asks desk_t rfl may allocates performed⟩
    | brings m => exact ⟨_, h.asks desk_t rfl may allocates performed⟩
    | told => exact False.elim may
    | leaves => exact absurd rfl (sound.stays _ (List.mem_of_getElem? desk_t))
  | @begins e t desk old daemon given desk_t idle same =>
    refine ⟨_, _, h.same same (h.phase.aside rfl (fun t' other => Function.update_of_ne other _ _)
      (fun _ _ => rfl) (fun _ _ => .inl) desk_t idle ?_)⟩
    cases e with
    | progress | exit => exact False.elim alone
    | setup | peel | answer =>
      cases given
      rfl
    | run | shutdown => cases given
  | shutdown same => exact ⟨_, _, h.same same h.phase.daemon⟩
  | serve under listed taken desk_t idle same =>
    exact ⟨_, _, h.same same (h.phase.serve sound under listed taken desk_t idle)⟩
  | deliver under answered sent moved => exact ⟨_, _, h.deliver sound under answered sent moved⟩
  | fail moved => exact ⟨_, _, h.fail sound alone moved⟩

/-- Everything that was recorded is accounted for. -/
def Relayed (decode : CStr → Option CStr) (s : System) : Prop :=
  ∃ desks, Staffed desks s.daemon ∧ Sound s desks ∧
    ∃ shown flight, Relay decode s desks shown flight

theorem relayed_step (h : Relayed decode s) (alone : Alone b s e)
    (moved : step b env decode s e = some s') : Relayed decode s' := by
  obtain ⟨desks, staffed, sound, shown, flight, relay⟩ := h
  obtain ⟨desks', step, staffed'⟩ := step_cases staffed moved
  exact ⟨desks', staffed', sound.step alone step, relay.step sound alone step⟩

theorem init_shows (b : Browser) : (Page.init b).bar.Shows [] := by
  rw [Page.init, Page.say, Page.setStatus_bar]
  exact ⟨[], "Initialized".toList, rfl, rfl, .inl (List.Sublist.refl [])⟩

theorem relayed_init (b : Browser) (threads : ℕ) : Relayed decode (init b threads) := by
  have boxes := Page.init_boxes b
  have none_sent : (Page.init b).xhrs = [] := boxes.xhrs
  have idle (desk : Desk) (member : desk ∈ List.replicate threads Desk.free) : desk = .free :=
    List.eq_of_mem_replicate member
  have rest : Phase (init b threads) (List.replicate threads .free) [] := by
    refine .rest (fun desk member => ?_) rfl fun n member => ?_
    · rw [idle desk member]
      rfl
    · exact absurd (none_sent ▸ member) List.not_mem_nil
  refine ⟨_, Acs.staffed_init threads, ⟨Page.init_calm b, fun n member => ?_, fun _ _ => rfl, nofun,
    nofun, nofun, fun desk member => ?_⟩, [], [], rfl, init_shows b, rest⟩
  · exact absurd (none_sent ▸ member) List.not_mem_nil
  · rw [idle desk member]
    exact nofun

def asksTwice : List Event := [.page .dancerdv] ++ asked 4 ++ [.serve 0 0] ++ goes 3

end System

end Jumpbox.Plugin.AcsPage
