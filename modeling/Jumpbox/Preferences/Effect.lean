import Jumpbox.Preferences.Arguments
import Jumpbox.Preferences.Visits

/-! What a completed dance changes. `prf_parse_bridge_details`, which would put a bridge of
the stored list into the preferences, is not called by anything. -/

namespace Jumpbox.Preferences

open Acs (Json cstring AcsM)

/-- The methods and addresses of the bridges in the list that `prf_parse_bridge_details`
accepts. -/
def offers (list : Option Json) : List (CStr × CStr) :=
  ((list.bind bridgesOf).getD []).filterMap bridgeDetails

/-- Without overrides, `prf_get_argv` gives every circuit the method. -/
def Passes (p : Prefs) (method : CStr) : Prop :=
  ∀ calloc argv, prfGetArgv (fun _ => true) {} calloc p = .built argv →
    ∃ front ja circuits, prfGetValue p .ja = some ja ∧
      argv.slots = front ++ (circuitArgs ja method circuits).map some ++ [none]

/-- The list stored by a completed dance is an object that offers what the preferences have,
and StegoTorus is launched with it. -/
def InEffect (s : State) : Prop :=
  ∀ list, s.completed = some list → (∃ root, list = some root ∧ root.isObject) ∧
    ∃ bridge ∈ offers list, prfGetValue s.prefs .sm = some bridge.1 ∧
      prfGetValue s.prefs .sa = some bridge.2 ∧ Passes s.prefs bridge.1

/-- A completed dance takes effect, and an answer that offers nothing ends the dance with
an error. -/
structure TakesEffect (env : Acs.Env) (s : State) : Prop where
  effect : InEffect s
  errors : ∀ answer ∈ s.ends, offers (decoded env answer.1) = [] → answer.2 = .err
  /-- No thread lets go of an answer before. -/
  ended : ∀ t role, s.acs.threads[t]? = some ⟨role, .done ()⟩ → s.push t = none

/-- What the last post that gave a key has left of it, or its default. -/
def lastPosted (load : CStr → Option Json) (posts : List (Memory × List UInt8)) (i : Key) :
    Option CStr :=
  ((lastGiven load posts i).bind fun last => strdup last.1 last.2).or i.default

/-- When `DJB_DONE` is recorded, the answer decodes to a list that offers what the user has
posted before. -/
def Foreseen (env : Acs.Env) (s : State) : Event → Prop
  | .acs (.run t c) => recordsDone s.acs (.run t c) →
      ∃ shcl ∈ s.push t, ∃ bridge ∈ offers (decoded env shcl),
        lastPosted env.jsonLoads s.posts .sm = some bridge.1 ∧
          lastPosted env.jsonLoads s.posts .sa = some bridge.2
  | _ => True

instance (env : Acs.Env) (s : State) : DecidablePred (Foreseen env s)
  | .acs (.run t _) => inferInstanceAs (Decidable (_ →
      ∃ shcl ∈ s.push t, ∃ bridge ∈ offers (decoded env shcl),
        lastPosted env.jsonLoads s.posts .sm = some bridge.1 ∧
          lastPosted env.jsonLoads s.posts .sa = some bridge.2))
  | .acs (.progress _ _) | .acs (.setup _ _) | .acs (.peel _ _) | .acs (.answer _ _ _)
  | .acs .shutdown | .acs (.exit _) | .set _ _ => isTrue trivial

theorem pushAll_true (slots : List (Option CStr)) (args : List CStr) :
    pushAll (fun _ => true) slots args = slots ++ args.map some := by
  induction args generalizing slots with
  | nil => simp [pushAll]
  | cons arg args ih =>
    have rest := ih (slots ++ [some arg])
    simpa [pushAll, strdup] using rest

theorem passes_of_value {p : Prefs} {method : CStr} (value : prfGetValue p .sm = some method) :
    Passes p method := by
  intro calloc argv built
  obtain ⟨ja, jumpbox⟩ := Option.isSome_iff_exists.mp (prfGetValue_isSome p (i := .ja) nofun)
  unfold prfGetArgv at built
  dsimp only at built
  split at built
  · split at built
    · cases built
    · obtain rfl := GetArgv.built.inj built
      rw [pushAll_true, pushAll_true, value, jumpbox, List.map_append, ← List.append_assoc]
      exact ⟨_, ja, _, rfl, rfl⟩
  · cases built

theorem isObject_of_offers {list : Option Json} {bridge : CStr × CStr}
    (offered : bridge ∈ offers list) : ∃ root, list = some root ∧ root.isObject := by
  cases list with
  | none => cases offered
  | some root =>
    refine ⟨root, rfl, ?_⟩
    cases root with
    | object => rfl
    | _ => cases offered

/-! What a run keeps. -/

structure Attended (env : Acs.Env) (s : State) (visits : List Visit) : Prop where
  balanced : Acs.Balanced s.acs
  follows : Pool.Shadowed (visiting env) (· = .away) visits s.acs.threads
  push : ∀ (t : ℕ) visit, visits[t]? = some visit → s.push t = visit.push
  dances : ∀ (t : ℕ) visit, visits[t]? = some visit → visit ≠ .away →
    ∃ th, s.acs.threads[t]? = some th ∧ th.role.dances = 1
  list : ∀ (t : ℕ) shcl, visits[t]? = some (.stored shcl) →
    s.acs.shared.bridgeAccessList = decoded env shcl
  gave : ∀ (t : ℕ) shcl, visits[t]? = some (.closes shcl) →
    offers (decoded env shcl) = [] → s.gave t = .err
  prefs : s.prefs = posted env.jsonLoads s.posts
  effect : InEffect s
  errors : ∀ answer ∈ s.ends, offers (decoded env answer.1) = [] → answer.2 = .err

theorem Attended.takesEffect {env : Acs.Env} {s : State} {visits : List Visit}
    (h : Attended env s visits) : TakesEffect env s where
  effect := h.effect
  errors := h.errors
  ended t role at_t := by
    obtain ⟨visit, visit_t, rfl⟩ := h.follows.ends_of_done at_t rfl
    exact h.push t _ visit_t

theorem prfGetValue_eq_lastPosted {env : Acs.Env} {s : State} {visits : List Visit}
    (h : Attended env s visits) (i : Key) :
    prfGetValue s.prefs i = lastPosted env.jsonLoads s.posts i := by
  rw [prfGetValue, h.prefs, posted_lValues, lastPosted]

theorem Attended.sole {env : Acs.Env} {s : State} {visits : List Visit}
    (h : Attended env s visits) (open_ : s.acs.shared.exited = false) {t u : ℕ}
    {visit other : Visit} (visit_t : visits[t]? = some visit) (at_work : visit ≠ .away)
    (visit_u : visits[u]? = some other) (other_work : other ≠ .away) : t = u := by
  obtain ⟨th, at_t, dances⟩ := h.dances t visit visit_t at_work
  obtain ⟨th', at_u, dances'⟩ := h.dances u other visit_u other_work
  by_contra apart
  have both := Table.weight_add_le_total (fun th : Acs.HttpThread => th.role.dances) at_u at_t apart
  have one := h.balanced.dances_one open_
  simp only [Acs.held] at one
  omega

section Run

variable {env : Acs.Env} {s : State} {visits : List Visit} {t : ℕ} {c : Acs.Choice}
  {role : Acs.Role} {o : Acs.Op} {next : o.Result → AcsM Unit} {shared : Acs.Shared}
  {x : o.Result} {visit : Visit}

theorem Attended.offered (h : Attended env s visits)
    (at_t : s.acs.threads[t]? = some ⟨role, .op o next⟩) (visit_t : visits[t]? = some visit)
    (may : (visiting env).may visit o) (done : recordsDone s.acs (.run t c) = true) :
    ∃ shcl, visit = .stored shcl ∧ s.push t = some shcl ∧
      s.acs.shared.bridgeAccessList = decoded env shcl := by
  obtain ⟨shcl, rfl⟩ := stored_of_recordsDone at_t may done
  exact ⟨shcl, rfl, h.push t _ visit_t, h.list t shcl visit_t⟩

theorem Attended.list_of_ne (h : Attended env s visits)
    (at_t : s.acs.threads[t]? = some ⟨role, .op o next⟩) (visit_t : visits[t]? = some visit)
    (may : (visiting env).may visit o)
    (performed : Acs.exec env t o c s.acs.shared = some (shared, x)) {i : ℕ}
    {shcl : HttpsrvClient} (other : i ≠ t) (visit_i : visits[i]? = some (.stored shcl)) :
    shared.bridgeAccessList = decoded env shcl := by
  by_cases stores : o.stores
  · have at_work : visit ≠ .away := by
      rintro rfl
      cases o with
      | prfSetBridgeAccessList => exact may trivial
      | _ => exact stores
    obtain ⟨th, at_t', dances⟩ := h.dances t visit visit_t at_work
    obtain rfl : ⟨role, .op o next⟩ = th := Option.some.inj (at_t.symm.trans at_t')
    have open_ : s.acs.shared.exited = false := by
      rw [← h.balanced.orderly.exits_of_acting at_t]
      cases role <;> first | rfl | cases dances
    exact absurd (h.sole open_ visit_i nofun visit_t at_work) other
  · exact ((Acs.same_of_exec performed).bridges stores).trans (h.list i shcl visit_i)

theorem Attended.inEffect_iff (h : Attended env s visits)
    (at_t : s.acs.threads[t]? = some ⟨role, .op o next⟩) (visit_t : visits[t]? = some visit)
    (may : (visiting env).may visit o) {s' : State} (prefs : s'.prefs = s.prefs)
    (completed : s'.completed = if recordsDone s.acs (.run t c)
      then some s.acs.shared.bridgeAccessList else s.completed) :
    InEffect s' ↔ Foreseen env s (.acs (.run t c)) := by
  have values := prfGetValue_eq_lastPosted h
  constructor
  · intro effect done
    obtain ⟨shcl, -, in_hand, list⟩ := h.offered at_t visit_t may done
    obtain ⟨_, bridge, offered, sm, sa, _⟩ := effect _ (completed.trans (if_pos done))
    rw [prefs, values] at sm sa
    exact ⟨shcl, in_hand, bridge, list ▸ offered, sm, sa⟩
  · intro foreseen list stored
    rw [completed] at stored
    rw [prefs]
    by_cases done : recordsDone s.acs (.run t c)
    · obtain ⟨shcl, -, in_hand, holds⟩ := h.offered at_t visit_t may done
      obtain ⟨shcl', in_hand', bridge, offered, sm, sa⟩ := foreseen done
      obtain rfl : shcl = shcl' := Option.some.inj (in_hand.symm.trans in_hand')
      obtain rfl := Option.some.inj ((if_pos done).symm.trans stored)
      rw [← values] at sm sa
      rw [← holds] at offered
      exact ⟨isObject_of_offers offered, bridge, offered, sm, sa, passes_of_value sm⟩
    · exact h.effect list ((if_neg done).symm.trans stored)

theorem visit_of_set {visit' other : Visit} {i : ℕ} (visit_t : visits[t]? = some visit)
    (visit_i : (visits.set t visit')[i]? = some other) :
    i = t ∧ other = visit' ∨ i ≠ t ∧ visits[i]? = some other := by
  rw [Table.getElem?_set_of_some visit_t] at visit_i
  split at visit_i
  next same => exact .inl ⟨same.symm, (Option.some.inj visit_i).symm⟩
  next other_t => exact .inr ⟨Ne.symm other_t, visit_i⟩

theorem Attended.dances_set (h : Attended env s visits) {th old : Acs.HttpThread} {visit' : Visit}
    (at_t : s.acs.threads[t]? = some old) (visit_t : visits[t]? = some visit)
    (dances : visit' ≠ .away → th.role.dances = 1) (i : ℕ) (other : Visit)
    (visit_i : (visits.set t visit')[i]? = some other) (at_work : other ≠ .away) :
    ∃ th', (s.acs.threads.set t th)[i]? = some th' ∧ th'.role.dances = 1 := by
  rw [Table.getElem?_set_of_some at_t]
  rcases visit_of_set visit_t visit_i with ⟨rfl, rfl⟩ | ⟨other_t, visit_i⟩
  · exact ⟨th, if_pos rfl, dances at_work⟩
  · rw [if_neg other_t.symm]
    exact h.dances i other visit_i at_work

theorem Attended.gave_run (h : Attended env s visits) (foreseen : Foreseen env s (.acs (.run t c)))
    (at_t : s.acs.threads[t]? = some ⟨role, .op o next⟩) (visit_t : visits[t]? = some visit)
    (may : (visiting env).may visit o) {shcl : HttpsrvClient}
    (here : (visiting env).after visit o x = .closes shcl)
    (nothing : offers (decoded env shcl) = []) : (s.see t c o).gave t = .err := by
  rcases gave_after (s := s) (t := t) (c := c) may here with
    ⟨rfl, same⟩ | error | ⟨rfl, text, borrowed, rfl⟩
  · exact same.trans (h.gave t shcl visit_t nothing)
  · exact error
  · rcases recordsDone_or_gave (c := c) at_t with done | error
    · obtain ⟨shcl', in_hand, bridge, offered, _⟩ := foreseen done
      obtain rfl : shcl' = shcl := Option.some.inj (in_hand.symm.trans (h.push t _ visit_t))
      rw [nothing] at offered
      cases offered
    · exact error

theorem Attended.errors_run (h : Attended env s visits) (visit_t : visits[t]? = some visit)
    (may : (visiting env).may visit o) :
    ∀ answer ∈ (s.see t c o).ends, offers (decoded env answer.1) = [] → answer.2 = .err := by
  cases o with
  | sitdown =>
    intro answer member nothing
    rcases List.mem_append.mp member with old | new
    · exact h.errors answer old nothing
    · obtain ⟨shcl, in_hand, rfl⟩ := List.mem_map.mp new
      have own := (h.push t visit visit_t).symm.trans (Option.mem_toList.mp in_hand)
      cases visit with
      | away => cases own
      | closes shcl' =>
        obtain rfl := Option.some.inj own
        exact h.gave t _ visit_t nothing
      | _ => exact False.elim may
  | _ => exact h.errors

theorem Attended.run (h : Attended env s visits) (foreseen : Foreseen env s (.acs (.run t c)))
    (at_t : s.acs.threads[t]? = some ⟨role, .op o next⟩) (visit_t : visits[t]? = some visit)
    (follows : (visiting env).Follows visit (.op o next) fun _ visit => visit = .away)
    (performed : Acs.exec env t o c s.acs.shared = some (shared, x)) {s' : State}
    (moved : s' = { s.see t c o with
      acs := ⟨shared, s.acs.threads.set t ⟨Acs.discipline.after role o x, next x⟩⟩
      completed := if recordsDone s.acs (.run t c)
        then some s.acs.shared.bridgeAccessList else s.completed })
    (balanced : Acs.Balanced s'.acs) :
    Attended env s' (visits.set t ((visiting env).after visit o x)) := by
  have may := follows.1
  have prefs : s'.prefs = s.prefs := (congrArg State.prefs moved).trans see_prefs.1
  have completed := congrArg State.completed moved
  have effect := (h.inEffect_iff at_t visit_t may prefs completed).mpr foreseen
  subst moved
  refine ⟨balanced, h.follows.set at_t (follows.2 x), fun i other visit_i => ?_,
    h.dances_set at_t visit_t fun on => ?_, fun i shcl visit_i => ?_,
    fun i shcl visit_i nothing => ?_, ?_, effect, h.errors_run visit_t may⟩
  · rcases visit_of_set visit_t visit_i with ⟨rfl, rfl⟩ | ⟨other_t, visit_i⟩
    · exact see_push may (h.push _ visit visit_t)
    · exact (see_push_of_ne other_t).trans (h.push i other visit_i)
  · have at_work : visit ≠ .away := by
      rintro rfl
      exact on rfl
    obtain ⟨th, at_t', dances⟩ := h.dances t visit visit_t at_work
    obtain rfl : ⟨role, .op o next⟩ = th := Option.some.inj (at_t.symm.trans at_t')
    exact dances_after may dances on
  · rcases visit_of_set visit_t visit_i with ⟨rfl, here⟩ | ⟨other_t, visit_i⟩
    · exact list_after may performed (fun same => h.list _ shcl (same ▸ visit_t)) here.symm
    · exact h.list_of_ne at_t visit_t may performed other_t visit_i
  · rcases visit_of_set visit_t visit_i with ⟨rfl, here⟩ | ⟨other_t, visit_i⟩
    · exact h.gave_run foreseen at_t visit_t may here.symm nothing
    · exact (see_gave_of_ne other_t).trans (h.gave i shcl visit_i nothing)
  · exact see_prefs.1.trans (h.prefs.trans (congrArg _ see_prefs.2.symm))

theorem Attended.begin (h : Attended env s visits) {old th : Acs.HttpThread} {visit' : Visit}
    (at_t : s.acs.threads[t]? = some old) (visit_t : visits[t]? = some visit)
    (balanced : Acs.Balanced ⟨shared, s.acs.threads.set t th⟩)
    (same : shared.bridgeAccessList = s.acs.shared.bridgeAccessList)
    (follows : (visiting env).Follows visit' th.prog fun _ visit => visit = .away)
    (fresh : visit'.fresh) (dances : visit' ≠ .away → th.role.dances = 1)
    {push : ℕ → Option HttpsrvClient} (own : push t = visit'.push)
    (push_ne : ∀ i ≠ t, push i = s.push i) {gave : ℕ → Acs.DjbStatus}
    (gave_ne : ∀ i ≠ t, gave i = s.gave i) :
    Attended env { s with acs := ⟨shared, s.acs.threads.set t th⟩, push, gave }
      (visits.set t visit') := by
  refine ⟨balanced, h.follows.set at_t follows, fun i other visit_i => ?_,
    h.dances_set at_t visit_t dances, fun i shcl visit_i => ?_,
    fun i shcl visit_i nothing => ?_, h.prefs, h.effect, h.errors⟩
  · rcases visit_of_set visit_t visit_i with ⟨rfl, rfl⟩ | ⟨other_t, visit_i⟩
    · exact own
    · exact (push_ne i other_t).trans (h.push i other visit_i)
  · rcases visit_of_set visit_t visit_i with ⟨rfl, rfl⟩ | ⟨other_t, visit_i⟩
    · exact False.elim fresh
    · exact same.trans (h.list i shcl visit_i)
  · rcases visit_of_set visit_t visit_i with ⟨rfl, rfl⟩ | ⟨other_t, visit_i⟩
    · exact False.elim fresh
    · exact (gave_ne i other_t).trans (h.gave i shcl visit_i nothing)

theorem Attended.serve (h : Attended env s visits) {old : Acs.Role} {th : Acs.HttpThread}
    (at_t : s.acs.threads[t]? = some ⟨old, .done ()⟩)
    (balanced : Acs.Balanced ⟨shared, s.acs.threads.set t th⟩)
    (same : shared.bridgeAccessList = s.acs.shared.bridgeAccessList)
    (follows : (visiting env).Follows .away th.prog fun _ visit => visit = .away) :
    ∃ visits', Attended env { s with acs := ⟨shared, s.acs.threads.set t th⟩ } visits' := by
  obtain ⟨visit, visit_t, rfl⟩ := h.follows.ends_of_done at_t rfl
  exact ⟨_, h.begin at_t visit_t balanced same follows trivial (absurd rfl) (h.push t _ visit_t)
    (fun _ _ => rfl) fun _ _ => rfl⟩

end Run

theorem Attended.acs {env : Acs.Env} {s : State} {visits : List Visit} (h : Attended env s visits)
    {e : Acs.Event} (foreseen : Foreseen env s (.acs e)) {acs : Acs.State}
    (moved : Acs.step env s.acs e = some acs) :
    ∃ visits', Attended env { s.observe e with
      acs
      completed :=
        if recordsDone s.acs e then some s.acs.shared.bridgeAccessList else s.completed }
      visits' := by
  obtain ⟨orderly, st⟩ := Acs.step_cases h.balanced.orderly moved
  have balanced := Acs.balanced_step h.balanced orderly st
  cases Acs.step_moved moved with
  | @run t c role o next shared x at_t performed =>
    obtain ⟨visit, visit_t, follows⟩ := h.follows _ _ at_t
    refine ⟨_, h.run foreseen at_t visit_t follows performed ?_ balanced⟩
    simp only [State.observe, at_t]
  | @begin t e old prog asked open_ at_t =>
    have follows := Acs.request_follows (fun hcl => acsProgress_visiting hcl)
      (fun hcl => visiting_of_setsUp env (Acs.acsSetup_setsUp hcl))
      (fun nep => visiting_of_setsUp env (Acs.rdvPeelBase_setsUp nep)) asked
    have served := h.serve at_t balanced rfl follows
    cases e with
    | progress | setup | peel => exact served
    | _ => cases asked
  | @answer t i shcl old request open_ at_t waiting =>
    have follows := (djbPushCallback_visiting env shcl request).discard
    obtain ⟨client, push, hostname, rawuri⟩ := request
    cases push with
    | acsInitialAnswer =>
      simp only [State.observe, waiting]
      exact h.serve at_t balanced rfl follows
    | acsRedirectAnswer =>
      obtain ⟨visit, visit_t, rfl⟩ := h.follows.ends_of_done at_t rfl
      refine ⟨visits.set t (.reads shcl), ?_⟩
      simp only [State.observe, waiting]
      exact h.begin at_t visit_t balanced rfl follows trivial (fun _ => rfl)
        (Function.update_self ..) (fun i other => Function.update_of_ne other _ _)
        fun i other => Function.update_of_ne other _ _
  | shutdown =>
    exact ⟨visits, balanced, h.follows, h.push, h.dances, h.list, h.gave, h.prefs, h.effect,
      h.errors⟩
  | @exit t old open_ at_t stopped =>
    have follows := (visiting_of_setsUp env Acs.acsExit_setsUp).discard
    exact h.serve at_t balanced rfl follows

theorem Attended.set {env : Acs.Env} {s : State} {visits : List Visit} (h : Attended env s visits)
    (m : Memory) (body : List UInt8) : Attended env { s with
      prefs := (prfSetBody env.jsonLoads m s.prefs body).1
      posts := s.posts ++ [(m, body)]
      completed := none } visits where
  balanced := h.balanced
  follows := h.follows
  push := h.push
  dances := h.dances
  list := h.list
  gave := h.gave
  prefs := by
    have before := h.prefs
    rw [posted, List.foldl_append, ← posted, ← before]
    rfl
  effect := nofun
  errors := h.errors

theorem attended_init (env : Acs.Env) (threads : ℕ) :
    Attended env (init threads) (List.replicate threads .away) where
  balanced := Acs.balanced_init threads
  follows := Pool.Shadowed.idle threads rfl
  push t visit visit_t := by
    obtain rfl := List.eq_of_mem_replicate (List.mem_of_getElem? visit_t)
    rfl
  dances t visit visit_t at_work := by
    exact absurd (List.eq_of_mem_replicate (List.mem_of_getElem? visit_t)) at_work
  list t shcl visit_t := by
    cases List.eq_of_mem_replicate (List.mem_of_getElem? visit_t)
  gave t shcl visit_t := by
    cases List.eq_of_mem_replicate (List.mem_of_getElem? visit_t)
  prefs := rfl
  effect := nofun
  errors := nofun

def listText : CStr :=
  "\x7b\"BR_Access_List\":[\x7b\"Camouflage\":\x7b\"method\":\"http\"\x7d,".toList ++
    "\"Contact\":\x7b\"IP_address\":\"10.42.20.221\"\x7d\x7d]\x7d".toList

def listJson : Json := .object [("BR_Access_List".toList, .array [.object [
  ("Camouflage".toList, .object [("method".toList, .string "http".toList)]),
  ("Contact".toList, .object [("IP_address".toList, .string "10.42.20.221".toList)])]])]

def prefsText : CStr :=
  "\x7b\"stegotorus_steg_module\":\"http\",\"server_address\":\"10.42.20.221\"\x7d".toList

def prefsJson : Json := .object [
  ("stegotorus_steg_module".toList, .string "http".toList),
  ("server_address".toList, .string "10.42.20.221".toList)]

def listEnv : Acs.Env where
  jsonLoads text :=
    if text = Acs.exampleText then some Acs.exampleNet
    else if text = listText then some listJson
    else if text = prefsText then some prefsJson
    else none
  jsonDumps _ := Acs.exampleText
  parseIso8601Interval _ := none
  stegDecode _ _ := some listText
  castOutOfRange _ := 0

def redirectPush : HttpsrvClient := { Acs.initialPush "200" with body := [1], readbody := true }

/-- The dance of the example NET, up to the end of what `acs_redirect_answer` does. -/
def doneRun : List Event :=
  (Acs.danceRun ++ Acs.runs 0 3 ++ [Acs.Event.answer 1 0 (Acs.initialPush "200")] ++
    Acs.runs 1 17 ++ [Acs.Event.answer 1 0 redirectPush] ++ Acs.runs 1 6).map .acs

end Jumpbox.Preferences
