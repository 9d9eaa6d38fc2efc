import Jumpbox.Plugin.Options
import Jumpbox.Preferences.Arguments
import Mathlib.Data.List.TakeWhile

/-! What becomes of what is saved: what is posted is what `prf_set` would set, and the pages
that are opened show it, but it is posted to where `prf_set` is not, and nothing is set. -/

namespace Jumpbox.Plugin.PreferencesPage

open Acs (Json cstring)
open Preferences (Memory Prefs given put prfSetBody)

def optionOf (k : Preferences.Key) : Option OptionId := OptionId.all.find? fun i => i.text = k.text

/-- What the daemon is to make of a `localStorage`. -/
def values (localStorage : Storage) (k : Preferences.Key) : Option CStr :=
  (optionOf k).bind fun i => (localStorage i).map Utf8.bytes

/-- An object of texts without NUL is read, in the bytes of UTF-8. -/
def Reads (load : CStr → Option Json) : Prop :=
  ∀ members : List (CStr × CStr), (members.map Prod.fst).Nodup →
    (∀ m ∈ members, '\x00' ∉ m.1 ∧ '\x00' ∉ m.2) →
    load (Utf8.bytes (JsonText.print JsonText.compact (Utf8.texts members))) =
      some (.object (members.map fun m => (Utf8.bytes m.1, .string (Utf8.bytes m.2))))

/-! What is sent. -/

def Clean (localStorage : Storage) : Prop := ∀ i, ∀ value ∈ localStorage i, '\x00' ∉ value

theorem cstring_encode {s : CStr} (clean : '\x00' ∉ s) :
    cstring (Utf8.encode s) = Utf8.bytes s := by
  have whole : (Utf8.encode s).takeWhile (· ≠ 0) = Utf8.encode s := by
    refine List.takeWhile_eq_self_iff.mpr fun b member => ?_
    have nonzero : b ≠ 0 := fun zero => Utf8.zero_not_mem_encode clean (zero ▸ member)
    simpa using nonzero
  rw [cstring, whole, Utf8.bytes]

theorem texts_nodup : (OptionId.all.map OptionId.text).Nodup := by decide

theorem OptionId.text_clean (i : OptionId) : '\x00' ∉ i.text := by
  cases i <;> decide

theorem OptionId.bytes_text (i : OptionId) : Utf8.bytes i.text = i.text := by
  cases i <;> decide +kernel

section
variable (localStorage : Storage)

def stored (i : OptionId) : Option (CStr × CStr) :=
  (localStorage i).map fun value => (i.text, value)

theorem find_stored (name : CStr) {l : List OptionId} (nodup : (l.map OptionId.text).Nodup) :
    ((l.filterMap (stored localStorage)).find? fun m => m.1 = name).map Prod.snd =
      (l.find? fun i => i.text = name).bind localStorage := by
  induction l with
  | nil => rfl
  | cons i l ih =>
    obtain ⟨new, nodup⟩ := List.nodup_cons.mp nodup
    have rest := ih nodup
    by_cases same : i.text = name
    · cases value : localStorage i with
      | some value =>
        simp [stored, value, same]
      | none =>
        have absent : (l.filterMap (stored localStorage)).find? (fun m => m.1 = name) = none := by
          refine List.find?_eq_none.mpr fun m member named => ?_
          obtain ⟨j, listed, found⟩ := List.mem_filterMap.mp member
          obtain ⟨_, _, rfl⟩ := Option.map_eq_some_iff.mp found
          have named : j.text = name := of_decide_eq_true named
          exact new (List.mem_map.mpr ⟨j, listed, named.trans same.symm⟩)
        simp [stored, value, same] at absent ⊢
        exact absent
    · cases value : localStorage i with
      | some value => simpa [stored, value, same] using rest
      | none => simpa [stored, value, same] using rest

theorem stored_text {l : List OptionId} (nodup : (l.map OptionId.text).Nodup) :
    ((l.filterMap (stored localStorage)).map Prod.fst).Nodup := by
  refine nodup.sublist ?_
  induction l with
  | nil => exact .slnil
  | cons i l ih =>
    have rest := ih (List.nodup_cons.mp nodup).2
    cases value : localStorage i with
    | none => simpa [stored, value] using rest.cons i.text
    | some value => simpa [stored, value] using rest.cons_cons i.text

end

variable {load : CStr → Option Json} {localStorage : Storage} {m : Memory}

theorem load_stringify (reads : Reads load) (clean : Clean localStorage) :
    load (cstring (Utf8.encode (stringify localStorage))) =
      some (.object ((OptionId.all.filterMap (stored localStorage)).map fun m =>
        (Utf8.bytes m.1, .string (Utf8.bytes m.2)))) := by
  rw [stringify, cstring_encode (Utf8.nul_not_mem_print _ _)]
  refine reads _ (stored_text localStorage texts_nodup) fun m member => ?_
  obtain ⟨i, _, found⟩ := List.mem_filterMap.mp member
  obtain ⟨value, present, rfl⟩ := Option.map_eq_some_iff.mp found
  exact ⟨i.text_clean, clean i value present⟩

theorem given_stringify (reads : Reads load) (clean : Clean localStorage)
    (memory : m.body && m.jsonLoads) (k : Preferences.Key) :
    given load m (Utf8.encode (stringify localStorage)) k = values localStorage k := by
  have named : ∀ ms : List (CStr × CStr), (∀ m ∈ ms, Utf8.bytes m.1 = m.1) →
      (ms.map fun m => (Utf8.bytes m.1, Json.string (Utf8.bytes m.2))).find?
          (fun field => field.1 = k.text) =
        (ms.find? fun m => m.1 = k.text).map fun m =>
          (Utf8.bytes m.1, Json.string (Utf8.bytes m.2)) := by
    intro ms ascii
    induction ms with
    | nil => rfl
    | cons m ms ih =>
      have first := ascii m List.mem_cons_self
      have rest := ih fun m member => ascii m (List.mem_cons_of_mem _ member)
      simp only [List.map_cons, List.find?_cons, first]
      cases decide (m.1 = k.text) with
      | true => rw [Option.map_some, first]
      | false => exact rest
  have found := find_stored localStorage k.text texts_nodup
  have chosen : values localStorage k = ((optionOf k).bind localStorage).map Utf8.bytes := by
    unfold values
    cases optionOf k <;> rfl
  unfold given
  rw [if_pos memory, load_stringify reads clean, chosen, optionOf, ← found]
  simp only [Json.isObject, if_true, Preferences.member, Json.get]
  rw [named]
  · cases (OptionId.all.filterMap (stored localStorage)).find? fun m => m.1 = k.text <;> rfl
  · intro m member
    obtain ⟨i, _, found⟩ := List.mem_filterMap.mp member
    obtain ⟨value, _, rfl⟩ := Option.map_eq_some_iff.mp found
    exact i.bytes_text

/-- jansson, of objects of texts. -/
def jansson (text : CStr) : Option Json :=
  match JsonText.parse text with
  | some (.object fields) => some (.object (fields.filterMap fun field =>
      match field.2 with
      | .string s => some (field.1, .string s)
      | _ => none))
  | _ => none

theorem reads_jansson : Reads jansson := by
  intro members _ _
  rw [jansson, Utf8.bytes_print, JsonText.parse_print]
  simp [JsonText.object, Utf8.texts, JsonText.Scalar.value]

/-! What is stored: nothing yet, or all that a page held. -/

def Kept (localStorage : Storage) : Prop :=
  (∀ i, localStorage i = none) ∨ ∃ form, Regular form ∧ localStorage = saveOptions form

theorem Kept.clean (h : Kept localStorage) : Clean localStorage := by
  intro i value stored
  obtain blank | ⟨form, regular, rfl⟩ := h
  · exact absurd (stored.symm.trans (blank i)) (Option.some_ne_none _)
  · obtain rfl : (form i).getter = value := Option.some.inj stored
    exact (regular i).clean rfl

theorem Kept.opened (h : Kept localStorage) : Regular (restoreOptions localStorage html) := by
  obtain blank | ⟨form, regular, rfl⟩ := h
  · have same : restoreOptions localStorage html = html := by
      funext i
      rw [restoreOptions, blank i]
    rw [same]
    exact html_regular
  · rw [restore_save regular]
    exact regular

def typed (form : Form) (k : Preferences.Key) : Option CStr :=
  (optionOf k).map fun i => Utf8.bytes (form i).getter

theorem values_saveOptions (form : Form) : values (saveOptions form) = typed form := by
  funext k
  unfold values typed
  cases optionOf k <;> rfl

namespace System

variable {env : Env} {s s' : System}

inductive Step (env : Env) (s : System) : Event → System → Prop
  | restart : Step env s .restart ({ s with jbPort := "6543".toList }.jumpBoxInit env)
  | openPage : Step env s .openPage
      { s with forms := s.forms ++ [restoreOptions s.localStorage html] }
  | closePage {k} : Step env s (.closePage k) { s with forms := s.forms.eraseIdx k }
  | edit {k i c form} : s.forms[k]? = some form → (form i).Edits c →
      Step env s (.edit k i c) { s with forms := s.forms.set k (Function.update form i c) }
  | save {k form} : s.forms[k]? = some form →
      Step env s (.save k) ({ s with localStorage := saveOptions form }.jumpBoxInit env)
  | take {n m body} : s.posts[n]? = some body →
      Step env s (.take n m) { s with
        posts := s.posts.eraseIdx n
        daemon := handlePreferences env m s.daemon body }
  | lose {n} : Step env s (.lose n) { s with posts := s.posts.eraseIdx n }
  | start : Step env s .start { s with posts := [], daemon := {} }

theorem step_cases {e : Event} (moved : step env s e = some s') : Step env s e s' := by
  cases e with
  | restart =>
    cases moved
    exact .restart
  | openPage =>
    cases moved
    exact .openPage
  | closePage k =>
    cases moved
    exact .closePage
  | edit k i c =>
    obtain ⟨form, present, moved⟩ := Option.bind_eq_some_iff.mp moved
    obtain ⟨edits, moved⟩ := Option.ite_none_right_eq_some.mp moved
    cases moved
    exact .edit present edits
  | save k =>
    obtain ⟨form, present, rfl⟩ := Option.map_eq_some_iff.mp moved
    exact .save present
  | take n m =>
    obtain ⟨body, under_way, rfl⟩ := Option.map_eq_some_iff.mp moved
    exact .take under_way
  | lose n =>
    obtain ⟨_, moved⟩ := Option.ite_none_right_eq_some.mp moved
    cases moved
    exact .lose
  | start =>
    cases moved
    exact .start

structure Sound (s : System) : Prop where
  forms : ∀ form ∈ s.forms, Regular form
  localStorage : Kept s.localStorage

theorem Sound.step {e : Event} (h : Sound s) (moved : System.step env s e = some s') :
    Sound s' := by
  cases step_cases moved with
  | restart | take | lose | start => exact ⟨h.forms, h.localStorage⟩
  | openPage =>
    refine ⟨fun form member => ?_, h.localStorage⟩
    obtain old | new := List.mem_append.mp member
    · exact h.forms form old
    · exact List.mem_singleton.mp new ▸ h.localStorage.opened
  | closePage =>
    exact ⟨fun form member => h.forms form (List.mem_of_mem_eraseIdx member), h.localStorage⟩
  | @edit k i c form present edits =>
    have regular := h.forms form (List.mem_of_getElem? present)
    refine ⟨fun form' member => ?_, h.localStorage⟩
    obtain old | rfl := List.mem_or_eq_of_mem_set member
    · exact h.forms form' old
    · intro j
      by_cases same : j = i
      · subst same
        rw [Function.update_self]
        exact (regular j).trans edits
      · rw [Function.update_of_ne same]
        exact regular j
  | @save k form present =>
    exact ⟨h.forms, .inr ⟨form, h.forms form (List.mem_of_getElem? present), rfl⟩⟩

theorem sound_of_exec {es : List Event} (run : (machine env).exec (init env) es = some s) :
    Sound s :=
  (machine env).invariant (fun _ _ _ h moved => Sound.step h moved)
    ⟨fun _ member => absurd member List.not_mem_nil, .inl fun _ => rfl⟩ run

theorem save_posts_form (env : Env) (reads : Reads env.load) {es : List Event} {s s' : System}
    {k : ℕ} {form : Form} (run : (machine env).exec (init env) es = some s)
    (page : s.forms[k]? = some form) (saved : step env s (.save k) = some s')
    (sent : env.reaches s'.jbPort) :
    ∃ body, s'.posts = s.posts ++ [body] ∧
      ∀ m p, m.body && m.jsonLoads → (∀ key, m.value key) → ∀ key,
        (prfSetBody env.load m p body).1.lValues key = (typed form key).or (p.lValues key) := by
  have regular := (sound_of_exec run).forms form (List.mem_of_getElem? page)
  have clean : Clean (saveOptions form) := Kept.clean (.inr ⟨form, regular, rfl⟩)
  obtain ⟨form', present, rfl⟩ := Option.map_eq_some_iff.mp saved
  obtain rfl : form = form' := Option.some.inj (page.symm.trans present)
  refine ⟨Utf8.encode (stringify (saveOptions form)), if_pos sent, fun m p loaded memory key => ?_⟩
  rw [Preferences.prfSetBody_lValues, given_stringify reads clean loaded, values_saveOptions]
  cases typed form key with
  | none => rfl
  | some value => exact if_pos (memory key)

def browser : Env where
  reaches port := port = "6543".toList
  load := jansson

def editsSecret : List Event := [.openPage, .edit 0 .sharedSecret (.text "a".toList)]

def secretForm : Form := Function.update html .sharedSecret (.text "a".toList)

theorem exec_editsSecret : ∃ s, (machine browser).exec (init browser) editsSecret = some s ∧
    s.forms[0]? = some secretForm := ⟨_, rfl, rfl⟩

theorem save_posts_form_secret :
    ∃ s s' body, (machine browser).exec (init browser) editsSecret = some s ∧
      step browser s (.save 0) = some s' ∧ s'.posts = s.posts ++ [body] ∧
      (prfSetBody jansson {} {} body).1.lValues .shs = some "a".toList := by
  obtain ⟨s, run, page⟩ := exec_editsSecret
  have port : (step browser s (.save 0)).map (fun s' => browser.reaches s'.jbPort) = some true := by
    obtain rfl := Option.some.inj run
    decide +kernel
  obtain ⟨s', saved, sent⟩ := Option.map_eq_some_iff.mp port
  obtain ⟨body, posts, sets⟩ := save_posts_form browser reads_jansson run page saved sent
  refine ⟨s, s', body, run, saved, posts, ?_⟩
  have secret : typed secretForm .shs = some "a".toList := by decide +kernel
  exact (sets {} {} rfl (fun _ => rfl) .shs).trans (by rw [secret]; rfl)

theorem handlePreferences_eq (env : Env) (m : Memory) (p : Prefs) (body : List UInt8) :
    handlePreferences env m p body = p := rfl

theorem step_daemon {e : Event} (moved : step env s e = some s') (unset : s.daemon = {}) :
    s'.daemon = {} := by
  cases step_cases moved with
  | restart | openPage | closePage | edit | save | lose => exact unset
  | @take n m body => exact (handlePreferences_eq env m s.daemon body).trans unset
  | start => rfl

theorem step_localStorage {e : Event} (moved : step env s e = some s')
    (other : ∀ k, e ≠ .save k) : s'.localStorage = s.localStorage := by
  cases step_cases moved with
  | @save k => exact absurd rfl (other k)
  | _ => rfl

theorem shown_not_in_force (env : Env) {es es' : List Event} {s s' : System} {k : ℕ} {form : Form}
    (run : (machine env).exec (init env) es = some s) (page : s.forms[k]? = some form)
    (later : (machine env).exec s (.save k :: es') = some s')
    (last : ∀ e ∈ es', ∀ j, e ≠ .save j) :
    restoreOptions s'.localStorage html = form ∧ s'.daemon = {} := by
  have regular := (sound_of_exec run).forms form (List.mem_of_getElem? page)
  have unset : s.daemon = {} :=
    (machine env).invariant (fun _ _ _ unset moved => step_daemon moved unset) rfl run
  obtain ⟨saved, first, rest⟩ := (machine env).exec_cons_eq_some.mp later
  have kept : saved.localStorage = saveOptions form := by
    cases step_cases (e := .save k) first with
    | @save k form' present =>
      obtain rfl : form = form' := Option.some.inj (page.symm.trans present)
      rfl
  have meets : (machine env).Meets (fun _ e => ∀ j, e ≠ .save j) saved es' :=
    ((machine env).meets_true saved es').imp (machine env)
      (fun _ _ _ _ _ _ => trivial) (fun _ e member _ _ => last e member) trivial
  obtain ⟨stored, unset⟩ := ((machine env).always_of_meets
    (fun s e s' (h : s.localStorage = saveOptions form ∧ s.daemon = {}) other moved =>
      ⟨(step_localStorage moved other).trans h.1, step_daemon moved h.2⟩)
    ⟨kept, step_daemon (e := .save k) first unset⟩ meets).finish _ rest
  exact ⟨by rw [stored, restore_save regular], unset⟩

theorem shown_not_in_force_secret :
    ∃ s s', (machine browser).exec (init browser) editsSecret = some s ∧
      (machine browser).exec s [.save 0, .take 1 {}] = some s' ∧
      restoreOptions s'.localStorage html = secretForm ∧ s'.daemon = {} := by
  obtain ⟨s, run, page⟩ := exec_editsSecret
  have saves : ((machine browser).exec s [.save 0, .take 1 {}]).isSome := by
    obtain rfl := Option.some.inj run
    decide +kernel
  obtain ⟨s', later⟩ := Option.isSome_iff_exists.mp saves
  refine ⟨s, s', run, later, shown_not_in_force browser run page later fun e member j => ?_⟩
  rw [List.mem_singleton.mp member]
  exact nofun

end System

end Jumpbox.Plugin.PreferencesPage
