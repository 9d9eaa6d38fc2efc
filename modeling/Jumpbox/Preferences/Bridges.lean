import Jumpbox.Library.Machine
import Jumpbox.Preferences.Store

/-! The list of bridges that a request is shown. A new list takes the place of the old one
before it has been looked at, and `json_pack` is given `json_t`s where it wants strings. -/

namespace Jumpbox.Preferences

open Acs (Json)

/-- `prf_set_bridge_access_list`: the list from now on. The old one has been let go of. -/
def prfSetBridgeAccessList (load : CStr → Option Json) (memory : Bool) (br : CStr) : Option Json :=
  if memory then load br else none

theorem exec_prfSetBridgeAccessList (env : Acs.Env) (t : ℕ) (br : CStr) (c : Acs.Choice)
    (s : Acs.Shared) :
    let list := prfSetBridgeAccessList env.jsonLoads c.ok br
    Acs.exec env t (.prfSetBridgeAccessList br) c s =
      some ({ s with bridgeAccessList := list }, list.isSome) := rfl

namespace Bridges

structure State where
  lBridgeAccessList : Option Json := none
  last : Option Json := none

inductive Event
  | set (memory : Bool) (br : CStr)
  | list (k : Pack)

def step (load : CStr → Option Json) (s : State) : Event → Option State
  | .set memory br =>
    let loaded := prfSetBridgeAccessList load memory br
    some { lBridgeAccessList := loaded, last := loaded.or s.last }
  | .list _ => some s

def machine (load : CStr → Option Json) : Machine State Event := ⟨step load⟩

def camouflage (bridge : Json) : Option (CStr × CStr) :=
  (bridge.get "Camouflage".toList).bind fun camouflage =>
    match camouflage.get "method".toList, camouflage.get "scheme".toList with
    | some (.string method), some (.string scheme) => some (method, scheme)
    | _, _ => none

def bridges (list : Option Json) : Option (List (CStr × CStr)) :=
  (list.bind bridgesOf).bind fun bridges => bridges.mapM camouflage

def entry (bridge : CStr × CStr) : Json :=
  .object [("method".toList, .string bridge.1), ("scheme".toList, .string bridge.2)]

def answer (bridges : List (CStr × CStr)) : Json :=
  .object [("bridges".toList, .array (bridges.map entry))]

/-- The request shows the bridges of the last text that parsed, and reports an error when
that was no list of bridges. -/
def ShowsLast (load : CStr → Option Json) (s : State) : Event → Prop
  | .set .. => True
  | .list k =>
    match bridges s.last with
    | some bridges => ∃ j, prfBrList k s.lBridgeAccessList = djbResult .ok j ∧
        load j = some (answer bridges)
    | none => ∃ text, prfBrList k s.lBridgeAccessList = djbResult .err text

/-- No text that did not parse has come after the list, there is memory for the answer, and
what `json_pack` finds in the place of each string is that string. -/
def Packable (s : State) : Event → Prop
  | .set .. => True
  | .list k => ∀ list, bridges s.last = some list → s.lBridgeAccessList.isSome ∧ k.array ∧
      k.pack ∧ (k.dumps (answer list)).isSome ∧
      ∀ bridge ∈ list, k.text (.string bridge.1) = some bridge.1 ∧
        k.text (.string bridge.2) = some bridge.2

def found (k : Pack) (bridge : CStr × CStr) : Option (CStr × CStr) :=
  (k.text (.string bridge.1)).bind fun method =>
    (k.text (.string bridge.2)).map fun scheme => (method, scheme)

section
variable {k : Pack} {load : CStr → Option Json} {s s' : State}

theorem get_of_not_object {json : Json} (scalar : json.isObject = false) (var : CStr) :
    json.get var = none := by
  cases json with
  | object => cases scalar
  | _ => rfl

theorem brEntry_ok {bridge : Json} {pair : CStr × CStr} (sound : camouflage bridge = some pair) :
    brEntry k bridge = .ok ((found k pair).map entry) := by
  obtain ⟨value, got, strings⟩ := Option.bind_eq_some_iff.mp sound
  have object : bridge.isObject := by
    by_contra scalar
    rw [get_of_not_object (Bool.not_eq_true _ ▸ scalar)] at got
    cases got
  split at strings
  · rename_i method scheme method_got scheme_got
    obtain rfl := Option.some.inj strings
    cases value with
    | object fields =>
      simp only [brEntry, object, got, method_got, scheme_got, if_true, found]
      cases k.text (.string method) <;> cases k.text (.string scheme) <;> rfl
    | _ => cases method_got
  · cases strings

theorem brEntry_error {bridge : Json} (broken : camouflage bridge = none) :
    ∃ text, brEntry k bridge = .error text := by
  unfold brEntry
  split
  · split
    · rename_i fields got
      split
      · rename_i method method_got
        split
        · rename_i scheme scheme_got
          rw [camouflage, got, Option.bind_some, method_got, scheme_got] at broken
          cases broken
        · exact ⟨_, rfl⟩
      · exact ⟨_, rfl⟩
    · exact ⟨_, rfl⟩
  · exact ⟨_, rfl⟩

theorem brEntries_ok {list : List Json} {pairs : List (CStr × CStr)}
    (sound : list.mapM camouflage = some pairs) :
    brEntries k list = .ok ((pairs.filterMap (found k)).map entry) := by
  induction list generalizing pairs with
  | nil =>
    obtain rfl := Option.some.inj sound
    rfl
  | cons bridge rest ih =>
    rw [List.mapM_cons] at sound
    obtain ⟨pair, first, sound⟩ := Option.bind_eq_some_iff.mp sound
    obtain ⟨pairs, others, sound⟩ := Option.bind_eq_some_iff.mp sound
    obtain rfl := Option.some.inj sound
    have entries : brEntries k (bridge :: rest) =
        .ok (((found k pair).map entry).toList ++ (pairs.filterMap (found k)).map entry) := by
      rw [brEntries, brEntry_ok first, ih others]
      rfl
    rw [entries, List.filterMap_cons]
    cases found k pair <;> rfl

theorem brEntries_error {list : List Json} (broken : list.mapM camouflage = none) :
    ∃ text, brEntries k list = .error text := by
  induction list with
  | nil => cases broken
  | cons bridge rest ih =>
    rw [List.mapM_cons] at broken
    cases first : camouflage bridge with
    | none =>
      obtain ⟨text, error⟩ := brEntry_error (k := k) first
      refine ⟨text, ?_⟩
      rw [brEntries, error]
      rfl
    | some pair =>
      rw [first] at broken
      cases others : rest.mapM camouflage with
      | none =>
        obtain ⟨text, error⟩ := ih others
        refine ⟨text, ?_⟩
        rw [brEntries, brEntry_ok first, error]
        rfl
      | some pairs =>
        rw [others] at broken
        cases broken

theorem prfBrList_sound {root : Json} {list : List (CStr × CStr)}
    (sound : bridges (some root) = some list) :
    prfBrList k (some root) =
      if k.array then
        if k.pack then
          match k.dumps (answer (list.filterMap (found k))) with
          | none => djbResult .err "Could not dump JSON".toList
          | some j => djbResult .ok j
        else djbResult .err "Could not pack JSON".toList
      else djbResult .err "Could not create a JSON array".toList := by
  obtain ⟨items, array, mapped⟩ := Option.bind_eq_some_iff.mp sound
  have array : bridgesOf root = some items := array
  have object : root.isObject := by
    by_contra scalar
    rw [bridgesOf, get_of_not_object (Bool.not_eq_true _ ▸ scalar)] at array
    cases array
  simp only [prfBrList, object, array, brEntries_ok mapped, if_true]
  rfl

theorem prfBrList_broken {list : Option Json} (broken : bridges list = none) :
    ∃ text, prfBrList k list = djbResult .err text := by
  unfold prfBrList
  split
  · exact ⟨_, rfl⟩
  · rename_i root
    split
    · split
      · exact ⟨_, rfl⟩
      · rename_i items array
        split
        · have broken : items.mapM camouflage = none := by
            rw [bridges, Option.bind_some, array] at broken
            exact broken
          obtain ⟨text, error⟩ := brEntries_error (k := k) broken
          rw [error]
          exact ⟨_, rfl⟩
        · exact ⟨_, rfl⟩
    · exact ⟨_, rfl⟩

theorem found_iff {bridge : CStr × CStr} : found k bridge = some bridge ↔
    k.text (.string bridge.1) = some bridge.1 ∧ k.text (.string bridge.2) = some bridge.2 := by
  obtain ⟨method, scheme⟩ := bridge
  simp [found, Option.bind_eq_some_iff]

theorem keeps_iff {list : List (CStr × CStr)} :
    list.filterMap (found k) = list ↔ ∀ bridge ∈ list, found k bridge = some bridge := by
  have same := List.filterMap_eq_map_iff_forall_eq_some (f := found k) (g := id) (l := list)
  rwa [List.map_id] at same

theorem answer_injective : Function.Injective answer := by
  have entry : Function.Injective entry := by
    rintro ⟨_, _⟩ ⟨_, _⟩ same
    cases same
    rfl
  intro xs ys same
  injection same with fields
  injection fields with field
  injection field with _ array
  injection array with entries
  exact entry.list_map entries

def Follows (s : State) : Prop := s.lBridgeAccessList = none ∨ s.lBridgeAccessList = s.last

theorem Follows.step {e : Event} (h : Follows s) (run : (machine load).step s e = some s') :
    Follows s' := by
  cases e with
  | set memory br =>
    cases run
    unfold Follows
    cases prfSetBridgeAccessList load memory br with
    | none => exact .inl rfl
    | some root => exact .inr rfl
  | list k =>
    cases run
    exact h

theorem shows_iff {root : Json} {list : List (CStr × CStr)}
    (sound : bridges (some root) = some list)
    (reads_back : ∀ list j, k.dumps (answer list) = some j → load j = some (answer list)) :
    (∃ j, prfBrList k (some root) = djbResult .ok j ∧ load j = some (answer list)) ↔
      k.array ∧ k.pack ∧ (k.dumps (answer list)).isSome ∧
        ∀ bridge ∈ list, k.text (.string bridge.1) = some bridge.1 ∧
          k.text (.string bridge.2) = some bridge.2 := by
  rw [prfBrList_sound sound]
  constructor
  · rintro ⟨j, outs, read⟩
    split at outs
    · rename_i array
      split at outs
      · rename_i pack
        split at outs
        · cases outs
        · rename_i text dumped
          obtain rfl : text = j := by simpa [djbResult] using outs
          have own := reads_back _ _ dumped
          have kept := answer_injective (Option.some.inj (own.symm.trans read))
          rw [kept] at dumped
          refine ⟨array, pack, by rw [dumped]; rfl, fun bridge mem => ?_⟩
          exact found_iff.mp (keeps_iff.mp kept bridge mem)
      · cases outs
    · cases outs
  · rintro ⟨array, pack, memory, texts⟩
    obtain ⟨j, dumped⟩ := Option.isSome_iff_exists.mp memory
    have kept := keeps_iff.mpr fun bridge mem => found_iff.mpr (texts bridge mem)
    rw [if_pos array, if_pos pack, kept, dumped]
    exact ⟨j, rfl, reads_back list j dumped⟩

theorem showsLast_iff {e : Event} (h : Follows s)
    (reads_back : ∀ k, e = .list k → ∀ list j, k.dumps (answer list) = some j →
      load j = some (answer list)) :
    ShowsLast load s e ↔ Packable s e := by
  cases e with
  | set memory br => exact Iff.rfl
  | list k =>
    unfold ShowsLast Packable
    dsimp only
    cases shown : bridges s.last with
    | none =>
      have broken : bridges s.lBridgeAccessList = none := by
        rcases h with unset | same
        · rw [unset]
          rfl
        · rw [same, shown]
      exact iff_of_true (prfBrList_broken broken) nofun
    | some list =>
      rcases h with unset | same
      · rw [unset]
        refine iff_of_false ?_ ?_
        · rintro ⟨j, err, _⟩
          cases err
        · intro packable
          cases (packable list rfl).1
      · cases last : s.last with
        | none =>
          rw [last] at shown
          cases shown
        | some root =>
          rw [last] at shown
          rw [same, last]
          refine (shows_iff shown (reads_back k rfl)).trans ⟨?_, fun packable => ?_⟩
          · rintro packable _ ⟨⟩
            exact ⟨rfl, packable⟩
          · exact (packable list rfl).2

end

/-- The bridges shown are those of the last text that parsed exactly as far as every request
comes after such a text and `json_pack` finds the strings. jansson reads what it dumps. -/
theorem shows_last_iff (load : CStr → Option Json) (es : List Event)
    (reads_back : ∀ k, .list k ∈ es → ∀ list j, k.dumps (answer list) = some j →
      load j = some (answer list)) :
    (machine load).Meets (ShowsLast load) {} es ↔ (machine load).Meets Packable {} es := by
  have iff (s : State) (e : Event) (mem : e ∈ es) (h : Follows s) :
      ShowsLast load s e ↔ Packable s e :=
    showsLast_iff h fun k named => reads_back k (named ▸ mem)
  constructor <;> intro meets
  · exact meets.imp _ (fun _ _ _ h _ run => h.step run)
      (fun s e mem h => (iff s e mem h).mp) (.inl rfl)
  · exact meets.imp _ (fun _ _ _ h _ run => h.step run)
      (fun s e mem h => (iff s e mem h).mpr) (.inl rfl)

/-! A list without bridges and one with a single bridge. -/

def noBridges : CStr := "\x7b\"BR_Access_List\":[]\x7d".toList

def oneBridge : CStr :=
  "\x7b\"BR_Access_List\":[\x7b\"Camouflage\":".toList ++
    "\x7b\"method\":\"http\",\"scheme\":\"steg\"\x7d\x7d]\x7d".toList

def oneBridgeJson : Json := .object [("BR_Access_List".toList, .array [
  .object [("Camouflage".toList, entry ("http".toList, "steg".toList))]])]

/-- A `json_t` begins with its type, which is 2 for a string. -/
def typeOfString : CStr := [Char.ofNat 2]

def noneShown : CStr := "\x7b\"bridges\":[]\x7d".toList

def oneShown : CStr :=
  "\x7b\"bridges\":[\x7b\"method\":\"\\u0002\",\"scheme\":\"\\u0002\"\x7d]\x7d".toList

def jansson (text : CStr) : Option Json :=
  if text = noBridges then some (.object [("BR_Access_List".toList, .array [])])
  else if text = oneBridge then some oneBridgeJson
  else if text = noneShown then some (answer [])
  else if text = oneShown then some (answer [(typeOfString, typeOfString)])
  else none

def janssonPack : Pack where
  dumps
    | .object [(_, .array [])] => some noneShown
    | .object [(_, .array [.object [(_, .string method), (_, .string scheme)]])] =>
      if method = typeOfString ∧ scheme = typeOfString then some oneShown else none
    | _ => none
  text _ := some typeOfString

theorem jansson_reads_back (list : List (CStr × CStr)) (j : CStr)
    (dumped : janssonPack.dumps (answer list) = some j) : jansson j = some (answer list) := by
  match list, dumped with
  | [], dumped =>
    cases dumped
    rfl
  | [(method, scheme)], dumped =>
    obtain ⟨⟨rfl, rfl⟩, same⟩ := Option.ite_none_right_eq_some.mp dumped
    cases same
    rfl
  | _ :: _ :: _, dumped => cases dumped

theorem shows_types :
    ¬∀ load es, (∀ k, .list k ∈ es → ∀ list j, k.dumps (answer list) = some j →
      load j = some (answer list)) → (machine load).Meets (ShowsLast load) {} es := by
  intro always
  have meets := always jansson [.set true oneBridge, .list janssonPack] (by
    rintro k mem
    obtain rfl : k = janssonPack := by simpa using mem
    exact jansson_reads_back)
  obtain ⟨j, outs, read⟩ := (meets.2 _ rfl).1
  have shown : prfBrList janssonPack (some oneBridgeJson) = djbResult .ok oneShown := rfl
  obtain rfl : oneShown = j := by simpa [djbResult] using shown.symm.trans outs
  have types : jansson oneShown = some (answer [(typeOfString, typeOfString)]) := rfl
  have same := answer_injective (Option.some.inj (types.symm.trans read))
  exact absurd same (by decide)

/-- A text that does not parse takes the list away. -/
example : ((machine jansson).exec {} [.set true oneBridge, .set true []]).map
    (fun s => (bridges s.last, prfBrList janssonPack s.lBridgeAccessList)) =
    some (some [("http".toList, "steg".toList)],
      djbResult .err "No Bridge List set yet, perform ACS first".toList) := rfl

theorem shows_last_of_no_bridges :
    (machine jansson).Meets (ShowsLast jansson) {}
      [.set true oneBridge, .set true noBridges, .list janssonPack] := by
  refine (shows_last_iff jansson _ ?_).mpr ?_
  · rintro k mem
    obtain rfl : k = janssonPack := by simpa using mem
    exact jansson_reads_back
  · refine ⟨trivial, fun _ first => ⟨trivial, ?_⟩⟩
    cases first
    rintro _ ⟨⟩
    refine ⟨?_, fun _ _ => trivial⟩
    rintro _ ⟨⟩
    exact ⟨rfl, rfl, rfl, rfl, nofun⟩

end Bridges

end Jumpbox.Preferences
