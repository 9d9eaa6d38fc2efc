import Jumpbox.Acs.Dance

/-! `preferences.c`: the values that the user has set, the argument vector made of them,
and the list of bridges. Calls that need memory take a choice of whether there is any. -/

namespace Jumpbox.Preferences

open Acs (Json cstring statusName)

/-- `enum prf_v`. -/
inductive Key
  | cc
  | exe
  | ll
  | sm
  | tp
  | shs
  | pa
  | ja
  | sa
  deriving DecidableEq, Repr

def Key.all : List Key := [.cc, .exe, .ll, .sm, .tp, .shs, .pa, .ja, .sa]

/-- `l_keys`. -/
def Key.text : Key → CStr
  | .cc => "stegotorus_circuit_count".toList
  | .exe => "stegotorus_executable".toList
  | .ll => "stegotorus_log_level".toList
  | .sm => "stegotorus_steg_module".toList
  | .tp => "stegotorus_trace_packets".toList
  | .shs => "shared_secret".toList
  | .pa => "proxy_address".toList
  | .ja => "djb_address".toList
  | .sa => "server_address".toList

/-- `l_defaults`. -/
def Key.default : Key → Option CStr
  | .cc => some "1".toList
  | .exe => some "/usr/sbin/stegotorus".toList
  | .ll => some "warn".toList
  | .sm => some "json".toList
  | .tp => some "false".toList
  | .shs => none
  | .pa => some "127.0.0.1:1080".toList
  | .ja => some "127.0.0.1:6543".toList
  | .sa => some "127.0.0.1:8080".toList

structure Prefs where
  lCurrentPreferences : Option CStr := none
  lValues : Key → Option CStr := fun _ => none

def prfGetValue (p : Prefs) (i : Key) : Option CStr := (p.lValues i).or i.default

theorem prfGetValue_isSome (p : Prefs) {i : Key} (other : i ≠ .shs) :
    (prfGetValue p i).isSome := by
  unfold prfGetValue
  cases i <;> first | contradiction | simp [Key.default]

def strdup (memory : Bool) (s : CStr) : Option CStr := if memory then some s else none

def prfSetValue (memory : Bool) (p : Prefs) (i : Key) (val : CStr) : Prefs :=
  { p with lValues := Function.update p.lValues i (strdup memory val) }

/-- What is set in a request: is there memory for the body, for what jansson makes of it,
and for each value? -/
structure Memory where
  body : Bool := true
  jsonLoads : Bool := true
  value : Key → Bool := fun _ => true

def prfParseKey (m : Memory) (root : Json) (p : Prefs) (i : Key) : Prefs :=
  match root.get i.text with
  | some (.string val) => prfSetValue (m.value i) p i val
  | _ => p

def prfParsePreferences (load : CStr → Option Json) (m : Memory) (p : Prefs) : Prefs × Bool :=
  match p.lCurrentPreferences with
  | none => (p, false)
  | some text =>
    match if m.jsonLoads then load text else none with
    | none => (p, false)
    | some root =>
      if root.isObject then (Key.all.foldl (prfParseKey m root) p, true) else (p, false)

def djbResult (st : Acs.DjbStatus) (msg : CStr) : List Out := [.result (statusName st) msg, .done]

def prfSetBody (load : CStr → Option Json) (m : Memory) (p : Prefs) (body : List UInt8) :
    Prefs × Bool :=
  prfParsePreferences load m { p with lCurrentPreferences := strdup m.body (cstring body) }

/-- What `prf_set` leaves behind and sends, and whether a read of the body was armed. -/
def prfSet (load : CStr → Option Json) (m : Memory) (alloc : Bool) (p : Prefs)
    (hcl : HttpsrvClient) : Prefs × List Out × Bool :=
  if hcl.readbody = false then
    if hcl.contentLength = 0 then
      (p, djbError 400 "Setting preferences requires a length".toList, false)
    -- a failure is logged and nothing else
    else (p, [], alloc)
  else
    match prfSetBody load m p hcl.body with
    | (p, true) => (p, djbResult .ok "Preferences OK".toList, false)
    | (p, false) => (p, djbResult .ok "Preferences broken".toList, false)

/-! The argument vector. -/

structure Forced where
  sharedsecret : Option CStr := none
  jumpboxaddress : Option CStr := none
  stegmethod : Option CStr := none

/-- An `argv`: the number of slots allocated, and what has been written to the slots, one
after the other. -/
structure Argv where
  argc : ℕ
  slots : List (Option CStr)

/-- The result of `prf_get_argv`: -1 with what it has allocated, or the vector. -/
inductive GetArgv
  | failed (left : Option Argv)
  | built (argv : Argv)

def scratchSize : ℕ := 256

def unsigned (n : ℤ) : ℕ := (n % 2 ^ 32).toNat

section
variable (dup : ℕ → Bool)

/-- `argv[vslot++] = strdup(..)` for the texts of `args`; `dup` tells at which slot there is
memory. -/
def pushAll (slots : List (Option CStr)) (args : List CStr) : List (Option CStr) :=
  args.foldl (fun slots arg => slots ++ [strdup (dup slots.length) arg]) slots

def circuitArgs (ja sm : CStr) (circuits : ℕ) : List CStr :=
  (List.replicate circuits [ja, sm]).flatten

def prfGetArgv (env : Forced) (calloc : Bool) (p : Prefs) : GetArgv :=
  let value (i : Key) := (prfGetValue p i).getD []
  let tracePackets := value .tp = "true".toList
  let circuits := unsigned (atoi (value .cc))
  let ss := env.sharedsecret.or (prfGetValue p .shs)
  let ja := env.jumpboxaddress.getD (value .ja)
  let sm := env.stegmethod.getD (value .sm)
  -- a shared secret that is empty is none
  let secret := ss.filter fun ss => ss ≠ []
  let argc := unsigned (7 + 2 * circuits + secret.toList.length + if tracePackets then 1 else 0)
  if calloc then
    let slots := pushAll dup [] [value .exe]
    let level := "--log-min-severity=".toList ++ value .ll
    if scratchSize ≤ level.length then .failed (some ⟨argc, slots⟩)
    else
      let slots := pushAll dup slots
        ([level, "chop".toList, "socks".toList, "--persist-mode".toList] ++
          (if tracePackets then ["--trace-packets".toList] else []) ++
          (secret.toList.map fun ss =>
            ("--shared-secret=".toList ++ ss).take (scratchSize - 1)) ++
          [value .pa] ++ circuitArgs ja sm circuits)
      .built ⟨argc, slots ++ [none]⟩
  else .failed none

end

/-! The bridges. -/

/-- What `prf_parse_bridge_details` accepts of a bridge: the method and the address. -/
def bridgeDetails (bridge : Json) : Option (CStr × CStr) :=
  if bridge.isObject then
    match bridge.get "Camouflage".toList with
    | some camouflage =>
      match camouflage.get "method".toList, bridge.get "Contact".toList with
      | some (.string method), some contact =>
        match contact.get "IP_address".toList with
        | some (.string ipAddress) => some (method, ipAddress)
        | _ => none
      | _, _ => none
    | none => none
  else none

def prfParseBridgeDetails (memory : Key → Bool) (p : Prefs) (bridge : Json) : Prefs × Bool :=
  match bridgeDetails bridge with
  | some (method, ipAddress) =>
    (prfSetValue (memory .sa) (prfSetValue (memory .sm) p .sm method) .sa ipAddress, true)
  | none => (p, false)

theorem prfParseBridgeDetails_values {memory : Key → Bool} (p : Prefs) {bridge : Json}
    {method ipAddress : CStr} (details : bridgeDetails bridge = some (method, ipAddress))
    (sm : memory .sm = true) (sa : memory .sa = true) :
    let set := prfParseBridgeDetails memory p bridge
    set.2 = true ∧ prfGetValue set.1 .sm = some method ∧
      prfGetValue set.1 .sa = some ipAddress := by
  simp [prfParseBridgeDetails, details, prfGetValue, prfSetValue, strdup, sm, sa]

/-- `json_array_size` and `json_array_get` see the elements of an array only. -/
def bridgesOf (list : Json) : Option (List Json) :=
  match list.get "BR_Access_List".toList with
  | some (.array bridges) => some bridges
  | _ => none

/-- How the calls end that put the answer together, and the text that `json_pack` finds when
it is given a `json_t` for a string. -/
structure Pack where
  array : Bool := true
  pack : Bool := true
  dumps : Json → Option CStr
  text : Json → Option CStr

def brEntry (k : Pack) (bridge : Json) : Except CStr (Option Json) :=
  if bridge.isObject then
    match bridge.get "Camouflage".toList with
    | some (.object camouflage) =>
      match (Json.object camouflage).get "method".toList with
      | some (.string method) =>
        match (Json.object camouflage).get "scheme".toList with
        | some (.string scheme) => .ok do
          let method ← k.text (.string method)
          let scheme ← k.text (.string scheme)
          some (.object [("method".toList, .string method), ("scheme".toList, .string scheme)])
        | _ => .error "BR Camouflage scheme not found".toList
      | _ => .error "BR Camouflage method not found".toList
    | _ => .error "BR Camouflage not found".toList
  else .error "Bridge missing in list".toList

/-- The loop over the list. An entry that could not be packed is left out. -/
def brEntries (k : Pack) : List Json → Except CStr (List Json)
  | [] => .ok []
  | bridge :: rest => do
    let entry ← brEntry k bridge
    let entries ← brEntries k rest
    .ok (entry.toList ++ entries)

def prfBrList (k : Pack) (list : Option Json) : List Out :=
  match list with
  | none => djbResult .err "No Bridge List set yet, perform ACS first".toList
  | some list =>
    if list.isObject then
      match bridgesOf list with
      | none => djbResult .err "Bridge Access List array missing".toList
      | some bridges =>
        if k.array then
          match brEntries k bridges with
          | .error text => djbResult .err text
          | .ok entries =>
            if k.pack then
              match k.dumps (.object [("bridges".toList, .array entries)]) with
              | none => djbResult .err "Could not dump JSON".toList
              | some j => djbResult .ok j
            else djbResult .err "Could not pack JSON".toList
        else djbResult .err "Could not create a JSON array".toList
    else djbResult .err "Bridge List is not a valid JSON Object".toList

end Jumpbox.Preferences
