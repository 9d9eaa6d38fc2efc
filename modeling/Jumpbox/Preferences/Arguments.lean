import Jumpbox.Preferences.Store
import Mathlib.Data.List.Induction
import Mathlib.Data.List.TakeDrop

/-! What `prf_get_argv` makes of the preferences and what the preferences are made of.
The size of the vector is computed in `unsigned int`, its slots are written one by one;
each text goes through `strdup`, two of them through a buffer first. -/

namespace Jumpbox.Preferences

open Acs (Json cstring)

/-! The vector. -/

def secretOf (env : Forced) (value : Key → Option CStr) : Option CStr :=
  (env.sharedsecret.or (value .shs)).filter fun ss => ss ≠ []

def tracesPackets (value : Key → Option CStr) : Prop := (value .tp).getD [] = "true".toList

instance (value : Key → Option CStr) : Decidable (tracesPackets value) :=
  inferInstanceAs (Decidable (_ = _))

def logLevelArg (value : Key → Option CStr) : CStr :=
  "--log-min-severity=".toList ++ (value .ll).getD []

def optionalArgs (env : Forced) (value : Key → Option CStr) : ℕ :=
  (secretOf env value).toList.length + if tracesPackets value then 1 else 0

/-- The arguments of StegoTorus, where `store` is what becomes of the shared secret's. -/
def args (store : CStr → CStr) (env : Forced) (value : Key → Option CStr) (circuits : ℕ) :
    List CStr :=
  let text (i : Key) := (value i).getD []
  [text .exe, logLevelArg value, "chop".toList, "socks".toList, "--persist-mode".toList] ++
    (if tracesPackets value then ["--trace-packets".toList] else []) ++
    ((secretOf env value).toList.map fun ss => store ("--shared-secret=".toList ++ ss)) ++
    [text .pa] ++
    circuitArgs (env.jumpboxaddress.getD (text .ja)) (env.stegmethod.getD (text .sm)) circuits

theorem length_args (store : CStr → CStr) (env : Forced) (value : Key → Option CStr)
    (circuits : ℕ) :
    (args store env value circuits).length = 6 + 2 * circuits + optionalArgs env value := by
  by_cases traces : tracesPackets value <;>
    simp [args, optionalArgs, circuitArgs, traces] <;> omega

section
variable (dup : ℕ → Bool)

def stored (n : ℕ) : List CStr → List (Option CStr)
  | [] => []
  | arg :: rest => strdup (dup n) arg :: stored (n + 1) rest

theorem pushAll_eq_stored (slots : List (Option CStr)) (texts : List CStr) :
    pushAll dup slots texts = slots ++ stored dup slots.length texts := by
  induction texts generalizing slots with
  | nil => simp [pushAll, stored]
  | cons text texts ih =>
    have rest := ih (slots ++ [strdup (dup slots.length) text])
    simpa [pushAll, stored] using rest

theorem length_stored (n : ℕ) (texts : List CStr) : (stored dup n texts).length = texts.length := by
  induction texts generalizing n with
  | nil => rfl
  | cons text texts ih => simp [stored, ih]

theorem stored_eq_map_some (n : ℕ) (texts whole : List CStr) :
    stored dup n texts = whole.map some ↔
      texts = whole ∧ ∀ k < texts.length, dup (n + k) = true := by
  induction texts generalizing n whole with
  | nil => cases whole <;> simp [stored]
  | cons text texts ih =>
    cases whole with
    | nil => simp [stored]
    | cons first whole =>
      have head : strdup (dup n) text = some first ↔ text = first ∧ dup n = true := by
        cases memory : dup n <;> simp [strdup]
      rw [stored, List.map_cons, List.cons.injEq, head, ih, List.cons.injEq, List.length_cons,
        Nat.forall_lt_succ_left']
      simp only [Nat.add_zero, Nat.add_right_comm n 1, Nat.add_assoc]
      tauto

def argcOf (env : Forced) (value : Key → Option CStr) : ℕ :=
  unsigned (7 + 2 * unsigned (atoi ((value .cc).getD [])) + optionalArgs env value)

theorem prfGetArgv_eq (env : Forced) (calloc : Bool) (p : Prefs) :
    prfGetArgv dup env calloc p =
      if calloc then
        if scratchSize ≤ (logLevelArg (prfGetValue p)).length then
          .failed (some ⟨argcOf env (prfGetValue p),
            pushAll dup [] [(prfGetValue p .exe).getD []]⟩)
        else .built ⟨argcOf env (prfGetValue p),
          stored dup 0 (args (List.take (scratchSize - 1)) env (prfGetValue p)
            (unsigned (atoi ((prfGetValue p .cc).getD [])))) ++ [none]⟩
      else .failed none := by
  have argc : argcOf env (prfGetValue p) =
      unsigned (7 + 2 * unsigned (atoi ((prfGetValue p .cc).getD [])) +
        (secretOf env (prfGetValue p)).toList.length +
        if tracesPackets (prfGetValue p) then 1 else 0) := by
    unfold argcOf optionalArgs
    rw [Nat.cast_add, Nat.cast_ite, Nat.cast_one, Nat.cast_zero, add_assoc, add_assoc, add_assoc]
  rw [argc]
  unfold prfGetArgv
  dsimp only
  cases calloc with
  | false => rfl
  | true =>
    by_cases long : scratchSize ≤ (logLevelArg (prfGetValue p)).length
    · rw [if_pos rfl, if_pos rfl, if_pos long]
      exact if_pos long
    · rw [if_pos rfl, if_pos rfl, if_neg long]
      refine (if_neg long).trans ?_
      rw [pushAll_eq_stored, pushAll_eq_stored]
      rfl

/-- The vector is as large as what is written to it. -/
structure Argv.Fits (argv : Argv) : Prop where
  argc : argv.argc = argv.slots.length
  /-- `vslot` is an `unsigned int`. -/
  below : ∀ k < argv.slots.length, unsigned k < argv.argc
  ends : argv.slots[argv.argc - 1]? = some none

theorem unsigned_natCast (n : ℕ) : unsigned n = n % 2 ^ 32 := by
  unfold unsigned
  omega

variable {dup} {env : Forced} {calloc : Bool} {p : Prefs}

theorem eq_of_built {argv : Argv} (built : prfGetArgv dup env calloc p = .built argv) :
    argv = ⟨argcOf env (prfGetValue p), stored dup 0 (args (List.take (scratchSize - 1)) env
      (prfGetValue p) (unsigned (atoi ((prfGetValue p .cc).getD [])))) ++ [none]⟩ := by
  rw [prfGetArgv_eq] at built
  split at built
  · split at built
    · cases built
    · exact (GetArgv.built.inj built).symm
  · cases built

theorem fits_iff_lt {argv : Argv} (built : prfGetArgv dup env calloc p = .built argv) :
    argv.Fits ↔ 7 + 2 * unsigned (atoi ((prfGetValue p .cc).getD [])) +
      optionalArgs env (prfGetValue p) < 2 ^ 32 := by
  obtain rfl := eq_of_built built
  set circuits := unsigned (atoi ((prfGetValue p .cc).getD [])) with circuits_eq
  set total := 7 + 2 * circuits + optionalArgs env (prfGetValue p) with total_eq
  have argc : argcOf env (prfGetValue p) = total % 2 ^ 32 := by
    rw [← unsigned_natCast, argcOf]
    rfl
  have texts := length_args (List.take (scratchSize - 1)) env (prfGetValue p) circuits
  have slots : (stored dup 0 (args (List.take (scratchSize - 1)) env (prfGetValue p) circuits) ++
      [none]).length = total := by
    rw [List.length_append, length_stored, texts, List.length_singleton]
    omega
  constructor
  · intro fits
    have := fits.argc
    dsimp only at this
    omega
  · intro small
    have whole : argcOf env (prfGetValue p) = total := by omega
    refine ⟨whole.trans slots.symm, fun k inside => ?_, ?_⟩
    · dsimp only at inside ⊢
      rw [unsigned_natCast, whole]
      omega
    · dsimp only
      have last : total - 1 = (stored dup 0
          (args (List.take (scratchSize - 1)) env (prfGetValue p) circuits)).length := by
        rw [length_stored, texts]
        omega
      rw [whole, last, List.getElem?_append_right le_rfl, Nat.sub_self]
      rfl

/-- The vector fits if and only if the circuit count is not negative and the slots can be
counted in 32 bits. -/
theorem argv_fits_iff {argv : Argv} (built : prfGetArgv dup env calloc p = .built argv) :
    argv.Fits ↔ 0 ≤ atoi ((prfGetValue p .cc).getD []) ∧
      7 + 2 * atoi ((prfGetValue p .cc).getD []) + optionalArgs env (prfGetValue p) < 2 ^ 32 := by
  have range := atoi_range ((prfGetValue p .cc).getD [])
  rw [fits_iff_lt built]
  unfold unsigned
  omega

theorem argv_fits_default :
    ∃ argv, prfGetArgv (fun _ => true) {} true {} = .built argv ∧ argv.Fits := by
  have built : ∃ argv, prfGetArgv (fun _ => true) {} true {} = .built argv := ⟨_, rfl⟩
  obtain ⟨argv, built⟩ := built
  exact ⟨argv, built, (argv_fits_iff built).mpr (by decide)⟩

theorem argv_overflows :
    ¬∀ (dup : ℕ → Bool) (env : Forced) (calloc : Bool) (p : Prefs) (argv : Argv),
      prfGetArgv dup env calloc p = .built argv → argv.Fits := by
  intro always
  let p := prfSetValue true {} .cc "-1".toList
  have built := (prfGetArgv_eq (fun _ => true) {} true p).trans
    ((if_pos rfl).trans (if_neg (by decide)))
  have small := (fits_iff_lt built).mp (always _ _ _ _ _ built)
  exact absurd small (by decide)

/-! The values. -/

variable {load : CStr → Option Json} {m : Memory} {body : List UInt8}

def member (root : Json) (i : Key) : Option CStr :=
  match root.get i.text with
  | some (.string val) => some val
  | _ => none

def given (load : CStr → Option Json) (m : Memory) (body : List UInt8) (i : Key) : Option CStr :=
  match if m.body && m.jsonLoads then load (cstring body) else none with
  | some root => if root.isObject then member root i else none
  | none => none

theorem prfParseKey_eq (root : Json) (p : Prefs) (k : Key) :
    prfParseKey m root p k =
      match member root k with
      | some val => prfSetValue (m.value k) p k val
      | none => p := by
  unfold prfParseKey member
  cases root.get k.text with
  | none => rfl
  | some value => cases value <;> rfl

def put (memory : Bool) (given old : Option CStr) : Option CStr :=
  match given with
  | some val => strdup memory val
  | none => old

theorem put_put (memory : Bool) (given old : Option CStr) :
    put memory given (put memory given old) = put memory given old := by
  cases given <;> rfl

theorem prfParseKey_lValues (root : Json) (p : Prefs) (k i : Key) :
    (prfParseKey m root p k).lValues i =
      if k = i then put (m.value i) (member root i) (p.lValues i) else p.lValues i := by
  rw [prfParseKey_eq]
  by_cases same : k = i
  · subst same
    cases member root k <;> simp [prfSetValue, put]
  · cases member root k <;> simp [prfSetValue, same, Ne.symm same]

theorem foldl_prfParseKey_lValues (root : Json) (keys : List Key) (p : Prefs) (i : Key) :
    (keys.foldl (prfParseKey m root) p).lValues i =
      if i ∈ keys then put (m.value i) (member root i) (p.lValues i) else p.lValues i := by
  induction keys generalizing p with
  | nil => rfl
  | cons k keys ih =>
    rw [List.foldl_cons, ih, prfParseKey_lValues root p k i]
    by_cases same : k = i
    · subst same
      simp [put_put]
    · simp [same, Ne.symm same]

theorem Key.mem_all (i : Key) : i ∈ Key.all := by
  cases i <;> decide

theorem prfSetBody_lValues (p : Prefs) (i : Key) :
    (prfSetBody load m p body).1.lValues i =
      put (m.value i) (given load m body i) (p.lValues i) := by
  unfold prfSetBody prfParsePreferences given
  cases body_memory : m.body with
  | false => simp [strdup, put]
  | true =>
    simp only [strdup, if_true, Bool.true_and]
    cases if m.jsonLoads then load (cstring body) else none with
    | none => rfl
    | some root =>
      by_cases object : root.isObject
      · simp only [object, if_true]
        rw [foldl_prfParseKey_lValues root Key.all _ i, if_pos (Key.mem_all i)]
      · simp [object, put]

def posted (load : CStr → Option Json) (posts : List (Memory × List UInt8)) : Prefs :=
  posts.foldl (fun p post => (prfSetBody load post.1 p post.2).1) {}

/-- The last string that was given to a key, or its default. -/
def effective (load : CStr → Option Json) (posts : List (Memory × List UInt8)) (i : Key) :
    Option CStr :=
  (posts.filterMap fun post => given load post.1 post.2 i).getLast?.or i.default

/-- The last string that was given to a key, and whether there was memory for it. -/
def lastGiven (load : CStr → Option Json) (posts : List (Memory × List UInt8)) (i : Key) :
    Option (Bool × CStr) :=
  (posts.filterMap fun post =>
    (given load post.1 post.2 i).map fun val => (post.1.value i, val)).getLast?

def Kept (load : CStr → Option Json) (posts : List (Memory × List UInt8)) (i : Key) : Prop :=
  ∀ last ∈ lastGiven load posts i, last.1 = true ∨ i.default = some last.2

variable {posts : List (Memory × List UInt8)}

theorem effective_eq (i : Key) :
    effective load posts i = ((lastGiven load posts i).map Prod.snd).or i.default := by
  rw [effective, lastGiven, ← List.getLast?_map, List.map_filterMap]
  simp only [Option.map_map]
  congr
  funext post
  exact Option.map_id'.symm

theorem posted_lValues (i : Key) : (posted load posts).lValues i =
    (lastGiven load posts i).bind fun last => strdup last.1 last.2 := by
  induction posts using List.reverseRecOn with
  | nil => rfl
  | append_singleton posts post ih =>
    rw [posted, List.foldl_append, List.foldl_cons, List.foldl_nil, prfSetBody_lValues, ← posted,
      ih, lastGiven, lastGiven, List.filterMap_append]
    cases gives : given load post.1 post.2 i with
    | none => simp [gives, put]
    | some val => simp [gives, put]

theorem prfGetValue_posted_iff :
    prfGetValue (posted load posts) = effective load posts ↔ ∀ i, Kept load posts i := by
  rw [funext_iff]
  refine forall_congr' fun i => ?_
  rw [prfGetValue, posted_lValues, effective_eq, Kept]
  cases lastGiven load posts i with
  | none => simp
  | some last =>
    obtain ⟨memory, val⟩ := last
    cases memory <;> simp [strdup]

theorem kept_of_memory (memory : ∀ post ∈ posts, ∀ i, post.1.value i = true) (i : Key) :
    Kept load posts i := by
  intro last found
  obtain ⟨post, posted, gives⟩ := List.mem_filterMap.mp (List.mem_of_getLast? found)
  obtain ⟨val, -, rfl⟩ := Option.map_eq_some_iff.mp gives
  exact .inl (memory post posted i)

/-! The whole values. -/

/-- `prf_get_argv` fails, or its vector is the arguments without anything cut off. -/
def FailsOrWhole (env : Forced) (value : Key → Option CStr) (circuits : ℕ) (got : GetArgv) : Prop :=
  (∃ left, got = .failed left) ∨
    ∃ argv, got = .built argv ∧ argv.argc = argv.slots.length ∧
      argv.slots = (args id env value circuits).map some ++ [none]

theorem args_take_eq_iff (env : Forced) (value : Key → Option CStr) (circuits : ℕ) :
    args (List.take (scratchSize - 1)) env value circuits = args id env value circuits ↔
      ∀ ss ∈ secretOf env value, ss.length ≤ 239 := by
  unfold args
  dsimp only
  rw [List.append_left_inj, List.append_left_inj, List.append_right_inj]
  cases secretOf env value with
  | none => simp
  | some ss => simp [scratchSize]

theorem failsOrWhole_iff {n : ℕ} (small : n ≤ 2 ^ 29)
    (count : prfGetValue p .cc = some (Nat.toDigits 10 n)) :
    FailsOrWhole env (prfGetValue p) n (prfGetArgv dup env calloc p) ↔
      calloc = false ∨ scratchSize ≤ (logLevelArg (prfGetValue p)).length ∨
        ((∀ ss ∈ secretOf env (prfGetValue p), ss.length ≤ 239) ∧
          ∀ k < (args id env (prfGetValue p) n).length, dup k = true) := by
  have circuits : unsigned (atoi ((prfGetValue p .cc).getD [])) = n := by
    rw [count, Option.getD_some, atoi_toDigits (by omega), unsigned_natCast]
    omega
  cases calloc with
  | false => exact iff_of_true (.inl ⟨_, prfGetArgv_eq dup env false p⟩) (.inl rfl)
  | true =>
    have got := prfGetArgv_eq dup env true p
    rw [circuits] at got
    by_cases long : scratchSize ≤ (logLevelArg (prfGetValue p)).length
    · exact iff_of_true (.inl ⟨_, got.trans (if_pos long)⟩) (.inr (.inl long))
    · have built := got.trans (if_neg long)
      have few : optionalArgs env (prfGetValue p) ≤ 2 := by
        unfold optionalArgs
        cases secretOf env (prfGetValue p) <;> split <;> simp
      have argc := ((fits_iff_lt built).mpr (by omega)).argc
      have same : (args (List.take (scratchSize - 1)) env (prfGetValue p) n).length =
          (args id env (prfGetValue p) n).length := by
        rw [length_args, length_args]
      have whole := stored_eq_map_some dup 0
        (args (List.take (scratchSize - 1)) env (prfGetValue p) n) (args id env (prfGetValue p) n)
      simp only [args_take_eq_iff, same, Nat.zero_add] at whole
      rw [← whole]
      constructor
      · rintro (⟨left, failed⟩ | ⟨argv, other, -, slots⟩)
        · rw [built] at failed
          cases failed
        · rw [built] at other
          obtain rfl := GetArgv.built.inj other
          exact .inr (.inr (List.append_cancel_right slots))
      · rintro (none | overflow | slots)
        · cases none
        · exact absurd overflow long
        · exact .inr ⟨_, built, argc, congrArg (· ++ [none]) slots⟩

/-- The values in force are the last ones given, and they reach StegoTorus whole, if and only
if each of them could be kept and the vector could not be made or nothing of it was cut off
or lost. -/
theorem preferences_whole_iff (load : CStr → Option Json) (posts : List (Memory × List UInt8))
    (env : Forced) (dup : ℕ → Bool) (calloc : Bool) {n : ℕ} (small : n ≤ 2 ^ 29)
    (count : effective load posts .cc = some (Nat.toDigits 10 n)) :
    prfGetValue (posted load posts) = effective load posts ∧
        FailsOrWhole env (effective load posts) n
          (prfGetArgv dup env calloc (posted load posts)) ↔
      (∀ i, Kept load posts i) ∧
        (calloc = false ∨ scratchSize ≤ (logLevelArg (effective load posts)).length ∨
          ((∀ ss ∈ secretOf env (effective load posts), ss.length ≤ 239) ∧
            ∀ k < (args id env (effective load posts) n).length, dup k = true)) := by
  rw [← prfGetValue_posted_iff]
  refine and_congr_right fun values => ?_
  rw [← values] at count ⊢
  exact failsOrWhole_iff small count

/-- A body that sets a shared secret of `n` characters, and what jansson makes of it. -/
def secretText (n : ℕ) : CStr :=
  "\x7b\"shared_secret\":\"".toList ++ List.replicate n 'a' ++ "\"\x7d".toList

def loadSecret (n : ℕ) (text : CStr) : Option Json :=
  if text = secretText n then
    some (.object [("shared_secret".toList, .string (List.replicate n 'a'))])
  else none

def secretPost (n : ℕ) : Memory × List UInt8 :=
  ({}, (secretText n).map fun c => UInt8.ofNat c.toNat)

theorem keeps_secretPost (n : ℕ) (i : Key) : Kept (loadSecret n) [secretPost n] i := by
  refine kept_of_memory (fun post posted _ => ?_) i
  obtain rfl := List.mem_singleton.mp posted
  rfl

theorem preferences_whole_secret :
    prfGetValue (posted (loadSecret 3) [secretPost 3]) = effective (loadSecret 3) [secretPost 3] ∧
      FailsOrWhole {} (effective (loadSecret 3) [secretPost 3]) 1
        (prfGetArgv (fun _ => true) {} true (posted (loadSecret 3) [secretPost 3])) :=
  (preferences_whole_iff (loadSecret 3) [secretPost 3] {} (fun _ => true) true (by decide)
    (by decide +kernel)).mpr
    ⟨keeps_secretPost 3, .inr (.inr ⟨by decide +kernel, fun _ _ => rfl⟩)⟩

theorem secret_cut_off :
    ¬∀ (load : CStr → Option Json) (posts : List (Memory × List UInt8)) (env : Forced) (n : ℕ),
      n ≤ 2 ^ 29 → effective load posts .cc = some (Nat.toDigits 10 n) →
      FailsOrWhole env (effective load posts) n
        (prfGetArgv (fun _ => true) env true (posted load posts)) := by
  intro always
  have whole := always (loadSecret 240) [secretPost 240] {} 1 (by decide) (by decide +kernel)
  have values := prfGetValue_posted_iff.mpr (keeps_secretPost 240)
  rw [← values] at whole
  have count : prfGetValue (posted (loadSecret 240) [secretPost 240]) .cc =
      some (Nat.toDigits 10 1) := by decide +kernel
  rcases (failsOrWhole_iff (by decide) count).mp whole with none | long | ⟨short, -⟩
  · cases none
  · exact absurd long (by decide +kernel)
  · exact absurd short (by decide +kernel)

end

end Jumpbox.Preferences
