import Jumpbox.Acs.Counts
import Mathlib.Data.Rat.Floor
import Mathlib.Tactic.Linarith

/-! The moonwalk: the delay that `acs_wait` makes of two numbers of the NET and of a
draw. Nothing has looked at the numbers before, so the conversions, the remainder, the
sum and the product each need something of them. -/

namespace Jumpbox.Acs

open Prog

def truncated (q : ℚ) : ℤ := q.num.tdiv q.den

theorem truncated_intCast (n : ℤ) : truncated n = n := by
  simp [truncated]

def converted (q : ℚ) : ℤ := truncated (Double.ofRat q)

theorem converted_intCast {n : ℤ} (small : |n| < 2 ^ 53) : converted n = n := by
  rw [converted, Double.ofRat_intCast small, truncated_intCast]

def Fits64 (q : ℚ) : Prop := 0 ≤ converted q ∧ converted q < 2 ^ 64

def uint64 (env : Env) (q : ℚ) : UInt64 := toUint64 env (Double.ofRat q)

theorem toNat_uint64 (env : Env) {q : ℚ} (fits : Fits64 q) :
    ((uint64 env q).toNat : ℤ) = converted q := by
  have small : (converted q).toNat < 2 ^ 64 := by
    have := fits.2
    omega
  have same : uint64 env q = UInt64.ofNat (converted q).toNat := if_pos fits
  rw [same, UInt64.toNat_ofNat_of_lt' small, Int.toNat_of_nonneg fits.1]

def netNumber (value : Json) (var : CStr) : Option ℚ := (value.get var).bind Json.number

theorem numberValue_eq (value : Json) (var : CStr) :
    (value.get var).bind Json.numberValue = (netNumber value var).map Double.ofRat :=
  (Option.map_bind ..).symm

/-- `acs_wait` converts the number: it asks for `wait` only after a `window`. -/
def Converts (value : Json) (q : ℚ) : Prop :=
  ∃ window ∈ netNumber value "window".toList, q = window ∨ q ∈ netNumber value "wait".toList

def delay (env : Env) (window wait : ℚ) (r : UInt64) : UInt64 :=
  uint64 env wait + r % uint64 env window

def Op.gives (net : Net) (r : UInt64) : (o : Op) → o.Result → Prop
  | .lNet, x => x = some net
  | .generateRandomNumber, x => x = r
  | .modulo n d, x => x = n % d
  | _, _ => True

def Rejected (ops : List Op) : Prop :=
  ∃ reads text, (∀ o ∈ reads, o = .lNet) ∧ ops = reads ++ [.status .err text none, .sitdown]

def walk (env : Env) (window wait : ℚ) (r : UInt64) : List Op :=
  let w := delay env window wait r
  [.lNet, .lNet, .generateRandomNumber, .modulo r (uint64 env window),
    .status .ok ("Moonwalking for ".toList ++ printU64 w ++ " seconds...".toList) none,
    .threadSleep (w * 1000)]

structure Moonwalks (env : Env) (window wait : ℚ) (r : UInt64) (ops : List Op) : Prop where
  walks : walk env window wait r <+: ops
  divides : uint64 env window ≠ 0
  sum : (delay env window wait r).toNat =
    (uint64 env wait).toNat + (r % uint64 env window).toNat
  product : (delay env window wait r * 1000).toNat = (delay env window wait r).toNat * 1000
  least : wait ≤ (delay env window wait r).toNat
  most : ((delay env window wait r).toNat : ℚ) < wait + window

structure WellDefined (env : Env) (value : Json) (r : UInt64) (ops : List Op) : Prop where
  fits : ∀ q, Converts value q → Fits64 q
  ends : Rejected ops ∨ ∃ window ∈ netNumber value "window".toList,
    ∃ wait ∈ netNumber value "wait".toList, Moonwalks env window wait r ops

def Moonwalkable (value : Json) : Prop :=
  ∀ window ∈ netNumber value "window".toList, Fits64 window ∧
    ∀ wait ∈ netNumber value "wait".toList, 1 ≤ converted window ∧ 0 ≤ converted wait ∧
      wait ≤ converted wait ∧ converted wait + converted window < wait + window + 1 ∧
      (converted wait + converted window - 1) * 1000 < 2 ^ 64

section Ops

variable {env : Env} {net : Net} {r : UInt64} {reply : ℕ → (o : Op) → o.Result}
  {var desc : CStr} {α : Type} {f : Option UInt64 → AcsM α}

theorem acsNetNumber_ops {q : ℚ} (gives : ∀ n (o : Op), o.gives net r (reply n o))
    (found : netNumber net.value var = some q) (start : ℕ) :
    (acsNetNumber env var desc >>= f).ops reply start =
      .lNet :: (f (some (uint64 env q))).ops reply (start + 1) := by
  have read : reply start .lNet = some net := gives start .lNet
  simp only [acsNetNumber, lNet, perform, ops, trace, Bind.bind, Prog.bind, read,
    Option.bind_some, numberValue_eq, found, Option.map_some, List.map_cons]
  rfl

theorem acsNetNumber_ops_none (gives : ∀ n (o : Op), o.gives net r (reply n o))
    (missing : netNumber net.value var = none) (start : ℕ) :
    (acsNetNumber env var desc >>= f).ops reply start =
      .lNet :: .status .err ("No ".toList ++ desc ++ " in NET".toList) none :: .sitdown ::
        (f none).ops reply (start + 3) := by
  have read : reply start .lNet = some net := gives start .lNet
  simp only [acsNetNumber, lNet, perform, ops, trace, Bind.bind, Prog.bind, read,
    Option.bind_some, numberValue_eq, missing, Option.map_none, List.map_cons]
  rfl

theorem acsWait_rejects_window (gives : ∀ n (o : Op), o.gives net r (reply n o))
    (missing : netNumber net.value "window".toList = none) (start : ℕ) :
    Rejected ((acsWait env).ops reply start) := by
  unfold acsWait
  rw [acsNetNumber_ops_none gives missing]
  exact ⟨[.lNet], _, by simp, rfl⟩

theorem acsWait_rejects_wait {window : ℚ} (gives : ∀ n (o : Op), o.gives net r (reply n o))
    (found : netNumber net.value "window".toList = some window)
    (missing : netNumber net.value "wait".toList = none) (start : ℕ) :
    Rejected ((acsWait env).ops reply start) := by
  unfold acsWait
  rw [acsNetNumber_ops gives found]
  dsimp only
  rw [acsNetNumber_ops_none gives missing]
  exact ⟨[.lNet, .lNet], _, by simp, rfl⟩

theorem acsWait_walks {window wait : ℚ} (gives : ∀ n (o : Op), o.gives net r (reply n o))
    (found : netNumber net.value "window".toList = some window)
    (found' : netNumber net.value "wait".toList = some wait) (start : ℕ) :
    walk env window wait r <+: (acsWait env).ops reply start := by
  unfold acsWait
  rw [acsNetNumber_ops gives found]
  dsimp only
  rw [acsNetNumber_ops gives found']
  have drawn : reply (start + 1 + 1) .generateRandomNumber = r := gives _ .generateRandomNumber
  have rest : reply (start + 1 + 1 + 1) (.modulo r (uint64 env window)) =
    r % uint64 env window := gives _ (.modulo _ _)
  simp only [generateRandomNumber, modulo, acsStatus, threadSleep, perform, ops, trace, Bind.bind,
    Prog.bind, List.map_cons]
  rw [drawn, rest]
  exact ⟨_, rfl⟩

end Ops

section Delay

variable {env : Env} {net : Net} {window wait : ℚ} {r : UInt64} {ops : List Op}

theorem moonwalks_of_small (fits : Fits64 window) (positive : 1 ≤ converted window)
    (nonneg : 0 ≤ converted wait) (least : wait ≤ converted wait)
    (most : converted wait + converted window < wait + window + 1)
    (small : (converted wait + converted window - 1) * 1000 < 2 ^ 64)
    (walks : walk env window wait r <+: ops) : Moonwalks env window wait r ops := by
  have fits' : Fits64 wait := ⟨nonneg, by omega⟩
  have d := toNat_uint64 env fits
  have a := toNat_uint64 env fits'
  have rest : (r % uint64 env window).toNat < (uint64 env window).toNat := by
    rw [UInt64.toNat_mod]
    exact Nat.mod_lt _ (by omega)
  have sum : (delay env window wait r).toNat =
      (uint64 env wait).toNat + (r % uint64 env window).toNat := by
    rw [delay, UInt64.toNat_add]
    exact Nat.mod_eq_of_lt (by omega)
  have bound : ((delay env window wait r).toNat : ℤ) ≤ converted wait + converted window - 1 := by
    omega
  refine ⟨walks, ?_, sum, ?_, ?_, ?_⟩
  · intro zero
    rw [zero] at d
    change (0 : ℤ) = _ at d
    omega
  · rw [UInt64.toNat_mul]
    change _ * 1000 % _ = _
    exact Nat.mod_eq_of_lt (by omega)
  · have : converted wait ≤ (delay env window wait r).toNat := by omega
    have : (converted wait : ℚ) ≤ (delay env window wait r).toNat := by exact_mod_cast this
    linarith
  · have bound : ((delay env window wait r).toNat : ℚ) ≤
        converted wait + converted window - 1 := by
      exact_mod_cast bound
    linarith

theorem not_rejected (walks : walk env window wait r <+: ops) : ¬Rejected ops := by
  rintro ⟨reads, text, only, rfl⟩
  have drawn : Op.generateRandomNumber ∈ walk env window wait r := by simp [walk]
  rcases List.mem_append.mp (walks.subset drawn) with read | refused
  · cases only _ read
  · simp at refused

end Delay

theorem lNet_of_dance {env : Env} {s s' : State} {es : List Event} (h : Steady s)
    (run : (machine env).exec s es = some s')
    (dancing : (machine env).Always (fun s => s.shared.lDancing = true) s es) :
    Steady s' ∧ s'.shared.lNet = s.shared.lNet := by
  induction es generalizing s with
  | nil =>
    cases run
    exact ⟨h, rfl⟩
  | cons e es ih =>
    obtain ⟨middle, first, rest⟩ := (machine env).exec_cons_eq_some.mp run
    obtain ⟨orderly, st⟩ := step_cases h.counted.balanced.orderly first
    have steady := steady_step h (balanced_step h.counted.balanced orderly st) st
    have kept : middle.shared.lNet = s.shared.lNet := by
      cases st with
      | act at_t acts => exact lNet_act h.counted.balanced at_t acts dancing.1
      | _ => rfl
    obtain ⟨later, same⟩ := ih steady rest (dancing.2 middle first)
    exact ⟨later, same.trans kept⟩

theorem gives_in_dance {env : Env} {threads t : ℕ} {es later : List Event} {s s' : State}
    (run : (machine env).exec (init threads) es = some s) {net : Net}
    (set : s.shared.lNet = some net) (goes_on : (machine env).exec s later = some s')
    (dancing : (machine env).Always (fun s => s.shared.lDancing = true) s later)
    {o : Op} {c : Choice} {shared' : Shared} {x : o.Result}
    (performed : exec env t o c s'.shared = some (shared', x)) : o.gives net c.number x := by
  have steady := (steady_always env threads es).finish _ run
  obtain ⟨-, same⟩ := lNet_of_dance steady goes_on dancing
  cases o with
  | lNet =>
    cases performed
    exact same.trans set
  | generateRandomNumber | modulo =>
    cases performed
    rfl
  | _ => trivial

theorem exists_gives (net : Net) (r : UInt64) (o : Op) : ∃ x, o.gives net r x := by
  cases o with
  | lNet => exact ⟨some net, rfl⟩
  | generateRandomNumber => exact ⟨r, rfl⟩
  | modulo n d => exact ⟨n % d, rfl⟩
  | time => exact ⟨r, trivial⟩
  | startDance => exact ⟨.nothing, trivial⟩
  | condWait => exact ⟨⟨.ok, []⟩, trivial⟩
  | jsonDumps | jsonLoads | httpsrvNewcl | listPop => exact ⟨none, trivial⟩
  | threadKeepRunning | takeNet | jsonIsObject | djbCreateUserdata | djbProxyAdd
  | httpsrvReadbodyAlloc | prfSetBridgeAccessList | threadSleep => exact ⟨true, trivial⟩
  | _ => exact ⟨(), trivial⟩

/-- The moonwalk of the NET with every draw, whatever else is answered. -/
def AlwaysDefined (env : Env) (net : Net) : Prop :=
  ∀ (r : UInt64) (reply : ℕ → (o : Op) → o.Result) (start : ℕ),
    (∀ n (o : Op), o.gives net r (reply n o)) →
      WellDefined env net.value r ((acsWait env).ops reply start)

theorem alwaysDefined_of_moonwalkable {env : Env} {net : Net} (h : Moonwalkable net.value) :
    AlwaysDefined env net := by
  intro r reply start gives
  refine ⟨?_, ?_⟩
  · rintro q ⟨window, found, rfl | found'⟩
    · exact (h _ found).1
    · obtain ⟨positive, nonneg, -, -, small⟩ := (h window found).2 q found'
      exact ⟨nonneg, by omega⟩
  · cases found : netNumber net.value "window".toList with
    | none => exact .inl (acsWait_rejects_window gives found start)
    | some window =>
      cases found' : netNumber net.value "wait".toList with
      | none => exact .inl (acsWait_rejects_wait gives found found' start)
      | some wait =>
        obtain ⟨fits, waits⟩ := h window found
        obtain ⟨positive, nonneg, least, most, small⟩ := waits wait found'
        exact .inr ⟨window, rfl, wait, rfl, moonwalks_of_small fits positive nonneg least most
          small (acsWait_walks gives found found' start)⟩

theorem AlwaysDefined.exists_ops {env : Env} {net : Net} (h : AlwaysDefined env net) (r : UInt64) :
    (∀ q, Converts net.value q → Fits64 q) ∧
      ∀ window ∈ netNumber net.value "window".toList,
        ∀ wait ∈ netNumber net.value "wait".toList, ∃ ops, Moonwalks env window wait r ops := by
  obtain ⟨reply, gives⟩ := Classical.axiomOfChoice (exists_gives net r)
  have defined := h r (fun _ => reply) 0 fun _ => gives
  refine ⟨defined.fits, fun window found wait found' => ?_⟩
  have walks : walk env window wait r <+: (acsWait env).ops (fun _ => reply) 0 :=
    acsWait_walks (fun _ => gives) found found' 0
  rcases defined.ends with refused | ⟨other, same, other', same', moonwalks⟩
  · exact absurd refused (not_rejected walks)
  · cases Option.mem_unique same found
    cases Option.mem_unique same' found'
    exact ⟨_, moonwalks⟩

theorem AlwaysDefined.moonwalkable {env : Env} {net : Net} (h : AlwaysDefined env net) :
    Moonwalkable net.value := by
  intro window found
  have fits := (h.exists_ops 0).1
  have fits₁ : Fits64 window := fits window ⟨window, found, .inl rfl⟩
  refine ⟨fits₁, fun wait found' => ?_⟩
  have fits₂ : Fits64 wait := fits wait ⟨window, found, .inr found'⟩
  have d := toNat_uint64 env fits₁
  have a := toNat_uint64 env fits₂
  obtain ⟨_, least⟩ := (h.exists_ops 0).2 window found wait found'
  obtain ⟨_, most⟩ := (h.exists_ops (uint64 env window - 1)).2 window found wait found'
  have positive : (uint64 env window).toNat ≠ 0 := fun zero =>
    least.divides (UInt64.toNat_inj.mp zero)
  have first : ((delay env window wait 0).toNat : ℤ) = converted wait := by
    have sum := least.sum
    rw [UInt64.zero_mod] at sum
    change _ = _ + 0 at sum
    omega
  have last : ((delay env window wait (uint64 env window - 1)).toNat : ℤ) =
      converted wait + converted window - 1 := by
    have sum := most.sum
    have one : (1 : UInt64) ≤ uint64 env window := by
      rw [UInt64.le_iff_toNat_le]
      change 1 ≤ _
      omega
    rw [UInt64.toNat_mod, UInt64.toNat_sub_of_le _ _ one] at sum
    change _ = _ + (_ - 1) % _ at sum
    rw [Nat.mod_eq_of_lt (by omega)] at sum
    omega
  refine ⟨by omega, fits₂.1, ?_, ?_, ?_⟩
  · have first : ((delay env window wait 0).toNat : ℚ) = converted wait := by exact_mod_cast first
    exact first ▸ least.least
  · have last : ((delay env window wait (uint64 env window - 1)).toNat : ℚ) =
        converted wait + converted window - 1 := by
      exact_mod_cast last
    have below := most.most
    linarith
  · have product := most.product
    have := (delay env window wait (uint64 env window - 1) * 1000).toNat_lt
    omega

/-- The moonwalk of a NET is well defined for every draw if and only if the double of the window
is at least 1, that of the wait not below the wait, both together exceed the numbers by less than
1, and the greatest delay fits in milliseconds. -/
theorem moonwalk_defined_iff (env : Env) (net : Net) :
    AlwaysDefined env net ↔ Moonwalkable net.value :=
  ⟨AlwaysDefined.moonwalkable, alwaysDefined_of_moonwalkable⟩

section Numbers

variable {value : Json} {window wait : ℤ}

theorem moonwalkable_iff_of_whole (found : netNumber value "window".toList = some (window : ℚ))
    (found' : netNumber value "wait".toList = some (wait : ℚ)) (exact_window : |window| < 2 ^ 53)
    (exact_wait : |wait| < 2 ^ 53) : Moonwalkable value ↔
      1 ≤ window ∧ 0 ≤ wait ∧ (wait + window - 1) * 1000 < 2 ^ 64 := by
  have window_eq := converted_intCast exact_window
  have wait_eq := converted_intCast exact_wait
  constructor
  · intro walkable
    obtain ⟨positive, nonneg, -, -, small⟩ := (walkable _ found).2 _ found'
    rw [window_eq] at positive small
    rw [wait_eq] at nonneg small
    exact ⟨positive, nonneg, small⟩
  · rintro ⟨positive, nonneg, small⟩ q named
    obtain rfl : (window : ℚ) = q := Option.some.inj (found.symm.trans named)
    refine ⟨⟨by omega, by have := abs_lt.mp exact_window; omega⟩, fun q named' => ?_⟩
    obtain rfl : (wait : ℚ) = q := Option.some.inj (found'.symm.trans named')
    rw [window_eq, wait_eq]
    exact ⟨positive, nonneg, le_refl _, lt_add_one _, small⟩

end Numbers

def zeroWindow : Json := .object [
  ("window".toList, .integer 0), ("wait".toList, .integer 4),
  ("redirect".toList, .string "192.0.1.2".toList),
  ("initial".toList, .string "192.0.1.25".toList)]

theorem zero_window_undefined :
    ¬∀ (env : Env) (net : Net), net.value.isObject = true → AlwaysDefined env net := by
  intro always
  have walkable := (always exampleEnv ⟨0, zeroWindow⟩ rfl).moonwalkable
  have window : netNumber zeroWindow "window".toList = some (0 : ℤ) := by decide +kernel
  have wait : netNumber zeroWindow "wait".toList = some (4 : ℤ) := by decide +kernel
  have range := (moonwalkable_iff_of_whole window wait (by decide) (by decide)).mp walkable
  exact absurd range.1 (by decide)

/-- The double is below the wait. -/
example : ¬(9007199254740993 : ℚ) ≤ converted 9007199254740993 := by decide +kernel

/-- The milliseconds of the double wrap, those of the wait itself would not. -/
example : ¬(converted 18446744073709550 + converted 1 - 1) * 1000 < 2 ^ 64 := by decide +kernel

/-- Its dance ends the process. -/
example : ((machine { exampleEnv with jsonLoads := fun _ => some zeroWindow }).exec (init 2)
    moonwalkRun.dropLast).map (fun s => s.shared.crashed) = some true := by decide +kernel

end Jumpbox.Acs
