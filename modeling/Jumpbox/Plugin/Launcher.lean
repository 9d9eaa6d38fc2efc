import Jumpbox.Libfutil
import Jumpbox.Library.Machine
import Mathlib.Data.Finset.Card
import Mathlib.Data.List.Nodup

/-! The circuits of the plugin as its background page keeps account of them
(`background.js`): the tabs they run in, the number of them that `JumpBox` believes to be
running, and the lists of tabs it has asked the browser for. A call of the page runs to its
end before a callback does; what the browser lists, it may list at any time. -/

namespace Jumpbox.Plugin

structure Tab where
  id : ℕ
  url : CStr
  deriving DecidableEq

structure Background where
  circuitCountRunning : ℤ := 0
  /-- The variable of the loop in `circuits_launch`, and what is left of its range. -/
  index : ℕ := 0
  left : ℕ := 0
  tabs : List Tab := []
  nextTab : ℕ := 0
  /-- A callback of `chrome.tabs.getAllInWindow` that is to run, with the tabs it gets. -/
  pending : List (Option (List Tab)) := []

namespace Background

variable (jbExtId : CStr)

def circuitPage : CStr := "circuit.html".toList

def tabUri : CStr := "chrome-extension://".toList ++ jbExtId ++ "/".toList ++ circuitPage

def isCircuit (tab : Tab) : Bool := tab.url.take (tabUri jbExtId).length = tabUri jbExtId

def circuits (tabs : List Tab) : List ℕ := (tabs.filter (isCircuit jbExtId)).map Tab.id

def circuitsShutdown (b : Background) : Background :=
  let asked := { b with pending := b.pending ++ [none] }
  if asked.circuitCountRunning ≠ 0 then { asked with circuitCountRunning := 0 } else asked

def closeCircuits (b : Background) (listed : List Tab) : Background :=
  { b with
    tabs := b.tabs.filter fun tab => tab.id ∉ circuits jbExtId listed
    circuitCountRunning := b.circuitCountRunning - (circuits jbExtId listed).length }

/-- `JumpBox.circuits_launch` up to its loop; a `circuit_count` that is not a number is
larger than none. -/
def circuitsLaunch (b : Background) (circuitCount : Option ℤ) : Background :=
  { b.circuitsShutdown with index := 0, left := (circuitCount.getD 0).toNat }

def createCircuit (b : Background) (left : ℕ) : Background :=
  let url := tabUri jbExtId ++ "?id=".toList ++ Nat.toDigits 10 (b.index + 1)
  { b with
    tabs := b.tabs ++ [⟨b.nextTab, url⟩]
    nextTab := b.nextTab + 1
    circuitCountRunning := b.circuitCountRunning + 1
    index := b.index + 1
    left := left }

def ensureLaunches (b : Background) : Prop := b.circuitCountRunning ≤ 0

instance (b : Background) : Decidable b.ensureLaunches :=
  inferInstanceAs (Decidable (b.circuitCountRunning ≤ 0))

def circuitsEnsure (b : Background) (circuitCount : Option ℤ) : Background :=
  if b.ensureLaunches then b.circuitsLaunch circuitCount else b

inductive Event
  | shutdown
  | launch (circuitCount : Option ℤ)
  | ensure (circuitCount : Option ℤ)
  | create
  | list (i : ℕ)
  | callback (i : ℕ)

def step (b : Background) : Event → Option Background
  | .shutdown => if b.left = 0 then some b.circuitsShutdown else none
  | .launch circuitCount => if b.left = 0 then some (b.circuitsLaunch circuitCount) else none
  | .ensure circuitCount => if b.left = 0 then some (b.circuitsEnsure circuitCount) else none
  | .create =>
    match b.left with
    | 0 => none
    | left + 1 => some (b.createCircuit jbExtId left)
  | .list i =>
    match b.pending[i]? with
    | some none => some { b with pending := b.pending.set i (some b.tabs) }
    | _ => none
  | .callback i =>
    match b.pending[i]? with
    | some (some listed) =>
      if b.left = 0 then
        some ({ b with pending := b.pending.eraseIdx i }.closeCircuits jbExtId listed)
      else none
    | _ => none

def machine : Machine Background Event := ⟨step jbExtId⟩

def loaded (urls : List CStr) : Background where
  tabs := urls.zipIdx.map fun tab => ⟨tab.2, tab.1⟩
  nextTab := urls.length

/-- The count is right, and `circuits_ensure` acts on it as it should. -/
def CountsRight (b : Background) : Prop :=
  b.circuitCountRunning = (circuits jbExtId b.tabs).length ∧
    (b.ensureLaunches ↔ circuits jbExtId b.tabs = [])

/-- The circuits are told to shut down only when none is open, and no callback closes a
circuit that was closed before. -/
def Unforced (b : Background) : Event → Prop
  | .shutdown | .launch _ => circuits jbExtId b.tabs = []
  | .callback i => ∀ listed ∈ b.pending[i]?.join,
    ∀ id ∈ circuits jbExtId listed, id ∈ circuits jbExtId b.tabs
  | _ => True

instance (b : Background) : ∀ e, Decidable (Unforced jbExtId b e)
  | .shutdown | .launch _ => inferInstanceAs (Decidable (_ = []))
  | .callback i => inferInstanceAs (Decidable (∀ listed ∈ b.pending[i]?.join,
      ∀ id ∈ circuits jbExtId listed, id ∈ circuits jbExtId b.tabs))
  | .ensure _ | .create | .list _ => isTrue trivial

/-! What the steps do to the circuits that are open. -/

theorem isCircuit_created (query : CStr) (id : ℕ) :
    isCircuit jbExtId ⟨id, tabUri jbExtId ++ query⟩ = true := by
  simp [isCircuit]

variable {jbExtId} {b b' : Background}

theorem circuits_created (left : ℕ) :
    circuits jbExtId (b.createCircuit jbExtId left).tabs =
      circuits jbExtId b.tabs ++ [b.nextTab] := by
  simp only [createCircuit, circuits, List.filter_append, List.map_append, List.append_assoc]
  rw [List.filter_cons_of_pos (isCircuit_created jbExtId _ _)]
  rfl

theorem circuits_closed (listed : List Tab) :
    circuits jbExtId (b.closeCircuits jbExtId listed).tabs =
      (circuits jbExtId b.tabs).filter (· ∉ circuits jbExtId listed) := by
  simp only [closeCircuits, circuits, List.filter_map, List.filter_filter]
  congr 1
  exact List.filter_congr fun tab _ => Bool.and_comm _ _

theorem length_filter_notMem_add {α : Type*} [DecidableEq α] {xs ys : List α} (distinct : xs.Nodup)
    (once : ys.Nodup) :
    (xs.filter (· ∉ ys)).length + ys.length = xs.length ↔ ∀ y ∈ ys, y ∈ xs := by
  have kept : (xs.filter (· ∉ ys)).length = (xs.toFinset \ ys.toFinset).card := by
    rw [← List.toFinset_card_of_nodup (distinct.filter _)]
    congr 1
    ext x
    simp
  have all : ys.toFinset ⊆ xs.toFinset ↔ ∀ y ∈ ys, y ∈ xs := by
    simp [Finset.subset_iff]
  rw [kept, ← List.toFinset_card_of_nodup once, Finset.card_sdiff_add_card, ← all,
    ← List.toFinset_card_of_nodup distinct]
  constructor
  · intro same
    have absorbed := Finset.eq_of_subset_of_card_le Finset.subset_union_left same.le
    exact Finset.union_eq_left.mp absorbed.symm
  · intro sub
    rw [Finset.union_eq_left.mpr sub]

theorem circuitsShutdown_eq :
    b.circuitsShutdown = { b with pending := b.pending ++ [none], circuitCountRunning := 0 } := by
  unfold circuitsShutdown
  dsimp only
  split
  next => rfl
  next zero => rw [← not_not.mp zero]

structure Accounted (jbExtId : CStr) (b : Background) : Prop where
  count : b.circuitCountRunning = (circuits jbExtId b.tabs).length
  distinct : (circuits jbExtId b.tabs).Nodup
  fresh : ∀ id ∈ circuits jbExtId b.tabs, id < b.nextTab
  once : ∀ listed, some listed ∈ b.pending → (circuits jbExtId listed).Nodup

namespace Accounted

theorem countsRight (h : Accounted jbExtId b) : b.CountsRight jbExtId := by
  refine ⟨h.count, ?_⟩
  rw [ensureLaunches, h.count, ← List.length_eq_zero_iff]
  omega

theorem shutdown (h : Accounted jbExtId b) (closed : circuits jbExtId b.tabs = []) :
    Accounted jbExtId b.circuitsShutdown := by
  rw [circuitsShutdown_eq]
  refine ⟨?_, h.distinct, h.fresh, fun listed waiting => ?_⟩
  · simp [closed]
  · exact h.once listed (by simpa using waiting)

theorem launch (h : Accounted jbExtId b) (closed : circuits jbExtId b.tabs = [])
    (circuitCount : Option ℤ) : Accounted jbExtId (b.circuitsLaunch circuitCount) :=
  let shut := h.shutdown closed
  ⟨shut.count, shut.distinct, shut.fresh, shut.once⟩

theorem create (h : Accounted jbExtId b) (left : ℕ) :
    Accounted jbExtId (b.createCircuit jbExtId left) := by
  refine ⟨?_, ?_, ?_, h.once⟩
  · rw [circuits_created, List.length_append]
    simp [createCircuit, h.count]
  · rw [circuits_created]
    refine h.distinct.append (List.nodup_singleton _) ?_
    rw [List.disjoint_singleton]
    exact fun member => lt_irrefl _ (h.fresh _ member)
  · rw [circuits_created]
    intro id member
    show id < b.nextTab + 1
    rcases List.mem_append.mp member with old | new
    · exact Nat.lt_succ_of_lt (h.fresh id old)
    · exact (List.mem_singleton.mp new) ▸ Nat.lt_succ_self _

theorem list (h : Accounted jbExtId b) (i : ℕ) :
    Accounted jbExtId { b with pending := b.pending.set i (some b.tabs) } := by
  refine ⟨h.count, h.distinct, h.fresh, fun listed waiting => ?_⟩
  rcases List.mem_or_eq_of_mem_set waiting with old | new
  · exact h.once listed old
  · cases new
    exact h.distinct

theorem close_iff (h : Accounted jbExtId b) {listed : List Tab}
    (once : (circuits jbExtId listed).Nodup) :
    (b.closeCircuits jbExtId listed).circuitCountRunning =
        (circuits jbExtId (b.closeCircuits jbExtId listed).tabs).length ↔
      ∀ id ∈ circuits jbExtId listed, id ∈ circuits jbExtId b.tabs := by
  rw [← length_filter_notMem_add h.distinct once, circuits_closed]
  simp only [closeCircuits, h.count]
  omega

theorem close (h : Accounted jbExtId b) {listed : List Tab} {i : ℕ}
    (at_i : b.pending[i]? = some (some listed))
    (opened : ∀ id ∈ circuits jbExtId listed, id ∈ circuits jbExtId b.tabs) :
    Accounted jbExtId
      ({ b with pending := b.pending.eraseIdx i }.closeCircuits jbExtId listed) := by
  have once := h.once listed (List.mem_of_getElem? at_i)
  refine ⟨(h.close_iff once).mpr opened, ?_, ?_, fun other waiting => ?_⟩
  · rw [circuits_closed]
    exact h.distinct.filter _
  · rw [circuits_closed]
    exact fun id member => h.fresh id (List.mem_filter.mp member).1
  · exact h.once other (List.mem_of_mem_eraseIdx waiting)

end Accounted

inductive Moves (jbExtId : CStr) (b : Background) : Event → Background → Prop
  | shutdown : Moves jbExtId b .shutdown b.circuitsShutdown
  | launch (circuitCount : Option ℤ) :
      Moves jbExtId b (.launch circuitCount) (b.circuitsLaunch circuitCount)
  | ensure (circuitCount : Option ℤ) :
      Moves jbExtId b (.ensure circuitCount) (b.circuitsEnsure circuitCount)
  | create (left : ℕ) : Moves jbExtId b .create (b.createCircuit jbExtId left)
  | list (i : ℕ) : Moves jbExtId b (.list i) { b with pending := b.pending.set i (some b.tabs) }
  | callback (i : ℕ) {listed : List Tab} (at_i : b.pending[i]? = some (some listed)) :
      Moves jbExtId b (.callback i)
        ({ b with pending := b.pending.eraseIdx i }.closeCircuits jbExtId listed)

theorem moves_of_step {e : Event} (moved : step jbExtId b e = some b') : Moves jbExtId b e b' := by
  unfold step at moved
  cases e with
  | shutdown => exact (Option.some.inj (Option.ite_none_right_eq_some.mp moved).2) ▸ .shutdown
  | launch => exact (Option.some.inj (Option.ite_none_right_eq_some.mp moved).2) ▸ .launch _
  | ensure => exact (Option.some.inj (Option.ite_none_right_eq_some.mp moved).2) ▸ .ensure _
  | create =>
    dsimp only at moved
    split at moved
    next => cases moved
    next left _ => exact Option.some.inj moved ▸ .create left
  | list i =>
    dsimp only at moved
    split at moved
    next => exact Option.some.inj moved ▸ .list i
    next => cases moved
  | callback i =>
    dsimp only at moved
    split at moved
    next listed at_i =>
      exact Option.some.inj (Option.ite_none_right_eq_some.mp moved).2 ▸ .callback i at_i
    next => cases moved

theorem Accounted.moves {e : Event} (h : Accounted jbExtId b) (unforced : Unforced jbExtId b e)
    (moved : Moves jbExtId b e b') : Accounted jbExtId b' := by
  cases moved with
  | shutdown => exact h.shutdown unforced
  | launch circuitCount => exact h.launch unforced circuitCount
  | ensure circuitCount =>
    unfold circuitsEnsure
    split
    next launches => exact h.launch (h.countsRight.2.mp launches) circuitCount
    next => exact h
  | create left => exact h.create left
  | list i => exact h.list i
  | callback i at_i => exact h.close at_i (unforced _ (by rw [at_i]; rfl))

theorem Accounted.wrong_of_forced {e : Event} (h : Accounted jbExtId b)
    (forced : ¬Unforced jbExtId b e) (moved : Moves jbExtId b e b') :
    b'.circuitCountRunning ≠ (circuits jbExtId b'.tabs).length := by
  have shut (opened : circuits jbExtId b.tabs ≠ []) :
      (0 : ℤ) ≠ (circuits jbExtId b.tabs).length := by
    have := List.length_pos_iff.mpr opened
    omega
  cases moved with
  | shutdown =>
    rw [circuitsShutdown_eq]
    exact shut forced
  | launch circuitCount =>
    rw [circuitsLaunch, circuitsShutdown_eq]
    exact shut forced
  | callback i at_i =>
    refine fun right => forced fun other at_i' => ?_
    rw [at_i] at at_i'
    obtain rfl := Option.some.inj at_i'
    exact (h.close_iff (h.once _ (List.mem_of_getElem? at_i))).mp right
  | ensure | create | list => exact absurd trivial forced

theorem Accounted.loaded {urls : List CStr} (none_left : circuits jbExtId (loaded urls).tabs = []) :
    Accounted jbExtId (Background.loaded urls) where
  count := by rw [none_left]; rfl
  distinct := none_left ▸ List.nodup_nil
  fresh := none_left ▸ List.forall_mem_nil _
  once := nofun

/-- `JumpBox.init` and whatever comes after it: the count is right in every state if and only
if every step is unforced, and then `circuits_ensure` acts on it as it should. -/
theorem circuit_count_right_iff (jbExtId : CStr) (urls : List CStr) {es : List Event}
    {s' : Background}
    (run : (machine jbExtId).exec (Background.loaded urls) (.shutdown :: es) = some s') :
    ((machine jbExtId).Meets (Unforced jbExtId) (Background.loaded urls) (.shutdown :: es) →
      (machine jbExtId).Always (fun b => b.pending = [] → b.CountsRight jbExtId)
        (Background.loaded urls) (.shutdown :: es)) ∧
    ((machine jbExtId).Always (fun b => b.circuitCountRunning = (circuits jbExtId b.tabs).length)
        (Background.loaded urls) (.shutdown :: es) ↔
      (machine jbExtId).Meets (Unforced jbExtId) (Background.loaded urls) (.shutdown :: es)) := by
  by_cases none_left : circuits jbExtId (Background.loaded urls).tabs = []
  · have start := Accounted.loaded none_left
    refine ⟨fun meets => ?_, ?_⟩
    · have always := (machine jbExtId).always_of_meets
        (fun _ _ _ h unforced moved => h.moves unforced (moves_of_step moved)) start meets
      exact always.imp _ fun b h _ => h.countsRight
    · exact (machine jbExtId).always_iff_meets (fun _ h => h.count)
        (fun _ _ _ h unforced moved => h.moves unforced (moves_of_step moved))
        (fun _ _ _ h forced moved => h.wrong_of_forced forced (moves_of_step moved)) start run
  · -- the page's own first call goes wrong
    refine ⟨fun meets => absurd meets.1 none_left, fun always => ?_, fun meets => ?_⟩
    · have right : (0 : ℤ) = (circuits jbExtId (Background.loaded urls).tabs).length := always.1
      have := List.length_pos_iff.mpr none_left
      omega
    · exact absurd meets.1 none_left

theorem circuit_count_right_launched :
    (machine []).Meets (Unforced []) (Background.loaded [])
        [.shutdown, .list 0, .callback 0, .launch (some 1), .list 0, .create, .callback 0] ∧
      (machine []).Always (fun b => b.circuitCountRunning = (circuits [] b.tabs).length)
        (Background.loaded [])
        [.shutdown, .list 0, .callback 0, .launch (some 1), .list 0, .create, .callback 0] := by
  have meets : (machine []).Meets (Unforced []) (Background.loaded [])
      [.shutdown, .list 0, .callback 0, .launch (some 1), .list 0, .create, .callback 0] := by
    decide
  exact ⟨meets, (circuit_count_right_iff [] [] rfl).2.mpr meets⟩

theorem relaunched_not_counted :
    ¬∀ (jbExtId : CStr) (urls : List CStr) (es : List Event) (b : Background),
      (machine jbExtId).exec (Background.loaded urls) (.shutdown :: es) = some b →
        b.pending = [] → b.CountsRight jbExtId := by
  intro always
  have right := always [] [] [.list 0, .callback 0, .launch (some 1), .list 0, .create, .callback 0,
    .launch (some 1), .list 0, .create, .callback 0] _ rfl rfl
  exact absurd (right.2.mp (by decide)) (by decide)

end Background

end Jumpbox.Plugin
