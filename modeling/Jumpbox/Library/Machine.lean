import Mathlib.Data.List.Infix
import Mathlib.Order.Basic

/-! Labelled machines and their runs.
A machine is a partial step function: an event that is not enabled has no
successor. A run is the list of events it takes, so all nondeterminism sits in
the events. Properties of runs are proved from properties of one step, either
for every run or only for the runs whose steps all meet a guard. -/

structure Machine (σ ε : Type*) where
  step : σ → ε → Option σ

namespace Machine

variable {σ ε : Type*} (M : Machine σ ε)

def exec : σ → List ε → Option σ
  | s, [] => some s
  | s, e :: es => (M.step s e).bind fun next => exec next es

theorem exec_cons_eq_some {s s' : σ} {e : ε} {es : List ε} :
    M.exec s (e :: es) = some s' ↔
      ∃ next, M.step s e = some next ∧ M.exec next es = some s' := by
  simp [exec, Option.bind_eq_some_iff]

/-- Every step of the run meets `ok` in the state before it. -/
def Meets (ok : σ → ε → Prop) : σ → List ε → Prop
  | _, [] => True
  | s, e :: es => ok s e ∧ ∀ next, M.step s e = some next → Meets ok next es

/-- `P` holds in every state the run passes through, its two ends included. -/
def Always (P : σ → Prop) : σ → List ε → Prop
  | s, [] => P s
  | s, e :: es => P s ∧ ∀ next, M.step s e = some next → Always P next es

instance Meets.decidable {ok : σ → ε → Prop} [∀ s e, Decidable (ok s e)] :
    ∀ (s : σ) (es : List ε), Decidable (M.Meets ok s es)
  | _, [] => isTrue trivial
  | s, e :: es =>
    have (next : σ) : Decidable (M.Meets ok next es) := Meets.decidable next es
    inferInstanceAs (Decidable (ok s e ∧ ∀ next ∈ M.step s e, M.Meets ok next es))

theorem Always.start {P : σ → Prop} {s : σ} {es : List ε} (h : M.Always P s es) : P s := by
  cases es with
  | nil => exact h
  | cons e es => exact h.1

theorem Always.finish {P : σ → Prop} {s s' : σ} {es : List ε}
    (h : M.Always P s es) (run : M.exec s es = some s') : P s' := by
  induction es generalizing s with
  | nil => cases run; exact h
  | cons e es ih =>
    obtain ⟨next, first, rest⟩ := M.exec_cons_eq_some.mp run
    exact ih (h.2 next first) rest

theorem Meets.last {ok : σ → ε → Prop} {s s' : σ} {es : List ε} {e : ε}
    (meets : M.Meets ok s (es ++ [e])) (run : M.exec s es = some s') : ok s' e := by
  induction es generalizing s with
  | nil => cases run; exact meets.1
  | cons e es ih =>
    obtain ⟨next, first, rest⟩ := M.exec_cons_eq_some.mp run
    exact ih (meets.2 next first) rest

theorem Always.imp {P Q : σ → Prop} (pq : ∀ s, P s → Q s) {s : σ} {es : List ε}
    (h : M.Always P s es) : M.Always Q s es := by
  induction es generalizing s with
  | nil => exact pq s h
  | cons e es ih => exact ⟨pq s h.1, fun next first => ih (h.2 next first)⟩

theorem always_of_meets {I : σ → Prop} {ok : σ → ε → Prop}
    (step : ∀ s e s', I s → ok s e → M.step s e = some s' → I s')
    {s : σ} {es : List ε} (start : I s) (meets : M.Meets ok s es) : M.Always I s es := by
  induction es generalizing s with
  | nil => exact start
  | cons e es ih =>
    refine ⟨start, fun next first => ?_⟩
    exact ih (step s e next start meets.1 first) (meets.2 next first)

theorem Meets.imp {I : σ → Prop} {ok ok' : σ → ε → Prop}
    (step : ∀ s e s', I s → ok s e → M.step s e = some s' → I s')
    {s : σ} {es : List ε} (imp : ∀ s, ∀ e ∈ es, I s → ok s e → ok' s e) (start : I s)
    (meets : M.Meets ok s es) : M.Meets ok' s es := by
  induction es generalizing s with
  | nil => trivial
  | cons e es ih =>
    refine ⟨imp s e (List.mem_cons_self ..) start meets.1, fun next first => ?_⟩
    exact ih (fun s e mem => imp s e (List.mem_cons_of_mem _ mem))
      (step s e next start meets.1 first) (meets.2 next first)

theorem meets_true (s : σ) (es : List ε) : M.Meets (fun _ _ => True) s es := by
  induction es generalizing s with
  | nil => trivial
  | cons e es ih => exact ⟨trivial, fun next _ => ih next⟩

theorem always_of_step {I : σ → Prop}
    (step : ∀ s e s', I s → M.step s e = some s' → I s')
    {s : σ} (start : I s) (es : List ε) : M.Always I s es :=
  M.always_of_meets (fun s e s' hs _ => step s e s' hs) start (M.meets_true s es)

theorem invariant {I : σ → Prop}
    (step : ∀ s e s', I s → M.step s e = some s' → I s')
    {s s' : σ} {es : List ε} (start : I s) (run : M.exec s es = some s') : I s' :=
  (M.always_of_step step start es).finish M run

theorem always_iff_meets {I P : σ → Prop} {ok : σ → ε → Prop}
    (sound : ∀ s, I s → P s)
    (step : ∀ s e s', I s → ok s e → M.step s e = some s' → I s')
    (exact : ∀ s e s', I s → ¬ok s e → M.step s e = some s' → ¬P s')
    {s s' : σ} {es : List ε} (start : I s) (run : M.exec s es = some s') :
    M.Always P s es ↔ M.Meets ok s es := by
  constructor
  · intro always
    induction es generalizing s with
    | nil => trivial
    | cons e es ih =>
      obtain ⟨next, first, rest⟩ := M.exec_cons_eq_some.mp run
      have met : ok s e := by
        by_contra broken
        exact exact s e next start broken first ((always.2 next first).start M)
      refine ⟨met, fun next' first' => ?_⟩
      obtain rfl : next = next' := Option.some.inj (first.symm.trans first')
      exact ih (step s e next start met first) rest (always.2 next first)
  · intro meets
    exact (M.always_of_meets step start meets).imp M sound

end Machine
