import Mathlib.Data.List.Induction
import Mathlib.Data.List.Infix
import Mathlib.Algebra.BigOperators.Group.List.Basic
import Mathlib.Algebra.Ring.Nat

/-! Paths, as they are resolved where there are no symbolic links. A path is a list of
steps from the root. Where it leads is a stack of names, and which step put a name on the
stack can be read off the numbers of names and of `..` that follow. -/

namespace Path

inductive Step (ν : Type*)
  | here
  | up
  | name (n : ν)
  deriving DecidableEq

variable {ν : Type*}

/-- One step out of the directory `dir`, given by its names with the innermost first.
The root is above itself. -/
def move : List ν → Step ν → List ν
  | dir, .here => dir
  | dir, .up => dir.tail
  | dir, .name n => n :: dir

def walk (dir : List ν) (path : List (Step ν)) : List ν := path.foldl move dir

/-- The names of what `path` leads to, with the outermost first. -/
def resolve (path : List (Step ν)) : List ν := (walk [] path).reverse

def Step.names : Step ν → ℕ
  | .name _ => 1
  | _ => 0

def Step.ups : Step ν → ℕ
  | .up => 1
  | _ => 0

def names (path : List (Step ν)) : ℕ := (path.map Step.names).sum

def ups (path : List (Step ν)) : ℕ := (path.map Step.ups).sum

/-- No `..` of the path climbs out of the directory it starts in. -/
def Stays (path : List (Step ν)) : Prop := ∀ front, front <+: path → ups front ≤ names front

theorem walk_append (dir : List ν) (path more : List (Step ν)) :
    walk dir (path ++ more) = walk (walk dir path) more := List.foldl_append

theorem walk_concat (dir : List ν) (path : List (Step ν)) (s : Step ν) :
    walk dir (path ++ [s]) = move (walk dir path) s := walk_append dir path [s]

theorem names_concat (path : List (Step ν)) (s : Step ν) :
    names (path ++ [s]) = names path + s.names := by
  simp [names]

theorem ups_concat (path : List (Step ν)) (s : Step ν) :
    ups (path ++ [s]) = ups path + s.ups := by
  simp [ups]

theorem Stays.ups_le {path : List (Step ν)} (h : Stays path) : ups path ≤ names path :=
  h path (List.prefix_refl path)

theorem stays_nil : Stays ([] : List (Step ν)) := by
  intro front pre
  rw [List.prefix_nil.mp pre]
  rfl

theorem stays_concat {path : List (Step ν)} {s : Step ν} :
    Stays (path ++ [s]) ↔ Stays path ∧ ups (path ++ [s]) ≤ names (path ++ [s]) := by
  constructor
  · intro h
    exact ⟨fun front pre => h front (pre.trans (List.prefix_append path [s])), h.ups_le⟩
  · rintro ⟨h, all⟩ front pre
    rcases List.prefix_concat_iff.mp pre with rfl | shorter
    · exact all
    · exact h front shorter

theorem length_walk {path : List (Step ν)} (h : Stays path) :
    (walk [] path).length + ups path = names path := by
  induction path using List.reverseRecOn with
  | nil => rfl
  | append_singleton path s ih =>
    obtain ⟨stays, le⟩ := stays_concat.mp h
    have ih := ih stays
    rw [names_concat, ups_concat] at le ⊢
    rw [walk_concat]
    cases s with
    | here => exact ih
    | up =>
      simp only [move, List.length_tail, Step.ups, Step.names] at le ⊢
      omega
    | name n =>
      simp only [move, List.length_cons, Step.ups, Step.names]
      omega

theorem walk_of_stays (dir : List ν) {path : List (Step ν)} (h : Stays path) :
    walk dir path = walk [] path ++ dir := by
  induction path using List.reverseRecOn with
  | nil => rfl
  | append_singleton path s ih =>
    obtain ⟨stays, le⟩ := stays_concat.mp h
    rw [walk_concat, walk_concat, ih stays]
    cases s with
    | here => rfl
    | up =>
      have deep := length_walk stays
      rw [names_concat, ups_concat] at le
      cases below : walk [] path with
      | nil =>
        rw [below] at deep
        simp only [List.length_nil, Step.ups, Step.names] at deep le
        omega
      | cons n rest => rfl
    | name n => rfl

theorem walk_eq_iff {path : List (Step ν)} {rest dir : List ν} {d : ν} :
    walk [] path = rest ++ d :: dir ↔
      ∃ before after, path = before ++ .name d :: after ∧ walk [] before = dir ∧
        Stays after ∧ walk [] after = rest := by
  constructor
  · intro h
    induction path using List.reverseRecOn generalizing rest with
    | nil => simp [walk] at h
    | append_singleton path s ih =>
      rw [walk_concat] at h
      cases s with
      | here =>
        obtain ⟨before, after, rfl, entered, stays, leads⟩ := ih h
        refine ⟨before, after ++ [.here], by simp, entered, ?_, ?_⟩
        · exact stays_concat.mpr ⟨stays, by
            simpa [names_concat, ups_concat, Step.ups, Step.names] using stays.ups_le⟩
        · rw [walk_concat, leads]; rfl
      | up =>
        cases top : walk [] path with
        | nil => rw [top] at h; simp [move] at h
        | cons n below =>
          rw [top] at h
          have h : below = rest ++ d :: dir := h
          have deeper : walk [] path = (n :: rest) ++ d :: dir := by rw [top, h]; rfl
          obtain ⟨before, after, rfl, entered, stays, leads⟩ := ih deeper
          have deep := length_walk stays
          rw [leads, List.length_cons] at deep
          refine ⟨before, after ++ [.up], by simp, entered, ?_, ?_⟩
          · refine stays_concat.mpr ⟨stays, ?_⟩
            simp only [names_concat, ups_concat, Step.ups, Step.names]
            omega
          · rw [walk_concat, leads]; rfl
      | name n =>
        cases rest with
        | nil =>
          obtain ⟨rfl, rfl⟩ := List.cons.inj h
          exact ⟨path, [], rfl, rfl, stays_nil, rfl⟩
        | cons m rest =>
          obtain ⟨rfl, below⟩ := List.cons.inj h
          obtain ⟨before, after, rfl, entered, stays, leads⟩ := ih below
          refine ⟨before, after ++ [.name n], by simp, entered, ?_, ?_⟩
          · refine stays_concat.mpr ⟨stays, ?_⟩
            have le := stays.ups_le
            simp only [names_concat, ups_concat, Step.ups, Step.names]
            omega
          · rw [walk_concat, leads]; rfl
  · rintro ⟨before, after, rfl, rfl, stays, rfl⟩
    rw [walk_append]
    exact walk_of_stays (d :: walk [] before) stays

theorem resolve_eq_iff {path : List (Step ν)} {dir : List ν} {d : ν} :
    (∃ rest, rest ≠ [] ∧ resolve path = dir ++ d :: rest) ↔
      ∃ before after, path = before ++ .name d :: after ∧ resolve before = dir ∧
        Stays after ∧ ups after < names after := by
  have reversed (rest : List ν) :
      resolve path = dir ++ d :: rest ↔ walk [] path = rest.reverse ++ d :: dir.reverse := by
    rw [resolve, List.reverse_eq_iff]
    simp
  constructor
  · rintro ⟨rest, some, leads⟩
    obtain ⟨before, after, split, entered, stays, left⟩ := walk_eq_iff.mp ((reversed rest).mp leads)
    have deep := length_walk stays
    rw [left, List.length_reverse] at deep
    have := List.length_pos_iff.mpr some
    exact ⟨before, after, split, by rw [resolve, entered, List.reverse_reverse], stays, by omega⟩
  · rintro ⟨before, after, split, entered, stays, left⟩
    have deep := length_walk stays
    refine ⟨(walk [] after).reverse, ?_, (reversed _).mpr (walk_eq_iff.mpr
      ⟨before, after, split, by rw [← entered, resolve, List.reverse_reverse], stays,
        by rw [List.reverse_reverse]⟩)⟩
    intro none
    rw [List.reverse_eq_nil_iff.mp none, List.length_nil] at deep
    omega

/-! Texts. -/

def components : List Char → List (List Char)
  | [] => [[]]
  | c :: text =>
    if c = '/' then [] :: components text
    else match components text with
      | [] => [[c]]
      | first :: rest => (c :: first) :: rest

def Step.ofComponent (c : List Char) : Step (List Char) :=
  if c = [] ∨ c = ".".toList then .here
  else if c = "..".toList then .up
  else .name c

def steps (text : List Char) : List (Step (List Char)) :=
  (components text).map Step.ofComponent

example : resolve (steps "/a/./b//../c".toList) = ["a".toList, "c".toList] := by decide

end Path
