import Jumpbox.Rendezvous.Verified

/-! Which captcha a peel is taken to answer. Whether a captcha is shown or asked for is read
from `l_captcha_image_path`, which outlives the captcha that it was made for. -/

namespace Jumpbox.Rendezvous

inductive Uncovers (ext : Ext) (c : Choice) (hcl : HttpsrvClient) (s : State) : Onion → Prop
  | image {onion} : imageOnion ext c s hcl = some onion → Uncovers ext c hcl s onion
  | solved {o inner} : Peels ext c hcl s o pow → s.lPowThreadStarted →
      s.lPowThreadFinished → s.lPowInnerOnion = some inner →
      Uncovers ext c hcl s (s.mem inner).onion
  | answered {o root answer inner} : Peels ext c hcl s o captcha →
      peelRoot ext c hcl = some root → root.get "action".toList = some (.string answer) →
      Takes ext (.captcha answer) (s.mem o).onion inner → Uncovers ext c hcl s inner
  | verified {o publicKey inner} : Peels ext c hcl s o signed →
      c.publicKey = some (some publicKey) →
      Takes ext (.signed publicKey) (s.mem o).onion inner → Uncovers ext c hcl s inner

/-- No captcha becomes current while there is still the path of an earlier one. -/
def PathIsFree (ext : Ext) (s : State) : Event → Prop
  | .request hcl c => s.lCaptchaImagePath.isSome →
      ∀ onion, Uncovers ext c hcl s onion → onion.type ≠ captcha
  | _ => True

/-- The onions that requests have been taken to answer, the event included, had been
announced before it. -/
def ShownFirst (ext : Ext) (s : State) (e : Event) : Prop :=
  ∀ t, (machine ext).step s e = some t → t.hist.asked ⊆ s.hist.shown

structure Announced (s : State) : Prop where
  current : ∀ o, s.lCurrentOnion = some o → o < s.next
  inner : ∀ o, s.lPowInnerOnion = some o → o < s.next
  path : ∀ o, s.lCurrentOnion = some o → (s.mem o).onion.type = captcha →
    s.lCaptchaImagePath.isSome → o ∈ s.hist.shown
  asked : s.hist.asked ⊆ s.hist.shown

namespace Announced

variable {ext : Ext} {c : Choice} {hcl : HttpsrvClient} {s t : State}

theorem uncover {o : Ptr} (h : Announced s) (next : s.next ≤ t.next)
    (inner : ∀ p, t.lPowInnerOnion = some p → s.lPowInnerOnion = some p)
    (path : t.lCaptchaImagePath = s.lCaptchaImagePath) (shown : t.hist.shown = s.hist.shown)
    (asked : t.hist.asked ⊆ s.hist.shown) (current : t.lCurrentOnion = some o) (old : o < t.next)
    (free : s.lCaptchaImagePath.isSome → (t.mem o).onion.type ≠ captcha) : Announced t where
  current p now := by
    obtain rfl : p = o := Option.some.inj (now.symm.trans current)
    exact old
  inner p stored := (h.inner p (inner p stored)).trans_le next
  path p now type set := by
    obtain rfl : p = o := Option.some.inj (now.symm.trans current)
    exact absurd type (free (path ▸ set))
  asked := shown ▸ asked

theorem peeled {o : Ptr} {layer : Layer} {onion : Onion} (h : Announced s)
    (free : s.lCaptchaImagePath.isSome → onion.type ≠ captcha) :
    Announced (s.peeled o layer onion) := by
  refine h.uncover (Nat.le_succ _) (fun _ => id) rfl rfl h.asked rfl (Nat.lt_succ_self _) ?_
  intro set
  simpa [State.peeled, State.newOnion, State.replace, State.freeOnion] using free set

theorem ask {o : Ptr} (h : Announced s) (shown : o ∈ s.hist.shown) : Announced (s.ask o) := by
  refine { h with asked := fun p mem => ?_ }
  rcases List.mem_append.mp mem with old | new
  · exact h.asked old
  · exact List.mem_singleton.mp new ▸ shown

theorem reset (h : Announced s) : Announced (rdvReset c s).state := by
  rw [rdvReset_eq]
  refine { current := by nofun, inner := fun o stored => ?_, path := by nofun, asked := h.asked }
  dsimp only at stored
  split at stored
  · cases stored
  · exact h.inner o stored

theorem tossed (h : Announced s) : Announced (s.tossed c) := by
  rw [State.tossed, unlink_eq, unlink_eq]
  exact { h with }

theorem showed {o : Ptr} (h : Announced s) (current : s.lCurrentOnion = some o) :
    Announced (s.showed o) where
  current := h.current
  inner := h.inner
  path p now _ _ := by
    obtain rfl : o = p := Option.some.inj (current.symm.trans now)
    exact List.mem_append_right _ (List.mem_singleton_self _)
  asked p mem := List.mem_append_left _ (h.asked mem)

theorem newOnion {cell : Cell} (h : Announced s) : Announced (s.newOnion cell) where
  current o now := Nat.lt_succ_of_lt (h.current o now)
  inner o stored := Nat.lt_succ_of_lt (h.inner o stored)
  path o now := by
    have same : (s.newOnion cell).mem o = s.mem o :=
      Function.update_of_ne (ne_of_lt (h.current o now)) _ _
    rw [same]
    exact h.path o now
  asked := h.asked

theorem outcome (h : Announced s) (guard : PathIsFree ext s (.request hcl c))
    (left : Outcome ext c hcl s t) : Announced t ∧ t.hist.asked ⊆ s.hist.shown := by
  have shown {o : Ptr} (peels : Peels ext c hcl s o captcha)
      (set : s.lCaptchaImagePath.isSome) : o ∈ s.hist.shown :=
    h.path o peels.current peels.type set
  cases left with
  | stay => exact ⟨h, h.asked⟩
  | password => exact ⟨{ h with }, h.asked⟩
  | reset => exact ⟨h.reset, by rw [rdvReset_eq]; exact h.asked⟩
  | undecrypted =>
    have saved : Announced (s.saved c) := { h with }
    exact ⟨saved.tossed, by rw [State.tossed, unlink_eq, unlink_eq]; exact h.asked⟩
  | @refused onion =>
    have saved : Announced (s.saved c) := { h with }
    have freed : Announced (((s.saved c).newOnion { onion }).freeOnion (some s.next)) :=
      { saved.newOnion with }
    exact ⟨freed.tossed, by rw [State.tossed, unlink_eq, unlink_eq]; exact h.asked⟩
  | @taken onion _ image =>
    refine ⟨?_, h.asked⟩
    refine h.uncover (Nat.le_succ _) (fun _ => id) rfl rfl h.asked rfl (Nat.lt_succ_self _) ?_
    intro set
    have cell : (s.taken c onion).mem (s.saved c).next = { onion } := Function.update_self ..
    rw [cell]
    exact guard set onion (.image image)
  | danced => exact ⟨{ h with }, h.asked⟩
  | started => exact ⟨{ h with }, h.asked⟩
  | @adopted o inner peels started finished stored =>
    refine ⟨?_, h.asked⟩
    refine h.uncover le_rfl (by nofun) rfl rfl h.asked rfl (h.inner inner stored) ?_
    exact fun set => guard set _ (.solved peels started finished stored)
  | wrote => exact ⟨{ h with }, h.asked⟩
  | showed peels => exact ⟨h.showed peels.current, h.asked⟩
  | asked peels set =>
    have asks := h.ask (shown peels set)
    exact ⟨asks, asks.asked⟩
  | answered peels set loaded given takes =>
    have asks := h.ask (shown peels set)
    exact ⟨asks.peeled fun set => guard set _ (.answered peels loaded given takes), asks.asked⟩
  | verified peels opened takes =>
    exact ⟨h.peeled fun set => guard set _ (.verified peels opened takes), h.asked⟩

theorem setPc {w : ℕ} {pc : WorkerPc} (h : Announced s) : Announced (s.setPc w pc) :=
  { h with }

theorem work {w : ℕ} {pc : WorkerPc} (h : Announced s) (works : Works ext s w pc t) :
    Announced t ∧ t.hist.asked ⊆ s.hist.shown := by
  cases works with
  | read => exact ⟨{ h with }, h.asked⟩
  | @solve a b d e =>
    unfold State.solved
    split
    · refine ⟨?_, h.asked⟩
      refine setPc { newOnion h with inner := ?_ }
      rintro p ⟨⟩
      exact Nat.lt_succ_self _
    · exact ⟨{ h with inner := by nofun }, h.asked⟩
  | progress => exact ⟨{ h with }, h.asked⟩
  | finish => exact ⟨{ h with }, h.asked⟩

theorem step {e : Event} (h : Announced s) (guard : PathIsFree ext s e)
    (run : (machine ext).step s e = some t) : Announced t ∧ t.hist.asked ⊆ s.hist.shown := by
  cases e with
  | request hcl c =>
    have left := rdvHandle_outcome ext c hcl s
    cases run
    exact h.outcome guard left
  | worker w =>
    obtain ⟨worker, found, works⟩ := workerStep_works run
    exact h.work works
  | attempts w progress =>
    simp only [machine, Rendezvous.step] at run
    split at run
    · cases run
      exact ⟨{ h with }, h.asked⟩
    · cases run

end Announced

theorem initial_announced : Announced initial where
  current := by nofun
  inner := by nofun
  path := by nofun
  asked := List.Subset.refl _

theorem shown_first_of_path_is_free (ext : Ext) (es : List Event)
    (meets : (machine ext).Meets (PathIsFree ext) initial es) :
    (machine ext).Meets (ShownFirst ext) initial es :=
  meets.imp _ (fun _ _ _ h guard run => (h.step guard run).1)
    (fun _ _ _ h guard _ run => (h.step guard run).2) initial_announced

/-! An image with a captcha in a captcha, and one with a single captcha. -/

def captchaOnion (contents : List UInt8) : Onion := {
  size := 16 + contents.length, type := captcha, puzzleSize := 1
  dataSize := contents.length - 1, contents }

/-- A library that finds a captcha in every image, and inside a captcha another one as long
as there are two bytes left. -/
def captchaLibrary : Ext where
  jsonLoads text :=
    if text = "{}".toList then some (.object [("action".toList, .string "a".toList)]) else none
  sizeofOnionHeader := 16
  extractNSave _ image := some image
  defiantPwdDecrypt _ contents := some (captchaOnion contents, 16 + contents.length)
  verifyOnion _ _ := true
  peelSignedOnion _ := none
  peelCaptchaOnion _ outer := some (match outer.data with
    | [] => netOnion
    | data => captchaOnion data)
  defiantPowAux _ _ _ := none
  generateDefiantRequestUrl _ _ server _ := .ok server

def postedCaptcha (contents : List UInt8) : Event := posted "image".toList contents {}

def asksForCaptcha : Event := posted "peel".toList [123, 125] {}

theorem asks_unshown : ¬∀ ext es, (machine ext).Meets (ShownFirst ext) initial es := by
  intro shownFirst
  have meets := shownFirst captchaLibrary
    ([postedCaptcha [1, 2], asksForCaptcha, asksForCaptcha] ++ [asksForCaptcha])
  have run : ∃ s t, (machine captchaLibrary).exec initial
      [postedCaptcha [1, 2], asksForCaptcha, asksForCaptcha] = some s ∧
      (machine captchaLibrary).step s asksForCaptcha = some t ∧
      1 ∈ t.hist.asked ∧ 1 ∉ s.hist.shown := ⟨_, _, rfl, rfl, by decide, by decide⟩
  obtain ⟨s, t, run, last, asked, unshown⟩ := run
  exact unshown (Machine.Meets.last _ meets run t last asked)

theorem uncovers_net {c : Choice} {hcl : HttpsrvClient} {s : State} {onion : Onion}
    (current : ∀ o, s.lCurrentOnion = some o → (s.mem o).onion = captchaOnion [1])
    (peels : asks hcl "image".toList = false) (h : Uncovers captchaLibrary c hcl s onion) :
    onion.type ≠ captcha := by
  have is_captcha {o : Ptr} {type : ℕ} (now : Current s o type) : captcha = type := by
    rw [← now.type, current o now.current]
    rfl
  cases h with
  | image image =>
    have asked := (Option.ite_none_right_eq_some.mp image).1.1
    exact absurd asked (peels ▸ Bool.false_ne_true)
  | solved now => exact absurd (is_captcha now.toCurrent) (by decide)
  | @answered o _ _ _ now _ _ takes =>
    rw [current o now.current] at takes
    cases takes with
    | captcha _ peeled =>
      cases peeled
      decide
  | verified now => exact absurd (is_captcha now.toCurrent) (by decide)

theorem shown_first_of_path_is_free_single :
    ∃ s t, (machine captchaLibrary).exec initial [postedCaptcha [1], asksForCaptcha] = some s ∧
      (machine captchaLibrary).step s asksForCaptcha = some t ∧ t.hist.asked = [0] ∧
      t.hist.asked ⊆ s.hist.shown := by
  have run : ∃ s t, (machine captchaLibrary).exec initial
      [postedCaptcha [1], asksForCaptcha] = some s ∧
      (machine captchaLibrary).step s asksForCaptcha = some t ∧ t.hist.asked = [0] :=
    ⟨_, _, rfl, rfl, by decide⟩
  obtain ⟨s, t, run, last, asked⟩ := run
  have meets : (machine captchaLibrary).Meets (PathIsFree captchaLibrary) initial
      ([postedCaptcha [1], asksForCaptcha] ++ [asksForCaptcha]) := by
    refine ⟨by nofun, ?_⟩
    rintro _ ⟨⟩
    refine ⟨by nofun, ?_⟩
    rintro _ ⟨⟩
    refine ⟨fun _ _ => uncovers_net ?_ (by decide), fun _ _ => trivial⟩
    rintro o ⟨⟩
    decide
  have shown := shown_first_of_path_is_free captchaLibrary _ meets
  exact ⟨s, t, run, last, asked, Machine.Meets.last _ shown run t last⟩

end Jumpbox.Rendezvous
