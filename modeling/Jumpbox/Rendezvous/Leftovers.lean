import Jumpbox.Rendezvous.Captcha
import Mathlib.Data.List.Nodup

/-! What is left behind of the images: their files, the directories around them, and the
onions. Everything there is has to be known to the globals, or nobody will remove it. -/

namespace Jumpbox.Rendezvous

/-- Files and directories are the tracked ones, and of the onions there have been each is
current or has been freed, once. -/
structure NothingLeft (s : State) : Prop where
  files : ∀ file ∈ s.files, s.lCurrentImagePath = some file ∨ s.lCaptchaImagePath = some file
  dirs : ∀ dir ∈ s.dirs, s.lCurrentImageDir = some dir
  onions : (s.lCurrentOnion.toList ++ s.freed).Perm (List.range s.next)

def Clears (ext : Ext) (s : State) : Event → Prop
  | .request hcl c =>
    let after := (rdvHandle ext c s hcl).state
    (asks hcl "reset".toList →
      after.files = [] ∧ after.dirs = [] ∧ after.freed.Perm (List.range after.next)) ∧
    (asks hcl "image".toList → imageOnion ext c s hcl = none →
      after.files = s.files ∧ after.dirs = s.dirs ∧ after.lCurrentOnion = s.lCurrentOnion)
  | _ => True

/-- An image that has been extracted is taken, and at that time there is no other one. A
reset removes what it tries to remove, and a captcha that has been written is announced. -/
def Reclaims (ext : Ext) (s : State) : Event → Prop
  | .request hcl c =>
    (extracts ext s hcl → s.lCurrentOnion = none ∧ (imageOnion ext c s hcl).isSome) ∧
    (asks hcl "reset".toList →
      (∀ path, s.lCaptchaImagePath = some path ∨ s.lCurrentImagePath = some path →
        c.unlink path) ∧
      ∀ dir, s.lCurrentImageDir = some dir → c.rmdir dir) ∧
    ∀ o, Peels ext c hcl s o captcha → s.lCaptchaImagePath = none → c.captchaPath →
      c.bytes2file → c.captchaUrl ∧ c.response
  | _ => True

structure Tracked (s : State) : Prop where
  files : ∀ file ∈ s.files, s.lCurrentImagePath = some file ∨ s.lCaptchaImagePath = some file
  once : s.files.Nodup
  dirs : s.dirs = s.lCurrentImageDir.toList
  dir : s.lCurrentImagePath = none → s.lCurrentImageDir = none

structure Tidy (s : State) : Prop extends Tracked s where
  onions : (s.lCurrentOnion.toList ++ s.freed).Perm (List.range s.next)
  image : s.lCurrentOnion = none → s.lCurrentImagePath = none
  captcha : s.lCurrentOnion = none → s.lCaptchaImagePath = none
  inner : s.lPowInnerOnion = none
  idle : s.workers = [] → s.lPowThreadStarted = false

namespace Tracked

variable {c : Choice} {s : State}

theorem captchaReset (h : Tracked s)
    (removes : ∀ path, s.lCaptchaImagePath = some path → c.unlink path) :
    Tracked (rdvCaptchaReset c s) := by
  unfold rdvCaptchaReset
  split
  · exact h
  · rename_i path set
    simp only [State.unlink, removes path set, if_true]
    refine { h with once := h.once.erase path, files := fun file mem => .inl ?_ }
    obtain ⟨other, mem⟩ := h.once.mem_erase_iff.mp mem
    refine (h.files file mem).resolve_right fun same => other ?_
    exact Option.some.inj (same.symm.trans set)

theorem imageReset (h : Tracked s) (unposed : s.lCaptchaImagePath = none)
    (removes : ∀ path, s.lCurrentImagePath = some path → c.unlink path)
    (empties : ∀ dir, s.lCurrentImageDir = some dir → c.rmdir dir) :
    (rdvImageReset c s).files = [] ∧ (rdvImageReset c s).dirs = [] ∧
      (rdvImageReset c s).lCurrentImageDir = none := by
  have image (file : CStr) (mem : file ∈ s.files) : s.lCurrentImagePath = some file :=
    (h.files file mem).resolve_right (by rw [unposed]; nofun)
  unfold rdvImageReset
  split
  · rename_i unset
    refine ⟨List.eq_nil_iff_forall_not_mem.mpr fun file mem => ?_, ?_, h.dir unset⟩
    · exact absurd ((image file mem).symm.trans unset) nofun
    · rw [h.dirs, h.dir unset]
      rfl
  · rename_i path set
    have gone : s.files.erase path = [] := by
      refine List.eq_nil_iff_forall_not_mem.mpr fun file mem => ?_
      obtain ⟨other, mem⟩ := h.once.mem_erase_iff.mp mem
      exact other (Option.some.inj ((image file mem).symm.trans set))
    have unlinked : s.unlink (c.unlink path) path = { s with files := [] } := by
      simp only [State.unlink, removes path set, if_true, gone]
    dsimp only
    rw [unlinked, rmdir_eq]
    refine ⟨rfl, ?_, rfl⟩
    cases tracked : s.lCurrentImageDir with
    | none => simp [State.rmdir, h.dirs, tracked]
    | some dir => simp [State.rmdir, h.dirs, tracked, empties dir tracked]

theorem reset (h : Tracked s) (idle : s.lPowThreadStarted = false)
    (unlinks : ∀ path, s.lCaptchaImagePath = some path ∨ s.lCurrentImagePath = some path →
      c.unlink path)
    (empties : ∀ dir, s.lCurrentImageDir = some dir → c.rmdir dir) :
    (rdvReset c s).state.files = [] ∧ (rdvReset c s).state.dirs = [] ∧
      (rdvReset c s).state.lCurrentImageDir = none := by
  have forgot : Tracked (rdvOnionReset s) := { h with }
  have posed := forgot.captchaReset (c := c) fun path set => unlinks path (.inl set)
  have image := posed.imageReset (c := c)
  rw [rdvCaptchaReset_eq] at image
  have cleared := image rfl (fun path set => unlinks path (.inr set)) empties
  rw [← rdvCaptchaReset_eq] at cleared
  have still : (rdvImageReset c (rdvCaptchaReset c (rdvOnionReset s))).lPowThreadStarted =
      false := by
    rw [rdvImageReset_eq, rdvCaptchaReset_eq]
    exact idle
  simp only [rdvReset, rdvPowReset, still, Bool.false_eq_true, if_false]
  exact cleared

end Tracked

/-! The onions: one more is there, or one more is gone. -/

theorem perm_range_succ {xs : List Ptr} {next : Ptr} (h : xs.Perm (List.range next)) :
    (next :: xs).Perm (List.range (next + 1)) := by
  rw [List.range_succ]
  exact (List.perm_append_singleton next xs).symm.trans (h.append_right [next])

theorem asks_other {hcl : HttpsrvClient} {name other : CStr} (asked : asks hcl name)
    (ne : name.map Char.toLower ≠ other.map Char.toLower) : asks hcl other = false := by
  rw [← Bool.not_eq_true]
  intro too
  exact ne ((beq_iff_eq.mp asked).symm.trans (beq_iff_eq.mp too))

namespace Tidy

variable {ext : Ext} {c : Choice} {hcl : HttpsrvClient} {s t : State}

theorem nothingLeft (h : Tidy s) : NothingLeft s where
  files := h.files
  dirs dir mem := by
    rw [h.dirs] at mem
    exact Option.mem_toList.mp mem
  onions := h.onions

theorem reset (h : Tidy s) (idle : s.lPowThreadStarted = false)
    (unlinks : ∀ path, s.lCaptchaImagePath = some path ∨ s.lCurrentImagePath = some path →
      c.unlink path)
    (empties : ∀ dir, s.lCurrentImageDir = some dir → c.rmdir dir) :
    Tidy (rdvReset c s).state := by
  obtain ⟨files, dirs, dir⟩ := h.toTracked.reset idle unlinks empties
  have onions : (s.freed ++ s.lCurrentOnion.toList).Perm (List.range s.next) :=
    List.perm_append_comm.trans h.onions
  rw [rdvReset_eq]
  exact {
    files := by rw [files]; nofun
    once := by rw [files]; exact List.nodup_nil
    dirs := by rw [dirs, dir]; rfl
    dir := fun _ => dir
    onions := by simpa [idle] using onions
    image := fun _ => rfl
    captcha := fun _ => rfl
    inner := by simp [idle, h.inner]
    idle := fun _ => rfl }

theorem taken {onion : Onion} (h : Tidy s) (free : s.lCurrentOnion = none) :
    Tidy (s.taken c onion) where
  files file mem := by
    rcases List.mem_insert_iff.mp mem with rfl | old
    · exact .inl rfl
    · have tracked := h.files file old
      rw [h.image free, h.captcha free] at tracked
      exact absurd tracked (by simp)
  once := h.once.insert
  dirs := by
    have dirs : s.dirs = [] := by rw [h.dirs, h.dir (h.image free)]; rfl
    simp [State.taken, State.accept, State.newOnion, State.saved, dirs]
  dir unset := absurd unset (Option.some_ne_none _)
  onions := by
    have onions := h.onions
    rw [free] at onions
    exact perm_range_succ onions
  image free := absurd free (Option.some_ne_none _)
  captcha free := absurd free (Option.some_ne_none _)
  inner := h.inner
  idle := h.idle

theorem peeled {o : Ptr} {layer : Layer} {onion : Onion} (h : Tidy s)
    (current : s.lCurrentOnion = some o) : Tidy (s.peeled o layer onion) where
  files := h.files
  once := h.once
  dirs := h.dirs
  dir := h.dir
  onions := by
    have onions := h.onions
    have freed : (s.peeled o layer onion).freed = s.freed ++ [o] := by
      simp [State.peeled, State.newOnion, State.replace, State.freeOnion, current]
    rw [current] at onions
    rw [freed]
    exact perm_range_succ ((List.perm_append_singleton o s.freed).trans onions)
  image free := absurd free (Option.some_ne_none _)
  captcha free := absurd free (Option.some_ne_none _)
  inner := h.inner
  idle := h.idle

theorem showed {o : Ptr} (h : Tidy s) (current : s.lCurrentOnion = some o)
    (unposed : s.lCaptchaImagePath = none) : Tidy (s.showed o) := by
  refine { h with once := h.once.insert, files := fun file mem => ?_, captcha := fun free => ?_ }
  · rcases List.mem_insert_iff.mp mem with rfl | old
    · exact .inr rfl
    · exact .inl ((h.files file old).resolve_right (by rw [unposed]; nofun))
  · exact absurd (current.symm.trans free) nofun

theorem outcome (h : Tidy s) (quiet : s.workers = [])
    (guard : Reclaims ext s (.request hcl c)) (left : Outcome ext c hcl s t) : Tidy t := by
  obtain ⟨image, reset, captcha⟩ := guard
  cases left with
  | stay => exact h
  | password => exact { h with }
  | reset asked => exact h.reset (h.idle quiet) (reset asked).1 (reset asked).2
  | undecrypted extracts none =>
    have taken := (image extracts).2
    rw [none] at taken
    cases taken
  | refused extracts none =>
    have taken := (image extracts).2
    rw [none] at taken
    cases taken
  | taken extracts => exact h.taken (image extracts).1
  | danced => exact { h with }
  | started => exact { h with idle := by simp [State.start] }
  | adopted _ started => exact absurd started (h.idle quiet ▸ Bool.false_ne_true)
  | wrote peels unposed path written dry =>
    exact absurd (captcha _ peels unposed path written) dry
  | showed peels unposed => exact h.showed peels.current unposed
  | asked => exact { h with }
  | @answered o _ _ _ peels =>
    have asks : Tidy (s.ask o) := { h with }
    exact asks.peeled peels.current
  | verified peels => exact h.peeled peels.current

theorem step {e : Event} (h : Tidy s) (guard : s.workers = [] ∧ Reclaims ext s e)
    (run : (machine ext).step s e = some t) : Tidy t := by
  obtain ⟨quiet, guard⟩ := guard
  cases e with
  | request hcl c =>
    have left := rdvHandle_outcome ext c hcl s
    cases run
    exact h.outcome quiet guard left
  | worker w =>
    obtain ⟨worker, found, _⟩ := workerStep_works run
    rw [quiet] at found
    cases found
  | attempts w progress =>
    simp [machine, Rendezvous.step, quiet] at run

theorem image_fails (guard : Reclaims ext s (.request hcl c)) (asked : asks hcl "image".toList)
    (none : imageOnion ext c s hcl = none) : (rdvHandle ext c s hcl).state = s := by
  have unextracted : extracts ext s hcl = false := by
    rw [← Bool.not_eq_true]
    intro extracts
    have taken := (guard.1 extracts).2
    rw [none] at taken
    cases taken
  have image : rdvHandle ext c s hcl = rdvImage ext c s hcl := by
    have reset : strcaseEq (hcl.uri.drop 12) "reset".toList = false :=
      asks_other asked (by decide)
    have request : strcaseEq (hcl.uri.drop 12) "gen_request".toList = false :=
      asks_other asked (by decide)
    have image : strcaseEq (hcl.uri.drop 12) "image".toList := asked
    simp only [rdvHandle, reset, request, image, Bool.false_eq_true, if_false, if_true]
  rw [image]
  refine withBody_state (P := (· = s)) rfl fun method read => ?_
  dsimp only
  split
  · rfl
  · rename_i encrypted extracted
    simp only [extracts, asked, method, read, extracted, Option.isSome_some, true_and,
      decide_true] at unextracted
    cases unextracted

theorem clears {e : Event} (h : Tidy s) (guard : s.workers = [] ∧ Reclaims ext s e) :
    Clears ext s e := by
  obtain ⟨quiet, guard⟩ := guard
  cases e with
  | request hcl c =>
    refine ⟨fun asked => ?_, fun asked none => ?_⟩
    · have reset : (rdvHandle ext c s hcl).state = (rdvReset c s).state :=
        congrArg Handled.state (if_pos asked)
      obtain ⟨unlinks, empties⟩ := guard.2.1 asked
      have cleared := h.toTracked.reset (h.idle quiet) unlinks empties
      have onions := (h.reset (h.idle quiet) unlinks empties).onions
      simp only [reset]
      refine ⟨cleared.1, cleared.2.1, ?_⟩
      rw [rdvReset_eq] at onions ⊢
      exact onions
    · simp only [image_fails guard asked none]
      exact ⟨trivial, trivial, trivial⟩
  | worker => trivial
  | attempts => trivial

end Tidy

theorem initial_tidy : Tidy initial where
  files := by nofun
  once := List.nodup_nil
  dirs := rfl
  dir _ := rfl
  onions := .refl _
  image _ := rfl
  captcha _ := rfl
  inner := rfl
  idle _ := rfl

theorem nothing_left_of_reclaims (ext : Ext) (es : List Event)
    (meets : (machine ext).Meets (fun s e => s.workers = [] ∧ Reclaims ext s e) initial es) :
    (machine ext).Always NothingLeft initial es ∧ (machine ext).Meets (Clears ext) initial es :=
  ⟨((machine ext).always_of_meets (fun _ _ _ h guard => h.step guard) initial_tidy meets).imp _
      fun _ h => h.nothingLeft,
    meets.imp _ (fun _ _ _ h guard => h.step guard) (fun _ _ _ h guard => h.clears guard)
      initial_tidy⟩

def emptyLibrary : Ext := { imageLibrary netOnion with defiantPwdDecrypt := fun _ _ => none }

def imageDir : CStr := "/tmp/jpeg_steg_embedAAAAAA".toList

def imageFiles : Choice := { imageDir, imagePath := imageDir ++ "/image.jpg".toList }

theorem leaves_directory :
    ¬∀ ext es, (machine ext).Meets (fun s _ => s.workers = []) initial es →
      (machine ext).Always NothingLeft initial es ∧
        (machine ext).Meets (Clears ext) initial es := by
  intro always
  have quiet : (machine emptyLibrary).Meets (fun s _ => s.workers = []) initial
      [posted "image".toList [7] imageFiles] := ⟨rfl, fun _ _ => trivial⟩
  have run : ∃ s, (machine emptyLibrary).exec initial [posted "image".toList [7] imageFiles] =
      some s ∧ s.dirs = [imageDir] ∧ s.lCurrentImageDir = none := ⟨_, rfl, by decide, rfl⟩
  obtain ⟨s, run, dirs, untracked⟩ := run
  have tracked := ((always _ _ quiet).1.finish _ run).dirs imageDir (by simp [dirs])
  exact absurd (untracked.symm.trans tracked) nofun

theorem reclaims_of_working {ext : Ext} {s : State} {hcl : HttpsrvClient} {c : Choice}
    (unlink : ∀ path, c.unlink path) (rmdir : ∀ dir, c.rmdir dir)
    (announces : c.captchaUrl ∧ c.response)
    (image : extracts ext s hcl → s.lCurrentOnion = none ∧ (imageOnion ext c s hcl).isSome) :
    Reclaims ext s (.request hcl c) :=
  ⟨image, fun _ => ⟨fun path _ => unlink path, fun dir _ => rmdir dir⟩,
    fun _ _ _ _ _ => announces⟩

def solvedRun : List Event :=
  [posted "image".toList [1] imageFiles, asksForCaptcha, asksForCaptcha,
    posted "reset".toList [] {}]

theorem nothing_left_of_reclaims_solved :
    ∃ s, (machine captchaLibrary).exec initial solvedRun = some s ∧ s.next = 2 ∧
      NothingLeft s := by
  have run : ∃ s, (machine captchaLibrary).exec initial solvedRun = some s ∧ s.next = 2 :=
    ⟨_, rfl, rfl⟩
  obtain ⟨s, run, next⟩ := run
  have meets : (machine captchaLibrary).Meets
      (fun s e => s.workers = [] ∧ Reclaims captchaLibrary s e) initial solvedRun := by
    refine ⟨⟨rfl, reclaims_of_working (fun _ => rfl) (fun _ => rfl) ⟨rfl, rfl⟩
      fun _ => ⟨rfl, by decide⟩⟩, ?_⟩
    rintro _ ⟨⟩
    refine ⟨⟨rfl, reclaims_of_working (fun _ => rfl) (fun _ => rfl) ⟨rfl, rfl⟩
      fun extracts => absurd extracts (by decide)⟩, ?_⟩
    rintro _ ⟨⟩
    refine ⟨⟨rfl, reclaims_of_working (fun _ => rfl) (fun _ => rfl) ⟨rfl, rfl⟩
      fun extracts => absurd extracts (by decide)⟩, ?_⟩
    rintro _ ⟨⟩
    refine ⟨⟨rfl, reclaims_of_working (fun _ => rfl) (fun _ => rfl) ⟨rfl, rfl⟩
      fun extracts => absurd extracts (by decide)⟩, ?_⟩
    exact fun _ _ => trivial
  exact ⟨s, run, next, (nothing_left_of_reclaims captchaLibrary solvedRun meets).1.finish _ run⟩

end Jumpbox.Rendezvous
