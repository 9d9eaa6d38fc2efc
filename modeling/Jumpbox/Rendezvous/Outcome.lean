import Jumpbox.Rendezvous.Handle

/-! What a request leaves behind. The handlers are read once, and everything that holds of
a run is derived from the outcomes of its requests. -/

namespace Jumpbox.Rendezvous

open Acs (Json cstring)

/-- `defiant_pow_aux` as the worker calls it, with the onion that each of its reads of
`l_current_onion` found. -/
def defiantPow (ext : Ext) (puzzleSize hash data dataLen : Onion) : Option Onion :=
  ext.defiantPowAux (hash.contents.take shaDigestLength)
    ((hash.contents.drop shaDigestLength).take (puzzleSize.puzzleSize - shaDigestLength))
    ((data.contents.drop data.puzzleSize).take dataLen.dataSize)

def powSolution (ext : Ext) (o : Onion) : Option Onion := defiantPow ext o o o o

def asks (hcl : HttpsrvClient) (name : CStr) : Bool := strcaseEq (hcl.uri.drop 12) name

def extracts (ext : Ext) (s : State) (hcl : HttpsrvClient) : Bool :=
  asks hcl "image".toList ∧ hcl.method = .post ∧ hcl.readbody ∧
    (ext.extractNSave s.lPassword hcl.body).isSome

def imageOnion (ext : Ext) (c : Choice) (s : State) (hcl : HttpsrvClient) : Option Onion :=
  if asks hcl "image".toList ∧ hcl.method = .post ∧ hcl.readbody ∧ c.response then
    match (ext.extractNSave s.lPassword hcl.body).bind (ext.defiantPwdDecrypt s.lPassword) with
    | some (onion, onionSz) => if wellFormed ext onion onionSz then some onion else none
    | none => none
  else none

def peelRoot (ext : Ext) (c : Choice) (hcl : HttpsrvClient) : Option Json :=
  if asks hcl "peel".toList ∧ hcl.method = .post ∧ hcl.readbody then
    (jsonLoads ext c.jsonLoads (cstring hcl.body)).filter Json.isObject
  else none

inductive Takes (ext : Ext) : Layer → Onion → Onion → Prop
  | pow {outer inner} : outer.type = pow → powSolution ext outer = some inner →
      Takes ext .pow outer inner
  | captcha {answer outer inner} : outer.type = captcha →
      ext.peelCaptchaOnion answer outer = some inner → Takes ext (.captcha answer) outer inner
  | signed {publicKey outer inner} : outer.type = signed → ext.verifyOnion publicKey outer →
      ext.peelSignedOnion outer = some inner → Takes ext (.signed publicKey) outer inner

namespace State

def saved (s : State) (c : Choice) : State :=
  { s.write c.imagePath with dirs := s.dirs ++ [c.imageDir] }

/-- What is done about them when things go wrong; neither call takes a directory away. -/
def tossed (s : State) (c : Choice) : State :=
  (s.unlink (c.unlink c.imagePath) c.imagePath).unlink (c.unlink c.imageDir) c.imageDir

def accept (s : State) (onion : Onion) : State :=
  { s.newOnion { onion } with
    lCurrentOnion := some s.next
    hist := { s.hist with
      accepted := s.hist.accepted ++ [s.next]
      epoch := s.hist.epoch + 1 } }

def taken (s : State) (c : Choice) (onion : Onion) : State :=
  { (s.saved c).accept onion with
    lCurrentImagePath := some c.imagePath
    lCurrentImageDir := some c.imageDir }

def dance (s : State) (o : Ptr) : State :=
  { s with hist := { s.hist with danced := s.hist.danced ++ [o] } }

def start (s : State) : State :=
  { s with
    lPowThreadStarted := true
    workers := s.workers ++ [{ epoch := s.hist.epoch }] }

def adopt (s : State) (outer inner : Ptr) : State :=
  let adoption := { outer, inner, worker := s.hist.innerBy, epoch := s.hist.epoch }
  { s with
    lCurrentOnion := some inner
    lPowInnerOnion := none
    lPowThreadStarted := false
    lPowThreadFinished := false
    hist := { s.hist with adopted := s.hist.adopted ++ [adoption] } }

def switched (s : State) (outer inner : Ptr) : State :=
  { s.adopt outer inner with
    freed := s.freed ++ s.lCurrentOnion.toList
    lPowThreadQuit := true
    lPowThreadProgress := 0 }

def showed (s : State) (o : Ptr) : State :=
  let path := captchaFile s.lCurrentImageDir
  { s.write path with
    lCaptchaImagePath := some path
    hist := { s.hist with shown := s.hist.shown ++ [o] } }

def ask (s : State) (o : Ptr) : State :=
  { s with hist := { s.hist with asked := s.hist.asked ++ [o] } }

end State

structure Current (s : State) (o : Ptr) (type : ℕ) : Prop where
  current : s.lCurrentOnion = some o
  isOnion : (s.mem o).onion.isOnion
  type : (s.mem o).onion.type = type

structure Peels (ext : Ext) (c : Choice) (hcl : HttpsrvClient) (s : State) (o : Ptr)
    (type : ℕ) : Prop extends Current s o type where
  asked : (peelRoot ext c hcl).isSome

inductive Outcome (ext : Ext) (c : Choice) (hcl : HttpsrvClient) (s : State) : State → Prop
  | stay : Outcome ext c hcl s s
  | password {password} : Outcome ext c hcl s { s with lPassword := password }
  | reset : asks hcl "reset".toList → Outcome ext c hcl s (rdvReset c s).state
  | undecrypted : extracts ext s hcl → imageOnion ext c s hcl = none →
      Outcome ext c hcl s ((s.saved c).tossed c)
  | refused {onion} : extracts ext s hcl → imageOnion ext c s hcl = none →
      Outcome ext c hcl s
        ((((s.saved c).newOnion { onion }).freeOnion (some s.next)).tossed c)
  | taken {onion} : extracts ext s hcl → imageOnion ext c s hcl = some onion →
      Outcome ext c hcl s (s.taken c onion)
  | danced {o} : Peels ext c hcl s o base → (net ext c (s.mem o).onion).isSome →
      Outcome ext c hcl s (s.dance o)
  | started {o} : Peels ext c hcl s o pow → s.lPowThreadStarted = false → c.threadAdd →
      Outcome ext c hcl s s.start
  | adopted {o inner} : Peels ext c hcl s o pow → s.lPowThreadStarted →
      s.lPowThreadFinished → s.lPowInnerOnion = some inner →
      Outcome ext c hcl s (s.switched o inner)
  | wrote {o} : Peels ext c hcl s o captcha → s.lCaptchaImagePath = none → c.captchaPath →
      c.bytes2file → ¬(c.captchaUrl ∧ c.response) →
      Outcome ext c hcl s (s.write (captchaFile s.lCurrentImageDir))
  | showed {o} : Peels ext c hcl s o captcha → s.lCaptchaImagePath = none →
      Outcome ext c hcl s (s.showed o)
  | asked {o} : Peels ext c hcl s o captcha → s.lCaptchaImagePath.isSome →
      Outcome ext c hcl s (s.ask o)
  | answered {o root answer inner} : Peels ext c hcl s o captcha →
      s.lCaptchaImagePath.isSome → peelRoot ext c hcl = some root →
      root.get "action".toList = some (.string answer) →
      Takes ext (.captcha answer) (s.mem o).onion inner →
      Outcome ext c hcl s ((s.ask o).peeled o (.captcha answer) inner)
  | verified {o publicKey inner} : Peels ext c hcl s o signed →
      c.publicKey = some (some publicKey) →
      Takes ext (.signed publicKey) (s.mem o).onion inner →
      Outcome ext c hcl s (s.peeled o (.signed publicKey) inner)

section
variable {ext : Ext} {c : Choice} {hcl : HttpsrvClient} {s : State}

theorem unlink_eq (ok : Bool) (path : CStr) :
    s.unlink ok path = { s with files := (s.unlink ok path).files } := by
  unfold State.unlink
  split <;> rfl

theorem rmdir_eq (ok : Bool) (dir : CStr) :
    s.rmdir ok dir = { s with dirs := (s.rmdir ok dir).dirs } := by
  unfold State.rmdir
  split <;> rfl

theorem rdvCaptchaReset_eq : rdvCaptchaReset c s =
    { s with files := (rdvCaptchaReset c s).files, lCaptchaImagePath := none } := by
  unfold rdvCaptchaReset
  split
  · rename_i unset
    exact unset ▸ rfl
  · rename_i path set
    rw [unlink_eq]

theorem rdvImageReset_eq : rdvImageReset c s =
    { s with
      files := (rdvImageReset c s).files
      dirs := (rdvImageReset c s).dirs
      lCurrentImagePath := none
      lCurrentImageDir := (rdvImageReset c s).lCurrentImageDir } := by
  unfold rdvImageReset
  split
  · rename_i unset
    exact unset ▸ rfl
  · rename_i path set
    dsimp only
    rw [rmdir_eq, unlink_eq]

theorem rdvReset_eq : (rdvReset c s).state =
    { s with
      lPassword := []
      lCurrentOnion := none
      lCurrentImagePath := none
      lCurrentImageDir := (rdvReset c s).state.lCurrentImageDir
      lCaptchaImagePath := none
      lPowThreadStarted := false
      lPowThreadFinished := (rdvReset c s).state.lPowThreadFinished
      lPowThreadQuit := (rdvReset c s).state.lPowThreadQuit
      lPowInnerOnion := if s.lPowThreadStarted then none else s.lPowInnerOnion
      lPowThreadProgress := (rdvReset c s).state.lPowThreadProgress
      freed := s.freed ++ s.lCurrentOnion.toList ++
        if s.lPowThreadStarted then s.lPowInnerOnion.toList else []
      files := (rdvReset c s).state.files
      dirs := (rdvReset c s).state.dirs
      hist := { s.hist with epoch := s.hist.epoch + 1 } } := by
  unfold rdvReset rdvPowReset
  dsimp only
  rw [rdvImageReset_eq, rdvCaptchaReset_eq]
  unfold rdvOnionReset
  split
  · rename_i started
    have started : s.lPowThreadStarted := started
    rw [if_pos started, if_pos started]
    rfl
  · rename_i idle
    have idle : s.lPowThreadStarted = false := Bool.not_eq_true _ ▸ idle
    simp [State.freeOnion, idle]

theorem withBody_state {P : State → Prop} {noPost noLength : CStr}
    {handle : List UInt8 → Handled} (stay : P s)
    (body : hcl.method = .post → hcl.readbody → P (handle hcl.body).state) :
    P (withBody c s hcl noPost noLength handle).state := by
  unfold withBody
  split_ifs with method read length
  · exact stay
  · exact stay
  · exact stay
  · exact body (not_ne_iff.mp method) (Bool.not_eq_false _ ▸ read)

theorem rdvGenRequest_outcome : Outcome ext c hcl s (rdvGenRequest ext c s hcl).state := by
  refine withBody_state .stay fun _ _ => ?_
  split
  · exact .stay
  · dsimp only
    split
    · unfold rdvGenRequestAux
      split
      · exact .stay
      · dsimp only
        split <;> exact .password
    · exact .stay

theorem rdvImage_outcome (asked : asks hcl "image".toList) :
    Outcome ext c hcl s (rdvImage ext c s hcl).state := by
  refine withBody_state .stay fun method read => ?_
  have image : imageOnion ext c s hcl = if c.response then
      match (ext.extractNSave s.lPassword hcl.body).bind (ext.defiantPwdDecrypt s.lPassword) with
      | some (onion, onionSz) => if wellFormed ext onion onionSz then some onion else none
      | none => none
    else none := by
    simp only [imageOnion, asked, method, read, true_and]
  dsimp only
  split
  · exact .stay
  · rename_i encrypted extracted
    have extracts : extracts ext s hcl := by
      simp only [extracts, asked, method, read, extracted, Option.isSome_some, true_and,
        decide_true]
    rw [extracted, Option.bind_some] at image
    split
    · rename_i undecrypted
      have undecrypted : ext.defiantPwdDecrypt s.lPassword encrypted = none := undecrypted
      exact .undecrypted extracts (by simp [image, undecrypted])
    · rename_i onion onionSz decrypted
      have decrypted : ext.defiantPwdDecrypt s.lPassword encrypted = some (onion, onionSz) :=
        decrypted
      rw [decrypted] at image
      split
      · rename_i sound
        split
        · rename_i dry
          have memory : c.response = false := by
            by_contra memory
            simp [rdvMakeImageResponse, memory] at dry
          exact .refused extracts (by simp [image, memory])
        · rename_i response made
          have memory : c.response := by
            by_contra dry
            simp [rdvMakeImageResponse, dry] at made
          exact .taken extracts (by simp [image, memory, sound])
      · rename_i unsound
        exact .refused extracts (by simp [image, unsound])

theorem rdvPeelBase_outcome {o : Ptr} (peels : Peels ext c hcl s o base) :
    Outcome ext c hcl s (rdvPeelBase ext c s o).1 := by
  unfold rdvPeelBase
  split
  · rename_i net
    exact .danced peels (by rw [net]; rfl)
  · exact .stay

theorem rdvPeelPow_outcome {o : Ptr} (peels : Peels ext c hcl s o pow) :
    Outcome ext c hcl s (rdvPeelPow c s o).1 := by
  unfold rdvPeelPow
  dsimp only
  split_ifs with idle thread working
  · exact .started peels idle thread
  · exact .stay
  · exact .stay
  · have started : s.lPowThreadStarted := Bool.not_eq_false _ ▸ idle
    have finished : s.lPowThreadFinished := Bool.not_eq_false _ ▸ working
    split
    · exact .stay
    · rename_i inner stored
      have switched := Outcome.adopted peels started finished stored
      simpa [rdvPowReset, State.replace, State.freeOnion, State.switched, State.adopt, started]
        using switched

theorem rdvPeelCaptchaNoImagePath_outcome {o : Ptr} (peels : Peels ext c hcl s o captcha)
    (unshown : s.lCaptchaImagePath = none) :
    Outcome ext c hcl s (rdvPeelCaptchaNoImagePath c s o).1 := by
  -- a path that is given up was not set before
  have gives_up (t : State) (same : t.lCaptchaImagePath = none) (h : Outcome ext c hcl s t) :
      Outcome ext c hcl s { t with lCaptchaImagePath := none } := by
    cases t
    cases same
    exact h
  unfold rdvPeelCaptchaNoImagePath
  dsimp only
  split_ifs with path written url
  · split
    · exact .showed peels unshown
    · rename_i dry
      have memory : ¬(c.captchaUrl ∧ c.response) := by
        rintro ⟨-, memory⟩
        simp [rdvMakePeelResponse, peelResponse, memory] at dry
      exact gives_up _ unshown (.wrote peels unshown path written memory)
  · exact gives_up _ unshown (.wrote peels unshown path written fun memory => url memory.1)
  · exact gives_up _ unshown .stay
  · exact gives_up _ unshown .stay

theorem rdvPeelCaptcha_outcome {o : Ptr} {root : Json} (peels : Peels ext c hcl s o captcha)
    (loaded : peelRoot ext c hcl = some root) :
    Outcome ext c hcl s (rdvPeelCaptcha ext c s o root).1 := by
  unfold rdvPeelCaptcha
  split
  · rename_i unshown
    exact rdvPeelCaptchaNoImagePath_outcome peels unshown
  · rename_i path shown
    have shown : s.lCaptchaImagePath.isSome := by rw [shown]; rfl
    unfold rdvPeelCaptchaWithImagePath
    dsimp only
    split
    · exact .asked peels shown
    · rename_i answer given
      split
      · rename_i inner peeled
        exact .answered peels shown loaded given (.captcha peels.type peeled)
      · exact .asked peels shown
    · exact .asked peels shown

theorem rdvPeelSigned_outcome {o : Ptr} (peels : Peels ext c hcl s o signed) :
    Outcome ext c hcl s (rdvPeelSigned ext c s o).1 := by
  unfold rdvPeelSigned
  split
  · exact .stay
  · exact .stay
  · rename_i publicKey opened
    split
    · rename_i verified
      split
      · rename_i inner peeled
        exact .verified peels opened (.signed peels.type verified peeled)
      · exact .stay
    · exact .stay

theorem peelSwitch_outcome {o : Ptr} {root : Json} (current : s.lCurrentOnion = some o)
    (isOnion : (s.mem o).onion.isOnion) (loaded : peelRoot ext c hcl = some root) :
    Outcome ext c hcl s (peelSwitch ext c s o root).2.1 := by
  have asked : (peelRoot ext c hcl).isSome := by rw [loaded]; rfl
  unfold peelSwitch
  dsimp only
  split_ifs with isBase isPow isCaptcha isSigned
  · exact rdvPeelBase_outcome ⟨⟨current, isOnion, isBase⟩, asked⟩
  · exact rdvPeelPow_outcome ⟨⟨current, isOnion, isPow⟩, asked⟩
  · exact rdvPeelCaptcha_outcome ⟨⟨current, isOnion, isCaptcha⟩, asked⟩ loaded
  · exact rdvPeelSigned_outcome ⟨⟨current, isOnion, isSigned⟩, asked⟩
  · exact .stay

theorem rdvPeel_outcome (asked : asks hcl "peel".toList) :
    Outcome ext c hcl s (rdvPeel ext c s hcl).state := by
  refine withBody_state .stay fun method read => ?_
  split
  · exact .stay
  · rename_i root loaded
    split_ifs with object
    · exact .stay
    · have loaded : peelRoot ext c hcl = some root := by
        simp only [peelRoot, asked, method, read, loaded, Option.filter_some, and_self, if_true,
          Bool.not_eq_false _ ▸ object]
      split
      · exact .stay
      · rename_i o current
        split_ifs with magic
        · exact .stay
        · have outcome : Outcome ext c hcl s (peelSwitch ext c s o root).2.1 :=
            peelSwitch_outcome current (Bool.not_eq_false _ ▸ magic) loaded
          split <;> rename_i switched <;> rw [switched] at outcome <;> exact outcome

variable (ext c hcl s) in
theorem rdvHandle_outcome : Outcome ext c hcl s (rdvHandle ext c s hcl).state := by
  unfold rdvHandle
  dsimp only
  split_ifs with reset request image peel file
  · exact .reset reset
  · exact rdvGenRequest_outcome
  · exact rdvImage_outcome image
  · exact rdvPeel_outcome peel
  · exact .stay
  · exact .stay

end

end Jumpbox.Rendezvous
