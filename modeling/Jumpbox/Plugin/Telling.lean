import Jumpbox.Plugin.Peeling

/-! What the daemon tells the page: a peel that is answered names the onion that is then
current, but for the one that takes up the result of a proof of work. -/

namespace Jumpbox.Plugin.RendezvousPage

open JsonText (Plain Layout Scalar)
open Acs (Json cstring)
open Rendezvous

def spaced : Layout where
  opening := " ".toList
  colon := " ".toList
  comma := " ".toList
  opening_space := JsonText.blank_space
  colon_space := JsonText.blank_space
  comma_space := JsonText.blank_space

/-- `rdv_make_image_response` and `rdv_make_peel_response`, as objects. -/
def imageText (path onionType : CStr) : CStr :=
  JsonText.print spaced
    [("image".toList, .string ("/rendezvous/file".toList ++ path)),
      ("onion_type".toList, .string onionType)]

def peelText (info : Scalar) (status onionType : CStr) : CStr :=
  JsonText.print spaced
    [("info".toList, info), ("status".toList, .string status),
      ("onion_type".toList, .string onionType)]

theorem rdvOnionName_plain (type : ℕ) : Plain (rdvOnionName type) := by
  unfold rdvOnionName
  rw [List.getD_eq_getElem?_getD]
  cases named : onionNames[type]? with
  | none => exact List.forall_mem_nil _
  | some name =>
    have listed := List.mem_of_getElem? named
    have all : ∀ name ∈ onionNames, Plain name := by decide
    exact all name listed

/-- The library has what it needs, and makes names that stand for themselves. -/
structure Ample (c : Choice) : Prop where
  httpsrvReadbodyAlloc : c.httpsrvReadbodyAlloc = true
  jsonLoads : c.jsonLoads = true
  netLoads : c.netLoads = true
  response : c.response = true
  captchaPath : c.captchaPath = true
  captchaUrl : c.captchaUrl = true
  bytes2file : c.bytes2file = true
  imagePath : Plain c.imagePath
  imageDir : Plain c.imageDir

instance (c : Choice) : Decidable (Ample c) :=
  decidable_of_iff (c.httpsrvReadbodyAlloc = true ∧ c.jsonLoads = true ∧ c.netLoads = true ∧
      c.response = true ∧ c.captchaPath = true ∧ c.captchaUrl = true ∧ c.bytes2file = true ∧
      Plain c.imagePath ∧ Plain c.imageDir)
    ⟨fun ⟨a, b, d, e, f, g, h, i, j⟩ => ⟨a, b, d, e, f, g, h, i, j⟩,
      fun ⟨a, b, d, e, f, g, h, i, j⟩ => ⟨a, b, d, e, f, g, h, i, j⟩⟩

section
variable {ext : Ext} {c : Choice} {s : Rendezvous.State} {o : Ptr}

theorem rdvMakeImageResponse_eq (ample : Ample c) {path : CStr} (plain : Plain path)
    (type : ℕ) : rdvMakeImageResponse c path type = some (imageText path (rdvOnionName type)) := by
  have quoted : JsonText.quote ("/rendezvous/file".toList ++ path) =
      "/rendezvous/file".toList ++ path :=
    JsonText.quote_plain (.append (by decide) plain)
  have named := JsonText.quote_plain (rdvOnionName_plain type)
  simp only [rdvMakeImageResponse, ample.response, if_true, imageText, JsonText.print,
    JsonText.printMembers, JsonText.printMember, Scalar.print, quoted, named, List.append_assoc,
    List.cons_append]
  rfl

theorem peelResponse_eq (ample : Ample c) (s : Rendezvous.State) (info : Scalar) {status : CStr}
    (fixed : Plain status) : peelResponse c s info.print status =
      some (peelText info status (rdvOnionName (currentType s))) := by
  have named := JsonText.quote_plain (rdvOnionName_plain (currentType s))
  simp only [peelResponse, ample.response, if_true, peelText, JsonText.print,
    JsonText.printMembers, JsonText.printMember, Scalar.print, JsonText.quote_plain fixed, named,
    List.append_assoc, List.cons_append]
  rfl

theorem rdvMakePeelResponse_eq (ample : Ample c) (s : Rendezvous.State) {info status : CStr}
    (plain : Plain info) (fixed : Plain status) : rdvMakePeelResponse c s info status =
      some (peelText (.string info) status (rdvOnionName (currentType s))) := by
  have printed := peelResponse_eq ample s (.string info) fixed
  rw [Scalar.print, JsonText.quote_plain plain] at printed
  exact printed

theorem rdvMakePowResponse_eq (ample : Ample c) (s : Rendezvous.State) (percent : ℕ)
    {status : CStr} (fixed : Plain status) : rdvMakePowResponse c s percent status =
      some (peelText (.nat percent) status (rdvOnionName (currentType s))) :=
  peelResponse_eq ample s (.nat percent) fixed

inductive Tells (s : Rendezvous.State) : Peel → Prop
  | current {t : Rendezvous.State} (info : Scalar) (status : CStr) :
      t.hist.adopted = s.hist.adopted →
      Tells s (t, some (peelText info status (rdvOnionName (currentType t))))
  | adopts {t : Rendezvous.State} {inner : Ptr} {a : Adoption} (status : CStr) :
      t.lCurrentOnion = some inner → a.inner = inner → t.hist.adopted = s.hist.adopted ++ [a] →
      Tells s (t, some (peelText (.nat 100) status (rdvOnionName pow)))

theorem Tells.peel (ample : Ample c) {s t u : Rendezvous.State} {info status : CStr}
    (plain : Plain info) (fixed : Plain status) (same : currentType u = currentType t)
    (adopted : t.hist.adopted = s.hist.adopted) :
    Tells s (t, rdvMakePeelResponse c u info status) := by
  rw [rdvMakePeelResponse_eq ample u plain fixed, same]
  exact .current _ _ adopted

theorem Tells.pow (ample : Ample c) {s t u : Rendezvous.State} {percent : ℕ} {status : CStr}
    (fixed : Plain status) (same : currentType u = currentType t)
    (adopted : t.hist.adopted = s.hist.adopted) :
    Tells s (t, rdvMakePowResponse c u percent status) := by
  rw [rdvMakePowResponse_eq ample u percent fixed, same]
  exact .current _ _ adopted

theorem rdvPeelBase_tells (ample : Ample c) : Tells s (rdvPeelBase ext c s o) := by
  unfold rdvPeelBase
  split
  · exact .peel ample (by decide) (by decide) rfl rfl
  · exact .peel ample (by decide) (by decide) rfl rfl

theorem rdvPowReset_current (s : Rendezvous.State) :
    (rdvPowReset s).lCurrentOnion = s.lCurrentOnion ∧ (rdvPowReset s).hist = s.hist := by
  unfold rdvPowReset
  split <;> exact ⟨rfl, rfl⟩

theorem rdvPeelPow_tells (ample : Ample c) (current : Current s o pow) :
    Tells s (rdvPeelPow c s o) := by
  unfold rdvPeelPow
  dsimp only
  split
  · split
    · exact .pow ample (by decide) rfl rfl
    · exact .peel ample (by decide) (by decide) rfl rfl
  · split
    · exact .pow ample (by decide) rfl rfl
    · split
      · exact .peel ample (by decide) (by decide) rfl rfl
      · rename_i inner _
        have type : currentType s = Rendezvous.pow := by
          rw [currentType, current.current]
          exact current.type
        rw [rdvMakePowResponse_eq ample s 100 (by decide), type]
        have same := rdvPowReset_current { s.replace (some inner) with
          lPowInnerOnion := none
          hist := { s.hist with adopted := s.hist.adopted ++ [
            { outer := o, inner, worker := s.hist.innerBy, epoch := s.hist.epoch }] } }
        exact .adopts _ same.1 rfl (congrArg History.adopted same.2)

theorem captchaFile_plain {dir : Option CStr} (plain : ∀ d ∈ dir, Plain d) :
    Plain (captchaFile dir) := by
  cases dir with
  | none => decide
  | some dir => exact .append (plain dir rfl) (by decide)

theorem rdvPeelCaptcha_tells (ample : Ample c) {root : Json}
    (plain : ∀ d ∈ s.lCurrentImageDir, Plain d) : Tells s (rdvPeelCaptcha ext c s o root) := by
  unfold rdvPeelCaptcha
  split
  · have file : Plain ("/rendezvous/file".toList ++ captchaFile s.lCurrentImageDir) :=
      .append (by decide) (captchaFile_plain plain)
    simp only [rdvPeelCaptchaNoImagePath, ample.captchaPath, ample.bytes2file, ample.captchaUrl,
      if_true, rdvMakePeelResponse_eq ample _ file (show Plain "Here is your captcha image!".toList
        by decide)]
    exact .current _ _ rfl
  · unfold rdvPeelCaptchaWithImagePath
    dsimp only
    split
    · exact .peel ample (by decide) (by decide) rfl rfl
    · split
      · exact .peel ample (by decide) (by decide) rfl rfl
      · exact .peel ample (by decide) (by decide) rfl rfl
    · exact .peel ample (by decide) (by decide) rfl rfl

theorem rdvPeelSigned_tells (ample : Ample c) : Tells s (rdvPeelSigned ext c s o) := by
  unfold rdvPeelSigned
  split
  · exact .peel ample (by decide) (by decide) rfl rfl
  · exact .peel ample (by decide) (by decide) rfl rfl
  · split
    · split
      · exact .peel ample (by decide) (by decide) rfl rfl
      · exact .peel ample (by decide) (by decide) rfl rfl
    · exact .peel ample (by decide) (by decide) rfl rfl

def Peelable (s : Rendezvous.State) : Prop :=
  ∀ o ∈ s.lCurrentOnion, (s.mem o).onion.isOnion ∧ (s.mem o).onion.type < collection

instance (s : Rendezvous.State) : Decidable (Peelable s) :=
  inferInstanceAs (Decidable (∀ o ∈ s.lCurrentOnion, _))

theorem peelSwitch_tells (ext : Ext) (ample : Ample c) (root : Json)
    (current : s.lCurrentOnion = some o) (peelable : Peelable s)
    (plain : ∀ d ∈ s.lCurrentImageDir, Plain d) :
    ∃ r, peelSwitch ext c s o root = ([], r) ∧ Tells s r := by
  obtain ⟨isOnion, type⟩ := peelable o current
  unfold peelSwitch
  dsimp only
  split_ifs with isBase isPow isCaptcha isSigned
  · exact ⟨_, rfl, rdvPeelBase_tells ample⟩
  · exact ⟨_, rfl, rdvPeelPow_tells ample ⟨current, isOnion, isPow⟩⟩
  · exact ⟨_, rfl, rdvPeelCaptcha_tells ample plain⟩
  · exact ⟨_, rfl, rdvPeelSigned_tells ample⟩
  · have below : (s.mem o).onion.type < 4 := type
    have others : (s.mem o).onion.type ≠ 0 ∧ (s.mem o).onion.type ≠ 1 ∧
        (s.mem o).onion.type ≠ 2 ∧ (s.mem o).onion.type ≠ 3 :=
      ⟨isBase, isPow, isCaptcha, isSigned⟩
    omega

/-! The requests of the page. -/

theorem withBody_unread (ample : Ample c) (s : Rendezvous.State) (name contentType : CStr)
    {body : List UInt8} (some_body : body ≠ []) (noPost noLength : CStr)
    (handle : List UInt8 → Handled) :
    withBody c s (toDaemon .post name contentType body) noPost noLength handle =
      { state := s, reads := true } := by
  have length : (toDaemon .post name contentType body).contentLength ≠ 0 :=
    fun none => some_body (List.length_eq_zero_iff.mp none)
  simp only [withBody, toDaemon, ne_eq, not_true_eq_false, if_false, if_true,
    ample.httpsrvReadbodyAlloc]
  exact if_neg length

theorem withBody_read (s : Rendezvous.State) (name contentType : CStr) (body : List UInt8)
    (noPost noLength : CStr) (handle : List UInt8 → Handled) :
    withBody c s { toDaemon .post name contentType body with readbody := true } noPost noLength
      handle = handle body := rfl

section
variable (ample : Ample c) (name contentType : CStr) {body : List UInt8} (some_body : body ≠ [])
  {noPost noLength : CStr} {handle : List UInt8 → Handled} (handler : HttpsrvClient → Handled)
  (dispatched : ∀ readbody, rdvHandle ext c s
      { toDaemon .post name contentType body with readbody } =
    handler { toDaemon .post name contentType body with readbody })
  (reads : ∀ hcl, handler hcl = withBody c s hcl noPost noLength handle)
include ample some_body dispatched reads

theorem served_second : served ext c s (toDaemon .post name contentType body) =
    rdvHandle ext c s { toDaemon .post name contentType body with readbody := true } := by
  have first : rdvHandle ext c s (toDaemon .post name contentType body) =
      { state := s, reads := true } := by
    rw [← withBody_unread ample s name contentType some_body noPost noLength handle, ← reads]
    exact dispatched false
  unfold served
  rw [first]
  rfl

theorem served_read : served ext c s (toDaemon .post name contentType body) = handle body := by
  rw [served_second ample name contentType some_body handler dispatched reads]
  exact (dispatched true).trans ((reads _).trans (withBody_read s name contentType body _ _ _))

end

theorem served_reset (ext : Ext) (c : Choice) (s : Rendezvous.State) :
    served ext c s (toDaemon .get "reset".toList) = rdvReset c s := by
  have first : rdvHandle ext c s (toDaemon .get "reset".toList) = rdvReset c s := rfl
  unfold served
  rw [first]
  rfl

theorem encode_print_ne_nil (members : List (CStr × Scalar)) :
    encode (JsonText.print JsonText.compact members) ≠ [] := by
  intro none
  have first := List.flatMap_eq_nil_iff.mp none '\x7b' List.mem_cons_self
  exact absurd first (by decide)

/-- A URL for a request that was made with the password the daemon has. -/
def MadeWith (ext : Ext) (s : Rendezvous.State) (uri : CStr) : Prop :=
  ∃ secure server path, ext.generateDefiantRequestUrl secure s.lPassword server path = .ok uri

structure Generates (ext : Ext) (s : Rendezvous.State) (h : Handled) : Prop where
  state : h.state = { s with lPassword := h.state.lPassword }
  outs : ∀ reply ∈ replyOf h.outs, reply.status = 200 → MadeWith ext h.state reply.responseText

theorem replyOf_djbPresult (text : CStr) : ∃ reply, replyOf (djbPresult text) = some reply ∧
    reply.status = 200 ∧ reply.responseText = text := by
  refine ⟨_, rfl, rfl, ?_⟩
  simp [djbPresult, httpOk]

theorem djbError_refuses (msg : CStr) : ∀ reply ∈ replyOf (djbError 400 msg),
    reply.status ≠ 200 := by
  rintro reply ⟨⟩
  change 400 ≠ 200
  decide

theorem Generates.error (s : Rendezvous.State) (password msg : CStr) :
    Generates ext s { state := { s with lPassword := password }, outs := djbError 400 msg } where
  state := rfl
  outs reply sent okay := absurd okay (djbError_refuses msg reply sent)

theorem served_genRequest (ext : Ext) (ample : Ample c) (server : CStr) (secure : Bool) :
    Generates ext s (served ext c s (genRequestRequest server secure)) := by
  have some_body : encode (genRequestBody server secure) ≠ [] := encode_print_ne_nil _
  rw [genRequestRequest,
    served_read ample _ _ some_body (rdvGenRequest ext c s) (fun _ => rfl) fun _ => rfl]
  split
  · exact ⟨rfl, nofun⟩
  · dsimp only
    split
    · unfold rdvGenRequestAux
      split
      · exact .error s s.lPassword _
      · dsimp only
        split
        · rename_i request made
          refine ⟨rfl, fun reply sent _ => ?_⟩
          obtain ⟨reply', same, _, text⟩ := replyOf_djbPresult request
          obtain rfl : reply = reply' := Option.some.inj (sent.symm.trans same)
          rw [text]
          exact ⟨_, _, _, made⟩
        · exact .error s c.randomPassword _
    · exact .error s s.lPassword _

structure SameOnion (d d' : Rendezvous.State) : Prop where
  current : d'.lCurrentOnion = d.lCurrentOnion := by rfl
  mem : ∀ o < d.next, d'.mem o = d.mem o := by exact fun _ _ => rfl
  password : d'.lPassword = d.lPassword := by rfl
  imageDir : d'.lCurrentImageDir = d.lCurrentImageDir := by rfl
  danced : d'.hist.danced = d.hist.danced := by rfl
  adopted : d'.hist.adopted = d.hist.adopted := by rfl

theorem SameOnion.unlink {d d' : Rendezvous.State} (h : SameOnion d d') (ok : Bool)
    (path : CStr) : SameOnion d (d'.unlink ok path) := by
  rw [unlink_eq]
  exact ⟨h.current, h.mem, h.password, h.imageDir, h.danced, h.adopted⟩

inductive Takes (c : Choice) (s : Rendezvous.State) : Handled → Prop
  | refuses {h : Handled} : (∀ reply ∈ replyOf h.outs, reply.status ≠ 200) →
      SameOnion s h.state → Takes c s h
  | takes {h : Handled} : h.state.lCurrentOnion = some s.next →
      h.state.lCurrentImageDir = some c.imageDir → h.state.hist.danced = s.hist.danced →
      h.state.hist.adopted = s.hist.adopted →
      h.outs = djbPresult (imageText c.imagePath (rdvOnionName (currentType h.state))) →
      Takes c s h

theorem served_image (ext : Ext) (ample : Ample c) (contentType : CStr) (body : List UInt8) :
    Takes c s (served ext c s (toDaemon .post "image".toList contentType body)) := by
  have failed (t : Rendezvous.State) (same : SameOnion s t) (msg : CStr) :
      Takes c s { state := t, outs := djbError 400 msg } :=
    .refuses (djbError_refuses msg) same
  by_cases none : body = []
  · subst none
    exact failed s {} "image requires length".toList
  rw [served_read ample _ _ none (rdvImage ext c s) (fun _ => rfl) fun _ => rfl]
  split
  · refine .refuses ?_ {}
    rintro reply ⟨⟩
    change 400 ≠ 200
    decide
  · dsimp only
    split
    · exact failed _ (.unlink (.unlink {} _ _) _ _) _
    · rename_i onion size _
      have new : SameOnion s { (s.write c.imagePath).newOnion { onion } with
          dirs := s.dirs ++ [c.imageDir], freed := s.freed ++ [s.next] } :=
        { mem := fun o old => Function.update_of_ne (ne_of_lt old) _ _ }
      split
      next =>
        rw [rdvMakeImageResponse_eq ample ample.imagePath]
        refine .takes rfl rfl rfl rfl ?_
        have type : (Function.update s.mem s.next { onion } s.next).onion.type = onion.type := by
          rw [Function.update_self]
        exact congrArg
          (fun type => djbPresult (imageText c.imagePath (rdvOnionName type))) type.symm
      next => exact failed _ (.unlink (.unlink new _ _) _ _) _

inductive Answers (s : Rendezvous.State) : Handled → Prop
  | refuses {msg} : Answers s { state := s, outs := djbError 400 msg }
  | tells {t : Rendezvous.State} {text : CStr} : s.lCurrentOnion.isSome →
      Tells s (t, some text) → Answers s { state := t, outs := djbPresult text }

def ReadsPeel (ext : Ext) : Prop := ∃ root ∈ ext.jsonLoads "\x7b\x7d".toList, root.isObject

theorem peelSwitch_told (ext : Ext) (ample : Ample c) (root : Json)
    (current : s.lCurrentOnion = some o) (peelable : Peelable s)
    (plain : ∀ d ∈ s.lCurrentImageDir, Plain d) :
    ∃ t text, peelSwitch ext c s o root = ([], t, some text) ∧ Tells s (t, some text) := by
  obtain ⟨⟨t, text⟩, switched, tells⟩ := peelSwitch_tells ext ample root current
    peelable plain
  cases tells with
  | current _ _ same => exact ⟨_, _, switched, .current _ _ same⟩
  | adopts _ inner same adopted => exact ⟨_, _, switched, .adopts _ inner same adopted⟩

theorem served_peel_eq (ample : Ample c) (action : Option CStr) :
    served ext c s (peelRequest action) =
      rdvHandle ext c s { peelRequest action with readbody := true } :=
  have some_body : encode (peelBody action) ≠ [] := encode_print_ne_nil _
  served_second ample "peel".toList "application/json".toList some_body (rdvPeel ext c s)
    (fun _ => rfl) fun _ => rfl

theorem served_peel (ext : Ext) (ample : Ample c) (action : Option CStr) (peelable : Peelable s)
    (plain : s.lCurrentOnion.isSome → ∀ d ∈ s.lCurrentImageDir, Plain d) :
    Answers s (served ext c s (peelRequest action)) := by
  have some_body : encode (peelBody action) ≠ [] := encode_print_ne_nil _
  rw [peelRequest, served_read ample _ _ some_body (rdvPeel ext c s) (fun _ => rfl) fun _ => rfl]
  split
  · exact .refuses
  · rename_i root _
    split
    · exact .refuses
    · split
      · exact .refuses
      · rename_i o current
        split
        · exact .refuses
        · obtain ⟨t, text, switched, tells⟩ := peelSwitch_told ext ample root current
            peelable (plain (current ▸ rfl))
          rw [switched]
          exact .tells (current ▸ rfl) tells

theorem served_peelAway (reads : ReadsPeel ext) (ample : Ample c) (peelable : Peelable s)
    (plain : ∀ d ∈ s.lCurrentImageDir, Plain d) (current : s.lCurrentOnion = some o) :
    ∃ t text, Tells s (t, some text) ∧
      ((s.mem o).onion.type = base → t = (rdvPeelBase ext c s o).1) ∧
      served ext c s (peelRequest none) = { state := t, outs := djbPresult text } := by
  obtain ⟨root, loaded, object⟩ := reads
  obtain ⟨t, text, switched, tells⟩ := peelSwitch_told ext ample root current peelable
    plain
  have some_body : encode (peelBody none) ≠ [] := encode_print_ne_nil _
  have text_eq : cstring (encode (peelBody none)) = "\x7b\x7d".toList := by decide
  have parsed : jsonLoads ext c.jsonLoads (cstring (encode (peelBody none))) = some root := by
    rw [text_eq, ample.jsonLoads]
    exact loaded
  have isOnion := (peelable o current).1
  refine ⟨t, text, tells, fun isBase => ?_, ?_⟩
  · rw [peelSwitch, if_pos isBase] at switched
    exact congrArg (fun r => r.2.1) switched.symm
  · rw [peelRequest, served_read ample _ _ some_body (rdvPeel ext c s) (fun _ => rfl) fun _ => rfl]
    simp only [parsed, object, Bool.true_eq_false, if_false, current, isOnion, switched]
    rfl

end

end Jumpbox.Plugin.RendezvousPage
