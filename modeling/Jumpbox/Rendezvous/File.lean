import Jumpbox.Api
import Jumpbox.Library.Path
import Jumpbox.Rendezvous.Handle

/-! The files below `/rendezvous/file`. Each path that the daemon announces is served, and
so is every path that begins like one, wherever its `..` lead. -/

namespace Jumpbox.Rendezvous

def fileUrl (path : CStr) : CStr := "/rendezvous/file".toList ++ path

def tmp : CStr := "tmp".toList

def jpegStegEmbed : CStr := "jpeg_steg_embed".toList

/-- The path resolves to something in a directory that `jpeg_steg` has made. -/
def InEmbedDir (path : CStr) : Prop :=
  ∃ dir rest, jpegStegEmbed <+: dir ∧ rest ≠ [] ∧
    Path.resolve (Path.steps path) = [tmp] ++ dir :: rest

/-- Where the path goes on from `/tmp` for the last time, it enters such a directory; from
there on no `..` climbs out of it, and a name is left at the end. -/
def EntersEmbedDir (path : CStr) : Prop :=
  ∃ dir, jpegStegEmbed <+: dir ∧ ∃ before after,
    Path.steps path = before ++ .name dir :: after ∧ Path.resolve before = [tmp] ∧
      Path.Stays after ∧ Path.ups after < Path.names after

/-- What the request for `path` makes the daemon send is in such a directory. -/
def FileSound (ext : Ext) (path : CStr) : Prop :=
  ∀ c s (hcl : HttpsrvClient) file, hcl.uri = fileUrl path →
    .sendfile file ∈ (rdvHandle ext c s hcl).outs → InEmbedDir file

def Serves (ext : Ext) (url path : CStr) : Prop :=
  djbHandleApi url = .rendezvous ∧ ∀ c s (hcl : HttpsrvClient), hcl.uri = url →
    (rdvHandle ext c s hcl).outs = [.sendfile path, .expire .short, .done]

def Announces (response key url : CStr) : Prop :=
  "\"".toList ++ key ++ "\": \"".toList ++ url ++ "\"".toList <:+: response

/-- The URLs made for `path` get that file. -/
def FileComplete (ext : Ext) (path : CStr) : Prop :=
  filePrefix <+: path →
    (∀ c onionType response, rdvMakeImageResponse c path onionType = some response →
      Announces response "image".toList (fileUrl path) ∧ Serves ext (fileUrl path) path) ∧
    ∀ c s o s' response, rdvPeelCaptchaNoImagePath c s o = (s', some response) →
      s'.lCaptchaImagePath = some path →
      Announces response "info".toList (fileUrl path) ∧ Serves ext (fileUrl path) path

section
variable {ext : Ext} {c : Choice} {s : State} {hcl : HttpsrvClient} {path : CStr}

theorem inEmbedDir_iff : InEmbedDir path ↔ EntersEmbedDir path := by
  constructor
  · rintro ⟨dir, rest, embed, some, leads⟩
    exact ⟨dir, embed, Path.resolve_eq_iff.mp ⟨rest, some, leads⟩⟩
  · rintro ⟨dir, embed, enters⟩
    obtain ⟨rest, some, leads⟩ := Path.resolve_eq_iff.mpr enters
    exact ⟨dir, rest, embed, some, leads⟩

theorem rdvHandle_fileUrl (uri : hcl.uri = fileUrl path) :
    rdvHandle ext c s hcl =
      if strncaseEq ("file".toList ++ path) "file/".toList 5 then rdvFile s path
      else { state := s, outs := djbError 400 "No such DJB API request (Rendezvous)".toList } := by
  unfold rdvHandle
  rw [uri]
  rfl

theorem rdvFile_of_prefix (pre : filePrefix <+: path) :
    (rdvFile s path).outs = [.sendfile path, .expire .short, .done] := by
  unfold rdvFile
  rw [if_pos (List.isPrefixOf_iff_prefix.mpr pre)]
  rfl

theorem sendfile_mem_rdvFile {file : CStr} (mem : .sendfile file ∈ (rdvFile s path).outs) :
    file = path ∧ filePrefix <+: path := by
  unfold rdvFile at mem
  split at mem
  · rename_i pre
    simp only [List.cons_append, List.nil_append, List.mem_cons, Out.sendfile.injEq,
      reduceCtorEq, List.not_mem_nil, or_false] at mem
    exact ⟨mem, List.isPrefixOf_iff_prefix.mp pre⟩
  · simp [djbError] at mem

variable (ext path) in
theorem serves_fileUrl (pre : filePrefix <+: path) : Serves ext (fileUrl path) path := by
  obtain ⟨rest, rfl⟩ := pre
  refine ⟨rfl, fun c s hcl uri => ?_⟩
  rw [rdvHandle_fileUrl uri]
  exact rdvFile_of_prefix (List.prefix_append filePrefix rest)

theorem fileSound_iff : FileSound ext path ↔ (filePrefix <+: path → EntersEmbedDir path) := by
  constructor
  · intro sound pre
    refine inEmbedDir_iff.mp (sound {} {} { id := 0, reqid := 0, uri := fileUrl path } path rfl ?_)
    rw [(serves_fileUrl ext path pre).2 _ _ _ rfl]
    exact List.mem_cons_self
  · intro enters c s hcl file uri mem
    rw [rdvHandle_fileUrl uri] at mem
    split at mem
    · obtain ⟨rfl, pre⟩ := sendfile_mem_rdvFile mem
      exact inEmbedDir_iff.mpr (enters pre)
    · simp [djbError] at mem

/-! The texts around the URL, cut at the quotes. -/

theorem image_key : "\x7b \"image\": \"/rendezvous/file".toList = "\x7b ".toList ++
    ("\"".toList ++ "image".toList ++ "\": \"".toList ++ "/rendezvous/file".toList) := by
  decide

theorem onionType_key :
    "\", \"onion_type\": \"".toList = "\"".toList ++ ", \"onion_type\": \"".toList := by
  decide

theorem info_key : "\x7b \"info\": ".toList =
    "\x7b ".toList ++ ("\"".toList ++ "info".toList ++ "\": ".toList) := by
  decide

theorem info_quote : "\": \"".toList = "\": ".toList ++ "\"".toList := by decide

theorem announces_image {onionType : ℕ} {response : CStr}
    (made : rdvMakeImageResponse c path onionType = some response) :
    Announces response "image".toList ("/rendezvous/file".toList ++ path) := by
  obtain ⟨_, text⟩ := Option.ite_none_right_eq_some.mp made
  have text := Option.some.inj text
  rw [← text, Announces, image_key, onionType_key]
  refine ⟨"\x7b ".toList, ", \"onion_type\": \"".toList ++ rdvOnionName onionType ++
    "\"\x7d".toList, ?_⟩
  simp only [List.append_assoc]

theorem announces_peel {info status response : CStr}
    (made : rdvMakePeelResponse c s info status = some response) :
    Announces response "info".toList info := by
  obtain ⟨_, text⟩ := Option.ite_none_right_eq_some.mp made
  have text := Option.some.inj text
  rw [← text, Announces, info_key, info_quote]
  refine ⟨"\x7b ".toList, ", \"status\": \"".toList ++ status ++ "\", \"onion_type\": \"".toList ++
    rdvOnionName (currentType s) ++ "\"\x7d".toList, ?_⟩
  simp only [List.append_assoc]

theorem announces_captcha {o : Ptr} {s' : State} {response : CStr}
    (made : rdvPeelCaptchaNoImagePath c s o = (s', some response))
    (tracked : s'.lCaptchaImagePath = some path) :
    Announces response "info".toList (fileUrl path) := by
  unfold rdvPeelCaptchaNoImagePath at made
  dsimp only at made
  split at made
  · split at made
    · split at made
      · rename_i made'
        cases made
        obtain rfl : captchaFile s.lCurrentImageDir = path := Option.some.inj tracked
        obtain ⟨_, made'⟩ := Option.ite_none_right_eq_some.mp made'
        exact announces_peel made'
      · cases made
    · cases made
  · cases made

theorem fileComplete (ext : Ext) (path : CStr) : FileComplete ext path := by
  intro pre
  exact ⟨fun _ _ _ made => ⟨announces_image made, serves_fileUrl ext path pre⟩,
    fun _ _ _ _ _ made tracked => ⟨announces_captcha made tracked, serves_fileUrl ext path pre⟩⟩

end

/-- Exactly the paths that enter a directory of `jpeg_steg` are safe to ask for, and what
is announced is served. -/
theorem file_iff (ext : Ext) (path : CStr) :
    (FileSound ext path ↔ (filePrefix <+: path → EntersEmbedDir path)) ∧ FileComplete ext path :=
  ⟨fileSound_iff, fileComplete ext path⟩

theorem serves_passwd : ¬∀ ext path, FileSound ext path ∧ FileComplete ext path := by
  intro always
  have sound := (always default "/tmp/jpeg_steg_embed/../../etc/passwd".toList).1
  have sent := (serves_fileUrl default "/tmp/jpeg_steg_embed/../../etc/passwd".toList (by decide)).2
  obtain ⟨dir, rest, _, _, leads⟩ := sound {} {} { id := 0, reqid := 0, uri := _ } _ rfl (by
    rw [sent _ _ _ rfl]
    exact List.mem_cons_self)
  have etc : Path.resolve (Path.steps "/tmp/jpeg_steg_embed/../../etc/passwd".toList) =
      ["etc".toList, "passwd".toList] := by decide
  rw [etc] at leads
  exact absurd (List.cons.inj leads).1 (by decide)

end Jumpbox.Rendezvous
