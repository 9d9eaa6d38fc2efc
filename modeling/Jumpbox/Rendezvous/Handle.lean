import Jumpbox.Rendezvous.State

/-! The handlers of `rendezvous.c`. Each returns what it leaves behind and what it has
sent; a response of `none` is a `NULL`, as when `aprintf` finds no memory. -/

namespace Jumpbox.Rendezvous

open Acs (Json cstring)

def rdvOnionReset (s : State) : State :=
  { s.freeOnion s.lCurrentOnion with lPassword := [], lCurrentOnion := none }

def rdvPowReset (s : State) : State :=
  if s.lPowThreadStarted then
    { s.freeOnion s.lPowInnerOnion with
      lPowThreadQuit := true
      lPowInnerOnion := none
      lPowThreadStarted := false
      lPowThreadFinished := false
      lPowThreadProgress := 0 }
  else s

def rdvCaptchaReset (c : Choice) (s : State) : State :=
  match s.lCaptchaImagePath with
  | none => s
  | some path => { s.unlink (c.unlink path) path with lCaptchaImagePath := none }

def rdvImageReset (c : Choice) (s : State) : State :=
  match s.lCurrentImagePath with
  | none => s
  | some path =>
    let dir := s.lCurrentImageDir.getD []
    { (s.unlink (c.unlink path) path).rmdir (c.rmdir dir) dir with
      lCurrentImagePath := none, lCurrentImageDir := none }

def rdvReset (c : Choice) (s : State) : Handled :=
  let s := rdvPowReset (rdvImageReset c (rdvCaptchaReset c (rdvOnionReset s)))
  { state := { s with hist := { s.hist with epoch := s.hist.epoch + 1 } }
    outs := djbPresult "Reset OK".toList }

def rdvRandompath (r : UInt64) : CStr :=
  "photos/26907150@N08/".toList ++ Nat.toDigits 10 r.toNat ++ "/lightbox".toList

def rdvGenRequestAux (ext : Ext) (c : Choice) (s : State) (server : CStr) (secure : Bool) :
    Handled :=
  match c.bfChar64ToParams with
  | .error text => { state := s, outs := djbError 400 text }
  | .ok _ =>
    let s := { s with lPassword := c.randomPassword }
    match ext.generateDefiantRequestUrl secure s.lPassword server
        (c.randomPath.map rdvRandompath) with
    | .ok request => { state := s, outs := djbPresult request }
    | .error text => { state := s, outs := djbError 400 text }

/-- What the handlers of a POST share: `handle` gets the body once it is read. -/
def withBody (c : Choice) (s : State) (hcl : HttpsrvClient) (noPost noLength : CStr)
    (handle : List UInt8 → Handled) : Handled :=
  if hcl.method ≠ .post then { state := s, outs := djbError 400 noPost }
  else if hcl.readbody = false then
    if hcl.contentLength = 0 then { state := s, outs := djbError 400 noLength }
    -- a failure is logged and nothing else
    else { state := s, reads := c.httpsrvReadbodyAlloc }
  else handle hcl.body

def jsonLoads (ext : Ext) (memory : Bool) (text : CStr) : Option Json :=
  if memory then ext.jsonLoads text else none

def rdvGenRequest (ext : Ext) (c : Choice) (s : State) (hcl : HttpsrvClient) : Handled :=
  withBody c s hcl "gen_request requires a POST".toList "gen_request requires length".toList
    fun body =>
      match jsonLoads ext c.jsonLoads (cstring body) with
      | none => { state := s }
      | some root =>
        let secure := match root.get "secure".toList with
          | some (.bool true) => true
          | _ => false
        match root.get "server".toList with
        | some (.string server) => rdvGenRequestAux ext c s server secure
        | _ => { state := s, outs := djbError 400 "POST data conundrum".toList }

def rdvMakeImageResponse (c : Choice) (path : CStr) (onionType : ℕ) : Option CStr :=
  if c.response then
    some ("\x7b \"image\": \"/rendezvous/file".toList ++ path ++
      "\", \"onion_type\": \"".toList ++ rdvOnionName onionType ++ "\"\x7d".toList)
  else none

/-- The checks on a decrypted buffer of `onionSz` bytes. -/
def wellFormed (ext : Ext) (onion : Onion) (onionSz : ℕ) : Bool :=
  !(onionSz < ext.sizeofOnionHeader) && onion.isOnion && onionSz = onion.size

def rdvImage (ext : Ext) (c : Choice) (s : State) (hcl : HttpsrvClient) : Handled :=
  withBody c s hcl "gen_request requires a POST".toList "image requires length".toList
    fun body =>
      match ext.extractNSave s.lPassword body with
      | none => {
          state := s
          outs := djbError 400 "extract_n_save() failure, see log)".toList ++
            djbError 400 "server error".toList }
      | some encrypted =>
        let s := { s.write c.imagePath with dirs := s.dirs ++ [c.imageDir] }
        -- neither call takes a directory away
        let failed (s : State) : Handled := {
          state := (s.unlink (c.unlink c.imagePath) c.imagePath).unlink (c.unlink c.imageDir)
            c.imageDir
          outs := djbError 400 "server error".toList }
        match ext.defiantPwdDecrypt s.lPassword encrypted with
        | none => failed s
        | some (onion, onionSz) =>
          let o := s.next
          let s := s.newOnion { onion }
          if wellFormed ext onion onionSz then
            match rdvMakeImageResponse c c.imagePath onion.type with
            | none => failed (s.freeOnion (some o))
            | some response => {
                state := { s with
                  lCurrentOnion := some o
                  lCurrentImagePath := some c.imagePath
                  lCurrentImageDir := some c.imageDir
                  hist := { s.hist with
                    accepted := s.hist.accepted ++ [o], epoch := s.hist.epoch + 1 } }
                outs := djbPresult response }
          else failed (s.freeOnion (some o))

def currentType (s : State) : ℕ :=
  match s.lCurrentOnion with
  | none => 0
  | some o => (s.mem o).onion.type

/-- A value of `info` stands in quotes unless it is a number. -/
def peelResponse (c : Choice) (s : State) (info status : CStr) : Option CStr :=
  if c.response then
    some ("\x7b \"info\": ".toList ++ info ++ ", \"status\": \"".toList ++ status ++
      "\", \"onion_type\": \"".toList ++ rdvOnionName (currentType s) ++ "\"\x7d".toList)
  else none

def rdvMakePeelResponse (c : Choice) (s : State) (info status : CStr) : Option CStr :=
  peelResponse c s ("\"".toList ++ info ++ "\"".toList) status

def rdvMakePowResponse (c : Choice) (s : State) (percent : ℕ) (status : CStr) : Option CStr :=
  peelResponse c s (Nat.toDigits 10 percent) status

/-- The C string at `ONION_DATA`; nothing bounds it by the size of the data. -/
def nep (o : Onion) : CStr := cstring (o.contents.drop o.puzzleSize)

def net (ext : Ext) (c : Choice) (o : Onion) : Option Json := jsonLoads ext c.netLoads (nep o)

/-- What a peel handler leaves behind, and the response to send. -/
abbrev Peel := State × Option CStr

def rdvPeelBase (ext : Ext) (c : Choice) (s : State) (o : Ptr) : Peel :=
  match net ext c (s.mem o).onion with
  | some _ =>
    ({ s with hist := { s.hist with danced := s.hist.danced ++ [o] } },
      rdvMakePeelResponse c s "NET passed to ACS".toList "Complete".toList)
  | none => (s, rdvMakePeelResponse c s "Sorry your nep did not parse as JSON".toList [])

def maxAttempts : ℕ := 1 * 1 * 1 * 26 * 26 * 26 * 26 * 26

def rdvAttempts2percent (s : State) : ℕ := s.lPowThreadProgress * 100 / maxAttempts

def State.replace (s : State) (inner : Option Ptr) : State :=
  { s.freeOnion s.lCurrentOnion with lCurrentOnion := inner }

def rdvPeelPow (c : Choice) (s : State) (o : Ptr) : Peel :=
  let percent := rdvAttempts2percent s
  if s.lPowThreadStarted = false then
    if c.threadAdd then
      let s := {
        s with
        lPowThreadStarted := true
        workers := s.workers ++ [{ epoch := s.hist.epoch }] }
      (s, rdvMakePowResponse c s percent "OK the Proof-Of-Work has commenced".toList)
    else (s, rdvMakePeelResponse c s [] "Creating the Proof-Of-Work failed :-(".toList)
  else if s.lPowThreadFinished = false then
    (s, rdvMakePowResponse c s percent "Working away...".toList)
  else
    match s.lPowInnerOnion with
    | none => (s, rdvMakePeelResponse c s [] "Proof of work FAILED?!?".toList)
    | some inner =>
      let response := rdvMakePowResponse c s 100
        "Your Proof-Of-Work has finished successfully!".toList
      let adoption := {
        outer := o
        inner
        worker := s.hist.innerBy
        epoch := s.hist.epoch }
      let s := { s.replace (some inner) with lPowInnerOnion := none }
      (rdvPowReset { s with hist := { s.hist with adopted := s.hist.adopted ++ [adoption] } },
        response)

def captchaFile (dir : Option CStr) : CStr := dir.getD "(null)".toList ++ "/captcha.png".toList

def rdvPeelCaptchaNoImagePath (c : Choice) (s : State) (o : Ptr) : Peel :=
  if c.captchaPath then
    let path := captchaFile s.lCurrentImageDir
    if c.bytes2file then
      let s := s.write path
      let response := if c.captchaUrl then
          rdvMakePeelResponse c s ("/rendezvous/file".toList ++ path)
            "Here is your captcha image!".toList
        else none
      match response with
      | some response =>
        ({ s with
          lCaptchaImagePath := some path
          hist := { s.hist with shown := s.hist.shown ++ [o] } }, some response)
      | none => ({ s with lCaptchaImagePath := none }, none)
    else ({ s with lCaptchaImagePath := none }, none)
  else ({ s with lCaptchaImagePath := none }, none)

/-- The library has peeled `o`: its layer `layer` is gone. -/
def State.peeled (s : State) (o : Ptr) (layer : Layer) (inner : Onion) : State :=
  (s.newOnion { onion := inner, layers := (s.mem o).layers ++ [layer], outer := some o }).replace
    (some s.next)

def rdvPeelCaptchaWithImagePath (ext : Ext) (c : Choice) (s : State) (o : Ptr) (root : Json) :
    Peel :=
  let s := { s with hist := { s.hist with asked := s.hist.asked ++ [o] } }
  match root.get "action".toList with
  | none => (s, rdvMakePeelResponse c s [] "Answer not found in JSON".toList)
  | some (.string answer) =>
    match ext.peelCaptchaOnion answer (s.mem o).onion with
    | some inner =>
      let s := s.peeled o (.captcha answer) inner
      (s, rdvMakePeelResponse c s [] "Excellent, you solved the captcha".toList)
    | none => (s, rdvMakePeelResponse c s [] "Nope, try again?".toList)
  | some _ =>
    (s, rdvMakePeelResponse c s [] "JSON Answer field wasn't of the right type".toList)

def rdvPeelCaptcha (ext : Ext) (c : Choice) (s : State) (o : Ptr) (root : Json) : Peel :=
  match s.lCaptchaImagePath with
  | none => rdvPeelCaptchaNoImagePath c s o
  | some _ => rdvPeelCaptchaWithImagePath ext c s o root

def rdvPeelSigned (ext : Ext) (c : Choice) (s : State) (o : Ptr) : Peel :=
  match c.publicKey with
  | none =>
    (s, rdvMakePeelResponse c s []
      ("The server needs to know the DEFIANCE_PUBLIC_KEY_PATH, so  ".toList ++
        "that the signature can be VERIFIED!".toList))
  | some none =>
    (s, rdvMakePeelResponse c s []
      ("The server can't open the DEFIANCE_PUBLIC_KEY_PATH, so  ".toList ++
        "that the signature can be VERIFIED!".toList))
  | some (some publicKey) =>
    if ext.verifyOnion publicKey (s.mem o).onion then
      match ext.peelSignedOnion (s.mem o).onion with
      | some inner =>
        let s := s.peeled o (.signed publicKey) inner
        (s, rdvMakePeelResponse c s []
          "The server returned an onion whose signature we VERIFIED!".toList)
      | none => (s, rdvMakePeelResponse c s [] "Peeling it went wrong, very odd.".toList)
    else
      (s, rdvMakePeelResponse c s []
        ("The server returned an onion whose signature ".toList ++
          "we COULD NOT verify -- try again?".toList))

/-- The `switch` on the type of the current onion: the errors it sends itself, and what
the handler of the type returns. -/
def peelSwitch (ext : Ext) (c : Choice) (s : State) (o : Ptr) (root : Json) : List Out × Peel :=
  let otype := (s.mem o).onion.type
  if otype = base then ([], rdvPeelBase ext c s o)
  else if otype = pow then ([], rdvPeelPow c s o)
  else if otype = captcha then ([], rdvPeelCaptcha ext c s o root)
  else if otype = signed then ([], rdvPeelSigned ext c s o)
  else (djbError 400 "Onion method not implemented yet".toList, s, none)

def rdvPeel (ext : Ext) (c : Choice) (s : State) (hcl : HttpsrvClient) : Handled :=
  withBody c s hcl "peel requires a POST".toList "peel requires length".toList fun body =>
    match jsonLoads ext c.jsonLoads (cstring body) with
    | none => { state := s, outs := djbError 400 "Invalid JSON".toList }
    | some root =>
      if root.isObject = false then
        { state := s, outs := djbError 400 "No Object in JSON".toList }
      else
        match s.lCurrentOnion with
        | none => { state := s, outs := djbError 400 "Currently no onion".toList }
        | some o =>
          if (s.mem o).onion.isOnion = false then
            { state := s, outs := djbError 400 "Onion is not an onion".toList }
          else
            match peelSwitch ext c s o root with
            | (outs, s, some response) => { state := s, outs := outs ++ djbPresult response }
            | (outs, s, none) =>
              { state := s, outs := outs ++ djbError 400 "Peeling failed".toList }

def filePrefix : CStr := "/tmp/jpeg_steg_embed".toList

def rdvFile (s : State) (file : CStr) : Handled where
  state := s
  outs :=
    (if filePrefix.isPrefixOf file then [.sendfile file, .expire .short]
      else djbError 403 "Forbidden".toList) ++ [.done]

def rdvHandle (ext : Ext) (c : Choice) (s : State) (hcl : HttpsrvClient) : Handled :=
  let query := hcl.uri.drop 12
  if strcaseEq query "reset".toList then rdvReset c s
  else if strcaseEq query "gen_request".toList then rdvGenRequest ext c s hcl
  else if strcaseEq query "image".toList then rdvImage ext c s hcl
  else if strcaseEq query "peel".toList then rdvPeel ext c s hcl
  else if strncaseEq query "file/".toList 5 then rdvFile s (query.drop 4)
  else { state := s, outs := djbError 400 "No such DJB API request (Rendezvous)".toList }

end Jumpbox.Rendezvous
