import Jumpbox.Acs.Dance

/-! The state of `rendezvous.c`: the onion that is being peeled, its image, and the
thread that works on a proof of work. Onions and the files that come with them are
known by the number of their allocation and by their path. The library that makes
and peels onions is a record of functions. -/

namespace Jumpbox.Rendezvous

open Acs (Json cstring)

abbrev Ptr := ℕ

def shaDigestLength : ℕ := 20

/-- What the `ONION_*` macros read of a decrypted buffer. No field of the header is
checked against the others; `contents` is what follows the header. -/
structure Onion where
  isOnion : Bool := true
  size : ℕ
  type : ℕ
  puzzleSize : ℕ := 0
  dataSize : ℕ := 0
  contents : List UInt8 := []
  deriving DecidableEq

instance : Inhabited Onion := ⟨{ size := 0, type := 0 }⟩

namespace Onion

def puzzle (o : Onion) : List UInt8 := o.contents.take o.puzzleSize

def data (o : Onion) : List UInt8 := (o.contents.drop o.puzzleSize).take o.dataSize

end Onion

/-! `enum onion_type`. -/

def base : ℕ := 0
def pow : ℕ := 1
def captcha : ℕ := 2
def signed : ℕ := 3
def collection : ℕ := 4

def onionNames : List CStr :=
  ["base".toList, "pow".toList, "captcha".toList, "signed".toList, "collection".toList]

/-- `rdv_onion_name`; past the table the code reads whatever follows it. In the source the
names are `char[10]`, which `collection` fills without a NUL, so that printing it reads
on past the table; here the name ends. -/
def rdvOnionName (onionType : ℕ) : CStr := onionNames.getD onionType []

/-- What `rendezvous.c` calls of jansson, libdefiance and jpeg_steg as functions. -/
structure Ext where
  jsonLoads : CStr → Option Json
  sizeofOnionHeader : ℕ
  /-- What is embedded in the image, unless the extraction fails. -/
  extractNSave : (password : CStr) → (image : List UInt8) → Option (List UInt8)
  /-- The decrypted buffer, as the macros read it, and its size. -/
  defiantPwdDecrypt : (password : CStr) → (encrypted : List UInt8) → Option (Onion × ℕ)
  verifyOnion : (publicKey : CStr) → Onion → Bool
  peelSignedOnion : Onion → Option Onion
  peelCaptchaOnion : (answer : CStr) → Onion → Option Onion
  defiantPowAux : (hash secret data : List UInt8) → Option Onion
  /-- `generate_defiant_ssl_request_url` if `secure`; the error is its text. -/
  generateDefiantRequestUrl :
    (secure : Bool) → (password server : CStr) → (path : Option CStr) → Except CStr CStr

instance : Inhabited Ext := ⟨{
  jsonLoads := fun _ => none
  sizeofOnionHeader := 0
  extractNSave := fun _ _ => none
  defiantPwdDecrypt := fun _ _ => none
  verifyOnion := fun _ _ => false
  peelSignedOnion := fun _ => none
  peelCaptchaOnion := fun _ _ => none
  defiantPowAux := fun _ _ _ => none
  generateDefiantRequestUrl := fun _ _ _ _ => .error [] }⟩

/-- What the environment chooses while a request is handled: which calls succeed, and
the random parts of what they return. -/
structure Choice where
  httpsrvReadbodyAlloc : Bool := true
  jsonLoads : Bool := true
  netLoads : Bool := true
  response : Bool := true
  captchaPath : Bool := true
  captchaUrl : Bool := true
  bytes2file : Bool := true
  unlink : CStr → Bool := fun _ => true
  rmdir : CStr → Bool := fun _ => true
  threadAdd : Bool := true
  bfChar64ToParams : Except CStr Unit := .ok ()
  randomPassword : CStr := []
  randomPath : Option UInt64 := none
  imagePath : CStr := []
  imageDir : CStr := []
  /-- The file that `DEFIANCE_PUBLIC_KEY_PATH` names, if it is set and can be opened. -/
  publicKey : Option (Option CStr) := none

/-- A layer that has been taken off, with what took it off. -/
inductive Layer
  | pow
  | captcha (answer : CStr)
  | signed (publicKey : CStr)
  deriving DecidableEq

/-- An `onion_t` with where it comes from: an image, or the onion `outer` of which the
layers `layers` had been taken off before the last of them. -/
structure Cell where
  onion : Onion
  layers : List Layer := []
  outer : Option Ptr := none
  deriving DecidableEq, Inhabited

/-- Where a `rdv_pow_worker` stands: it reads `l_current_onion` four times, and is in
`defiant_pow_aux` with what it saw; then it is between its writes to the globals. -/
inductive WorkerPc
  | read (seen : List Ptr)
  | solve (puzzleSize hash data dataLen : Ptr)
  | progress
  | finish
  | done
  deriving DecidableEq

/-- A worker, with the number of resets and images before it was started. -/
structure Worker where
  pc : WorkerPc := .read []
  epoch : ℕ
  deriving DecidableEq

structure Adoption where
  outer : Ptr
  inner : Ptr
  worker : Option ℕ
  epoch : ℕ
  deriving DecidableEq

structure History where
  accepted : List Ptr := []
  /-- The onions whose NET was passed to `acs_set_net`. -/
  danced : List Ptr := []
  adopted : List Adoption := []
  /-- The onions whose captcha was announced, and those a request was an answer to. -/
  shown : List Ptr := []
  asked : List Ptr := []
  epoch : ℕ := 0
  /-- The workers that stored `l_pow_inner_onion` and set `l_pow_thread_finished` last. -/
  innerBy : Option ℕ := none
  finishedBy : Option ℕ := none

structure State where
  lPassword : CStr := []
  lCurrentOnion : Option Ptr := none
  lCurrentImagePath : Option CStr := none
  lCurrentImageDir : Option CStr := none
  lCaptchaImagePath : Option CStr := none
  lPowThreadStarted : Bool := false
  lPowThreadFinished : Bool := false
  lPowThreadQuit : Bool := false
  lPowInnerOnion : Option Ptr := none
  lPowThreadProgress : ℕ := 0
  mem : Ptr → Cell := fun _ => default
  next : Ptr := 0
  freed : List Ptr := []
  files : List CStr := []
  dirs : List CStr := []
  workers : List Worker := []
  hist : History := {}

namespace State

def newOnion (s : State) (cell : Cell) : State :=
  { s with mem := Function.update s.mem s.next cell, next := s.next + 1 }

def freeOnion (s : State) (o : Option Ptr) : State := { s with freed := s.freed ++ o.toList }

def write (s : State) (path : CStr) : State := { s with files := s.files.insert path }

/-- `unlink` takes a file away, and no directory. -/
def unlink (s : State) (ok : Bool) (path : CStr) : State :=
  if ok then { s with files := s.files.erase path } else s

/-- `rmdir` takes an empty directory away. -/
def rmdir (s : State) (ok : Bool) (dir : CStr) : State :=
  if ok ∧ ∀ file ∈ s.files, ¬dir ++ "/".toList <+: file then { s with dirs := s.dirs.erase dir }
  else s

end State

/-- What has been done when a handler returns: the calls on the client, and whether a
read of the body was armed. -/
structure Handled where
  state : State
  outs : List Out := []
  reads : Bool := false

end Jumpbox.Rendezvous
