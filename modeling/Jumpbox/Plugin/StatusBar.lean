import Jumpbox.Plugin.Rendezvous
import Jumpbox.Library.Destutter

/-! The status line and the log of the ACS page and of the launch page (`acs.js`,
`launchtools.js`). A message that is the last one again is not shown again, so what is
told message by message is all in the console but for its repetitions. -/

namespace Jumpbox.Plugin

open JsonText (Value)
open RendezvousPage (Reply)
open RendezvousPage.Page (truthy isObject)

/-- `==` of JavaScript: on two texts it is equality, and `loose` says what it is on others. -/
def sameMessage (loose : Option Value → Option Value → Bool) :
    Option Value → Option Value → Bool
  | some (.string a), some (.string b) => a = b
  | a, b => loose a b

structure StatusBar where
  msgPrev : Option Value := some (.string [])
  shown : Option Value := some (.string "initializing...".toList)
  backgroundColor : CStr := []
  /-- The lines of `#log`, without their dates. -/
  log : List (CStr × Option Value) := []
  /-- What was logged to the console, past the `STATUS: ` of each line. -/
  console : List (Option Value) := []

namespace StatusBar

def colour (st : CStr) : CStr :=
  if st = "ok".toList then "#eeeeee".toList
  else if st = "error".toList then "#ffa500".toList
  else if st = "done".toList then "#00cc00".toList
  else "#ff0000".toList

variable (loose : Option Value → Option Value → Bool)

/-- `set_status`, but for what it shows of the page. -/
def setStatus (b : StatusBar) (st : CStr) (msg : Option Value) : StatusBar :=
  if sameMessage loose msg b.msgPrev then b
  else {
    msgPrev := msg
    shown := msg
    backgroundColor := colour st
    log := b.log ++ [(st, msg)]
    console := b.console ++ [msg] }

variable {loose} {b : StatusBar} {stream : List CStr}

def text (msg : CStr) : Option Value := some (.string msg)

def Shows (stream : List CStr) (b : StatusBar) : Prop :=
  ∃ earlier now, b.console = (earlier ++ [now]).map text ∧ b.msgPrev = text now ∧
    Destutter.Shown stream earlier now

theorem setStatus_again {now : CStr} (same : b.msgPrev = text now) (st : CStr) :
    b.setStatus loose st (text now) = b := by
  unfold setStatus
  rw [same]
  exact if_pos (decide_eq_true rfl)

theorem setStatus_new {now msg : CStr} (same : b.msgPrev = text now) (new : msg ≠ now)
    (st : CStr) :
    (b.setStatus loose st (text msg)).console = b.console ++ [text msg] ∧
      (b.setStatus loose st (text msg)).msgPrev = text msg := by
  have other : sameMessage loose (text msg) b.msgPrev = false := by
    rw [same]
    exact decide_eq_false new
  unfold setStatus
  rw [other]
  exact ⟨rfl, rfl⟩

theorem Shows.setStatus (h : Shows stream b) (st msg : CStr) :
    Shows stream (b.setStatus loose st (text msg)) ∧
      Shows (stream ++ [msg]) (b.setStatus loose st (text msg)) := by
  obtain ⟨earlier, now, console, current, shown⟩ := h
  by_cases same : msg = now
  · subst same
    rw [setStatus_again current]
    exact ⟨⟨earlier, msg, console, current, shown⟩, earlier, msg, console, current, shown.again⟩
  · have set : (b.setStatus loose st (text msg)).console = b.console ++ [text msg] ∧
        (b.setStatus loose st (text msg)).msgPrev = text msg := setStatus_new current same st
    obtain ⟨logged, next⟩ := set
    have logged : (b.setStatus loose st (text msg)).console =
        ((earlier ++ [now]) ++ [msg]).map text := by
      rw [logged, console]
      simp only [List.map_append, List.map_singleton]
    exact ⟨⟨_, msg, logged, next, shown.other msg⟩, _, msg, logged, next, shown.next msg⟩

theorem Shows.sublist (h : Shows stream b) :
    ((stream.destutter (· ≠ ·)).map text).Sublist b.console := by
  obtain ⟨earlier, now, console, _, shown⟩ := h
  rw [console]
  exact shown.sublist.map text

end StatusBar

/-- What `set_status_json` makes of a text: a status, a message, and whether to go on. -/
structure Verdict where
  st : CStr
  msg : Option Value
  more : Bool

def refused (msg : CStr) : Verdict where
  st := "error".toList
  msg := some (.string msg)
  more := false

def setStatusJson (json : CStr) : Verdict :=
  match JsonText.parse json with
  | none => refused ("JSON error: ".toList ++ json)
  | some r =>
    match truthy (some r) && isObject r, r.get "status".toList with
    | true, some (.string st) => { st, msg := r.get "message".toList, more := st = "ok".toList }
    | _, _ => refused ("JSON okay, but missing fields: ".toList ++ json)

theorem setStatusJson_more {json : CStr} (more : (setStatusJson json).more) :
    (setStatusJson json).st = "ok".toList := by
  unfold setStatusJson at more ⊢
  split at more
  · cases more
  · split at more
    · exact of_decide_eq_true more
    · cases more

/-- The text of `djb_result`, as jansson prints it. -/
def resultLayout : JsonText.Layout where
  opening := []
  colon := " ".toList
  comma := " ".toList
  opening_space := JsonText.nothing_space
  colon_space := JsonText.blank_space
  comma_space := JsonText.blank_space

def resultText (st message : CStr) : CStr :=
  JsonText.print resultLayout
    [("status".toList, .string st), ("message".toList, .string message)]

theorem setStatusJson_resultText (st message : CStr) :
    setStatusJson (resultText st message) =
      { st, msg := some (.string message), more := st = "ok".toList } := by
  unfold setStatusJson resultText
  rw [JsonText.parse_print]
  rfl

end Jumpbox.Plugin
