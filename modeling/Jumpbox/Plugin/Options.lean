import Jumpbox.Api
import Jumpbox.Library.Machine
import Jumpbox.Library.Utf8
import Jumpbox.Plugin.Circuit
import Jumpbox.Preferences.Store

/-! The preferences page (`preferences.js` on `preferences.html`). What is saved on it goes
into `localStorage`, and `JumpBox.init` posts all of that to the daemon. -/

namespace Jumpbox.Plugin.PreferencesPage

open Acs (Json cstring)
open Preferences (Prefs Memory prfSetBody)

inductive OptionId
  | serverName
  | jumpboxPort
  | debugMode
  | pluginCircuitCount
  | stegotorusExecutable
  | stegotorusLogLevel
  | stegotorusCircuitCount
  | stegotorusStegModule
  | stegotorusTracePackets
  | sharedSecret
  deriving DecidableEq

namespace OptionId

def all : List OptionId :=
  [serverName, jumpboxPort, debugMode, pluginCircuitCount, stegotorusExecutable,
    stegotorusLogLevel, stegotorusCircuitCount, stegotorusStegModule, stegotorusTracePackets,
    sharedSecret]

def text : OptionId → CStr
  | serverName => "server_name".toList
  | jumpboxPort => "jumpbox_port".toList
  | debugMode => "debug_mode".toList
  | pluginCircuitCount => "plugin_circuit_count".toList
  | stegotorusExecutable => "stegotorus_executable".toList
  | stegotorusLogLevel => "stegotorus_log_level".toList
  | stegotorusCircuitCount => "stegotorus_circuit_count".toList
  | stegotorusStegModule => "stegotorus_steg_module".toList
  | stegotorusTracePackets => "stegotorus_trace_packets".toList
  | sharedSecret => "shared_secret".toList

end OptionId

/-- The element of an option: a text field, a checkbox, or a list of values to select from. -/
inductive Control
  | text (value : CStr)
  | checkbox (checked : Bool)
  | select (children : List CStr) (selectedIndex : ℕ)
  deriving DecidableEq

namespace Control

/-- A text field has no line breaks. -/
def oneLine (value : CStr) : CStr := value.filter fun c => c ≠ '\n' && c ≠ '\r'

/-- `text_getter`, `checkbox_getter` and `select_getter`; what they get is stored as a text. -/
def getter : Control → CStr
  | text value => value
  | checkbox checked => if checked then "true".toList else "false".toList
  | select children selectedIndex => children.getD selectedIndex []

def setter (value : CStr) : Control → Control
  | text _ => text (oneLine value)
  | checkbox _ => checkbox (value = "true".toList)
  | select children selectedIndex =>
    select children ((children.findIdx? fun child => child = value).getD selectedIndex)

def Edits : Control → Control → Prop
  | text _, text value => oneLine value = value ∧ '\x00' ∉ value
  | checkbox _, checkbox _ => True
  | select children _, select children' selectedIndex =>
    children' = children ∧ selectedIndex < children.length
  | _, _ => False

instance : ∀ c c', Decidable (Edits c c')
  | text _, text _ => inferInstanceAs (Decidable (_ ∧ _))
  | checkbox _, checkbox _ => isTrue trivial
  | select _ _, select _ _ => inferInstanceAs (Decidable (_ ∧ _))
  | text _, checkbox _ | text _, select _ _ | checkbox _, text _ | checkbox _, select _ _
  | select _ _, text _ | select _ _, checkbox _ => isFalse id

end Control

abbrev Form := OptionId → Control

/-- The page as it is in `preferences.html`. -/
def html : Form
  | .serverName | .jumpboxPort | .stegotorusExecutable | .sharedSecret => .text []
  | .debugMode | .stegotorusTracePackets => .checkbox false
  | .pluginCircuitCount | .stegotorusCircuitCount =>
    .select ["1".toList, "2".toList, "3".toList, "4".toList] 0
  | .stegotorusLogLevel => .select ["error".toList, "warn".toList, "debug".toList] 0
  | .stegotorusStegModule => .select ["http".toList, "json".toList] 0

abbrev Storage := OptionId → Option CStr

def restoreOptions (localStorage : Storage) (form : Form) : Form := fun i =>
  match localStorage i with
  | some value => (form i).setter value
  | none => form i

def saveOptions (form : Form) : Storage := fun i => some (form i).getter

/-- `JSON.stringify(localStorage)`. -/
def stringify (localStorage : Storage) : CStr :=
  JsonText.print JsonText.compact (Utf8.texts (OptionId.all.filterMap fun i =>
    (localStorage i).map fun value => (i.text, value)))

/-! What the elements hold. -/

def Regular (form : Form) : Prop := ∀ i, (html i).Edits (form i)

theorem html_regular : Regular html := by
  intro i
  cases i <;> decide

theorem Control.Edits.trans {c c' c'' : Control} (h : c.Edits c') (h' : c'.Edits c'') :
    c.Edits c'' := by
  cases c <;> cases c' <;> cases c'' <;>
    simp only [Control.Edits] at h h' ⊢ <;> grind

theorem html_nodup {i : OptionId} {children : List CStr} {selectedIndex : ℕ}
    (list : html i = .select children selectedIndex) : children.Nodup := by
  cases i <;> simp only [html, Control.select.injEq, reduceCtorEq] at list <;>
    obtain ⟨rfl, -⟩ := list <;> decide

theorem setter_getter {c : Control} {i : OptionId} (h : (html i).Edits c) :
    (html i).setter c.getter = c := by
  cases element : html i with
  | text _ =>
    rw [element] at h
    cases c with
    | text value => exact congrArg Control.text h.1
    | _ => exact h.elim
  | checkbox _ =>
    rw [element] at h
    cases c with
    | checkbox checked => cases checked <;> rfl
    | _ => exact h.elim
  | select children _ =>
    have nodup := html_nodup element
    rw [element] at h
    cases c with
    | select children' selectedIndex =>
      obtain ⟨rfl, inside⟩ := h
      have value : children'.getD selectedIndex [] = children'[selectedIndex] := by
        simp [inside]
      have found : (children'.findIdx? fun child => child = children'[selectedIndex]) =
          some selectedIndex := by
        rw [List.findIdx?_eq_some_iff_getElem]
        refine ⟨inside, by simp, fun j before same => ?_⟩
        have same := nodup.getElem_inj_iff.mp (of_decide_eq_true same)
        omega
      simp only [Control.getter, Control.setter, value, found, Option.getD_some]
    | _ => exact h.elim

theorem restore_save {form : Form} (regular : Regular form) :
    restoreOptions (saveOptions form) html = form :=
  funext fun i => setter_getter (regular i)

theorem Control.Edits.clean {c c' : Control} (h : c.Edits c') {i : OptionId}
    (element : html i = c) : '\x00' ∉ c'.getter := by
  cases c with
  | text _ =>
    cases c' with
    | text value => exact h.2
    | _ => exact h.elim
  | checkbox _ =>
    cases c' with
    | checkbox checked => cases checked <;> decide
    | _ => exact h.elim
  | select children _ =>
    cases c' with
    | select children' selectedIndex =>
      obtain ⟨rfl, inside⟩ := h
      have clean : ∀ child ∈ children', '\x00' ∉ child := by
        cases i <;> simp only [html, Control.select.injEq, reduceCtorEq] at element <;>
          obtain ⟨rfl, -⟩ := element <;> decide
      have value : children'.getD selectedIndex [] = children'[selectedIndex] := by
        simp [inside]
      rw [Control.getter, value]
      exact clean _ (List.getElem_mem inside)
    | _ => exact h.elim

structure System where
  localStorage : Storage := fun _ => none
  forms : List Form := []
  jbPort : CStr := "6543".toList
  /-- The bodies that were sent to the daemon and that it has not got yet. -/
  posts : List (List UInt8) := []
  daemon : Prefs := {}

/-- What the ports stand for, and `json_loads`. -/
structure Env where
  reaches : CStr → Bool
  load : CStr → Option Json

namespace System

def port (s : System) : CStr :=
  match s.localStorage .jumpboxPort with
  | some port => if port ≠ [] then port else s.jbPort
  | none => s.jbPort

/-- What the daemon makes of a body that is posted to `jb_preferences_path`. -/
def handlePreferences (env : Env) (m : Memory) (p : Prefs) (body : List UInt8) : Prefs :=
  match djbHandleApi jbPreferencesPath with
  | .prfSet => (prfSetBody env.load m p body).1
  | _ => p

/-- `JumpBox.init`, with `preferences_push`. -/
def jumpBoxInit (env : Env) (s : System) : System :=
  { s with
    jbPort := s.port
    posts := if env.reaches s.port then
      s.posts ++ [Utf8.encode (stringify s.localStorage)] else s.posts }

inductive Event
  | restart
  | openPage
  | closePage (k : ℕ)
  | edit (k : ℕ) (i : OptionId) (c : Control)
  | save (k : ℕ)
  | take (n : ℕ) (m : Memory)
  | lose (n : ℕ)
  | start

def step (env : Env) (s : System) : Event → Option System
  | .restart => some ({ s with jbPort := "6543".toList }.jumpBoxInit env)
  | .openPage => some { s with forms := s.forms ++ [restoreOptions s.localStorage html] }
  | .closePage k => some { s with forms := s.forms.eraseIdx k }
  | .edit k i c => s.forms[k]?.bind fun form =>
      if (form i).Edits c then some { s with forms := s.forms.set k (Function.update form i c) }
      else none
  | .save k => s.forms[k]?.map fun form =>
      { s with localStorage := saveOptions form }.jumpBoxInit env
  | .take n m => s.posts[n]?.map fun body =>
      { s with posts := s.posts.eraseIdx n, daemon := handlePreferences env m s.daemon body }
  | .lose n => if n < s.posts.length then some { s with posts := s.posts.eraseIdx n } else none
  | .start => some { s with posts := [], daemon := {} }

def machine (env : Env) : Machine System Event := ⟨step env⟩

def init (env : Env) : System := ({} : System).jumpBoxInit env

end System

end Jumpbox.Plugin.PreferencesPage
