import Jumpbox.CString
import Mathlib.Data.List.Induction
import Mathlib.Logic.Function.Basic

/-! The plugin's listener on the browser's requests before they leave (`background.js`).
The browser hands it an array of header objects. The loop splices that array while it
walks it backwards and keeps a reference to one of the objects, so the model has both
the array of references and the objects. -/

namespace Jumpbox.Plugin

/-- One of `chrome.webRequest`'s headers; one that is not text has no `value`. -/
structure HttpHeader where
  name : CStr
  value : Option CStr := none
  binaryValue : Option (List UInt8) := none
  deriving DecidableEq, Repr

instance : Inhabited HttpHeader := ⟨{ name := [] }⟩

namespace Headers

structure Walk where
  headers : List ℕ
  stegotorusServerRequests : CStr → Bool
  djbCookieHeader : Option ℕ := none
  toJumpbox : Bool := false

section

variable (jbHost jbExtId : CStr)

def isJbHost (header : HttpHeader) : Bool :=
  header.name = "Host".toList ∧ header.value = some jbHost

def isDjbServer (header : HttpHeader) : Bool := header.name = "DJB-Server".toList

def isOwnOrigin (header : HttpHeader) : Bool :=
  header.name = "Origin".toList ∧
    header.value = some ("chrome-extension://".toList ++ jbExtId)

def isDjbCookie (header : HttpHeader) : Bool := header.name = "DJB-Cookie".toList

/-- The loop of `onBeforeSendHeaders`, about to look at the header before `index`. -/
def walkBack (objects : ℕ → HttpHeader) (requestId : CStr) : (index : ℕ) → Walk → Walk
  | 0, w => w
  | index + 1, w =>
    match w.headers[index]? with
    | none => w
    | some ref =>
      let header := objects ref
      if isJbHost jbHost header then { w with toJumpbox := true }
      else if isDjbServer header then
        walkBack objects requestId index { w with
          headers := w.headers.eraseIdx index
          stegotorusServerRequests := Function.update w.stegotorusServerRequests requestId true }
      else if header.name = "Origin".toList then
        if header.value = some ("chrome-extension://".toList ++ jbExtId) then
          walkBack objects requestId index { w with headers := w.headers.eraseIdx index }
        else walkBack objects requestId index w
      else if isDjbCookie header then
        walkBack objects requestId index { w with djbCookieHeader := some ref }
      else walkBack objects requestId index w

/-- What follows the loop: the object of the cookie header gets its new name. -/
def Walk.rename (w : Walk) (objects : ℕ → HttpHeader) : ℕ → HttpHeader :=
  match w.toJumpbox, w.djbCookieHeader with
  | false, some ref => Function.update objects ref { objects ref with name := "Cookie".toList }
  | _, _ => objects

def onBeforeSendHeaders (recorded : CStr → Bool) (requestId : CStr) (headers : List HttpHeader) :
    List HttpHeader × (CStr → Bool) :=
  let objects := fun ref => headers.getD ref default
  let w := walkBack jbHost jbExtId objects requestId headers.length
    { headers := List.range headers.length, stegotorusServerRequests := recorded }
  (w.headers.map (w.rename objects), w.stegotorusServerRequests)

def kept (header : HttpHeader) : Bool := !isDjbServer header && !isOwnOrigin jbExtId header

def renameDjbCookie (header : HttpHeader) : HttpHeader :=
  if isDjbCookie header then { header with name := "Cookie".toList } else header

variable {jbHost jbExtId}

theorem clean_of_kept {header : HttpHeader} (stays : kept jbExtId header = true) :
    (renameDjbCookie header).name ≠ "DJB-Server".toList ∧
    (renameDjbCookie header).name ≠ "DJB-Cookie".toList ∧
    ¬((renameDjbCookie header).name = "Origin".toList ∧
      (renameDjbCookie header).value = some ("chrome-extension://".toList ++ jbExtId)) := by
  simp only [kept, Bool.and_eq_true, Bool.not_eq_true', isDjbServer, isOwnOrigin,
    decide_eq_false_iff_not] at stays
  unfold renameDjbCookie
  split
  case isTrue cookie =>
    have not_server : "Cookie".toList ≠ "DJB-Server".toList := by decide
    have not_djb_cookie : "Cookie".toList ≠ "DJB-Cookie".toList := by decide
    have not_origin : "Cookie".toList ≠ "Origin".toList := by decide
    exact ⟨not_server, not_djb_cookie, fun origin => not_origin origin.1⟩
  case isFalse not_cookie =>
    simp only [isDjbCookie, decide_eq_true_eq] at not_cookie
    exact ⟨stays.1, not_cookie, stays.2⟩

/-- What the walk has done by the time `index` headers are left to look at: the
array is the headers left, untouched, and then what stays of those looked at. -/
def Walk.after (recorded : CStr → Bool) (requestId : CStr) (objects : ℕ → HttpHeader)
    (jbExtId : CStr) (front back : List ℕ) : Walk where
  headers := front ++ back.filter fun ref => kept jbExtId (objects ref)
  stegotorusServerRequests :=
    if back.any fun ref => isDjbServer (objects ref) then
      Function.update recorded requestId true
    else recorded
  djbCookieHeader := back.find? fun ref => isDjbCookie (objects ref)

theorem rename_of_none {w : Walk} (none_found : w.djbCookieHeader = none)
    (objects : ℕ → HttpHeader) : w.rename objects = objects := by
  rw [Walk.rename, none_found]
  cases w.toJumpbox <;> rfl

theorem rename_of_some {w : Walk} {ref : ℕ} (out : w.toJumpbox = false)
    (found : w.djbCookieHeader = some ref) (objects : ℕ → HttpHeader) :
    w.rename objects =
      Function.update objects ref { objects ref with name := "Cookie".toList } := by
  rw [Walk.rename, out, found]

theorem headers_after (recorded : CStr → Bool) (requestId : CStr) (objects : ℕ → HttpHeader)
    (front back : List ℕ) (ref : ℕ) :
    (Walk.after recorded requestId objects jbExtId (front ++ [ref]) back).headers[front.length]? =
      some ref := by
  simp [Walk.after]

theorem eraseIdx_split {α : Type*} (front back : List α) (x : α) :
    (front ++ x :: back).eraseIdx front.length = front ++ back := by
  rw [List.eraseIdx_append_of_length_le (Nat.le_refl _), Nat.sub_self, List.eraseIdx_zero,
    List.tail_cons]

theorem server_not_cookie {header : HttpHeader} (server : isDjbServer header = true) :
    isDjbCookie header = false := by
  simp only [isDjbServer, decide_eq_true_eq] at server
  rw [isDjbCookie, server]
  rfl

theorem origin_not_cookie {header : HttpHeader} (origin : header.name = "Origin".toList) :
    isDjbCookie header = false := by
  rw [isDjbCookie, origin]
  rfl

theorem update_any (recorded : CStr → Bool) (requestId : CStr) (found : Prop) [Decidable found] :
    Function.update (if found then Function.update recorded requestId true else recorded)
      requestId true = Function.update recorded requestId true := by
  split <;> simp

theorem walkBack_turn (recorded : CStr → Bool) (requestId : CStr) (objects : ℕ → HttpHeader)
    (front back : List ℕ) (ref : ℕ) (elsewhere : isJbHost jbHost (objects ref) = false) :
    walkBack jbHost jbExtId objects requestId (front.length + 1)
        (Walk.after recorded requestId objects jbExtId (front ++ [ref]) back) =
      walkBack jbHost jbExtId objects requestId front.length
        (Walk.after recorded requestId objects jbExtId front (ref :: back)) := by
  rw [walkBack, headers_after]
  simp only [elsewhere, Bool.false_eq_true, ↓reduceIte]
  by_cases server : isDjbServer (objects ref)
  · have dropped : kept jbExtId (objects ref) = false := by simp only [kept, server]; rfl
    simp [Walk.after, server, dropped, server_not_cookie server, eraseIdx_split, update_any]
  simp only [server, Bool.false_eq_true, ↓reduceIte]
  by_cases origin : (objects ref).name = "Origin".toList
  · have cookie := origin_not_cookie origin
    by_cases own : (objects ref).value = some ("chrome-extension://".toList ++ jbExtId)
    · have dropped : kept jbExtId (objects ref) = false := by
        simp only [kept, isOwnOrigin, origin, own, and_self, decide_true, Bool.not_true,
          Bool.and_false]
      rw [if_pos origin, if_pos own]
      simp [Walk.after, server, dropped, cookie, eraseIdx_split]
    · have stays : kept jbExtId (objects ref) = true := by
        simp only [kept, server, isOwnOrigin, own, and_false, decide_false]
        rfl
      rw [if_pos origin, if_neg own]
      simp [Walk.after, server, stays, cookie]
  have stays : kept jbExtId (objects ref) = true := by
    simp only [kept, server, isOwnOrigin, origin, false_and, decide_false]
    rfl
  rw [if_neg origin]
  by_cases cookie : isDjbCookie (objects ref)
  · simp [Walk.after, server, stays, cookie]
  · simp [Walk.after, server, stays, cookie]

variable (jbHost jbExtId) in
theorem walkBack_after (recorded : CStr → Bool) (requestId : CStr) (objects : ℕ → HttpHeader)
    (front mid back : List ℕ) (elsewhere : ∀ ref ∈ mid, isJbHost jbHost (objects ref) = false) :
    walkBack jbHost jbExtId objects requestId (front ++ mid).length
        (Walk.after recorded requestId objects jbExtId (front ++ mid) back) =
      walkBack jbHost jbExtId objects requestId front.length
        (Walk.after recorded requestId objects jbExtId front (mid ++ back)) := by
  induction mid using List.reverseRecOn generalizing back with
  | nil => simp
  | append_singleton mid ref ih =>
    have here := elsewhere ref (by simp)
    have before : ∀ other ∈ mid, isJbHost jbHost (objects other) = false := by
      intro other inMid
      exact elsewhere other (by simp [inMid])
    rw [← List.append_assoc, List.length_append, List.length_singleton,
      walkBack_turn recorded requestId objects (front ++ mid) back ref here,
      ih (ref :: back) before]
    simp

theorem map_range_getD (headers : List HttpHeader) :
    (List.range headers.length).map (fun ref => headers.getD ref default) = headers := by
  apply List.ext_getElem
  · simp
  · intro i below _
    simp at below
    simp [below]

theorem map_filter_range {α : Type*} (headers : List HttpHeader) (p : HttpHeader → Bool)
    (f : HttpHeader → α) :
    ((List.range headers.length).filter fun ref => p (headers.getD ref default)).map
      (fun ref => f (headers.getD ref default)) = (headers.filter p).map f := by
  conv_rhs => rw [← map_range_getD headers, List.filter_map, List.map_map]
  rfl

theorem any_range (headers : List HttpHeader) (p : HttpHeader → Bool) :
    ((List.range headers.length).any fun ref => p (headers.getD ref default)) =
      headers.any p := by
  conv_rhs => rw [← map_range_getD headers, List.any_map]
  rfl

theorem eq_of_length_filter_le_one {α : Type*} {p : α → Bool} {l : List α} {a b : α}
    (one : (l.filter p).length ≤ 1) (ha : a ∈ l) (pa : p a) (hb : b ∈ l) (pb : p b) : a = b := by
  have a_mem : a ∈ l.filter p := List.mem_filter.mpr ⟨ha, pa⟩
  have b_mem : b ∈ l.filter p := List.mem_filter.mpr ⟨hb, pb⟩
  match found : l.filter p with
  | [] => simp [found] at a_mem
  | [x] =>
    rw [found, List.mem_singleton] at a_mem b_mem
    exact a_mem.trans b_mem.symm
  | _ :: _ :: _ => simp [found] at one

theorem rename_after (recorded : CStr → Bool) (requestId : CStr) {headers : List HttpHeader}
    (cookies : (headers.filter isDjbCookie).length ≤ 1) {ref : ℕ} (below : ref < headers.length) :
    (Walk.after recorded requestId (fun ref => headers.getD ref default) jbExtId []
      (List.range headers.length)).rename (fun ref => headers.getD ref default) ref =
      renameDjbCookie (headers.getD ref default) := by
  let objects := fun ref => headers.getD ref default
  have one : ((List.range headers.length).filter fun ref => isDjbCookie (objects ref)).length
      ≤ 1 := by
    have same := congrArg List.length (map_filter_range headers isDjbCookie id)
    rw [List.length_map, List.length_map] at same
    rw [same]
    exact cookies
  have ref_mem := List.mem_range.mpr below
  cases found : (List.range headers.length).find? fun ref => isDjbCookie (objects ref) with
  | none =>
    have not_cookie := List.find?_eq_none.mp found ref ref_mem
    rw [rename_of_none found, renameDjbCookie, if_neg not_cookie]
  | some cookie =>
    have is_cookie := List.find?_some found
    have cookie_mem := List.mem_of_find?_eq_some found
    rw [rename_of_some rfl found]
    by_cases this : ref = cookie
    · rw [this, Function.update_self, renameDjbCookie, if_pos is_cookie]
    · rw [Function.update_of_ne this, renameDjbCookie, if_neg]
      intro also
      exact this (eq_of_length_filter_le_one one ref_mem also cookie_mem is_cookie)

theorem walkBack_range (recorded : CStr → Bool) (requestId : CStr) {headers : List HttpHeader}
    (elsewhere : ∀ header ∈ headers, isJbHost jbHost header = false) :
    walkBack jbHost jbExtId (fun ref => headers.getD ref default) requestId headers.length
      { headers := List.range headers.length, stegotorusServerRequests := recorded } =
    Walk.after recorded requestId (fun ref => headers.getD ref default) jbExtId []
      (List.range headers.length) := by
  have each : ∀ ref ∈ List.range headers.length,
      isJbHost jbHost (headers.getD ref default) = false := by
    intro ref inRange
    have below := List.mem_range.mp inRange
    have points_at : headers.getD ref default = headers[ref] := by simp [below]
    rw [points_at]
    exact elsewhere headers[ref] (List.getElem_mem below)
  have walked := walkBack_after jbHost jbExtId recorded requestId
    (fun ref => headers.getD ref default) [] (List.range headers.length) [] each
  simpa [Walk.after, walkBack] using walked

/-- Nothing gives the plugin away on the wire. -/
theorem onBeforeSendHeaders_scrubs (recorded : CStr → Bool) (requestId : CStr)
    (headers : List HttpHeader)
    (elsewhere : ∀ header ∈ headers, header.name = "Host".toList → header.value ≠ some jbHost)
    (cookies : (headers.filter isDjbCookie).length ≤ 1) :
    let sent := onBeforeSendHeaders jbHost jbExtId recorded requestId headers
    sent.1 = (headers.filter (kept jbExtId)).map renameDjbCookie ∧
    sent.2 = (if headers.any isDjbServer then Function.update recorded requestId true
      else recorded) ∧
    ∀ header ∈ sent.1, header.name ≠ "DJB-Server".toList ∧ header.name ≠ "DJB-Cookie".toList ∧
      ¬(header.name = "Origin".toList ∧
        header.value = some ("chrome-extension://".toList ++ jbExtId)) := by
  intro sent
  have not_host : ∀ header ∈ headers, isJbHost jbHost header = false := by
    intro header mem
    simp only [isJbHost, decide_eq_false_iff_not, not_and]
    exact elsewhere header mem
  have headers_sent : sent.1 = (headers.filter (kept jbExtId)).map renameDjbCookie := by
    rw [← map_filter_range headers (kept jbExtId) renameDjbCookie]
    simp only [sent, onBeforeSendHeaders]
    rw [walkBack_range recorded requestId not_host]
    apply List.map_congr_left
    intro ref looked_at
    exact rename_after recorded requestId cookies
      (List.mem_range.mp (List.mem_filter.mp looked_at).1)
  have recorded_then : sent.2 = (if headers.any isDjbServer then
      Function.update recorded requestId true else recorded) := by
    simp only [sent, onBeforeSendHeaders]
    rw [walkBack_range recorded requestId not_host]
    simp only [Walk.after, any_range]
  refine ⟨headers_sent, recorded_then, ?_⟩
  intro header mem
  rw [headers_sent] at mem
  obtain ⟨original, original_mem, rfl⟩ := List.mem_map.mp mem
  exact clean_of_kept (List.mem_filter.mp original_mem).2

theorem onBeforeSendHeaders_scrubs_post :
    (onBeforeSendHeaders "127.0.0.1:6543".toList "mbglk".toList (fun _ => false) "12".toList
      [⟨"Host".toList, some "server".toList, none⟩, ⟨"DJB-Server".toList, some "true".toList, none⟩,
        ⟨"DJB-Cookie".toList, some "a=b".toList, none⟩,
        ⟨"Origin".toList, some "chrome-extension://mbglk".toList, none⟩]).1 =
      [⟨"Host".toList, some "server".toList, none⟩, ⟨"Cookie".toList, some "a=b".toList, none⟩] :=
  (onBeforeSendHeaders_scrubs _ _ _ (by decide) (by decide)).1.trans (by decide)

end

end Headers

end Jumpbox.Plugin
