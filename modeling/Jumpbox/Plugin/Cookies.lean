import Jumpbox.Plugin.Headers
import Jumpbox.Plugin.Report

/-! The cookies of the server, on their way to the client. The browser's listener renames
the header they are in before the browser keeps them to itself, `ss_response2request`
copies the value into the push, and `djb_push` gives it its old name. -/

namespace Jumpbox.Plugin

open Proxy (pushAnswer)

/-- What a script reads of a header: one that is not text, byte by byte. -/
def HttpHeader.field (header : HttpHeader) : CStr × CStr :=
  (header.name,
    header.value.getD ((header.binaryValue.getD []).map fun b => Char.ofNat b.toNat))

namespace Headers

def renameSetCookie : List HttpHeader → List HttpHeader
  | [] => []
  | header :: rest =>
    if header.name = "Set-Cookie".toList then
      -- `break`
      { header with name := "DJB-Set-Cookie".toList } :: rest
    else header :: renameSetCookie rest

/-- `Headers.onHeadersReceived`: the headers it returns and what it leaves recorded. -/
def onHeadersReceived (recorded : CStr → Bool) (requestId : CStr) (headers : List HttpHeader) :
    List HttpHeader × (CStr → Bool) :=
  if recorded requestId then (renameSetCookie headers, Function.update recorded requestId false)
  else (headers, recorded)

/-- A header from which the browser would store a cookie. -/
def isSetCookie (header : HttpHeader) : Bool := strcaseEq header.name "Set-Cookie".toList

def isDjbSetCookie (header : HttpHeader) : Bool := strcaseEq header.name "DJB-Set-Cookie".toList

def djbSetCookies (headers : List HttpHeader) : List CStr :=
  (headers.filter isDjbSetCookie).map fun header => header.field.2

theorem isSetCookie_of_name {header : HttpHeader} (name : header.name = "Set-Cookie".toList) :
    isSetCookie header = true ∧ isDjbSetCookie header = false := by
  rw [isSetCookie, isDjbSetCookie, name]
  decide

theorem isSetCookie_renamed (header : HttpHeader) :
    isSetCookie { header with name := "DJB-Set-Cookie".toList } = false ∧
      isDjbSetCookie { header with name := "DJB-Set-Cookie".toList } = true := ⟨rfl, rfl⟩

theorem none_left_iff (headers : List HttpHeader) :
    (∀ header ∈ renameSetCookie headers, isSetCookie header = false) ↔
      headers.filter isSetCookie = [] ∨
        ∃ cookie, headers.filter isSetCookie = [cookie] ∧ cookie.name = "Set-Cookie".toList := by
  induction headers with
  | nil => simp [renameSetCookie]
  | cons header rest ih =>
    rw [renameSetCookie]
    split
    case isTrue name =>
      have spelled := (isSetCookie_of_name name).1
      have renamed := (isSetCookie_renamed header).1
      rw [List.filter_cons_of_pos spelled]
      constructor
      · intro none_left
        have others : rest.filter isSetCookie = [] := by
          rw [List.filter_eq_nil_iff]
          intro other later
          simp [none_left other (List.mem_cons_of_mem _ later)]
        exact .inr ⟨header, by rw [others], name⟩
      · rintro (none_there | ⟨cookie, only, _⟩)
        · cases none_there
        · have others : rest.filter isSetCookie = [] := (List.cons.inj only).2
          intro other member
          rcases List.mem_cons.mp member with rfl | later
          · exact renamed
          · simpa using List.filter_eq_nil_iff.mp others other later
    case isFalse other_name =>
      by_cases cookie : isSetCookie header = true
      · rw [List.filter_cons_of_pos cookie]
        constructor
        · intro none_left
          have here := none_left header List.mem_cons_self
          rw [cookie] at here
          cases here
        · rintro (none_there | ⟨found, only, name⟩)
          · cases none_there
          · obtain rfl := (List.cons.inj only).1
            exact absurd name other_name
      · rw [List.filter_cons_of_neg cookie, List.forall_mem_cons, ih]
        exact and_iff_right (by simpa using cookie)

theorem renamed_at {headers : List HttpHeader} {cookie : HttpHeader}
    (only : headers.filter isSetCookie = [cookie]) (name : cookie.name = "Set-Cookie".toList) :
    ∃ front back, headers = front ++ cookie :: back ∧
      renameSetCookie headers =
        front ++ { cookie with name := "DJB-Set-Cookie".toList } :: back := by
  induction headers with
  | nil => cases only
  | cons header rest ih =>
    by_cases here : isSetCookie header = true
    · rw [List.filter_cons_of_pos here] at only
      obtain ⟨rfl, _⟩ := List.cons.inj only
      exact ⟨[], rest, rfl, by rw [renameSetCookie, if_pos name]; rfl⟩
    · rw [List.filter_cons_of_neg here] at only
      obtain ⟨front, back, split, renamed⟩ := ih only
      have other : header.name ≠ "Set-Cookie".toList := fun same =>
        here (isSetCookie_of_name same).1
      refine ⟨header :: front, back, by rw [split]; rfl, ?_⟩
      rw [renameSetCookie, if_neg other, renamed]
      rfl

theorem djbSetCookies_append (front back : List HttpHeader) :
    djbSetCookies (front ++ back) = djbSetCookies front ++ djbSetCookies back := by
  simp [djbSetCookies]

theorem djbSetCookies_eq_nil {headers : List HttpHeader} :
    djbSetCookies headers = [] ↔ headers.any isDjbSetCookie = false := by
  rw [djbSetCookies, List.map_eq_nil_iff, List.filter_eq_nil_iff, List.any_eq_false]

end Headers

/-! Values that are combined. -/

theorem infix_intercalate (sep : CStr) {values : List CStr} {value : CStr}
    (member : value ∈ values) : value <:+: List.intercalate sep values := by
  induction values with
  | nil => cases member
  | cons first rest ih =>
    cases rest with
    | nil =>
      obtain rfl := List.mem_singleton.mp member
      rw [List.intercalate_singleton]
    | cons second rest =>
      rw [List.intercalate_cons_cons]
      rcases List.mem_cons.mp member with rfl | later
      · exact ((List.prefix_append _ _).trans (List.prefix_append _ _)).isInfix
      · exact (ih later).trans (List.suffix_append _ _).isInfix

theorem intercalate_eq_nil {sep : CStr} (seen : sep ≠ []) {values : List CStr} :
    List.intercalate sep values = [] ↔ values = [] ∨ values = [[]] := by
  match values with
  | [] => simp
  | [value] => simp
  | first :: second :: rest =>
    rw [List.intercalate_cons_cons]
    simp [seen]

open Headers

theorem getResponseHeader_djbSetCookie {outcome : Response} {headers : List HttpHeader}
    (heard : outcome.headers = headers.map HttpHeader.field) :
    outcome.getResponseHeader "DJB-Set-Cookie".toList =
      if djbSetCookies headers = [] then none
      else some (List.intercalate ", ".toList (djbSetCookies headers)) := by
  have found : (outcome.headers.filter fun header =>
      strcaseEq header.1 "DJB-Set-Cookie".toList).map Prod.snd = djbSetCookies headers := by
    rw [heard, List.filter_map, List.map_map]
    rfl
  rw [Response.getResponseHeader, ← found]
  cases outcome.headers.filter fun header => strcaseEq header.1 "DJB-Set-Cookie".toList with
  | nil => rfl
  | cons first rest => rfl

theorem push_cookies {outcome : Response} {djbSeqno : Option CStr} {circuitId : CStr}
    {cntRequestsOut time : ℕ} {push : Request}
    (made : ssResponse2request outcome djbSeqno circuitId cntRequestsOut time = .ok push) :
    push.header "DJB-Set-Cookie".toList =
        (outcome.getResponseHeader "DJB-Set-Cookie".toList).getD [] ∧
      push.headers.all (fun header => !strcaseEq header.1 "Set-Cookie".toList) = true := by
  simp only [ssResponse2request] at made
  split at made
  · cases made
  · cases made
    cases outcome.getResponseHeader "DJB-Set-Cookie".toList <;>
      cases outcome.getResponseHeader "Content-Type".toList <;> exact ⟨rfl, rfl⟩

theorem respond_pushAnswer (hcl : HttpsrvClient) :
    (respond (pushAnswer hcl)).headers =
      (if hcl.user.setcookie = [] then [] else [("Set-Cookie".toList, hcl.user.setcookie)]) ++
        hcl.theHeaders := by
  unfold pushAnswer
  split <;> split <;> rfl

def CookieArrives (field : ℕ → CStr → CStr) (outcome : Response) (djbSeqno : Option CStr)
    (circuitId : CStr) (cntRequestsOut time : ℕ) (key : Key) (value : CStr) : Prop :=
  ∃ push, ssResponse2request outcome djbSeqno circuitId cntRequestsOut time = .ok push ∧
    ∃ header ∈ (respond (pushAnswer (djbHeader field (arrives key push)))).headers,
      strcaseEq header.1 "Set-Cookie".toList ∧ value <:+: header.2

theorem cookieArrives_iff {field : ℕ → CStr → CStr} (maps : MiscMap field) {outcome : Response}
    {combined : CStr}
    (heard : outcome.getResponseHeader "DJB-Set-Cookie".toList = some combined)
    (fits : combined.length < 8192) {value : CStr} (part : value <:+: combined)
    (djbSeqno : Option CStr) (circuitId : CStr) (cntRequestsOut time : ℕ) (key : Key) :
    CookieArrives field outcome djbSeqno circuitId cntRequestsOut time key value ↔
      outcome.reportable ∧ combined ≠ [] := by
  have stored {push : Request}
      (made : ssResponse2request outcome djbSeqno circuitId cntRequestsOut time = .ok push) :
      (djbHeader field (arrives key push)).user.setcookie = combined := by
    simp only [djbHeader, arrives, (push_cookies made).1, heard, Option.getD_some]
    exact maps.whole 8192 combined fits
  have reportable := ssResponse2request_isOk outcome djbSeqno circuitId cntRequestsOut time
  constructor
  · rintro ⟨push, made, header, told, name, _⟩
    rw [made] at reportable
    refine ⟨reportable.symm, fun missing => ?_⟩
    rw [respond_pushAnswer, stored made, if_pos missing, List.nil_append] at told
    have other := List.all_eq_true.mp (push_cookies made).2 header told
    rw [name] at other
    cases other
  · rintro ⟨reports, some_text⟩
    obtain ⟨push, made⟩ := exists_ok_of_isOk (reportable.trans reports)
    refine ⟨push, made, ("Set-Cookie".toList, combined), ?_, rfl, part⟩
    rw [respond_pushAnswer, stored made, if_neg some_text]
    exact List.mem_append_left _ List.mem_cons_self

/-- Every cookie of the server arrives, and none is left to the browser. -/
def CookiesReachClient (field : ℕ → CStr → CStr) (headers received : List HttpHeader)
    (outcome : Response) (djbSeqno : Option CStr) (circuitId : CStr) (cntRequestsOut time : ℕ)
    (key : Key) : Prop :=
  (∀ header ∈ headers, isSetCookie header →
    CookieArrives field outcome djbSeqno circuitId cntRequestsOut time key header.field.2) ∧
  ∀ header ∈ received, isSetCookie header = false

/-- There is one cookie at most, under the name that the listener looks for, and what it
is made of can be pushed. -/
def OneCookie (headers : List HttpHeader) (outcome : Response) : Prop :=
  headers.filter isSetCookie = [] ∨
    ∃ cookie, headers.filter isSetCookie = [cookie] ∧ cookie.name = "Set-Cookie".toList ∧
      (cookie.field.2 ≠ [] ∨ headers.any isDjbSetCookie) ∧ outcome.reportable

/-- The cookies of a response reach the client, and not the browser's own store, exactly
if there is one of them at most. -/
theorem cookies_reach_client_iff {field : ℕ → CStr → CStr} (maps : MiscMap field)
    (recorded : CStr → Bool) (requestId : CStr) (asked : recorded requestId = true)
    (headers : List HttpHeader) (outcome : Response)
    (heard : outcome.headers =
      (onHeadersReceived recorded requestId headers).1.map HttpHeader.field)
    (fits : ∀ value, outcome.getResponseHeader "DJB-Set-Cookie".toList = some value →
      value.length < 8192)
    (djbSeqno : Option CStr) (circuitId : CStr) (cntRequestsOut time : ℕ) (key : Key) :
    CookiesReachClient field headers (onHeadersReceived recorded requestId headers).1 outcome
        djbSeqno circuitId cntRequestsOut time key ↔
      OneCookie headers outcome := by
  have renamed : (onHeadersReceived recorded requestId headers).1 = renameSetCookie headers := by
    rw [onHeadersReceived, if_pos asked]
  rw [renamed] at heard ⊢
  rw [CookiesReachClient, none_left_iff]
  have arrives_iff {cookie : HttpHeader} (only : headers.filter isSetCookie = [cookie])
      (name : cookie.name = "Set-Cookie".toList) :
      CookieArrives field outcome djbSeqno circuitId cntRequestsOut time key cookie.field.2 ↔
        outcome.reportable ∧ (cookie.field.2 ≠ [] ∨ headers.any isDjbSetCookie) := by
    obtain ⟨front, back, split, after⟩ := renamed_at only name
    rw [after] at heard
    have values : djbSetCookies (front ++ { cookie with name := "DJB-Set-Cookie".toList } :: back) =
        djbSetCookies front ++ cookie.field.2 :: djbSetCookies back := by
      rw [djbSetCookies_append, djbSetCookies, djbSetCookies,
        List.filter_cons_of_pos (isSetCookie_renamed cookie).2]
      rfl
    have others : headers.any isDjbSetCookie =
        (front.any isDjbSetCookie || back.any isDjbSetCookie) := by
      simp [split, (isSetCookie_of_name name).2]
    have combined := getResponseHeader_djbSetCookie heard
    rw [values, if_neg (by simp)] at combined
    have part : cookie.field.2 ∈ djbSetCookies front ++ cookie.field.2 :: djbSetCookies back := by
      simp
    rw [cookieArrives_iff maps combined (fits _ combined) (infix_intercalate _ part)]
    refine and_congr_right fun _ => ?_
    rw [Ne, intercalate_eq_nil (by decide), others, Bool.or_eq_true, ← Bool.not_eq_false,
      ← Bool.not_eq_false, ← djbSetCookies_eq_nil, ← djbSetCookies_eq_nil]
    cases djbSetCookies front <;> cases djbSetCookies back <;> simp
  have sole {cookie : HttpHeader} (only : headers.filter isSetCookie = [cookie]) :
      ∀ header, header ∈ headers ∧ isSetCookie header = true ↔ header = cookie := by
    intro header
    rw [← List.mem_filter, only, List.mem_singleton]
  constructor
  · rintro ⟨told, none_there | ⟨cookie, only, name⟩⟩
    · exact .inl none_there
    · obtain ⟨member, spelled⟩ := (sole only cookie).mpr rfl
      obtain ⟨reports, text⟩ := (arrives_iff only name).mp (told cookie member spelled)
      exact .inr ⟨cookie, only, name, text, reports⟩
  · rintro (none_there | ⟨cookie, only, name, text, reports⟩)
    · refine ⟨fun header member spelled => ?_, .inl none_there⟩
      exact absurd spelled (List.filter_eq_nil_iff.mp none_there header member)
    · refine ⟨fun header member spelled => ?_, .inr ⟨cookie, only, name⟩⟩
      obtain rfl := (sole only header).mp ⟨member, spelled⟩
      exact (arrives_iff only name).mpr ⟨reports, text⟩

def heardResponse (requestId : CStr) (headers : List HttpHeader) : Response where
  status := 200
  statusText := "OK".toList
  headers := (onHeadersReceived (fun _ => true) requestId headers).1.map HttpHeader.field
  response := some [1]

theorem cookie_reaches_client_alone :
    CookiesReachClient truncated
      [⟨"Server".toList, some "x".toList, none⟩, ⟨"Set-Cookie".toList, some "a=1".toList, none⟩]
      [⟨"Server".toList, some "x".toList, none⟩, ⟨"DJB-Set-Cookie".toList, some "a=1".toList, none⟩]
      (heardResponse [] [⟨"Server".toList, some "x".toList, none⟩,
        ⟨"Set-Cookie".toList, some "a=1".toList, none⟩]) none "0".toList 0 0 (2, 2) :=
  (cookies_reach_client_iff miscMap_truncated (fun _ => true) [] rfl _ (heardResponse [] _) rfl
    (fun value heard => by
      obtain rfl : "a=1".toList = value := Option.some.inj heard
      decide) none "0".toList 0 0 (2, 2)).mpr
    (.inr ⟨⟨"Set-Cookie".toList, some "a=1".toList, none⟩, by decide, rfl, by decide, rfl⟩)

theorem second_cookie_left :
    ¬∀ (field : ℕ → CStr → CStr) (recorded : CStr → Bool) (requestId : CStr)
      (headers : List HttpHeader) (outcome : Response) (djbSeqno : Option CStr)
      (circuitId : CStr) (cntRequestsOut time : ℕ) (key : Key), MiscMap field →
      recorded requestId = true →
      outcome.headers = (onHeadersReceived recorded requestId headers).1.map HttpHeader.field →
      (∀ value, outcome.getResponseHeader "DJB-Set-Cookie".toList = some value →
        value.length < 8192) →
      CookiesReachClient field headers (onHeadersReceived recorded requestId headers).1 outcome
        djbSeqno circuitId cntRequestsOut time key := by
  intro always
  have reached := always truncated (fun _ => true) []
    [⟨"Set-Cookie".toList, some "a=1".toList, none⟩, ⟨"Set-Cookie".toList, some "b=2".toList, none⟩]
    (heardResponse [] [⟨"Set-Cookie".toList, some "a=1".toList, none⟩,
      ⟨"Set-Cookie".toList, some "b=2".toList, none⟩]) none "0".toList 0 0 (2, 2) miscMap_truncated
    rfl rfl fun value heard => by
      obtain rfl : "a=1".toList = value := Option.some.inj heard
      decide
  have left := reached.2 ⟨"Set-Cookie".toList, some "b=2".toList, none⟩ (by decide)
  exact absurd left (by decide)

end Jumpbox.Plugin
