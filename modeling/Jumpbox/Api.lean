import Jumpbox.Libfutil

/-! Which handler a request reaches: `djb_handle` and `djb_handle_api`, with the
sub-dispatchers of the modules they call. -/

namespace Jumpbox

inductive Route
  | proxy
  | pull
  | push
  | acsSetup
  | acsProgress
  | rendezvous
  | prfSet
  | prfBrList
  | shutdown
  | launchStegotorus
  | launchTor
  | status
  | css
  | error (msg : CStr)
  deriving DecidableEq, Repr

/-- `acs_handle`, past the `/acs` of the URI. -/
def acsHandle (uri : CStr) : Route :=
  if strcaseEq uri "/setup/".toList then .acsSetup
  else if strcaseEq uri "/progress/".toList then .acsProgress
  else .error "No such DJB API request (ACS)".toList

/-- `prf_handle`, past the `/preferences` of the URI. -/
def prfHandle (uri : CStr) : Route :=
  if strcaseEq uri "/set/".toList then .prfSet
  else if strcaseEq uri "/bridge/list/".toList then .prfBrList
  else .error "No such DJB API request (Preferences)".toList

def djbHandleApi (uri : CStr) : Route :=
  if strncaseEq uri "/pull/".toList 6 then .pull
  else if strncaseEq uri "/push/".toList 6 then .push
  else if strncaseEq uri "/acs/".toList 5 then acsHandle (uri.drop 4)
  else if strncaseEq uri "/rendezvous/".toList 12 then .rendezvous
  -- the length given covers `/preferences` only
  else if strncaseEq uri "/preferences/".toList 12 then prfHandle (uri.drop 12)
  else if strcaseEq uri "/shutdown/".toList then .shutdown
  else if strcaseEq uri "/launch/stegotorus/".toList then .launchStegotorus
  else if strcaseEq uri "/launch/tor/".toList then .launchTor
  else if strcaseEq uri "/".toList then .status
  else if strcaseEq uri "/djb.css".toList then .css
  else .error "No such DJB API request".toList

/-- The hostnames under which `djb_handle` takes a request for its own API. -/
def djbHosts : List CStr :=
  ["127.0.0.1:6543".toList, "[::1]:6543".toList, "localhost:6543".toList]

def djbHandle (hcl : HttpsrvClient) : Route :=
  if hcl.hostname ∈ djbHosts then djbHandleApi hcl.uri else .proxy

end Jumpbox
