import Jumpbox.Library.Machine
import Jumpbox.Library.Table
import Jumpbox.Library.Fifo
import Jumpbox.Library.Double
import Jumpbox.SeqNo
import Jumpbox.Api
import Jumpbox.Proxy.State
import Jumpbox.Proxy.Step
import Jumpbox.Proxy.Cases
import Jumpbox.Proxy.Accounts
import Jumpbox.Proxy.Custody
import Jumpbox.Proxy.Pairing
import Jumpbox.Proxy.Closing
import Jumpbox.Proxy.Bodies
import Jumpbox.Proxy.Whole
import Jumpbox.Proxy.Hearing
import Jumpbox.Plugin.Circuit
import Jumpbox.Plugin.Composition
import Jumpbox.Acs.Dance
import Jumpbox.Acs.Stages
import Jumpbox.Acs.Roles
import Jumpbox.Acs.Step
import Jumpbox.Acs.Baton
import Jumpbox.Acs.Counts
import Jumpbox.Acs.Finish
import Jumpbox.Acs.Window
import Jumpbox.Acs.Polls
import Jumpbox.Library.Locks
import Jumpbox.Acs.Locks
import Jumpbox.Acs.Setup
import Jumpbox.Acs.Moonwalk
import Jumpbox.Plugin.Headers
import Jumpbox.Plugin.Page
import Jumpbox.Proxy.Pulled
import Jumpbox.Plugin.Report
import Jumpbox.Rendezvous.State
import Jumpbox.Rendezvous.Handle
import Jumpbox.Rendezvous.Step
import Jumpbox.Rendezvous.Verified
import Jumpbox.Rendezvous.Epochs
import Jumpbox.Library.Path
import Jumpbox.Rendezvous.File
import Jumpbox.Preferences.Store
import Jumpbox.Preferences.Visits
import Jumpbox.Preferences.Effect
import Jumpbox.Preferences.Arguments
import Jumpbox.Launch.Program
import Jumpbox.Launch.Tracked
import Jumpbox.Launch.Stegotorus
import Jumpbox.Proxy.Touch
import Jumpbox.Answer.Invocation
import Jumpbox.Answer.Branches
import Jumpbox.Answer.Quiet
import Jumpbox.Answer.Once
import Jumpbox.Plugin.Cookies
import Jumpbox.Plugin.Launcher
import Jumpbox.Rendezvous.Captcha
import Jumpbox.Rendezvous.Proper
import Jumpbox.Rendezvous.Leftovers
import Jumpbox.Preferences.Bridges
import Jumpbox.Acs.Clients
import Jumpbox.Plugin.Presses
import Jumpbox.Plugin.Ticket
import Jumpbox.Plugin.Relayed
import Jumpbox.Plugin.Saved
