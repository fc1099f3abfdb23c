import ScriptHost.Session.Run
import ScriptHost.Session.Inquiry
import ScriptHost.Proofs.Command.History
import ScriptHost.Proofs.Style.Rendering
import ScriptHost.Proofs.Session.Disposal
import ScriptHost.Proofs.Session.Accounting
import ScriptHost.Proofs.Gate.Steps
import ScriptHost.Proofs.Timeline.Merging
import ScriptHost.Proofs.Command.Signals
import ScriptHost.Proofs.Registry.Standing
import ScriptHost.Proofs.Style.Family
import ScriptHost.Proofs.Session.Registration
import ScriptHost.Proofs.Style.Refinement
import ScriptHost.Proofs.Style.Foreign
import ScriptHost.Proofs.Timeline.Measuring
import ScriptHost.Proofs.Gate.Entering
import ScriptHost.Proofs.Session.Renderer
import ScriptHost.Proofs.Timeline.Scripts
import ScriptHost.Proofs.Session.Along
import ScriptHost.Proofs.Session.Orderly
import ScriptHost.Proofs.Session.Effects
import ScriptHost.Proofs.Session.Reports
import ScriptHost.Proofs.Holdings.Spellings
import ScriptHost.Proofs.Style.Commands
import ScriptHost.Proofs.Timeline.Summary
import ScriptHost.Proofs.Holdings.Caching
import ScriptHost.Proofs.Binary64.Integers
import ScriptHost.Proofs.Session.Removal
import ScriptHost.Proofs.Timeline.Log
import ScriptHost.Proofs.Listener.History
import ScriptHost.Proofs.Listener.Handles
import ScriptHost.Proofs.Session.Rosters
