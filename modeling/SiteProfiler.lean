import SiteProfiler.Pause.Safepoint
import SiteProfiler.Pause.Script
import SiteProfiler.Profile.Delivery
import SiteProfiler.Profiler.Exports
import SiteProfiler.Trace.Dump
import SiteProfiler.Pause.Threads
import SiteProfiler.Proofs.Site.Order
import SiteProfiler.Proofs.Profiler.History
import SiteProfiler.Proofs.Profiler.Interruption
import SiteProfiler.Proofs.Profiler.Sharing
import SiteProfiler.Proofs.Profiler.Poisoning
import SiteProfiler.Proofs.Profiler.Commuting
import SiteProfiler.Proofs.Profiler.Moments
import SiteProfiler.Proofs.Pause.Entrants
import SiteProfiler.Proofs.Pause.Overtaking
import SiteProfiler.Proofs.Pause.Safety
import SiteProfiler.Proofs.Pause.Progress
import SiteProfiler.Proofs.Pprof.Fields
import SiteProfiler.Proofs.Pprof.RoundTrip
import SiteProfiler.Proofs.Pprof.Depiction
import SiteProfiler.Proofs.Trace.Stages
import SiteProfiler.Proofs.Trace.Bracketing
import SiteProfiler.Proofs.Trace.Semaphore
import SiteProfiler.Proofs.Trace.Migration
import SiteProfiler.Proofs.Trace.Prefixes
import SiteProfiler.Proofs.Pprof.Respelling
import SiteProfiler.Proofs.Pprof.CutOff
import SiteProfiler.Proofs.Roster.AppendOnly
import SiteProfiler.Proofs.Pause.Bookkeeping
import SiteProfiler.Proofs.Profiler.Retrying
import SiteProfiler.Proofs.Site.SlotStacks
import SiteProfiler.Proofs.Profile.Failing
import SiteProfiler.Proofs.Profile.JsonText
import SiteProfiler.Proofs.Profile.Lossless
import SiteProfiler.Proofs.Profiler.Identity
import SiteProfiler.Proofs.Trace.Truncation
import SiteProfiler.Proofs.Profiler.Totals
