import Rsdns.Balance.Order
import Rsdns.Cache.Lifetime
import Rsdns.Cache.Rebuild
import Rsdns.Cache.RoundTrip
import Rsdns.Common.DomainTrie
import Rsdns.Dns.LabelName
import Rsdns.Hosts.Coherence
import Rsdns.Hosts.Locking
import Rsdns.Library.Machine
import Rsdns.Rules.FirstMatch
import Rsdns.Plugins.Cache
import Rsdns.Plugins.Groups
import Rsdns.Plugins.Hosts
import Rsdns.Plugins.Rules
import Rsdns.Server.Freshness
import Rsdns.Balance.Settled
import Rsdns.Server.Switches
import Rsdns.Groups.Inline
import Rsdns.Groups.Reload
import Rsdns.Server.Owners
import Rsdns.Server.Reply
import Rsdns.Upstream.Pool
import Rsdns.Upstream.Checkout
import Rsdns.Upstream.Ranked
import Rsdns.Plugins.MatchTarget
import Rsdns.Hosts.Entries
import Rsdns.Names.LetterCase
import Rsdns.Dns.NameText
import Rsdns.Dns.ByteName
import Rsdns.Names.Ancestors
import Rsdns.Rules.InlineTrie
import Rsdns.Common.ByteLookup
import Rsdns.Common.LongestSuffix
import Rsdns.Rules.Placeholders
import Rsdns.Library.Base64Url
import Rsdns.Library.Percent
import Rsdns.Server.Doh
import Rsdns.Upstream.Failover
import Rsdns.Upstream.Ownership
import Rsdns.Dns.Spelling
import Rsdns.Server.Forwarded
import Rsdns.Server.Isolation
import Rsdns.Server.Countdown
import Rsdns.Hosts.History
import Rsdns.Hosts.Overrides
import Rsdns.Hosts.Answers
import Rsdns.Hosts.Resolution
import Rsdns.Upstream.Breaker
import Rsdns.Upstream.Idle
import Rsdns.Upstream.Reuse
import Rsdns.Upstream.Address
import Rsdns.Upstream.Startup
import Rsdns.Upstream.Candidates
import Rsdns.Upstream.Resolved
import Rsdns.Balance.Frame
import Rsdns.Balance.Agreement
import Rsdns.Balance.Idempotent
import Rsdns.Server.Rebalanced
import Rsdns.Rules.Chains
import Rsdns.Rules.TargetText
import Rsdns.Rules.TemplateMatch
import Rsdns.Rules.Substitution
import Rsdns.Library.Base64Canonical
import Rsdns.Library.IpReading
import Rsdns.Upstream.HostPort
import Rsdns.Groups.Unchanged
import Rsdns.Library.IpPrinting
import Rsdns.Balance.Cidrs
import Rsdns.Upstream.Cooldown
import Rsdns.Rules.EchCompletion
import Rsdns.Plugins.Logs
import Rsdns.Logs.Template
import Rsdns.Plugins.Watch
import Rsdns.Hosts.Locality
import Rsdns.Hosts.Watching
import Rsdns.Upstream.GroupCalls
import Rsdns.Upstream.GroupHistory
import Rsdns.Upstream.GroupAlone
import Rsdns.Library.RoundRobin
import Rsdns.Upstream.Turns
import Rsdns.Library.Interaction
import Rsdns.Rules.Requests
import Rsdns.Rules.RulesRun
import Rsdns.Rules.Templates
import Rsdns.Metrics.Totals
import Rsdns.Server.Datagrams
import Rsdns.Logs.Sink
import Rsdns.Metrics.Metered
import Rsdns.Server.Accounting
import Rsdns.Server.Launch
import Rsdns.Upstream.Gauge
