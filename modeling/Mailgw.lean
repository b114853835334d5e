import Mailgw.Queue.Names
import Mailgw.Calls.Contract
import Mailgw.Calls.Runs
import Mailgw.Queue.Commands
import Mailgw.Queue.Orderly
import Mailgw.Queue.SharedBody
import Mailgw.Calls.Custody
import Mailgw.Deliver.Attempts
import Mailgw.Deliver.Credentials
import Mailgw.Deliver.Replies
import Mailgw.Dsn.Report
import Mailgw.Events.Addresses
import Mailgw.Queue.Attempts
import Mailgw.Queue.AuditTrail
import Mailgw.Queue.CrashSafety
import Mailgw.Queue.TransientFaults
import Mailgw.Rules.Schema
import Mailgw.Text.Letters
import Mailgw.Lists.Groups
import Mailgw.Rules.Compile
import Mailgw.Rules.EarlyRouting
import Mailgw.Smtp.Commands
import Mailgw.Smtp.Split
import Mailgw.Smtp.Grouping
import Mailgw.Smtp.Judgement
import Mailgw.Calls.Stages
import Mailgw.Events.Abandoned
import Mailgw.Events.Accounting
import Mailgw.Events.Backlog
import Mailgw.Queue.Slots
import Mailgw.Rules.Writes
import Mailgw.Smtp.Conversation
import Mailgw.Smtp.LatestTag
import Mailgw.Smtp.Whitelist
import Mailgw.Node.Names
import Mailgw.Queue.Marks
import Mailgw.Buckets.Window
import Mailgw.Central.Deployments
import Mailgw.Central.History
import Mailgw.Ratelimit.Levels
import Mailgw.Ratelimit.Meaning
import Mailgw.Smtp.Authentication
import Mailgw.Smtp.Guessing
import Mailgw.Store.Booting
import Mailgw.Store.Claims
import Mailgw.Store.Revocation
import Mailgw.Central.Bundle
import Mailgw.Central.Orders
import Mailgw.Migrate.Runner
import Mailgw.Migrate.Serialised
import Mailgw.Rules.Blindness
import Mailgw.Smtp.Admission
import Mailgw.Smtp.Greeting
import Mailgw.Smtp.Isolation
import Mailgw.Smtp.Occupancy
import Mailgw.Bits.Words
import Mailgw.Config.Allowlist
import Mailgw.Deliver.Accounts
import Mailgw.Deliver.Exchangers
import Mailgw.Queue.Targets
import Mailgw.Rules.Glob
import Mailgw.Rules.GlobMatching
import Mailgw.Rules.GlobMeaning
import Mailgw.Rules.Legacy
import Mailgw.Rules.Refusals
import Mailgw.Rules.Stages
import Mailgw.Smtp.Reordered
import Mailgw.Smtp.Unqueued
import Mailgw.Attach.Complete
import Mailgw.Deliver.Freshness
import Mailgw.Dsn.Build
import Mailgw.Dsn.Lines
import Mailgw.Dsn.Splitting
import Mailgw.Dsn.Statuses
import Mailgw.Msgauth.Forgeries
import Mailgw.Proxyproto.Addresses
import Mailgw.Proxyproto.Encoding
import Mailgw.Proxyproto.Grammar
import Mailgw.Queue.HeaderBlock
import Mailgw.Queue.Keeping
import Mailgw.Queue.References
import Mailgw.Smtp.Scan
import Mailgw.Central.Canonical
import Mailgw.Central.Secrets
import Mailgw.Config.Bundle
import Mailgw.Config.Redaction
import Mailgw.Domains.Organizational
import Mailgw.Dsn.Xtext
import Mailgw.GoJson.Exact
import Mailgw.Lists.Pages
import Mailgw.Logservice.Agreement
import Mailgw.Logservice.Pagination
import Mailgw.Msgauth.Dmarc
import Mailgw.Queue.Due
import Mailgw.Queue.FileNames
import Mailgw.Store.Codes
import Mailgw.Serving.Runs
import Mailgw.Serving.Agent
