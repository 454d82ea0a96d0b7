import MfaConsole.Bootstrap
import MfaConsole.Bus
import MfaConsole.Console.Basic
import MfaConsole.Console.Call
import MfaConsole.Console.Clients
import MfaConsole.Console.Desk
import MfaConsole.Console.Machines
import MfaConsole.Console.Pending
import MfaConsole.Console.Recovery
import MfaConsole.Console.Script
import MfaConsole.Console.Servers
import MfaConsole.Console.View
import MfaConsole.Host.ByteRange
import MfaConsole.Host.Config
import MfaConsole.Host.Date
import MfaConsole.Host.Directory
import MfaConsole.Host.MediaType
import MfaConsole.Host.Message
import MfaConsole.Host.Relay
import MfaConsole.Host.Route
import MfaConsole.Host.Site
import MfaConsole.Host.Target
import MfaConsole.Json.Basic
import MfaConsole.Json.Lexer
import MfaConsole.Json.Parser
import MfaConsole.Json.Printer
import MfaConsole.KeyMap
import MfaConsole.Locale.Catalog
import MfaConsole.Locale.Preference
import MfaConsole.Locale.Table
import MfaConsole.Markup.Document
import MfaConsole.Markup.Frame
import MfaConsole.Markup.Machines
import MfaConsole.Markup.Overview
import MfaConsole.Markup.Page
import MfaConsole.Markup.Recovery
import MfaConsole.Markup.Servers
import MfaConsole.Markup.Tree
import MfaConsole.Navigation.Links
import MfaConsole.Navigation.Pattern
import MfaConsole.Navigation.Registry
import MfaConsole.Navigation.State
import MfaConsole.Notices
import MfaConsole.Number.Digits
import MfaConsole.Number.Double
import MfaConsole.Number.Rounding
import MfaConsole.Number.Shortest
import MfaConsole.Number.Single
import MfaConsole.Release
import MfaConsole.Rest.Endpoints
import MfaConsole.Rest.Exchange
import MfaConsole.Rest.Failure
import MfaConsole.Rest.Operation
import MfaConsole.Store
import MfaConsole.Text.Blank
import MfaConsole.Text.Fold
import MfaConsole.Text.Form
import MfaConsole.Text.Percent
import MfaConsole.Text.Pieces
import MfaConsole.Text.Utf8
import MfaConsole.Url.Path
import MfaConsole.Url.Reference
import MfaConsole.Wire.Client
import MfaConsole.Wire.Envelope
import MfaConsole.Wire.Machine
import MfaConsole.Wire.OptionText
import MfaConsole.Wire.Reader
import MfaConsole.Wire.Recovery
import MfaConsole.Wire.Server
import MfaConsole.Wire.Token
import MfaConsole.Proofs.History
import MfaConsole.Proofs.Text.Escapes
import MfaConsole.Proofs.KeyMap
import MfaConsole.Proofs.Navigation.Address
import MfaConsole.Proofs.Url.Walk
import MfaConsole.Proofs.Url.Reading
import MfaConsole.Proofs.Console.Effect
import MfaConsole.Proofs.Console.FreshListing
import MfaConsole.Proofs.Console.MachinesEffect
import MfaConsole.Proofs.Console.TokenView
import MfaConsole.Proofs.Host.RelayScope
import MfaConsole.Proofs.Navigation.Choice
import MfaConsole.Proofs.Navigation.Redirects
import MfaConsole.Proofs.Navigation.Settling
import MfaConsole.Proofs.Console.Exchanges
import MfaConsole.Proofs.Console.Relisting
import MfaConsole.Proofs.Bus.Mailboxes
import MfaConsole.Proofs.Bus.Delivery
import MfaConsole.Proofs.Text.Blank
import MfaConsole.Proofs.Wire.OptionText
import MfaConsole.Proofs.Console.RowSave
import MfaConsole.Proofs.Console.FormView
import MfaConsole.Proofs.Host.ResourceUrls
import MfaConsole.Proofs.Console.Reports
import MfaConsole.Proofs.Console.StaleData
import MfaConsole.Proofs.Bus.Sparing
import MfaConsole.Proofs.Console.Turns
import MfaConsole.Proofs.Console.Watching
import MfaConsole.Proofs.Console.Confirmations
import MfaConsole.Proofs.Host.MountPath
import MfaConsole.Proofs.Wire.Additions
import MfaConsole.Proofs.Rest.ResourcePaths
import MfaConsole.Proofs.Rest.OperationTargets
import MfaConsole.Proofs.Url.Dotless
import MfaConsole.Proofs.Rest.DotSegments
import MfaConsole.Proofs.Console.FormWrites
import MfaConsole.Proofs.Wire.OptionMembers
import MfaConsole.Proofs.Store.Telling
import MfaConsole.Proofs.Console.TokenChanges
import MfaConsole.Proofs.Store.Notifying
import MfaConsole.Proofs.Notices
import MfaConsole.Proofs.Console.Rejections
import MfaConsole.Proofs.Console.RecoverySteps
import MfaConsole.Proofs.Rest.FilterQueries
import MfaConsole.Proofs.Host.Relaying
import MfaConsole.Proofs.Navigation.Lineage
import MfaConsole.Proofs.Navigation.Rendering
import MfaConsole.Proofs.Locale.Preferred
