import Wayfinder.Browse.Cursor
import Wayfinder.Browse.Screen
import Wayfinder.Browse.Session
import Wayfinder.Command
import Wayfinder.CommandLine.Options
import Wayfinder.CommandLine.Reading
import Wayfinder.CommandLine.Usage
import Wayfinder.Credential.Base64
import Wayfinder.Credential.Certificate
import Wayfinder.Credential.Claims
import Wayfinder.Credential.Pem
import Wayfinder.Credential.Plugin
import Wayfinder.Failure
import Wayfinder.Files.Desk
import Wayfinder.Files.Disk
import Wayfinder.Files.Path
import Wayfinder.Json.Basic
import Wayfinder.Json.Parser
import Wayfinder.Json.Printer
import Wayfinder.Json.Record
import Wayfinder.Kubeconfig.Basic
import Wayfinder.Kubeconfig.Document
import Wayfinder.Kubeconfig.Layout
import Wayfinder.Kubeconfig.Store
import Wayfinder.Main
import Wayfinder.NameMap
import Wayfinder.Number.Binary64
import Wayfinder.Number.Decimal
import Wayfinder.Place.Accept
import Wayfinder.Place.Api
import Wayfinder.Place.Derive
import Wayfinder.Place.Listing
import Wayfinder.Place.Node
import Wayfinder.Place.Server
import Wayfinder.Place.Walk
import Wayfinder.Proofs.Activation
import Wayfinder.Proofs.Addresses
import Wayfinder.Proofs.AllOrNothing
import Wayfinder.Proofs.Alternation
import Wayfinder.Proofs.Asking
import Wayfinder.Proofs.Breadcrumbs
import Wayfinder.Proofs.Breaking
import Wayfinder.Proofs.Browsing
import Wayfinder.Proofs.Capturing
import Wayfinder.Proofs.Carrying
import Wayfinder.Proofs.Claiming
import Wayfinder.Proofs.Committing
import Wayfinder.Proofs.Confinement
import Wayfinder.Proofs.Continuing
import Wayfinder.Proofs.Counting
import Wayfinder.Proofs.Deriving
import Wayfinder.Proofs.Encoding
import Wayfinder.Proofs.Endpoints
import Wayfinder.Proofs.Exposing
import Wayfinder.Proofs.Failing
import Wayfinder.Proofs.Framing
import Wayfinder.Proofs.FreeName
import Wayfinder.Proofs.Interrupting
import Wayfinder.Proofs.Laying
import Wayfinder.Proofs.Listing
import Wayfinder.Proofs.Merging
import Wayfinder.Proofs.Nulling
import Wayfinder.Proofs.Orderliness
import Wayfinder.Proofs.Pointing
import Wayfinder.Proofs.Printing
import Wayfinder.Proofs.Prolonging
import Wayfinder.Proofs.Recalling
import Wayfinder.Proofs.Recognizing
import Wayfinder.Proofs.Relabelling
import Wayfinder.Proofs.Renaming
import Wayfinder.Proofs.Repeating
import Wayfinder.Proofs.Requesting
import Wayfinder.Proofs.Rereading
import Wayfinder.Proofs.Retracing
import Wayfinder.Proofs.Returning
import Wayfinder.Proofs.Routes
import Wayfinder.Proofs.Sameness
import Wayfinder.Proofs.Saving
import Wayfinder.Proofs.Segments
import Wayfinder.Proofs.Sparing
import Wayfinder.Proofs.Stalling
import Wayfinder.Proofs.Verifying
import Wayfinder.Proofs.Watching
import Wayfinder.Remote.Cloud
import Wayfinder.Remote.Endpoint
import Wayfinder.Remote.Request
import Wayfinder.Shell.Escape
import Wayfinder.Shell.Format
import Wayfinder.Shell.Run
import Wayfinder.Shell.Script
import Wayfinder.Shell.Utility
import Wayfinder.Shell.Word
import Wayfinder.Switch.Activate
import Wayfinder.Switch.Commit
import Wayfinder.Switch.Merge
import Wayfinder.Switch.Names
import Wayfinder.Switch.Pointer
import Wayfinder.Text.Blank
import Wayfinder.Text.Pieces
import Wayfinder.Text.Printable
import Wayfinder.Text.Quoted
import Wayfinder.Text.Utf8
import Wayfinder.Tree.Basic
import Wayfinder.Tree.Plain
import Wayfinder.Tree.Reading
import Wayfinder.Url.Address
import Wayfinder.Url.Basic
import Wayfinder.Url.Domain
import Wayfinder.Url.Percent
import Wayfinder.Url.Punycode
import Wayfinder.Value
import Wayfinder.Yaml.Expansion
import Wayfinder.Yaml.Node
import Wayfinder.Yaml.Printer
import Wayfinder.Yaml.Reach
import Wayfinder.Yaml.Scalar
import Wayfinder.Yaml.Style
import Wayfinder.Yaml.Token
