import ModulePackaging.Archive.Basic
import ModulePackaging.Archive.Commit
import ModulePackaging.Archive.Layout
import ModulePackaging.Archive.Read
import ModulePackaging.Build.Basic
import ModulePackaging.Build.Report
import ModulePackaging.Build.Stage
import ModulePackaging.CommandLine.Grammar
import ModulePackaging.CommandLine.Options
import ModulePackaging.CommandLine.Run
import ModulePackaging.Curve.Edwards
import ModulePackaging.Curve.P256
import ModulePackaging.Curve.Residue
import ModulePackaging.Decimal.Binary64
import ModulePackaging.Decimal.Shortest
import ModulePackaging.Decimal.Whole
import ModulePackaging.Descriptor.Basic
import ModulePackaging.Descriptor.Check
import ModulePackaging.Descriptor.Resolve
import ModulePackaging.Descriptor.Stored
import ModulePackaging.Digest.Crc32
import ModulePackaging.Digest.Sha256
import ModulePackaging.Digest.Sha512
import ModulePackaging.Encoding.Base64
import ModulePackaging.Encoding.Hex
import ModulePackaging.Fault
import ModulePackaging.Files.Error
import ModulePackaging.Files.Path
import ModulePackaging.Files.Tree
import ModulePackaging.Host
import ModulePackaging.HostApi.Changes
import ModulePackaging.HostApi.Defines
import ModulePackaging.HostApi.Entry
import ModulePackaging.HostApi.Matrix
import ModulePackaging.HostApi.Releases
import ModulePackaging.HostApi.Table
import ModulePackaging.Json.Reader
import ModulePackaging.Json.Value
import ModulePackaging.Json.Writer
import ModulePackaging.Ledger
import ModulePackaging.Log
import ModulePackaging.Main
import ModulePackaging.Power
import ModulePackaging.Problem
import ModulePackaging.Project.Config
import ModulePackaging.Shell.Grammar
import ModulePackaging.Shell.Printing
import ModulePackaging.Shell.Run
import ModulePackaging.Shell.Script
import ModulePackaging.Shell.Session
import ModulePackaging.Shell.Token
import ModulePackaging.Shell.Utility
import ModulePackaging.Signing.Block
import ModulePackaging.Signing.Der
import ModulePackaging.Signing.Key
import ModulePackaging.Signing.KeyFile
import ModulePackaging.Signing.Pem
import ModulePackaging.Text.Basic
import ModulePackaging.Text.Blank
import ModulePackaging.Text.CaseFold
import ModulePackaging.Text.CodePage
import ModulePackaging.Text.Codec
import ModulePackaging.Text.Digit
import ModulePackaging.Text.Lowercase
import ModulePackaging.Text.Printable
import ModulePackaging.Text.Quoted
import ModulePackaging.Text.Range
import ModulePackaging.Text.Utf8
import ModulePackaging.Toolchain
import ModulePackaging.Version.Basic
import ModulePackaging.Version.Order
import ModulePackaging.Workspace
import ModulePackaging.Zip.Error
import ModulePackaging.Zip.Format
import ModulePackaging.Zip.Inflate
import ModulePackaging.Zip.Reader
import ModulePackaging.Proofs.Signing.SignedBytes
import ModulePackaging.Proofs.Build.Installing
import ModulePackaging.Proofs.Archive.Accepted
import ModulePackaging.Proofs.HostApi.Lookup
import ModulePackaging.Proofs.Ledger.Restoring
import ModulePackaging.Proofs.Archive.Pinning
import ModulePackaging.Proofs.Archive.Naming
import ModulePackaging.Proofs.VersionOrder
import ModulePackaging.Proofs.Resolving
import ModulePackaging.Proofs.Archive.Members
import ModulePackaging.Proofs.Archive.Refusals
import ModulePackaging.Proofs.Build.Commuting
import ModulePackaging.Proofs.StoredDescriptors
import ModulePackaging.Proofs.VersionGrammar
import ModulePackaging.Proofs.Json.Canonical
import ModulePackaging.Proofs.HostApi.Appending
import ModulePackaging.Proofs.KeyOrder
import ModulePackaging.Proofs.Archive.Conflicts
import ModulePackaging.Proofs.HostApi.Registering
import ModulePackaging.Proofs.Overrides
import ModulePackaging.Proofs.HostApi.Changes
import ModulePackaging.Proofs.Archive.Reordering
import ModulePackaging.Proofs.VersionText
import ModulePackaging.Proofs.HostApi.Patterns
import ModulePackaging.Proofs.HostApi.Defines
import ModulePackaging.Proofs.HostApi.NetChanges
import ModulePackaging.Proofs.Signing.Kid
import ModulePackaging.Proofs.Project.Loading
import ModulePackaging.Proofs.CommandLine.Building
import ModulePackaging.Proofs.Build.SourceName
import ModulePackaging.Proofs.Archive.Normalizing
import ModulePackaging.Proofs.Ledger.Keys
import ModulePackaging.Proofs.Signing.NewKeys
import ModulePackaging.Proofs.Build.Inside
