import Letterbook.Disk.Tree
import Letterbook.Main
import Letterbook.Settings.Json
import Letterbook.Settings.Text
import Letterbook.Proofs.Results
import Letterbook.Proofs.Prepared
import Letterbook.Proofs.Survey
import Letterbook.Proofs.Acceptance
import Letterbook.Proofs.ReportBlocks
import Letterbook.Proofs.Index
import Letterbook.Proofs.Lookup
import Letterbook.Proofs.Pieces
import Letterbook.Proofs.LocaleTag
import Letterbook.Proofs.ReportLines
import Letterbook.Proofs.Views
import Letterbook.Proofs.InstallOrder
import Letterbook.Proofs.Growth
import Letterbook.Proofs.Parts
import Letterbook.Proofs.Decoding
import Letterbook.Proofs.Manifest
import Letterbook.Proofs.Supplied
import Letterbook.Proofs.Filling
import Letterbook.Proofs.CommandLine
import Letterbook.Proofs.Markup.ReadPaths
import Letterbook.Proofs.Markup.RootKey
import Letterbook.Proofs.Markup.Agreement
import Letterbook.Proofs.Markup.Noninterference
import Letterbook.Proofs.Markup.Progress
import Letterbook.Proofs.Markup.StrictMode
import Letterbook.Proofs.DeclaredFields
import Letterbook.Proofs.Fallback
import Letterbook.Proofs.WrittenText
import Letterbook.Proofs.ManifestText
import Letterbook.Proofs.Markup.Mentions
import Letterbook.Proofs.Markup.ParsedPaths
import Letterbook.Proofs.Markup.RootReads
import Letterbook.Proofs.LocaleGrammar
import Letterbook.Proofs.LocaleRoundTrip
import Letterbook.Proofs.Merging
import Letterbook.Proofs.Paths
import Letterbook.Proofs.FileTree
import Letterbook.Proofs.FolderLoading
import Letterbook.Json.Equality
import Letterbook.Proofs.Settings.Layering
import Letterbook.Proofs.Settings.Loading
import Letterbook.Proofs.Settings.Precedence
import Letterbook.Proofs.Settings.QuotedText
import Letterbook.Proofs.Settings.SavedText
import Letterbook.Proofs.Settings.Overriding
import Letterbook.Proofs.FileWriting
import Letterbook.Proofs.Settings.Saving
import Letterbook.Proofs.Settings.Environment
import Letterbook.Proofs.Markup.Positions
import Letterbook.Proofs.ByteOrder
import Letterbook.Proofs.LocaleOrder
