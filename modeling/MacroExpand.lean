import MacroExpand.Main
import MacroExpand.Proofs.Cancelling
import MacroExpand.Proofs.Clashes
import MacroExpand.Proofs.Failing
import MacroExpand.Proofs.Importing
import MacroExpand.Proofs.Loading
import MacroExpand.Proofs.MacroDefinitions
import MacroExpand.Proofs.Mentions
import MacroExpand.Proofs.Offsets
import MacroExpand.Proofs.RoundTrip
import MacroExpand.Proofs.Serializing
import MacroExpand.Proofs.SourceMaps
import MacroExpand.Proofs.Turns
import MacroExpand.Settings.Document
import MacroExpand.Value.Make
