import Bundler.Bundle
import Bundler.Draft
import Bundler.Graph.Value
import Bundler.Proofs.Bundle.Closed
import Bundler.Proofs.Exports.Resolution
import Bundler.Proofs.Output.Modules
import Bundler.Proofs.Bundle.Names
import Bundler.Proofs.Graph.Answers
import Bundler.Proofs.Naming.Again
import Bundler.Proofs.Graph.Chains
import Bundler.Proofs.Graph.Exploration
import Bundler.Proofs.Bundle.Again
import Bundler.Proofs.Graph.Members
import Bundler.Proofs.Graph.Accesses
import Bundler.Proofs.Bundle.OnceLinked
import Bundler.Proofs.Graph.Targets
import Bundler.Proofs.Bundle.Failure
import Bundler.Proofs.Bundle.Precedence
import Bundler.Proofs.Bundle.EntryExports
import Bundler.Proofs.Bundle.Unreachable
import Bundler.Proofs.Bundle.Legibility
import Bundler.Proofs.Bundle.Captures
import Bundler.Proofs.Bundle.Header
import Bundler.Proofs.Bundle.Execution
import Bundler.Proofs.Bundle.Effects
import Bundler.Proofs.Bundle.ExportTables
import Bundler.Proofs.Exports.Detours
import Bundler.Proofs.Graph.Rerouting
import Bundler.Proofs.Bundle.Reexports
import Bundler.Proofs.Patch.Requests
import Bundler.Proofs.Draft.Places
import Bundler.Proofs.Bundle.Warnings
import Bundler.Proofs.Respelling.Findings
import Bundler.Proofs.Bundle.Interrupted
import Bundler.Proofs.Graph.Values
import Bundler.Proofs.Diagnostic.Frames
import Bundler.Proofs.Reading.Points
import Bundler.Proofs.Path.Display
import Bundler.Proofs.Graph.Termination
import Bundler.Proofs.Inclusion.Termination
import Bundler.Proofs.Text.Stems
import Bundler.Proofs.Symbols.Proposals
import Bundler.Proofs.Inclusion.Additions
import Bundler.Proofs.Bundle.Imports
