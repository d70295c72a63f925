import Stencil.Batch
import Stencil.Categorization
import Stencil.Catalog
import Stencil.Catalog.Document
import Stencil.Command
import Stencil.Discovery
import Stencil.Extraction
import Stencil.Identifier.Drawn
import Stencil.Inspection
import Stencil.Main
import Stencil.Rendering
import Stencil.Script.Literals
import Stencil.Setup
import Stencil.Summary
import Stencil.Validation
import Stencil.Proofs.Batch.Accounts
import Stencil.Proofs.Batch.Balance
import Stencil.Proofs.Batch.Filtered
import Stencil.Proofs.Batch.Ratings
import Stencil.Proofs.Batch.Rerun
import Stencil.Proofs.Catalog.Agreement
import Stencil.Proofs.Catalog.Annals
import Stencil.Proofs.Catalog.Loading
import Stencil.Proofs.Catalog.Persistence
import Stencil.Proofs.Catalog.Queries
import Stencil.Proofs.Catalog.Storing
import Stencil.Proofs.Categorization
import Stencil.Proofs.Extraction.Members
import Stencil.Proofs.Extraction.Naming
import Stencil.Proofs.Extraction.Schema
import Stencil.Proofs.Extraction.Settings
import Stencil.Proofs.Extraction.Validity
import Stencil.Proofs.Grammar.Joined
import Stencil.Proofs.Grammar.Trees
import Stencil.Proofs.Inspection.Walk
import Stencil.Proofs.Rendering.Bindings
import Stencil.Proofs.Rendering.Tokens
import Stencil.Proofs.Text.Positions
