import Keyrings.Main
import Keyrings.Session
import Keyrings.Proofs.Window
import Keyrings.Proofs.Decimal
import Keyrings.Proofs.KeyFile
import Keyrings.Proofs.FileTree
import Keyrings.Proofs.Lock
import Keyrings.Proofs.FreshKey
import Keyrings.Proofs.Names
import Keyrings.Proofs.Renewal
import Keyrings.Proofs.Reload
import Keyrings.Proofs.History
import Keyrings.Proofs.Runs
import Keyrings.Proofs.Attempts
import Keyrings.Proofs.Contest
import Keyrings.Proofs.Footprint
import Keyrings.Proofs.Stages
import Keyrings.Proofs.Writers
import Keyrings.Proofs.Readiness
import Keyrings.Proofs.Crash
import Keyrings.Proofs.Bystanders
import Keyrings.Proofs.Growth
import Keyrings.Proofs.Interference
import Keyrings.Proofs.Loads
import Keyrings.Proofs.Confinement
import Keyrings.Proofs.Contexts
import Keyrings.Proofs.Grammar
import Keyrings.Proofs.Listing
import Keyrings.Proofs.Staleness
import Keyrings.Proofs.Likeness
import Keyrings.Proofs.Secrecy
import Keyrings.Proofs.Appending
import Keyrings.Proofs.Truncation
import Keyrings.Proofs.Draws
import Keyrings.Proofs.Waiting
import Keyrings.Proofs.Supply
import Keyrings.Proofs.Lengths
import Keyrings.Proofs.Settings
import Keyrings.Proofs.Overflow
import Keyrings.Proofs.Spelling
import Keyrings.Proofs.Rounding
import Keyrings.Proofs.Counts
import Keyrings.Proofs.Verbatim
