import ImageLinker.Compiler.Scripted
import ImageLinker.Evm.Machine
import ImageLinker.Main
import ImageLinker.Proofs.Walk
import ImageLinker.Proofs.Running
import ImageLinker.Proofs.Assembly
import ImageLinker.Proofs.Dispatch
import ImageLinker.Proofs.Routing
import ImageLinker.Proofs.Relocation
import ImageLinker.Proofs.Linking
import ImageLinker.Proofs.Packing
import ImageLinker.Proofs.Decoding
import ImageLinker.Proofs.ZeroPush
import ImageLinker.Proofs.Memory
import ImageLinker.Proofs.Deployment
import ImageLinker.Proofs.Selection
import ImageLinker.Proofs.Header
import ImageLinker.Proofs.Probing
import ImageLinker.Proofs.Schedule
import ImageLinker.Proofs.Hexadecimal
import ImageLinker.Proofs.Differences
import ImageLinker.Proofs.Patching
import ImageLinker.Proofs.Outcomes
import ImageLinker.Proofs.Reproducibility
import ImageLinker.Proofs.Agreement
import ImageLinker.Proofs.Counting
import ImageLinker.Proofs.Compatibility
import ImageLinker.Proofs.Addressing
import ImageLinker.Proofs.Extraction
import ImageLinker.Proofs.Places
import ImageLinker.Proofs.Publishing
import ImageLinker.Proofs.Checks.Build
import ImageLinker.Proofs.Checks.Products
import ImageLinker.Proofs.Sentinels
import ImageLinker.Proofs.Encoding
import ImageLinker.Proofs.Injection
import ImageLinker.Proofs.Checks.Boundaries
import ImageLinker.Proofs.Words.Conversions
import ImageLinker.Proofs.Framing
import ImageLinker.Proofs.Splitting
import ImageLinker.Proofs.Newest
import ImageLinker.Proofs.Roots
import ImageLinker.Proofs.Tiling
import ImageLinker.Proofs.Concatenation
import ImageLinker.Proofs.Replacement
