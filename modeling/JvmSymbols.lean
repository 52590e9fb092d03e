import JvmSymbols.Mapping.Structure
import JvmSymbols.Mapping.File
import JvmSymbols.Mapping.Writer
import JvmSymbols.Naming.Outline
import JvmSymbols.Naming.Resolve
import JvmSymbols.Settings.File
import JvmSymbols.Logging.Session
import JvmSymbols.Proofs.Mapping.Grammar
import JvmSymbols.Proofs.Mapping.Reading
import JvmSymbols.Proofs.Text.Bytes
import JvmSymbols.Proofs.Text.Words
import JvmSymbols.Proofs.Mapping.RoundTrip
import JvmSymbols.Proofs.Mapping.Acceptance
import JvmSymbols.Proofs.Naming.Inverse
import JvmSymbols.Proofs.Naming.Soundness
import JvmSymbols.Proofs.Descriptor.Spelling
import JvmSymbols.Proofs.Descriptor.RoundTrip
import JvmSymbols.Proofs.Descriptor.Renaming
import JvmSymbols.OneToOne.Builder
import JvmSymbols.Proofs.OneToOne.Building
import JvmSymbols.Proofs.Mapping.TwoWay
import JvmSymbols.Proofs.Mapping.Duality
import JvmSymbols.Proofs.Mapping.Canonical
import JvmSymbols.Proofs.Mapping.Translation
import JvmSymbols.Proofs.Mapping.Structure
import JvmSymbols.Proofs.Naming.Climb
import JvmSymbols.Proofs.Mapping.Fault
import JvmSymbols.Proofs.Logging.Session
import JvmSymbols.Proofs.Naming.Order
import JvmSymbols.Proofs.Naming.Appending
import JvmSymbols.Proofs.Naming.Renumbering
import JvmSymbols.Proofs.Descriptor.Grammar
import JvmSymbols.Proofs.Descriptor.Composition
import JvmSymbols.Proofs.Descriptor.Refusal
import JvmSymbols.Proofs.Descriptor.Prefix
import JvmSymbols.Proofs.Mapping.Written
import JvmSymbols.Proofs.Mapping.Strictness
import JvmSymbols.Proofs.OneToOne.Equality
import JvmSymbols.Index
import JvmSymbols.Naming.Arena
import JvmSymbols.Proofs.Naming.Arena
import JvmSymbols.Proofs.Text.LineEnds
import JvmSymbols.Proofs.Logging.Recent
import JvmSymbols.Proofs.Logging.Filter
import JvmSymbols.Proofs.Mapping.LineEnds
import JvmSymbols.Proofs.Member
import JvmSymbols.Proofs.Sorting
import JvmSymbols.Proofs.Settings.Reading
import JvmSymbols.Proofs.Settings.Unknown
import JvmSymbols.Proofs.Settings.Fields
import JvmSymbols.Proofs.Settings.Recognised
