import Crunch.Main
import Crunch.Proofs.Adoption
import Crunch.Proofs.Anchoring
import Crunch.Proofs.Base64
import Crunch.Proofs.Callee
import Crunch.Proofs.Calls
import Crunch.Proofs.Collection
import Crunch.Proofs.Comment
import Crunch.Proofs.Comparison
import Crunch.Proofs.Concat
import Crunch.Proofs.Conversion
import Crunch.Proofs.Coverage
import Crunch.Proofs.Csv
import Crunch.Proofs.Domains
import Crunch.Proofs.Encode
import Crunch.Proofs.FileObject
import Crunch.Proofs.Hash
import Crunch.Proofs.Hexadecimal
import Crunch.Proofs.Join
import Crunch.Proofs.Known
import Crunch.Proofs.Lifetime
import Crunch.Proofs.Mutation
import Crunch.Proofs.Power
import Crunch.Proofs.Progress
import Crunch.Proofs.Reading
import Crunch.Proofs.Recall
import Crunch.Proofs.Reentry
import Crunch.Proofs.Rejections
import Crunch.Proofs.RoundTrip
import Crunch.Proofs.Row
import Crunch.Proofs.Sequence
import Crunch.Proofs.Shortcuts
import Crunch.Proofs.Soundness
import Crunch.Proofs.Spelling
import Crunch.Proofs.Stop
import Crunch.Proofs.TypeText
import Crunch.Proofs.Typed
import Crunch.Proofs.Unrolling
import Crunch.Proofs.Untyped
import Crunch.Proofs.WellFormed
import Crunch.Proofs.Hash
