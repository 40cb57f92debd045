import ProbablePrime.Main
import ProbablePrime.Proofs.Primality.ErrorBound
import ProbablePrime.Proofs.Sampling.Uniform
import ProbablePrime.Proofs.Primality.Sieve
import ProbablePrime.Proofs.Primality.Verdict
import ProbablePrime.Number.Lemmas
import ProbablePrime.Primality.Lemmas
import ProbablePrime.Proofs.Sampling.Sized
import ProbablePrime.Proofs.Generator.Search
import ProbablePrime.Proofs.Sample.Verification
import ProbablePrime.Proofs.Sample.Tampering
import ProbablePrime.Proofs.Sample.ReadBack
import ProbablePrime.Proofs.Generator.Multiplicity
import ProbablePrime.Proofs.Vectors.ScanWalk
import ProbablePrime.Proofs.Draw.Causality
import ProbablePrime.Proofs.Draw.Operations
import ProbablePrime.Proofs.Files.Writing
import ProbablePrime.Proofs.Vectors.Classified
import ProbablePrime.Proofs.Command.Settings
import ProbablePrime.Proofs.Command.Run
import ProbablePrime.Proofs.Generator.Plan
import ProbablePrime.Proofs.Vectors.Acceptance
import ProbablePrime.Proofs.Vectors.RoundTrip
import ProbablePrime.Proofs.Primality.StrongRounds
import ProbablePrime.Entropy.Shared
import ProbablePrime.Proofs.Command.Report
import ProbablePrime.Proofs.Entropy.KeyStream
import ProbablePrime.Proofs.Primality.MoreRounds
import ProbablePrime.Proofs.Vectors.InOrder
import ProbablePrime.Proofs.Json.Passing
import ProbablePrime.Proofs.Vectors.ListForm
import ProbablePrime.Proofs.Vectors.Rendering
import ProbablePrime.Proofs.Command.Loading
import ProbablePrime.Proofs.Draw.Causes
import ProbablePrime.Proofs.Primality.Guarded
import ProbablePrime.Proofs.Command.Spelling
import ProbablePrime.Proofs.Command.OrderFree
import ProbablePrime.Proofs.Log.Clauses
import ProbablePrime.Proofs.Log.Shown
import ProbablePrime.Proofs.Command.Logging
import ProbablePrime.Proofs.Primality.Marking
