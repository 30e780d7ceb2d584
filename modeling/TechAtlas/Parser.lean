import TechAtlas.Library.Text

set_option autoImplicit false

/- What parsing the captured artifacts of a crawl returns: normalized evidence
and, for each source, whether it could be read at all. -/
namespace TechAtlas.Parser

open Library

inductive ArtifactSource
  | html
  | header
  | script
  | dns
  | tls
  deriving DecidableEq, Repr

inductive UnavailableReason
  | notCaptured
  | invalid
  | unsupported
  deriving DecidableEq, Repr

inductive SignalAvailability
  | available
  | unavailable (reason : UnavailableReason)
  deriving DecidableEq, Repr

structure NormalizedEvidence where
  source : ArtifactSource
  key : Text
  value : Text
  deriving DecidableEq, Repr

structure ParsedArtifacts where
  evidence : List NormalizedEvidence
  availabilityOf : List (ArtifactSource × SignalAvailability)
  deriving DecidableEq, Repr

def ParsedArtifacts.availability (parsed : ParsedArtifacts) (source : ArtifactSource) :
    SignalAvailability :=
  (parsed.availabilityOf.lookup source).getD (.unavailable .notCaptured)

end TechAtlas.Parser
