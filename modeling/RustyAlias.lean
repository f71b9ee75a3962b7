import RustyAlias.Dns.Message
import RustyAlias.Model.Handler
import RustyAlias.Proofs.IpParser
import RustyAlias.Soundness.Amplification
import RustyAlias.Soundness.AnyQueries
import RustyAlias.Soundness.Authority
import RustyAlias.Soundness.Availability
import RustyAlias.Soundness.CaseRandomisation
import RustyAlias.Soundness.ChainOfTrust
import RustyAlias.Soundness.Denials
import RustyAlias.Soundness.DnssecOk
import RustyAlias.Soundness.EdnsDetection
import RustyAlias.Soundness.ErrorReplies
import RustyAlias.Soundness.Glue
import RustyAlias.Soundness.HexKeys
import RustyAlias.Soundness.Ipv6Labels
import RustyAlias.Soundness.Isolation
import RustyAlias.Soundness.KeyCeremony
import RustyAlias.Soundness.LegalNames
import RustyAlias.Soundness.LimiterMemory
import RustyAlias.Soundness.Liveness
import RustyAlias.Soundness.NegativeCaching
import RustyAlias.Soundness.NextNames
import RustyAlias.Soundness.Notations
import RustyAlias.Soundness.PanicFreedom
import RustyAlias.Soundness.Policies
import RustyAlias.Soundness.QuestionNames
import RustyAlias.Soundness.Quota
import RustyAlias.Soundness.RateLimit
import RustyAlias.Soundness.RecordSets
import RustyAlias.Soundness.Refusals
import RustyAlias.Soundness.Replicas
import RustyAlias.Soundness.ReplyLoops
import RustyAlias.Soundness.Resolution
import RustyAlias.Soundness.Sequential
import RustyAlias.Soundness.SignatureLabels
import RustyAlias.Soundness.SignatureTimes
import RustyAlias.Soundness.Signatures
import RustyAlias.Soundness.SignedNames
import RustyAlias.Soundness.Solicited
import RustyAlias.Soundness.Subdomains
import RustyAlias.Soundness.TcpFraming
import RustyAlias.Soundness.TcpLoop
import RustyAlias.Soundness.TypeBitmaps
import RustyAlias.Soundness.WellFormed
import RustyAlias.Soundness.ZoneAddresses
import RustyAlias.Soundness.ZoneBoundary
