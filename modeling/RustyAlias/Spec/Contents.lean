import RustyAlias.Spec.Reply

/-! # What a response consists of

A response is laid out from a header, the question, the records of three sections and at most one OPT
record. What is proved about the records of a response is proved about these.
-/

namespace RustyAlias

open Rust Dns

/-- A header without the counts of records. -/
structure Heading where
  id : UInt16
  flags0 : UInt8
  flags1 : UInt8
  qdcount : UInt16
deriving DecidableEq

/-- A response before it is laid out. -/
structure Contents where
  heading : Heading
  records : Queues
  /-- The DO bit of the OPT record, if there is one. -/
  opt : Option Bool

namespace Contents

/-- The header before the records are counted. -/
def header (contents : Contents) : Header :=
  ⟨contents.heading.id, contents.heading.flags0, contents.heading.flags1, contents.heading.qdcount, 0, 0, 0⟩

/-- The response with these contents to a query. -/
def response (contents : Contents) (query : Bytes) : Bytes :=
  layout contents.header (questionOf query) contents.records contents.opt

end Contents

/-- What a reply consists of. -/
def contentsOf (clock : Clock) (query : Bytes) (params : ZoneParams) (reply : Reply) : Contents where
  heading :=
    let header := replyHeader query reply.aa reply.rcode
    ⟨header.id, header.flags0, header.flags1, header.qdcount⟩
  records := emitQueues params (qnameOf query) clock reply.queues
  opt := optOf query reply.doBit

/-- What the response to a query consists of, if there is one. -/
def responseContents (clock : Clock) (query : Slice) (config : Config) : Option Contents :=
  (reply query config).map (contentsOf clock query.data (paramsOf query.data config))

/-- The response to a query with these contents, which is empty if there are none. -/
def responseOctets (query : Bytes) (contents : Option Contents) : Bytes := (contents.map (·.response query)).getD []

/-- The response to a query consists of these records, or there is no response and there are no records. -/
def Carries (clock : Clock) (query : Slice) (config : Config) (records : Queues) : Prop :=
  handleQueryInternal clock query config = .ok [] ∧ records = ⟨[], [], []⟩ ∨
    ∃ contents : Contents, contents.records = records ∧ handleQueryInternal clock query config = .ok (contents.response query.data)

end RustyAlias
