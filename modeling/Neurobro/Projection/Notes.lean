import Neurobro.Data.Paging
import Neurobro.History.Records
import Neurobro.Projection.Tokens

/-! The notes on a node of the analysis as they are shown page by page: a piece of the summary
and some of the claims, under one budget of bytes. -/
namespace Neurobro.Projection.Notes

open Telegram History

inductive Failure where
  | input
  | position
  | limit
  deriving DecidableEq

inductive ClaimKind where
  | reported
  | decision
  | openQuestion
  | inference
  deriving DecidableEq

def ClaimKind.text : ClaimKind → String
  | .reported => "reported"
  | .decision => "decision"
  | .openQuestion => "open-question"
  | .inference => "inference"

structure Support where
  sourceRef : String
  versionRef : String
  deriving DecidableEq

structure Claim where
  kind : ClaimKind
  text : String
  supports : List Support
  deriving DecidableEq

/-- What a node covers of one page. -/
structure Span where
  materialRef : String
  pageIndex : Int
  pageHash : String
  fromRow : Int
  toRow : Int
  totalRows : Int
  coverage : Json

structure Node where
  nodeRef : String
  index : Int
  hash : String
  coverage : List Span
  summary : String
  claims : List Claim
  omittedDetailCount : Option Int

structure Commitment where
  spanCount : Nat
  sourceRows : Int
  emptyPageMarkers : Nat
  commitment : String
  deriving DecidableEq

/-- The node as it is kept once it was looked at. -/
structure Snapshot where
  nodeRef : String
  nodeHash : String
  summary : String
  claims : List Claim
  coverage : Commitment
  modelAuthoredOmittedDetailCount : Option Int
  deriving DecidableEq

/-- One page of the notes. -/
structure NodeNotes where
  nodeRef : String
  nodeHash : String
  materialRef : String
  coverage : Commitment
  text : String
  fromByte : Nat
  toByte : Nat
  totalBytes : Nat
  complete : Bool
  claims : List (Nat × Claim)
  fromClaim : Nat
  toClaim : Nat
  totalClaims : Nat
  omittedClaimIndices : List Nat
  detailComplete : Bool
  nextPosition : Option String
  modelAuthoredOmittedDetailCount : Option Int
  deriving DecidableEq

/-! Their texts. -/

def Support.json (s : Support) : Json := .obj [("sourceRef",.str s.sourceRef),("versionRef",.str s.versionRef)]

def Claim.fields (c : Claim) : List (String × Json) := [("kind",.str c.kind.text),("text",.str c.text),
  ("supports",.arr (c.supports.map Support.json))]

def Claim.json (c : Claim) : Json := .obj c.fields

def Span.json (s : Span) : Json := .obj [("materialRef",.str s.materialRef),("pageIndex",int s.pageIndex),
  ("pageHash",.str s.pageHash),("range",.obj [("fromRow",int s.fromRow),("toRow",int s.toRow),("totalRows",int s.totalRows)]),
  ("coverage",s.coverage)]

def Commitment.json (c : Commitment) : Json := .obj [("schema",.str "standing-history-analysis-coverage-v1"),
  ("spanCount",int c.spanCount),("sourceRows",int c.sourceRows),("emptyPageMarkers",int c.emptyPageMarkers),
  ("commitment",.str c.commitment)]

def Snapshot.json (n : Snapshot) : Json := .obj [("nodeRef",.str n.nodeRef),("nodeHash",.str n.nodeHash),
  ("summary",.str n.summary),("claims",.arr (n.claims.map Claim.json)),("coverage",n.coverage.json),
  ("modelAuthoredOmittedDetailCount",nullable int n.modelAuthoredOmittedDetailCount)]

def shownClaim (entry : Nat × Claim) : Json := .obj (("claimIndex",int entry.1) :: entry.2.fields)

def NodeNotes.summaryJson (p : NodeNotes) : Json := .obj [("text",.str p.text),
  ("range",.obj [("fromByte",int p.fromByte),("toByte",int p.toByte),("totalBytes",int p.totalBytes)]),
  ("complete",.bool p.complete)]

def NodeNotes.json (p : NodeNotes) : Json := .obj [("schema",.str "standing-history-node-notes-v1"),("nodeRef",.str p.nodeRef),
  ("nodeHash",.str p.nodeHash),("materialRef",.str p.materialRef),("coverage",p.coverage.json),("summary",p.summaryJson),
  ("claims",.arr (p.claims.map shownClaim)),("claimRange",.obj [("fromClaim",int p.fromClaim),("toClaim",int p.toClaim),
    ("totalClaims",int p.totalClaims)]),("omittedClaimIndices",.arr (p.omittedClaimIndices.map fun i => int i)),
  ("detailCoverage",.str (if p.detailComplete then "complete" else "partial")),("nextPosition",nullable .str p.nextPosition),
  ("modelAuthoredOmittedDetailCount",nullable int p.modelAuthoredOmittedDetailCount),
  ("claimsStatus",.str "model-authored-unverified"),("supportScope",.str "immediate-node-claims-only")]

/-! What is refused. -/

def summaryBytes : Nat := 32 * 1024
def maxClaims : Nat := 128
def maxSupports : Nat := 16384

mutual
/-- Plain data that is not too deep or too wide. -/
def inert : Nat → Json → Bool
  | depth,.num n => decide (depth ≤ 8) && JsonText.safe n
  | depth,.arr items => decide (depth ≤ 8) && decide (items.length ≤ 32) && inertItems (depth + 1) items
  | depth,.obj fields => decide (depth ≤ 8) && decide (fields.length ≤ 32) && inertFields (depth + 1) fields
  | depth,_ => decide (depth ≤ 8)

def inertItems : Nat → List Json → Bool
  | _,[] => true
  | depth,item :: rest => inert depth item && inertItems depth rest

def inertFields : Nat → List (String × Json) → Bool
  | _,[] => true
  | depth,(_,value) :: rest => inert depth value && inertFields depth rest
end

def Claim.Valid (c : Claim) : Prop :=
  textValid c.text 1024 = true ∧ c.supports.length ≤ 16 ∧ c.supports ≠ [] ∧
    (∀ s ∈ c.supports, hexRef "hsrc_" 48 s.sourceRef = true ∧ hexRef "hver_" 48 s.versionRef = true) ∧
    (c.supports.map fun s => s.sourceRef ++ ":" ++ s.versionRef).Nodup

def Span.Valid (s : Span) : Prop :=
  hexRef "hmat_" 48 s.materialRef = true ∧ hexRef "" 64 s.pageHash = true ∧ 1 ≤ s.pageIndex ∧ s.pageIndex ≤ 1024 ∧
    0 ≤ s.fromRow ∧ s.fromRow ≤ s.toRow ∧ s.toRow ≤ s.totalRows ∧ s.totalRows ≤ 100 ∧ inert 0 s.coverage = true

def Node.Valid (n : Node) : Prop :=
  hexRef "hnode_" 48 n.nodeRef = true ∧ hexRef "" 64 n.hash = true ∧ 1 ≤ n.index ∧ n.index ≤ 1024 ∧
    textValid n.summary summaryBytes = true ∧ n.omittedDetailCount.all natural = true ∧ n.claims.length ≤ maxClaims ∧
    (∀ c ∈ n.claims,c.Valid) ∧ n.coverage.length ≤ maxSupports ∧ ∀ s ∈ n.coverage,s.Valid

instance (c : Claim) : Decidable c.Valid := inferInstanceAs (Decidable (_ ∧ _))
instance (s : Span) : Decidable s.Valid := inferInstanceAs (Decidable (_ ∧ _))
instance (n : Node) : Decidable n.Valid := inferInstanceAs (Decidable (_ ∧ _))

/-- The digests of the surroundings. -/
structure Digests extends Host where
  sha256 : String → String

def Digests.hash (h : Digests) (value : Json) : String := h.sha256 (Json.canonicalText utf16Order value)

def commitmentOf (h : Digests) (spans : List Span) : Commitment where
  spanCount := spans.length
  sourceRows := spans.foldl (fun sum s => sum + s.toRow - s.fromRow) 0
  emptyPageMarkers := spans.countP fun s => decide (s.totalRows = 0)
  commitment := h.hash (.arr (spans.map Span.json))

def snapshot (h : Digests) (n : Node) : Except Failure Snapshot :=
  if ¬n.Valid then .error .input
  else .ok {
    nodeRef := n.nodeRef
    nodeHash := n.hash
    summary := n.summary
    claims := n.claims
    coverage := commitmentOf h n.coverage
    modelAuthoredOmittedDetailCount := n.omittedDetailCount }

structure Request where
  node : Node
  referenceKey : String
  position : Option String
  maxBytes : Option Int

/-! Bytes of a text. -/

/-- Where a text may be cut: before every character and after the last. -/
def boundariesFrom : Nat → List Char → List Nat
  | offset,[] => [offset]
  | offset,c :: rest => offset :: boundariesFrom (offset + c.utf8Size) rest

def boundaries (cs : List Char) : List Nat := boundariesFrom 0 cs

/-- What is left after so many bytes. -/
def dropBytes : Nat → List Char → List Char
  | _,[] => []
  | room,c :: rest => if c.utf8Size ≤ room then dropBytes (room - c.utf8Size) rest else c :: rest

/-- The characters between two places where the text may be cut. -/
def between (cs : List Char) (start stop : Nat) : List Char := takeBytes (stop - start) (dropBytes start cs)

/-! Pages. -/

section
variable (h : Digests) (key : String) (n : Snapshot)

def mac (kind : String) (offsets : List Nat) : String := h.mac key (.arr [.str "DecadansNeurobro/standing-history-analysis-view/v1",
  .str kind,.str (h.hash n.json),.arr (offsets.map fun i => int i)])

def token (byte claim : Nat) : String := writeToken "hnpos_" [byte,claim] (mac h key n "position" [byte,claim])

def totalBytes : Nat := n.summary.utf8ByteSize

def page (startByte startClaim endByte endClaim : Nat) : NodeNotes where
  nodeRef := n.nodeRef
  nodeHash := n.nodeHash
  materialRef := "hnote_" ++ mac h key n "material" [startByte,endByte,startClaim,endClaim]
  coverage := n.coverage
  text := String.ofList (between n.summary.toList startByte endByte)
  fromByte := startByte
  toByte := endByte
  totalBytes := totalBytes n
  complete := decide (startByte = 0 ∧ endByte = totalBytes n)
  claims := ((n.claims.zipIdx.map Prod.swap).take endClaim).drop startClaim
  fromClaim := startClaim
  toClaim := endClaim
  totalClaims := n.claims.length
  omittedClaimIndices := (List.range n.claims.length).filter fun i => decide (i < startClaim ∨ endClaim ≤ i)
  detailComplete := decide (startByte = 0 ∧ endByte = totalBytes n) && decide (startClaim = 0 ∧ endClaim = n.claims.length)
  nextPosition := if endByte = totalBytes n ∧ endClaim = n.claims.length then none else some (token h key n endByte endClaim)
  modelAuthoredOmittedDetailCount := n.modelAuthoredOmittedDetailCount

/-- The greatest end of the summary the search comes to. -/
def search (fits : Nat → Bool) (candidates : List Nat) (low high : Nat) : Nat :=
  if low < high then
    if fits (candidates.getD ((low + high + 1) / 2 - 1) 0) then search fits candidates ((low + high + 1) / 2) high
    else search fits candidates low ((low + high + 1) / 2 - 1)
  else low
termination_by high - low

/-- Claims are added as long as the page has room. -/
def addClaims (fits : Nat → Bool) (total endClaim : Nat) : Nat :=
  if endClaim < total ∧ fits (endClaim + 1) = true then addClaims fits total (endClaim + 1) else endClaim
termination_by total - endClaim

def summaryBudget (maxBytes : Nat) : Nat :=
  min (if legacyMaterialBytes < maxBytes then summaryBytes * 6 + 128 else 8192) (maxBytes / 3)

def candidates (startByte : Nat) : List Nat := (boundaries n.summary.toList).filter fun b => decide (startByte < b)

def summaryFits (maxBytes startByte startClaim b : Nat) : Bool :=
  decide (jsonBytes (page h key n startByte startClaim b startClaim).summaryJson ≤ summaryBudget maxBytes) &&
    decide (jsonBytes (page h key n startByte startClaim b startClaim).json ≤ maxBytes)

/-- How many of the candidates are taken. -/
def found (maxBytes startByte startClaim : Nat) : Nat :=
  search (summaryFits h key n maxBytes startByte startClaim) (candidates n startByte) 0 (candidates n startByte).length

def endOfSummary (maxBytes startByte startClaim : Nat) : Nat :=
  if found h key n maxBytes startByte startClaim = 0 then startByte
  else (candidates n startByte).getD (found h key n maxBytes startByte startClaim - 1) 0

def claimsFit (maxBytes startByte startClaim endByte endClaim : Nat) : Bool :=
  decide (jsonBytes (page h key n startByte startClaim endByte endClaim).json ≤ maxBytes)

def endOfClaims (maxBytes startByte startClaim endByte : Nat) : Nat :=
  addClaims (claimsFit h key n maxBytes startByte startClaim endByte) n.claims.length startClaim

def choosePage (maxBytes startByte startClaim : Nat) : Except Failure NodeNotes :=
  let endByte := endOfSummary h key n maxBytes startByte startClaim
  let endClaim := endOfClaims h key n maxBytes startByte startClaim endByte
  if endByte = startByte ∧ endClaim = startClaim ∨ maxBytes < jsonBytes (page h key n startByte startClaim endByte endClaim).json then
    .error .limit
  else .ok (page h key n startByte startClaim endByte endClaim)

/-- The offsets a position stands for. -/
def startOf (position : Option String) : Except Failure (Nat × Nat) :=
  match position with
  | none => .ok (0,0)
  | some supplied =>
    let offsets := (readToken "hnpos_" [5,3] supplied).getD []
    let byte := offsets.getD 0 0
    let claim := offsets.getD 1 0
    if byte ∉ boundaries n.summary.toList ∨ n.claims.length < claim ∨ byte = totalBytes n ∧ claim = n.claims.length ∨
        supplied ≠ token h key n byte claim then .error .position
    else .ok (byte,claim)

end

def Request.WellFormed (r : Request) : Prop :=
  (∀ m ∈ r.maxBytes, 1024 ≤ m ∧ m ≤ (materialBytes : Int)) ∧ hexRef "" 64 r.referenceKey = true ∧
    r.position.all (fun supplied => (readToken "hnpos_" [5,3] supplied).isSome) = true

instance (r : Request) : Decidable r.WellFormed := inferInstanceAs (Decidable (_ ∧ _))

def Request.budget (r : Request) : Nat := (r.maxBytes.map Int.toNat).getD legacyMaterialBytes

def readNodeNotes (h : Digests) (r : Request) : Except Failure NodeNotes :=
  if ¬r.WellFormed then .error .input
  else do
    let n ← snapshot h r.node
    let start ← startOf h r.referenceKey n r.position
    choosePage h r.referenceKey n r.budget start.1 start.2

end Neurobro.Projection.Notes
