import Neurobro.Outreach.Walk

/-! Every approved piece is sent at most once: a request follows the one reservation of its
piece, goes by the receipt that is attached, and none is reserved after a cancellation. -/
namespace Neurobro.Outreach

open Coop
open Agent (Err Time MessageRef)
open Jobs (ToolContext)

variable {o : Options} {start : State} {i : Nat}

/-- The owner's receipt that a reservation goes by: it was shown to the fiber, it names this
batch, the revision of the manifest and its hash, and it selects the recipient. -/
structure Receipted (i : Nat) (r : Reservation) (receipt : OwnerApprovalReceipt) (before : History o) : Prop where
  shown : ∃ q, .reply i (.getOutreachApproval q) (.ok receipt) ∈ before
  id : receipt.id = r.receiptId
  batch : receipt.objectId = r.batchId
  revision : receipt.batchRevision = r.manifest.revision
  hash : receipt.manifestHash = r.manifest.manifestHash
  selected : r.recipient.id ∈ receipt.selectedRecipientIds

/-- The broker is asked directly after the reservation, which goes by a receipt. -/
structure Dispatched (o : Options) (start : State) (i : Nat) (request : EffectRequest) (piece : Piece)
    (before : History o) : Prop where
  reservation : ∃ r b earlier, before = .act i (.reserve r) (.ok b) :: earlier ∧ piece = r.piece ∧ request = r.request ∧
    Reserved o start i r earlier ∧ ∃ receipt, Receipted i r receipt earlier

/-- What outreach promises of everything it has sent. -/
structure SendsOnce (o : Options) (start : State) (c : Core (outreach o)) : Prop where
  once : ∀ piece, c.AtMostOnce (executes piece)
  approved : ∀ {later before i token request piece},
    c.trace = later ++ .call i (.executeEffect token request piece) :: before → Dispatched o start i request piece before
  uncancelled : ∀ {later x before piece}, c.trace = later ++ x :: before → reserves piece x = true →
    ∀ y ∈ before, cancels piece.batchId y = false

theorem approved_receipted {before : History o} (reserved : Reserved o start i r before) :
    ∃ receipt, Receipted i r receipt before := by
  obtain ⟨selected,receipt,shown,approved,chosen⟩ := reserved.approved
  obtain ⟨_,binds⟩ := approved_ok approved
  simp only [OwnerApprovalReceipt.binds,OutreachManifest.query,Bool.and_eq_true] at binds
  obtain ⟨⟨⟨⟨⟨⟨⟨id,_⟩,batch⟩,revision⟩,hash⟩,_⟩,_⟩,_⟩ := binds
  exact ⟨receipt,⟨_,shown⟩,of_decide_eq_true id,(of_decide_eq_true batch).trans reserved.named,
    of_decide_eq_true revision,of_decide_eq_true hash,chosen⟩

theorem reserves_ground {piece : Piece} {before : History o} (ground : Ground o start x before)
    (happened : reserves piece x = true) : ∃ i r, r.piece = piece ∧ Reserved o start i r before := by
  cases x with
  | act i cmd result =>
    cases cmd with
    | reserve r =>
      obtain ⟨named,done⟩ := Bool.and_eq_true_iff.mp happened
      exact ⟨i,r,of_decide_eq_true named,ground done⟩
    | _ => cases happened
  | _ => cases happened

/-- A request comes directly after the reservation of its piece. -/
theorem executes_ground {piece : Piece} {before : History o} (ground : Ground o start x before)
    (happened : executes piece x = true) : ∃ y rest, before = y :: rest ∧ reserves piece y = true := by
  cases x with
  | call i q =>
    cases q with
    | executeEffect token request asked =>
      obtain ⟨r,b,rest,split,named,_⟩ := ground
      have same : asked = piece := of_decide_eq_true happened
      refine ⟨_,rest,split,?_⟩
      simp [reserves,← same,named,Except.toOption]
    | _ => cases happened
  | _ => cases happened

theorem executes_apart {piece : Piece} (happened : executes piece x = true) : reserves piece x = false:= by
  cases x with
  | call i q => rfl
  | _ => cases happened

/-- Over every interleaving, with crashes and restarts, each piece is sent at most once. -/
theorem sends_once {around : Surroundings} {now : Time} {w : World (outreach o)}
    (run : World.Leads (body o) (.initial (boot around now)) w) : SendsOnce o (boot around now) w.core := by
  have kept := (boot_governed run).inv
  constructor
  · intro piece
    have fewer := kept.justified.count (p := reserves piece) (q := executes piece)
      (fun _ _ ground happened => executes_ground ground happened) fun _ happened => executes_apart happened
    exact fewer.trans (kept.once piece)
  · intro later before i token request piece split
    have justified := kept.justified
    rw [split] at justified
    obtain ⟨r,b,earlier,rfl,named,asked⟩ := justified.event
    have again : Justified (Ground o (boot around now)) ((later ++ [.call i (.executeEffect token request piece)]) ++
        .act i (.reserve r) (.ok b) :: earlier) := by
      rw [List.append_assoc]
      exact justified
    have reserved : Reserved o (boot around now) i r earlier := again.event rfl
    exact ⟨r,b,earlier,rfl,named,asked,reserved,approved_receipted reserved⟩
  · intro later x before piece split happened
    have justified := kept.justified
    rw [split] at justified
    obtain ⟨_,r,rfl,reserved⟩ := reserves_ground justified.event happened
    exact reserved.uncancelled

/-! ## A batch of one recipient -/

/-- The batch, its manifest and its payload have hashes of their own. -/
def Host.plain : Host where
  sha256 s :=
    match s.toList with
    | '[' :: _ => "b0"
    | '\x7b' :: '"' :: 'p' :: _ => "e0"
    | _ => "f0"
  sha256Bytes := fun _ => "bytes"
  numberText := fun _ => "1"

def Options.plain : Options where
  host := .plain
  rank := fun s => s.length
  accountId := "account"
  effectIdentity := fun _ request => "effect:" ++ request.id

def plainContext : ToolContext := ⟨⟨"task",1,"grant",1⟩,"run"⟩

def plainSurroundings : Surroundings where
  toolContext := fun _ => .ok plainContext
  effect := fun _ => none
  file := fun _ => none

def plainDraft : DraftInput := ⟨"Batch",[⟨"a",⟨"peer",none,none⟩,"hello",none,none⟩],none⟩

def plainBatchId : String := "b0"

/-- The owner has approved what is asked for, and the broker takes every request. -/
def agreed (fiber : Nat) : Choice (outreach .plain) Op :=
  .resume fiber fun
    | .resolveForSend _ _ => some (.error (.error "missing"))
    | .proposeApproval context m => some (.ok ⟨context,m.batchId,m.revision,m.manifestHash⟩)
    | .getOutreachApproval q => some (.ok ⟨q.receiptId,q.context,"outreach",q.batchId,q.revision,q.manifestHash,
        q.selection,[⟨"a","peer","e0",none⟩]⟩)
    | .authorizeTool _ _ _ => some (.ok ())
    | .executeEffect _ _ _ => some (.ok ())

def sending : List (Choice (outreach .plain) Op) :=
  [.invoke (.propose plainContext plainDraft),.invoke (.attachApproval plainContext plainBatchId "receipt" ["a"]),agreed 1,
    .invoke (.drain 0 "token" plainBatchId 5),agreed 2,agreed 2,agreed 2,agreed 2,.invoke (.drain 0 "token" plainBatchId 5),
    agreed 3]

theorem sends_once_plain : ∃ w : World (outreach .plain), SendsOnce .plain (boot plainSurroundings 0) w.core ∧
    w.core.trace.countP (executes ⟨plainBatchId,"a",none⟩) = 1 := by
  have played : (World.play (body .plain) 200 200 sending (.initial (boot plainSurroundings 0))).any fun w =>
      decide (w.core.trace.countP (executes ⟨plainBatchId,"a",none⟩) = 1) := by decide +kernel
  obtain ⟨w,run,holds⟩ := World.play_any played
  exact ⟨w,sends_once run,of_decide_eq_true holds⟩

end Neurobro.Outreach
