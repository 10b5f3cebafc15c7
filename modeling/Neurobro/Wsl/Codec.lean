import Neurobro.Wsl.Canonical

/-! A frame is read back from its line, and only from that line. -/
namespace Neurobro.Wsl
open JsonText

/-! The fields of a frame in order. -/

/-- A frame with its keys in order, given a body. -/
def inOrder (core : FrameCore) (body : Json) (mac : Option String) : List (String × Json) :=
  [("body",body),("deadlineMs",int core.deadlineMs),("id",.str core.id),("keyId",.str core.keyId),("kind",.str core.kind.text)] ++
    (mac.map fun m => ("mac",.str m)).toList ++
    [("sequence",int core.sequence),("sessionId",.str core.sessionId),("version",int 1)]

theorem ordered_core (core : FrameCore) : ordered (.obj core.fields) = .obj (inOrder core (ordered core.body) none) := by
  simp only [ordered,FrameCore.fields,orderedFields,int]
  simp [List.insertionSort,List.orderedInsert,utf16Units,unitsLe,utf16,inOrder,int]

theorem ordered_frame (core : FrameCore) (m : String) :
    ordered (.obj (core.fields ++ [("mac",.str m)])) = .obj (inOrder core (ordered core.body) (some m)) := by
  simp only [ordered,FrameCore.fields,List.cons_append,List.nil_append,orderedFields,int]
  simp [List.insertionSort,List.orderedInsert,utf16Units,unitsLe,utf16,inOrder,int]

theorem settled_core (core : FrameCore) : settled (.obj core.fields) = .obj (inOrder core (settled core.body) none) := by
  rw [settled,ordered_core]
  simp [unsigned,unsignedFields,inOrder,int,settled]

theorem settled_frame (core : FrameCore) (m : String) :
    settled (.obj (core.fields ++ [("mac",.str m)])) = .obj (inOrder core (settled core.body) (some m)) := by
  rw [settled,ordered_frame]
  simp [unsigned,unsignedFields,inOrder,int,settled]

theorem distinct_frame (core : FrameCore) (m : String) (once : Distinct core.body) :
    Distinct (.obj (core.fields ++ [("mac",.str m)])) := by
  refine ⟨by simp [FrameCore.fields],?_⟩
  simp [distinctFields_all,FrameCore.fields,int,Distinct,once]

theorem sessionOptions_eq (fine : sessionOptions session = .ok options) : options = session := by
  simp only [sessionOptions,bind_eq_ok] at fine
  obtain ⟨_,_,_,_,_,_,done⟩ := fine
  exact (Except.ok.inj done).symm

/-- How the writing of a frame goes. -/
theorem encodeFrame_ok {bytes : Bytes} :
    encodeFrame crypto core session = .ok bytes ↔
      sessionOptions session = .ok session ∧ Writable core.body ∧
      (canonicalText core.body).utf8ByteSize ≤ session.limits.maxBodyBytes ∧ Writable (.obj core.fields) ∧
      ∃ m, m = crypto.hmac session.key (macLabel ++ canonicalText (.obj core.fields)) ∧
        Writable (.obj (core.fields ++ [("mac",.str m)])) ∧
        bytes = utf8 (canonicalText (.obj (core.fields ++ [("mac",.str m)])) ++ "\n") ∧
        bytes.length ≤ session.limits.maxFrameBytes := by
  simp only [encodeFrame,mac,bind_eq_ok,requireBroker_ok,decide_eq_true_eq,canonicalJson_ok]
  constructor
  · rintro ⟨options,fine,body,⟨may,rfl⟩,_,room,m,made,text,⟨may',rfl⟩,_,fits,done⟩
    cases sessionOptions_eq fine
    obtain ⟨core_,wrote,rfl⟩ := map_ok made
    obtain ⟨may'',rfl⟩ := canonicalJson_ok.mp wrote
    cases done
    exact ⟨fine,may,room,may'',_,rfl,may',rfl,fits⟩
  · rintro ⟨fine,may,room,may'',m,rfl,may',rfl,fits⟩
    refine ⟨session,fine,_,⟨may,rfl⟩,(),room,_,?_,_,⟨may',rfl⟩,(),fits,rfl⟩
    rw [canonicalJson_ok.mpr ⟨may'',rfl⟩]
    rfl

theorem requireSome_ok {α : Type} {value : Option α} {a : α} : requireSome value code = .ok a ↔ value = some a:= by
  cases value <;> simp [requireSome]

theorem int?_int (n : Int) (is_ : safe (.finite n) = true) : int? (some (int n)) = some n := by
  simp [int?,int,is_]

/-- A frame that a party of the session may send. -/
structure FrameCore.Fit (core : FrameCore) (session : Session) : Prop where
  keyId : core.keyId = session.keyId
  sessionId : core.sessionId = session.sessionId
  id : hexText 32 core.id = true
  sequence : 0 < core.sequence
  body : Distinct core.body

/-- The keyed digest is 64 hexadecimal digits. -/
def Crypto.Digests (crypto : Crypto) : Prop := ∀ key text, hexText 64 (crypto.hmac key text) = true

theorem sorted_frameKeys : frameKeys.insertionSort (fun a b => unitsLe (utf16Units a) (utf16Units b)) =
    ["body","deadlineMs","id","keyId","kind","mac","sequence","sessionId","version"] := by
  simp [frameKeys,List.insertionSort,List.orderedInsert,utf16Units,unitsLe,utf16]

theorem exactKeys_inOrder (core : FrameCore) (body : Json) (m : String) :
    exactKeys (.obj (inOrder core body (some m))) frameKeys = true := by
  simp only [exactKeys,sorted_frameKeys]
  simp [inOrder,List.insertionSort,List.orderedInsert,utf16Units,unitsLe,utf16]

theorem core_numbers {core : FrameCore} (good : sound (.obj core.fields) = true) :
    safe (.finite core.sequence) = true ∧ safe (.finite core.deadlineMs) = true := by
  simp only [sound,FrameCore.fields,soundFields,int,Bool.and_eq_true] at good
  obtain ⟨_,_,_,_,_,⟨⟨_,sequence⟩,⟨⟨_,deadline⟩,_⟩⟩⟩ := good
  exact ⟨sequence,deadline⟩

/-- What is encoded is decoded to the same frame. -/
theorem decode_encode (digests : crypto.Digests) {core : FrameCore} {bytes : Bytes}
    (fit : core.Fit session) (encoded : encodeFrame crypto core session = .ok bytes) :
    ∃ m, decodeFrame crypto bytes session core.kind = .ok ⟨{ core with body := settled core.body },m⟩ := by
  obtain ⟨fine,may,room,may',m,is_,may'',rfl,fits⟩ := encodeFrame_ok.mp encoded
  refine ⟨m,?_⟩
  have wrote := canonicalJson_ok.mpr ⟨may'',rfl⟩
  have read := parse_canonical (distinct_frame core m fit.body) wrote
  have long : 1 < (utf8 (canonicalText (.obj (core.fields ++ [("mac",.str m)])) ++ "\n")).length := by
    have newline : ("\n" : String).utf8ByteSize = 1 := by decide
    have opening : ("\x7b" : String).utf8ByteSize = 1 := by decide
    rw [utf8_length,canonicalText,ordered_frame,Json.stringify]
    simp only [String.utf8ByteSize_append,newline,opening]
    omega
  have again := canonicalJson_settled.mpr wrote
  rw [settled_frame] at read again
  obtain ⟨sequenceSafe,deadlineSafe⟩ := core_numbers may'.good
  have oneSafe : safe (.finite ((1 : Int) : Rat)) = true := by decide
  have digest : mac crypto (.obj (inOrder core (settled core.body) none)) session.key = .ok m := by
    rw [mac,← settled_core,canonicalJson_settled.mpr (canonicalJson_ok.mpr ⟨may',rfl⟩),is_]
    rfl
  have keys := exactKeys_inOrder core (settled core.body) m
  have stripped : (Json.obj (inOrder core (settled core.body) (some m))).without "mac" =
      .obj (inOrder core (settled core.body) none) := by
    simp [Json.without,inOrder]
  have size := canonicalJson_settled.mpr (canonicalJson_ok.mpr ⟨may,rfl⟩)
  simp only [decodeFrame,bind_eq_ok,requireBroker_ok,requireSome_ok,decide_eq_true_eq]
  refine ⟨session,fine,(),⟨long,fits⟩,_,fromUtf8_utf8 _,_,read,_,again,(),rfl,(),keys,(),?_,core.id,?_,(),fit.id,
    core.sequence,?_,core.deadlineMs,?_,(),fit.sequence,m,?_,(),?_,m,?_,(),rfl,settled core.body,?_,_,size,(),room,?_⟩
  · simp [Json.field?,inOrder,int?_int _ oneSafe,text?,fit.keyId,fit.sessionId]
  · simp [Json.field?,inOrder,text?]
  · simp [Json.field?,inOrder,int?_int _ sequenceSafe]
  · simp [Json.field?,inOrder,int?_int _ deadlineSafe]
  · simp [Json.field?,inOrder,text?]
  · rw [is_]
    exact digests _ _
  · rw [stripped]
    exact digest
  · simp [Json.field?,inOrder]
  · rw [fit.keyId,fit.sessionId]


/-! A line that was accepted. -/

theorem sortFields_keys (fields : List (String × Json)) :
    (sortFields fields).map Prod.fst = (fields.map Prod.fst).insertionSort fun a b => unitsLe (utf16Units a) (utf16Units b) :=
  List.map_insertionSort keyLe _ Prod.fst fields fun _ _ _ _ => Iff.rfl

theorem settled_keys {fields : List (String × Json)} (same : settled (.obj fields) = .obj fields) :
    fields.map Prod.fst = (fields.map Prod.fst).insertionSort fun a b => unitsLe (utf16Units a) (utf16Units b) := by
  have keys : (orderedFields fields).map Prod.fst = fields.map Prod.fst := by simp [orderedFields_map]
  rw [settled,ordered_obj,unsigned,Json.obj.injEq] at same
  have sorted := congrArg (List.map Prod.fst) same
  rw [unsignedFields_keys,sortFields_keys,keys] at sorted
  exact sorted.symm

theorem settled_member {fields : List (String × Json)} (same : settled (.obj fields) = .obj fields) :
    ∀ f ∈ fields, settled f.2 = f.2 := by
  intro f in_
  rw [settled,ordered_obj,unsigned,Json.obj.injEq,unsignedFields_map] at same
  rw [← same] at in_
  obtain ⟨g,among,made⟩ := List.mem_map.mp in_
  have among := (sortFields_perm _).mem_iff.mp among
  rw [orderedFields_map] at among
  obtain ⟨g',_,made'⟩ := List.mem_map.mp among
  subst made made'
  exact settled_twice g'.2

theorem fields_of_keys {fields : List (String × Json)}
    (keys : fields.map Prod.fst = ["body","deadlineMs","id","keyId","kind","mac","sequence","sessionId","version"]) :
    ∃ body deadline id keyId kind mac sequence sessionId version, fields =
      [("body",body),("deadlineMs",deadline),("id",id),("keyId",keyId),("kind",kind),("mac",mac),("sequence",sequence),
        ("sessionId",sessionId),("version",version)] := by
  rcases fields with _ | ⟨⟨a,x⟩,_ | ⟨⟨b,y⟩,_ | ⟨⟨c,z⟩,_ | ⟨⟨d,u⟩,_ | ⟨⟨e,v⟩,_ | ⟨⟨f,w⟩,_ | ⟨⟨g,p⟩,_ | ⟨⟨h,q⟩,
    _ | ⟨⟨i,r⟩,rest⟩⟩⟩⟩⟩⟩⟩⟩⟩ <;> simp at keys
  obtain ⟨rfl,rfl,rfl,rfl,rfl,rfl,rfl,rfl,rfl,rfl⟩ := keys
  exact ⟨x,y,z,u,v,w,p,q,r,rfl⟩

theorem text?_some {value : Json} (is_ : text? (some value) = some s) : value = .str s := by
  cases value with
  | str t => simpa [text?] using is_
  | _ => simp [text?] at is_

theorem int?_some {value : Json} (same : settled value = value) (is_ : int? (some value) = some n) : value = int n:= by
  cases value with
  | num q =>
    cases q with
    | finite q =>
      by_cases fine : safe (.finite q) = true
      · simp only [int?,fine,if_true,Option.some.injEq] at is_
        simp only [safe,decide_eq_true_eq] at fine
        have whole : q = (q.num : Rat) := by
          conv_lhs => rw [← Rat.num_div_den q,fine.1]
          simp
        rw [int,← is_,← whole]
      · simp [int?,fine] at is_
    | negativeZero => simp [settled,ordered,unsigned] at same
    | nan => simp [int?] at is_
    | infinity b => simp [int?] at is_
  | _ => simp [int?] at is_

/-- What is accepted is what encodes the frame it is read as. -/
theorem encode_decode {bytes : Bytes} {session : Session} {frame : BrokerFrame}
    (decoded : decodeFrame crypto bytes session kind = .ok frame) :
    encodeFrame crypto frame.toFrameCore session = .ok bytes := by
  simp only [decodeFrame,bind_eq_ok,requireBroker_ok,requireSome_ok,decide_eq_true_eq] at decoded
  obtain ⟨options,fine,_,⟨_,fits⟩,text,utf,value,read,canonical,wrote,_,same,_,keys,_,heads,id,is_,_,hex,sequence,numbered,
    deadline,timed,_,some_,m,digest,_,_,expected,made,_,equal,body,held,size,bounded,_,room,done⟩ := decoded
  cases sessionOptions_eq fine
  subst same
  have settled_ := settled_of_parse wrote read
  cases value with
  | obj fields =>
    simp only [exactKeys,decide_eq_true_eq,sorted_frameKeys,← settled_keys settled_] at keys
    obtain ⟨body',deadline',id',keyId',kind',mac',sequence',sessionId',version',rfl⟩ := fields_of_keys keys
    have each := settled_member settled_
    simp only [List.mem_cons,List.not_mem_nil,or_false,forall_eq_or_imp,forall_eq] at each
    simp [Json.field?] at heads is_ numbered timed digest held
    obtain ⟨⟨⟨one,kind_⟩,keyId_⟩,sessionId_⟩ := heads
    cases text?_some is_
    cases text?_some kind_
    cases text?_some keyId_
    cases text?_some sessionId_
    cases text?_some digest
    cases int?_some each.2.2.2.2.2.2.1 numbered
    cases int?_some each.2.1 timed
    cases int?_some each.2.2.2.2.2.2.2.2 one
    subst held
    cases done
    obtain ⟨may,sized⟩ := canonicalJson_ok.mp bounded
    have frame_ := settled_frame ⟨kind,session.keyId,session.sessionId,id,sequence,deadline,body'⟩ m
    have core_ := settled_core ⟨kind,session.keyId,session.sessionId,id,sequence,deadline,body'⟩
    rw [each.1] at frame_ core_
    obtain ⟨core',coreWrote,rfl⟩ := map_ok made
    have coreWrote : canonicalJson (settled (.obj
        (FrameCore.fields ⟨kind,session.keyId,session.sessionId,id,sequence,deadline,body'⟩))) = .ok core' := by
      rw [core_]
      exact coreWrote
    obtain ⟨mayCore,rfl⟩ := canonicalJson_ok.mp (canonicalJson_settled.mp coreWrote)
    have wrote : canonicalJson (settled (.obj
        (FrameCore.fields ⟨kind,session.keyId,session.sessionId,id,sequence,deadline,body'⟩ ++ [("mac",.str m)]))) =
          .ok canonical := by
      rw [frame_]
      exact wrote
    obtain ⟨mayFrame,rfl⟩ := canonicalJson_ok.mp (canonicalJson_settled.mp wrote)
    have line := utf8_of_fromUtf8 utf
    exact encodeFrame_ok.mpr ⟨fine,may,sized ▸ room,mayCore,m,equal,mayFrame,line.symm,fits⟩
  | _ => simp [exactKeys] at keys

end Neurobro.Wsl
