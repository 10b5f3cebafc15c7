import Neurobro.Wsl.Conduct
import Neurobro.Wsl.Framer

/-! Whole sessions of a host: a request that was taken on is answered just when its answer has
room in a frame; numbers come in order, and the bytes of a session stay within its limit. -/
namespace Neurobro.Wsl

open JsonText List

structure Call where
  bytes : Bytes
  moment : Moment

inductive Event where
  | call (c : Call)
  | close

def Broker.step (crypto : Crypto) (b : Broker) (s : State) : Event → State
  | .call c => (b.handle crypto s c.bytes c.moment).2
  | .close => { s with closed := true }

/-- The calls of a run, each with the state it found. -/
def Broker.turns (crypto : Crypto) (b : Broker) : State → List Event → List (State × Call)
  | _,[] => []
  | s,.call c :: rest => (s,c) :: b.turns crypto (b.step crypto s (.call c)) rest
  | s,.close :: rest => b.turns crypto (b.step crypto s .close) rest

def Broker.after (crypto : Crypto) (b : Broker) (s : State) (events : List Event) : State := events.foldl (b.step crypto) s

variable {crypto : Crypto} {b : Broker}

/-- The host used up a sequence number. -/
def Consumed (crypto : Crypto) (b : Broker) (turn : State × Call) : Prop :=
  (b.handle crypto turn.1 turn.2.bytes turn.2.moment).2.lastSequence ≠ turn.1.lastSequence

/-- What a call ends with is a response to the request it carried. -/
def Responded (crypto : Crypto) (b : Broker) (turn : State × Call) : Prop :=
  ∃ request response outcome value, decodeFrame crypto turn.2.bytes b.session .request = .ok request ∧
    (b.handle crypto turn.1 turn.2.bytes turn.2.moment).1 = .ok response ∧
    encodeFrame crypto (answer request outcome value) b.session = .ok response

/-- A call answers with one response if it used up a number, and with none otherwise. -/
def Answered (crypto : Crypto) (b : Broker) (turn : State × Call) : Prop :=
  (Consumed crypto b turn → Responded crypto b turn) ∧
    (¬Consumed crypto b turn → ∃ code, (b.handle crypto turn.1 turn.2.bytes turn.2.moment).1 = .error code)

/-- What a request came to has room in a frame; and where the frame would exceed the bytes of the
session, so has the refusal that stands for it. -/
def Fits (b : Broker) (usedBytes : Nat) (request : BrokerFrame) (c : Conclusion) : Prop :=
  Room b.limits request c.outcome c.value ∧
    (b.limits.maxSessionBytes < usedBytes + (bodyBytes c.outcome c.value + envelope request.toFrameCore) →
      Room b.limits request .refused (codeJson .sessionBudget))

/-- If the host takes the request on, what it comes to fits. -/
def HasRoom (crypto : Crypto) (b : Broker) (turn : State × Call) : Prop :=
  ∀ request now, Takes crypto b turn.1 turn.2.bytes turn.2.moment request now →
    Fits b (turn.1.usedBytes + turn.2.bytes.length) request (b.conclude turn.1 request turn.2.moment now)

theorem respond_lastSequence (s : State) (bytes : Bytes) (request : BrokerFrame) (c : Conclusion) :
    (b.respond crypto s bytes request c).2.lastSequence = s.lastSequence := by
  simp only [Broker.respond]
  split
  · rfl
  · split
    · split <;> rfl
    · rfl

theorem takes_consumes {turn : State × Call} {request : BrokerFrame} {now : Int}
    (takes : Takes crypto b turn.1 turn.2.bytes turn.2.moment request now) : Consumed crypto b turn := by
  have next : request.sequence = turn.1.lastSequence + 1 := by
    have taken := takes.taken
    simp only [Broker.refusal] at taken
    split at taken
    · contradiction
    · rename_i same
      simpa using same
  rw [Consumed,handle_takes takes,respond_lastSequence]
  simp only [State.serving]
  omega

theorem consumed_iff (turn : State × Call) :
    Consumed crypto b turn ↔ ∃ request now, Takes crypto b turn.1 turn.2.bytes turn.2.moment request now := by
  constructor
  · intro consumed
    rcases handle_cases crypto b turn.1 turn.2.bytes turn.2.moment with takes | ⟨_,code,now,done⟩
    · exact takes
    · rw [Consumed,done] at consumed
      exact absurd rfl consumed
  · rintro ⟨request,now,takes⟩
    exact takes_consumes takes

theorem respond_ok_iff (digests : crypto.Digests) (s : State) (bytes : Bytes) {request : BrokerFrame}
    (decoded : Decoded b.session request) (good : sound c.value = true) :
    (∃ response, (b.respond crypto s bytes request c).1 = .ok response) ↔ Fits b s.usedBytes request c := by
  constructor
  · rintro ⟨response,done⟩
    simp only [Broker.respond] at done
    split at done
    · contradiction
    · rename_i first encoded
      obtain ⟨room,length⟩ := room_of_encoded digests decoded encoded
      refine ⟨room,fun full => ?_⟩
      rw [if_pos (by rw [length]; exact full)] at done
      split at done
      · contradiction
      · rename_i second encoded'
        exact (room_of_encoded digests decoded encoded').1
  · rintro ⟨room,refusal⟩
    obtain ⟨first,encoded⟩ := encoded_of_room digests decoded good room
    have length := (room_of_encoded digests decoded encoded).2
    simp only [Broker.respond,encoded]
    by_cases full : b.limits.maxSessionBytes < s.usedBytes + first.length
    · rw [length] at full
      obtain ⟨second,encoded'⟩ := encoded_of_room digests decoded (code_sound .sessionBudget) (refusal full)
      rw [if_pos (by rw [length]; exact full),encoded']
      exact ⟨second,rfl⟩
    · rw [if_neg full]
      exact ⟨first,rfl⟩

theorem respond_response {bytes : Bytes} {request : BrokerFrame}
    (done : (b.respond crypto s bytes request c).1 = .ok response) :
    ∃ outcome value, encodeFrame crypto (answer request outcome value) b.session = .ok response := by
  simp only [Broker.respond] at done
  split at done
  · contradiction
  · rename_i first encoded
    split at done
    · split at done
      · contradiction
      · rename_i second encoded'
        cases done
        exact ⟨_,_,encoded'⟩
    · cases done
      exact ⟨_,_,encoded⟩

theorem answered_iff (digests : crypto.Digests) (turn : State × Call) : Answered crypto b turn ↔ HasRoom crypto b turn := by
  constructor
  · rintro ⟨answers,_⟩ request now takes
    obtain ⟨_,response,_,_,_,done,_⟩ := answers (takes_consumes takes)
    rw [handle_takes takes] at done
    exact (respond_ok_iff digests _ _ (decodeFrame_decoded takes.decoded) (conclude_sound ..)).mp ⟨response,done⟩
  · intro room
    constructor
    · intro consumed
      obtain ⟨request,now,takes⟩ := (consumed_iff turn).mp consumed
      obtain ⟨response,done⟩ := (respond_ok_iff digests
        (turn.1.serving turn.2.bytes request (b.conclude turn.1 request turn.2.moment now)) turn.2.bytes
        (decodeFrame_decoded takes.decoded) (conclude_sound ..)).mpr (room request now takes)
      obtain ⟨outcome,value,encoded⟩ := respond_response done
      exact ⟨request,response,outcome,value,takes.decoded,by rw [handle_takes takes]; exact done,encoded⟩
    · intro not_
      rcases handle_cases crypto b turn.1 turn.2.bytes turn.2.moment with takes | ⟨_,code,now,done⟩
      · exact absurd ((consumed_iff turn).mpr takes) not_
      · exact ⟨code,by rw [done]⟩

@[irreducible] def blankText (n : Nat) : String := String.ofList (List.replicate n '\n')

def blankDigest : String := "f09ad4b28af22e30ebdbe26b0c7d6ba08272eec2fa3d37cab1c92e9d627af6a3"

def blankFile (n : Nat) : SnapshotFile := ⟨"notes.txt",blankText n,blankDigest,"100644"⟩

def plainCrypto : Crypto where
  hmac := fun _ _ => "0dae066a1babf7d5afaaf205284d403df3f22eb6a7b3a1347d7bccc8ef4164b2"
  sha256 := fun _ => blankDigest

theorem plainCrypto_digests : plainCrypto.Digests := by
  intro key text
  change hexText 64 "0dae066a1babf7d5afaaf205284d403df3f22eb6a7b3a1347d7bccc8ef4164b2" = true
  decide

def zeros : String := "00000000000000000000000000000000"

def commit : String := "aaaaaaaaaaaaaaaaaaaaaaaaaaaaaaaaaaaaaaaa"

def plainSession : Session := ⟨List.replicate 32 7,"k",zeros,defaultLimits⟩

def blankInput (n : Nat) : HostOptions :=
  ⟨plainSession,⟨"DecadansNeurobro",commit,commit,[blankFile n]⟩,true,"c"⟩

def blankBroker (n : Nat) : Broker := ⟨plainSession,"c","DecadansNeurobro",commit,commit,[blankFile n]⟩

def readNotes : FrameCore where
  kind := .request
  keyId := "k"
  sessionId := zeros
  id := zeros
  sequence := 1
  deadlineMs := 1000
  body := .obj [("args",.obj [("path",.str "notes.txt")]),("method",.str "snapshot.read")]

@[irreducible] def readNotesLine : Bytes :=
  utf8 (canonicalText (.obj (readNotes.fields ++ [("mac",.str (plainCrypto.hmac [] ""))])) ++ "\n")

def quietMoment : Moment := ⟨.at_ 0,some false,true,.failed,.failed,false,.at_ 1⟩

theorem blank_chars (n : Nat) : charBytes (List.replicate n '\n') = n ∧
    charBytes ((List.replicate n '\n').flatMap quoteChar) = 2 * n := by
  induction n with
  | zero => exact ⟨rfl,rfl⟩
  | succ n ih =>
    have one : ('\n').utf8Size = 1 := by decide
    have two : charBytes (quoteChar '\n') = 2 := by decide
    rw [replicate_succ,flatMap_cons,charBytes_append,charBytes,one,two,ih.1,ih.2]
    omega

theorem blank_size (n : Nat) : (blankText n).utf8ByteSize = n := by
  rw [blankText,utf8ByteSize_ofList,(blank_chars n).1]

theorem blank_quote (n : Nat) : (quote (blankText n)).utf8ByteSize = 2 * n + 2 := by
  have mark : charBytes ['"'] = 1 := by decide
  rw [quote,utf8ByteSize_ofList,charBytes_append,charBytes_append,mark,blankText,String.toList_ofList,(blank_chars n).2]
  omega

theorem blank_bounded (within : n ≤ most) : boundedText (blankText n) most = true := by
  have fine : forbidden '\n' = false := by decide
  simp only [boundedText,blank_size,Bool.and_eq_true,decide_eq_true_eq,within,true_and,all_eq_true]
  intro c in_
  rw [blankText,String.toList_ofList] at in_
  rw [eq_of_mem_replicate in_,fine]
  rfl

theorem session_fine : sessionOptions plainSession = .ok plainSession := by
  have key : decide (32 ≤ plainSession.key.length ∧ plainSession.key.length ≤ 64) = true := by decide
  have names : (keyIdText plainSession.keyId && hexText 32 plainSession.sessionId) = true := by decide
  have limits : plainSession.limits.valid = true := by decide
  rw [sessionOptions,requireBroker_yes key,requireBroker_yes names,requireBroker_yes limits]
  rfl

theorem blank_taken (within : n ≤ 16384) :
    takeFile plainCrypto plainSession.limits.maxTextBytes ([],0) (blankFile n) = .ok ([blankFile n],0 + n) := by
  have path : relativePath (blankFile n).path = .ok () := by
    change relativePath "notes.txt" = .ok ()
    rfl
  have text : boundedText (blankFile n).text plainSession.limits.maxTextBytes = true := blank_bounded within
  have mode : snapshotMode (blankFile n).mode = true := by
    change snapshotMode "100644" = true
    decide
  have fresh : (!((([],0) : List SnapshotFile × Nat).1.any fun f => f.path = (blankFile n).path) &&
      plainCrypto.sha256 (blankFile n).text = (blankFile n).sha256) = true := by
    have : plainCrypto.sha256 (blankFile n).text = (blankFile n).sha256 := rfl
    simp [this]
  have size : (blankFile n).text.utf8ByteSize = n := blank_size n
  have few : decide ((([],0) : List SnapshotFile × Nat).2 + n ≤ 1048576) = true := by
    simp only [decide_eq_true_eq]
    omega
  simp only [takeFile,path,requireBroker_yes text,requireBroker_yes mode,requireBroker_yes fresh,size,requireBroker_yes few]
  rfl

theorem blank_made (within : n ≤ 16384) : createWslBrokerHost plainCrypto (blankInput n) = .ok (blankBroker n) := by
  have chat : (boundedText (blankInput n).chat 64 && (blankInput n).chat ≠ "") = true := by
    change (boundedText "c" 64 && "c" ≠ "") = true
    decide
  have names : ((blankInput n).snapshot.repository = "DecadansNeurobro" && hexText 40 (blankInput n).snapshot.commit &&
      hexText 40 (blankInput n).snapshot.tree) = true := by
    change ("DecadansNeurobro" = "DecadansNeurobro" && hexText 40 commit && hexText 40 commit) = true
    decide
  have few : decide ((blankInput n).snapshot.files.length ≤ 256) = true := by
    rfl
  have accepted : (blankInput n).acceptsSnapshot = true := rfl
  have session : sessionOptions (blankInput n).session = .ok plainSession := session_fine
  have files : (blankInput n).snapshot.files.foldlM (takeFile plainCrypto plainSession.limits.maxTextBytes) ([],0) =
      .ok ([blankFile n],0 + n) := by
    change ([blankFile n].foldlM (takeFile plainCrypto plainSession.limits.maxTextBytes) ([],0)) = _
    rw [foldlM_cons,blank_taken within]
    rfl
  simp only [createWslBrokerHost,bind_eq_ok,requireBroker_ok]
  exact ⟨plainSession,session,(),chat,(),names,(),accepted,(),few,_,files,rfl⟩

theorem notes_clear : readNotes.Clear :=
  ⟨(by decide : boundedText Kind.request.text 32768 = true),(by decide : boundedText "k" 32768 = true),
    (by decide : boundedText zeros 32768 = true),(by decide : boundedText zeros 32768 = true),
    (by decide : safe (.finite ((1 : Int) : Rat)) = true),(by decide : safe (.finite ((1000 : Int) : Rat)) = true)⟩

theorem notes_writable : Writable readNotes.body :=
  ⟨by decide,by decide,by decide⟩

theorem notes_short : readNotesLine.length ≤ 32768 := by
  rw [readNotesLine,utf8_length]
  decide +kernel

theorem notes_encoded : encodeFrame plainCrypto readNotes plainSession = .ok readNotesLine := by
  have digest := plainCrypto_digests [] ""
  have body := notes_writable
  have core : Writable (.obj readNotes.fields) := by
    have good := (core_sound readNotes []).mpr ⟨notes_clear,body.good,rfl⟩
    rw [append_nil] at good
    exact ⟨good,by decide,by decide⟩
  have macGood : soundFields [("mac",.str (plainCrypto.hmac [] ""))] = true := by
    change soundFields [("mac",.str "0dae066a1babf7d5afaaf205284d403df3f22eb6a7b3a1347d7bccc8ef4164b2")] = true
    decide
  have frame : Writable (.obj (readNotes.fields ++ [("mac",.str (plainCrypto.hmac [] ""))])) :=
    ⟨(core_sound _ _).mpr ⟨notes_clear,body.good,macGood⟩,by decide,by decide⟩
  have line : readNotesLine =
      utf8 (canonicalText (.obj (readNotes.fields ++ [("mac",.str (plainCrypto.hmac [] ""))])) ++ "\n") := by
    rw [readNotesLine]
  refine encodeFrame_ok.mpr ⟨session_fine,body,?_,core,_,rfl,frame,line,?_⟩
  · decide
  · exact notes_short

def blankValue (n : Nat) : Json :=
  .obj ((blankBroker n).identity ++ [("path",.str "notes.txt"),("text",.str (blankText n)),("sha256",.str blankDigest)])

theorem blank_ordered (n : Nat) : ordered (blankValue n) =
    .obj [("commit",.str commit),("path",.str "notes.txt"),("repository",.str "DecadansNeurobro"),("sha256",.str blankDigest),
      ("text",.str (blankText n)),("tree",.str commit)] := by
  simp only [blankValue,Broker.identity,blankBroker,cons_append,nil_append,ordered,orderedFields]
  simp [List.insertionSort,List.orderedInsert,utf16Units,unitsLe,utf16]

theorem blank_writable (within : n ≤ 16384) : Writable (blankValue n) := by
  have text := blank_bounded (show n ≤ 32768 by omega)
  have k1 : fieldKey "repository" = true := by decide
  have k2 : fieldKey "commit" = true := by decide
  have k3 : fieldKey "tree" = true := by decide
  have k4 : fieldKey "path" = true := by decide
  have k5 : fieldKey "text" = true := by decide
  have k6 : fieldKey "sha256" = true := by decide
  have v1 : boundedText "DecadansNeurobro" 32768 = true := by decide
  have v2 : boundedText commit 32768 = true := by decide
  have v3 : boundedText "notes.txt" 32768 = true := by decide
  have v4 : boundedText blankDigest 32768 = true := by decide
  refine ⟨?_,?_,?_⟩
  · simp only [blankValue,Broker.identity,blankBroker,cons_append,nil_append,sound,soundFields,k1,k2,k3,k4,k5,k6,v1,
      v2,v3,v4,text,Bool.and_self]
  · simp [blankValue,Broker.identity,blankBroker,height,heightFields]
  · simp [blankValue,Broker.identity,blankBroker,nodes,nodesFields]

theorem blank_bytes (n : Nat) : bytesOf (blankValue n) = 2 * n + 240 := by
  have k1 : (quote "repository").utf8ByteSize = 12 := by decide
  have k2 : (quote "commit").utf8ByteSize = 8 := by decide
  have k3 : (quote "tree").utf8ByteSize = 6 := by decide
  have k4 : (quote "path").utf8ByteSize = 6 := by decide
  have k5 : (quote "text").utf8ByteSize = 6 := by decide
  have k6 : (quote "sha256").utf8ByteSize = 8 := by decide
  have v1 : (quote "DecadansNeurobro").utf8ByteSize = 18 := by decide
  have v2 : (quote commit).utf8ByteSize = 42 := by decide
  have v3 : (quote "notes.txt").utf8ByteSize = 11 := by decide
  have v4 : (quote blankDigest).utf8ByteSize = 66 := by decide
  have comma : (",").utf8ByteSize = 1 := by decide
  have colon : (":").utf8ByteSize = 1 := by decide
  have opening : ("\x7b").utf8ByteSize = 1 := by decide
  have closing_ : ("\x7d").utf8ByteSize = 1 := by decide
  rw [bytesOf,canonicalText,blank_ordered]
  simp only [Json.stringify,Json.stringifyFields,joined,String.utf8ByteSize_append,k1,k2,k3,k4,k5,k6,v1,v2,v3,v4,comma,colon,
    opening,closing_,blank_quote]
  omega

/-- The request as the host decodes it. -/
theorem notes_decoded : ∃ m, decodeFrame plainCrypto readNotesLine plainSession .request = .ok ⟨readNotes,m⟩ := by
  have fit : readNotes.Fit plainSession := ⟨rfl,rfl,by decide,by decide,by simp [readNotes,Distinct,DistinctFields]⟩
  obtain ⟨m,decoded⟩ := decode_encode plainCrypto_digests fit notes_encoded
  refine ⟨m,?_⟩
  have same : settled readNotes.body = readNotes.body := by
    simp only [readNotes,settled,ordered,orderedFields]
    simp [List.insertionSort,List.orderedInsert,utf16Units,unitsLe,utf16,unsigned,unsignedFields]
  rw [same] at decoded
  exact decoded

theorem notes_taken (n : Nat) (m : String) : (blankBroker n).refusal {} readNotesLine ⟨readNotes,m⟩ 0 = none := by
  have short := notes_short
  have number : ¬(readNotes.sequence ≠ ({} : State).lastSequence + 1) := by decide
  have deadline : ¬¬((0 : Int) < readNotes.deadlineMs ∧ readNotes.deadlineMs - 0 ≤ ((blankBroker n).limits.maxDeadlineMs : Nat)) := by
    change ¬¬((0 : Int) < 1000 ∧ (1000 : Int) - 0 ≤ ((5000 : Nat) : Int))
    decide
  have room : ¬¬(({} : State).calls < (blankBroker n).limits.maxCalls ∧
      ({} : State).usedBytes + readNotesLine.length + 1024 ≤ (blankBroker n).limits.maxSessionBytes) := by
    change ¬¬((0 : Nat) < 32 ∧ 0 + readNotesLine.length + 1024 ≤ 262144)
    omega
  rw [Broker.refusal,if_neg number,if_neg deadline,if_neg room]

theorem notes_answered (n : Nat) :
    (blankBroker n).snapshotRead (.obj [("path",.str "notes.txt")]) = .ok (blankValue n) := by
  have keys : exactKeys (.obj [("path",.str "notes.txt")]) ["path"] = true := by decide
  have path : relativePath "notes.txt" = .ok () := rfl
  have found : (blankBroker n).files.find? (fun f => f.path = "notes.txt") = some (blankFile n) := by
    simp [blankBroker,blankFile]
  simp only [Broker.snapshotRead,bind_eq_ok,requireBroker_ok,requireSome_ok]
  exact ⟨(),keys,"notes.txt",rfl,(),path,blankFile n,found,rfl⟩

theorem notes_dispatched (n : Nat) :
    (blankBroker n).dispatch [] quietMoment readNotes.body = { answer := .ok (blankValue n) } := by
  have keys : exactKeys readNotes.body ["method","args"] = true := by
    simp [exactKeys,readNotes,List.insertionSort,List.orderedInsert,utf16Units,unitsLe,utf16]
  have method : text? (readNotes.body.field? "method") = some "snapshot.read" := by
    simp [readNotes,Json.field?,text?]
  have args : readNotes.body.field? "args" = some (.obj [("path",.str "notes.txt")]) := by
    simp [readNotes,Json.field?]
  rw [Broker.dispatch,keys,method,args]
  simp [isObject,notes_answered]

theorem notes_concluded (within : n ≤ 11880) (m : String) :
    (blankBroker n).conclude {} ⟨readNotes,m⟩ quietMoment 0 = ⟨.ok,blankValue n,false,1,[]⟩ := by
  have wrote := canonicalJson_ok.mpr ⟨blank_writable (show n ≤ 16384 by omega),rfl⟩
  have size : (canonicalText (blankValue n)).utf8ByteSize ≤ (blankBroker n).limits.maxBodyBytes := by
    have bytes := blank_bytes n
    rw [bytesOf] at bytes
    change _ ≤ 24000
    omega
  have complete : completion quietMoment 0 1000 = .ok 1 := rfl
  have attempted : (blankBroker n).attempt { answer := .ok (blankValue n) } quietMoment 0 1000 = (.ok (blankValue n),1) := by
    have open_ : quietMoment.closed = false := rfl
    simp only [Broker.attempt,open_,complete,wrote,size,if_true]
    rfl
  have dispatched := notes_dispatched n
  have switch : quietMoment.killSwitch = some false := rfl
  have timed : ¬quietMoment.timed = false := by decide
  have deadline : readNotes.deadlineMs = 1000 := rfl
  have closed : quietMoment.closed = false := rfl
  simp only [Broker.conclude,switch,timed,dispatched,deadline,attempted,closed]
  rfl

theorem blank_unanswered (checked : n ≤ 11880) (full : 11867 < n) :
    ¬∀ turn ∈ (blankBroker n).turns plainCrypto {} [.call ⟨readNotesLine,quietMoment⟩],
      Answered plainCrypto (blankBroker n) turn := by
  intro all
  obtain ⟨m,decoded⟩ := notes_decoded
  have turn := all ({},⟨readNotesLine,quietMoment⟩) (by simp [Broker.turns])
  have room := (answered_iff plainCrypto_digests _).mp turn ⟨readNotes,m⟩ 0
    ⟨rfl,decoded,rfl,by decide,notes_taken n m⟩
  rw [notes_concluded checked] at room
  have body := room.1.body
  have word : Outcome.ok.text.length = 2 := by decide
  have most : (blankBroker n).limits.maxBodyBytes = 24000 := rfl
  rw [bodyBytes,blank_bytes,word,most] at body
  omega

/-- The request that a call used a number up for. -/
def consumedRequest (crypto : Crypto) (b : Broker) (turn : State × Call) : Option BrokerFrame :=
  if (b.handle crypto turn.1 turn.2.bytes turn.2.moment).2.lastSequence = turn.1.lastSequence then none
  else (decodeFrame crypto turn.2.bytes b.session .request).toOption

theorem takes_request (turn : State × Call) {request : BrokerFrame} {now : Int}
    (takes : Takes crypto b turn.1 turn.2.bytes turn.2.moment request now) : consumedRequest crypto b turn = some request := by
  rw [consumedRequest,if_neg (takes_consumes takes),takes.decoded]
  rfl

theorem refused_request (turn : State × Call) (refused : Refused crypto b turn.1 turn.2.bytes turn.2.moment) :
    consumedRequest crypto b turn = none := by
  obtain ⟨_,code,now,done⟩ := refused
  rw [consumedRequest,done,if_pos rfl]

/-- What a request that is taken on must be. -/
theorem taken_facts {bytes : Bytes} {request : BrokerFrame} {now : Int} (taken : b.refusal s bytes request now = none) :
    request.sequence = s.lastSequence + 1 ∧ s.calls < b.limits.maxCalls ∧
      s.usedBytes + bytes.length + 1024 ≤ b.limits.maxSessionBytes := by
  simp only [Broker.refusal] at taken
  split at taken
  · contradiction
  · rename_i same
    split at taken
    · contradiction
    · split at taken
      · contradiction
      · rename_i room
        simp only [not_not] at same room
        exact ⟨same,room⟩

theorem numberSize_safe {n : Int} (is_ : safe (.finite n) = true) : numberSize n ≤ 17 := by
  have digits (m : Nat) (small : m ≤ 9007199254740991) : m.repr.utf8ByteSize ≤ 16 := by
    have all : ∀ c ∈ m.repr.toList, Ascii c := by
      intro c in_
      rw [Nat.toList_repr] at in_
      exact alphanum_ascii (by simp [Char.isAlphanum,Nat.isDigit_of_mem_toDigits (by omega) (by omega) in_])
    rw [ascii_bytes all,Nat.toList_repr]
    apply (Nat.length_toDigits_le_iff (by omega) (by omega)).mpr
    exact Nat.lt_of_le_of_lt small (by decide)
  simp only [safe,Rat.den_intCast,Rat.num_intCast,decide_eq_true_eq] at is_
  rw [numberSize,Int.repr_eq_if]
  split
  · have := digits n.toNat (by omega)
    omega
  · have := digits (-n).toNat (by omega)
    have sign : ("-" : String).utf8ByteSize = 1 := by decide
    rw [String.utf8ByteSize_append,sign]
    omega

theorem refusal_bytes {request : BrokerFrame} (decoded : Decoded session request) :
    bodyBytes .refused (codeJson .sessionBudget) + envelope request.toFrameCore ≤ 1024 := by
  have code : bytesOf (codeJson .sessionBudget) = 25 := by decide
  have key := (keyIdText_ascii (session_names decoded.options).1).1
  have deadline := numberSize_safe decoded.clear.deadlineMs
  have sequence := numberSize_safe decoded.clear.sequence
  have word : Outcome.refused.text.length = 7 := by decide
  simp only [bodyBytes,envelope,code,decoded.keyId,word]
  omega

/-- How a session stands between calls. -/
structure Within (b : Broker) (s : State) : Prop where
  numbers : s.lastSequence = s.calls
  calls : s.calls ≤ b.limits.maxCalls
  bytes : s.usedBytes ≤ b.limits.maxSessionBytes

theorem respond_state (digests : crypto.Digests) (s : State) (bytes : Bytes) {request : BrokerFrame} (c : Conclusion)
    (decoded : Decoded b.session request) (room : s.usedBytes + 1024 ≤ b.limits.maxSessionBytes) :
    (b.respond crypto s bytes request c).2.lastSequence = s.lastSequence ∧
      (b.respond crypto s bytes request c).2.calls = s.calls ∧
      (b.respond crypto s bytes request c).2.usedBytes ≤ b.limits.maxSessionBytes := by
  simp only [Broker.respond]
  split
  · exact ⟨rfl,rfl,Nat.le_of_add_right_le room⟩
  · split
    · split
      · exact ⟨rfl,rfl,Nat.le_of_add_right_le room⟩
      · rename_i second encoded
        have length := (room_of_encoded digests decoded encoded).2
        have short := refusal_bytes decoded
        exact ⟨rfl,rfl,by simp only [State.sent]; omega⟩
    · rename_i fits
      exact ⟨rfl,rfl,by simp only [State.sent]; omega⟩

theorem call_within (digests : crypto.Digests) (within : Within b s) (c : Call) : Within b (b.step crypto s (.call c)):= by
  rcases handle_cases crypto b s c.bytes c.moment with ⟨request,now,takes⟩ | ⟨_,code,now,done⟩
  · obtain ⟨next,few,room⟩ := taken_facts takes.taken
    have decoded := decodeFrame_decoded takes.decoded
    have kept := respond_state digests (s.serving c.bytes request (b.conclude s request c.moment now)) c.bytes
      (b.conclude s request c.moment now) decoded (by simp only [State.serving]; omega)
    have numbers := within.numbers
    rw [Broker.step,handle_takes takes]
    refine ⟨?_,?_,kept.2.2⟩
    · rw [kept.1,kept.2.1]
      simp only [State.serving]
      omega
    · rw [kept.2.1]
      simp only [State.serving]
      omega
  · rw [Broker.step,done]
    exact ⟨within.numbers,within.calls,within.bytes⟩

theorem step_within (digests : crypto.Digests) (within : Within b s) (event : Event) :
    Within b (b.step crypto s event) := by
  cases event with
  | call c => exact call_within digests within c
  | close => exact ⟨within.numbers,within.calls,within.bytes⟩

/-- The numbers used up by a run, in their order. -/
def Broker.numbers (crypto : Crypto) (b : Broker) (s : State) (events : List Event) : List Int :=
  ((b.turns crypto s events).filterMap (consumedRequest crypto b)).map fun request => request.sequence

theorem after_within (digests : crypto.Digests) (within : Within b s) (events : List Event) :
    Within b (b.after crypto s events) := by
  induction events generalizing s with
  | nil => exact within
  | cons event rest ih => exact ih (step_within digests within event)

/-- From a session on, the numbers follow one another. -/
theorem numbers_follow (digests : crypto.Digests) (within : Within b s) (events : List Event) :
    ∃ n, b.numbers crypto s events = (List.range n).map fun i : Nat => s.lastSequence + 1 + (i : Int) := by
  induction events generalizing s with
  | nil => exact ⟨0,rfl⟩
  | cons event rest ih =>
    cases event with
    | close =>
      obtain ⟨n,more⟩ := ih (step_within digests within .close)
      exact ⟨n,more⟩
    | call c =>
      obtain ⟨n,more⟩ := ih (call_within digests within c)
      simp only [Broker.numbers] at more ⊢
      simp only [Broker.turns,filterMap_cons]
      rcases handle_cases crypto b s c.bytes c.moment with ⟨request,now,takes⟩ | refused
      · have next := (taken_facts takes.taken).1
        have last : (b.step crypto s (.call c)).lastSequence = s.lastSequence + 1 := by
          rw [Broker.step,handle_takes takes,respond_lastSequence,← next]
          rfl
        rw [takes_request (s,c) takes]
        simp only [map_cons,more,last,next]
        refine ⟨n + 1,?_⟩
        simp only [range_succ_eq_map,map_cons,map_map]
        refine congrArg₂ List.cons (by simp) (map_congr_left fun i _ => ?_)
        simp only [Function.comp_apply]
        omega
      · rw [refused_request (s,c) refused]
        obtain ⟨_,code,now,done⟩ := refused
        have last : (b.step crypto s (.call c)).lastSequence = s.lastSequence := by rw [Broker.step,done]
        rw [last] at more
        exact ⟨n,more⟩

/-! ## The whole contract -/

/-- What the frames and the sessions of the pipe promise. -/
structure Contract (crypto : Crypto) : Prop where
  /-- Up to the order of keys and the sign of a zero. -/
  decodes : ∀ (core : FrameCore) (session : Session) (bytes : Bytes), core.Fit session →
    encodeFrame crypto core session = .ok bytes →
    ∃ m, decodeFrame crypto bytes session core.kind = .ok ⟨{ core with body := settled core.body },m⟩
  accepts : ∀ (bytes : Bytes) (session : Session) (kind : Kind) (frame : BrokerFrame),
    decodeFrame crypto bytes session kind = .ok frame → encodeFrame crypto frame.toFrameCore session = .ok bytes
  chunks : ∀ (maxBytes : Nat), 0 < maxBytes → ∀ (one other : List Bytes), one.flatten = other.flatten →
    (∀ chunk ∈ one, completes chunk ≤ 32) → (∀ chunk ∈ other, completes chunk ≤ 32) →
    (Framer.run ⟨maxBytes,[],false⟩ one).2 = (Framer.run ⟨maxBytes,[],false⟩ other).2 ∧
      ((∃ f, (Framer.run ⟨maxBytes,[],false⟩ one).2 = .ok f) →
        (Framer.run ⟨maxBytes,[],false⟩ one).1 = (Framer.run ⟨maxBytes,[],false⟩ other).1)
  withheld : ∀ (f : Framer) (stream : List Bytes) (code : Code), (f.run stream).2 = .error code →
    ∃ before chunk after f', stream = before ++ chunk :: after ∧ f.run before = ((f.run stream).1,.ok f') ∧
      (f'.push chunk).1 = .error code
  sequence : ∀ (b : Broker) (events : List Event), ∃ n : Nat,
    b.numbers crypto {} events = (List.range n).map fun i : Nat => ((i : Int) + 1)
  bytes : ∀ (b : Broker) (events : List Event), (b.after crypto {} events).usedBytes ≤ b.limits.maxSessionBytes

theorem contract_holds (digests : crypto.Digests) : Contract crypto := by
  refine ⟨fun _ _ _ fit encoded => decode_encode digests fit encoded,fun _ _ _ _ decoded => encode_decode decoded,?_,
    fun _ _ _ failed => run_failed failed,?_,?_⟩
  · intro maxBytes some_ one other same few few'
    have ready : Framer.Ready ⟨maxBytes,[],false⟩ := ⟨rfl,some_,Nat.zero_le _⟩
    obtain ⟨end_,_,all⟩ := run_assemble ready few
    obtain ⟨end',_,all'⟩ := run_assemble ready few'
    rw [← same] at end' all'
    have ends := end_.trans end'.symm
    exact ⟨ends,fun fine => (all fine).trans (all' (ends ▸ fine)).symm⟩
  · intro b events
    obtain ⟨n,follow⟩ := numbers_follow digests (b := b) (s := {}) ⟨rfl,Nat.zero_le _,Nat.zero_le _⟩ events
    refine ⟨n,follow.trans (map_congr_left fun i _ => ?_)⟩
    change (0 : Int) + 1 + i = i + 1
    omega
  · intro b events
    exact (after_within digests (b := b) (s := {}) ⟨rfl,Nat.zero_le _,Nat.zero_le _⟩ events).bytes

/-- Two splits of one stream of lines: the frames that come out before a failure may differ, and
whether there is a failure. -/
theorem splits_differ :
    (¬∀ one other : List Bytes, one.flatten = other.flatten →
      (Framer.run ⟨8,[],false⟩ one).1 = (Framer.run ⟨8,[],false⟩ other).1) ∧
    ¬∀ one other : List Bytes, one.flatten = other.flatten →
      (Framer.run ⟨8,[],false⟩ one).2.isOk = (Framer.run ⟨8,[],false⟩ other).2.isOk := by
  constructor
  · intro all
    exact absurd (all [[97,10,10]] [[97,10],[10]] rfl) (by decide)
  · intro all
    exact absurd (all [(List.replicate 33 [97,10]).flatten] (List.replicate 33 [97,10]) (by decide)) (by decide)

theorem contract_plain : Contract plainCrypto := contract_holds plainCrypto_digests

end Neurobro.Wsl
