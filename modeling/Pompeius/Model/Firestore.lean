import Mathlib.Data.List.Basic
import Pompeius.Lib.Run

/-!
# How Firestore sends a write

What becomes of a `setData` inside the SDK (`Pods/FirebaseFirestore`): the
write is stored with the writes of its user, taken into the write pipeline,
sent over a stream, answered, and dropped. Six classes take part and one
structure holds the state of them all.

Everything but the credentials provider runs on one worker queue, so an event
is one task of that queue, a timer that fires on it, something gRPC reports to
it, or a step of the outside. A failed assertion of the SDK kills the process
and is a value here, the text of the assertion.

The batches of all users are in one list in the order of their ids; the store
sorts them by user first, but every reading of it is of one user's batches. The
mutation queue of the local store and `current_user_` are set together and are
one field.

What a closed stream had written and the backend had not taken is lost with it:
the backend does not take it later. To each message it takes it makes one response.

Left out: the watch side, which never starts in a program that listens to
nothing, documents and views, stream tokens, responses that do not parse or do
not have a result for each mutation sent (`MutationBatchResult` asserts it), the
write without a mutation, which is answered on the spot and which `setData`
never makes, the delays of the backoff and of the idle timer, and the overflow
of the batch ids.
-/

namespace Pompeius.Firestore

variable {U M : Type}

/-! ## State -/

/-- The codes of `Error` other than `kOk`. -/
inductive Error where
  | cancelled | unknown | invalidArgument | deadlineExceeded | notFound | alreadyExists
  | permissionDenied | resourceExhausted | failedPrecondition | aborted | outOfRange
  | unimplemented | internal | unavailable | dataLoss | unauthenticated
  deriving DecidableEq, Repr

structure MutationBatch (U M : Type) where
  user : U
  batchId : Nat
  mutations : M
  deriving DecidableEq, Repr

inductive Message (M : Type) where
  | handshake
  | mutations (m : M)
  deriving DecidableEq, Repr

/-- An open gRPC stream. -/
structure GrpcStream (U M : Type) where
  /-- The user of the token it was opened with. -/
  user : U
  /-- Written and not yet taken by the backend. -/
  outbox : List (Message M) := []
  /-- Responses of the backend that were not read yet. -/
  unread : Nat := 0
  deriving DecidableEq, Repr

/-- A call of `GetToken` that was not answered yet. -/
structure TokenRequest where
  initialCloseCount : Nat
  initialTokenCounter : Nat
  deriving DecidableEq, Repr

/-- A task of the worker queue. -/
inductive Task (U M : Type) where
  | writeMutations (m : M)
  | handleCredentialChange (user : U)
  | enableNetwork
  | disableNetwork
  | resumeStart (initialCloseCount : Nat) (maybeToken : Except Error U)

inductive State where
  | initial | starting | opened | error | backoff
  deriving DecidableEq, Repr

structure Client (U M : Type) where
  -- `FirebaseCredentialsProvider`
  user : U
  tokenCounter : Nat := 0
  tokenRequests : List TokenRequest := []
  -- `AsyncQueue`
  tasks : List (Task U M) := []
  -- `LevelDbMutationQueue`
  batches : List (MutationBatch U M) := []
  nextBatchId : Nat := 0
  -- `SyncEngine`
  currentUser : U
  /-- Completion handlers, known by the mutations they came with. -/
  mutationCallbacks : List (MutationBatch U M) := []
  -- `RemoteStore`
  isNetworkEnabled : Bool := false
  writePipeline : List (MutationBatch U M) := []
  -- `WriteStream`
  state : State := .initial
  closeCount : Nat := 0
  handshakeComplete : Bool := false
  idlenessTimer : Bool := false
  grpcStream : Option (GrpcStream U M) := none
  /-- The mutations the backend has applied, oldest first. -/
  applied : List M := []
  -- For statements; no step reads these.
  issued : List (U × M) := []
  resolved : List (U × M × Bool) := []
  told : List (U × M × Bool) := []

abbrev Checked (α : Type) := Except String α

def hardAssert (p : Prop) [Decidable p] (message : String) : Checked Unit :=
  if p then .ok () else .error message

namespace Client

variable [DecidableEq U]

/-! ## `LevelDbMutationQueue` and `LocalStore` -/

/-- `LoadNextBatchIdFromDb`. -/
def loadNextBatchId (c : Client U M) : Nat :=
  (c.batches.foldl (fun maxBatchId b => max maxBatchId b.batchId) 0) + 1

/-- Is this the row of the current user under that id? -/
def isRow (c : Client U M) (batchId : Nat) (b : MutationBatch U M) : Bool :=
  b.user = c.currentUser ∧ b.batchId = batchId

def addMutationBatch (c : Client U M) (m : M) : Client U M × MutationBatch U M :=
  let batch := ⟨c.currentUser, c.nextBatchId, m⟩
  ({ c with batches := c.batches ++ [batch], nextBatchId := c.nextBatchId + 1 }, batch)

def lookupMutationBatch (c : Client U M) (batchId : Nat) : Option (MutationBatch U M) :=
  c.batches.find? (c.isRow batchId)

/-- `NextMutationBatchAfterBatchId`; `none` is `kBatchIdUnknown`. -/
def getNextMutationBatch (c : Client U M) (after : Option Nat) : Option (MutationBatch U M) :=
  c.batches.find? fun b => b.user = c.currentUser ∧ ∀ last ∈ after, last < b.batchId

def removeMutationBatch (c : Client U M) (batch : MutationBatch U M) : Checked (Client U M) := do
  hardAssert (c.batches.any (c.isRow batch.batchId)) "Mutation batch did not exist"
  return { c with batches := c.batches.filter fun b => !c.isRow batch.batchId b }

def rejectBatch (c : Client U M) (batchId : Nat) :
    Checked (Client U M × MutationBatch U M) := do
  match c.lookupMutationBatch batchId with
  | none => throw "Attempt to reject nonexistent batch!"
  | some batch => return (← c.removeMutationBatch batch, batch)

/-! ## `Stream` -/

def isOpen (c : Client U M) : Bool := c.state = .opened

def isStarted (c : Client U M) : Bool :=
  c.state = .starting || c.state = .backoff || c.isOpen

def requestCredentials (c : Client U M) : Client U M :=
  { c with tokenRequests := c.tokenRequests ++ [⟨c.closeCount, c.tokenCounter⟩] }

def backoffAndTryRestarting (c : Client U M) : Checked (Client U M) := do
  hardAssert (c.state = .error) "Should only perform backoff in an error case"
  return { c with state := .backoff }

def start (c : Client U M) : Checked (Client U M) := do
  if c.state = .error then
    c.backoffAndTryRestarting
  else
    hardAssert (c.state = .initial) "Already started"
    return { c with state := .starting }.requestCredentials

def backoffElapsed (c : Client U M) : Checked (Client U M) := do
  hardAssert (c.state = .backoff) "Backoff elapsed but state is now different"
  let c ← { c with state := .initial }.start
  hardAssert c.isStarted "Stream should have started."
  return c

def inhibitBackoff (c : Client U M) : Checked (Client U M) := do
  hardAssert (c.isStarted = false) "Can only cancel backoff in a stopped state"
  return { c with state := .initial }

def markIdle (c : Client U M) : Client U M :=
  if c.isOpen ∧ c.idlenessTimer = false then { c with idlenessTimer := true } else c

def write (c : Client U M) (message : Message M) : Checked (Client U M) := do
  hardAssert c.isOpen "Cannot write when the stream is not open."
  return {
    c with
    idlenessTimer := false
    grpcStream := c.grpcStream.map fun g => { g with outbox := g.outbox ++ [message] } }

/-! ## `WriteStream` -/

def writeHandshake (c : Client U M) : Checked (Client U M) := do
  hardAssert c.isOpen "Writing handshake requires an opened stream"
  hardAssert (c.handshakeComplete = false) "Handshake already completed"
  c.write .handshake

def writeMutations (c : Client U M) (m : M) : Checked (Client U M) := do
  hardAssert c.isOpen "Writing mutations requires an opened stream"
  hardAssert c.handshakeComplete "Handshake must be complete before writing mutations"
  c.write (.mutations m)

/-! ## `RemoteStore`: filling the pipeline -/

def kMaxPendingWrites : Nat := 10

def canAddToWritePipeline (c : Client U M) : Bool :=
  c.isNetworkEnabled && c.writePipeline.length < kMaxPendingWrites

def addToWritePipeline (c : Client U M) (batch : MutationBatch U M) : Checked (Client U M) := do
  hardAssert c.canAddToWritePipeline "AddToWritePipeline called when pipeline is full"
  let c := { c with writePipeline := c.writePipeline ++ [batch] }
  if c.isOpen && c.handshakeComplete then c.writeMutations batch.mutations
  else return c

def shouldStartWriteStream (c : Client U M) : Bool :=
  c.isNetworkEnabled && !c.isStarted && !c.writePipeline.isEmpty

def startWriteStream (c : Client U M) : Checked (Client U M) := do
  hardAssert c.shouldStartWriteStream
    "StartWriteStream called when ShouldStartWriteStream is false."
  c.start

/-- The loop of `FillWritePipeline`; each round adds one batch, so `rounds` is
what the pipeline has room for. -/
def fillLoop : Nat → Option Nat → Client U M → Checked (Client U M)
  | 0, _, c => return c
  | rounds + 1, lastBatchIdRetrieved, c =>
      if c.canAddToWritePipeline then
        match c.getNextMutationBatch lastBatchIdRetrieved with
        | none => return if c.writePipeline.isEmpty then c.markIdle else c
        | some batch => do
            let c ← c.addToWritePipeline batch
            fillLoop rounds (some batch.batchId) c
      else return c

def fillWritePipeline (c : Client U M) : Checked (Client U M) := do
  let c ← fillLoop (kMaxPendingWrites - c.writePipeline.length)
    (c.writePipeline.getLast?.map (·.batchId)) c
  if c.shouldStartWriteStream then c.startWriteStream else return c

/-! ## `SyncEngine` and `LocalStore`: the fate of a write -/

def notifyUser (c : Client U M) (batchId : Nat) (ok : Bool) : Client U M :=
  match c.mutationCallbacks.find? (c.isRow batchId) with
  | none => c
  | some callback =>
      { c with
        mutationCallbacks := c.mutationCallbacks.eraseP (c.isRow batchId)
        told := c.told ++ [(callback.user, callback.mutations, ok)] }

def handleSuccessfulWrite (c : Client U M) (batch : MutationBatch U M) :
    Checked (Client U M) := do
  let c ← (c.notifyUser batch.batchId true).removeMutationBatch batch
  return { c with resolved := c.resolved ++ [(c.currentUser, batch.mutations, true)] }

def handleRejectedWrite (c : Client U M) (batchId : Nat) : Checked (Client U M) := do
  let (c, batch) ← c.rejectBatch batchId
  return { c.notifyUser batchId false with
    resolved := c.resolved ++ [(c.currentUser, batch.mutations, false)] }

/-- `WriteMutations`, with `WriteLocally`. A callback is only stored under a
key that is not taken. -/
def handleWriteMutations (c : Client U M) (m : M) : Checked (Client U M) := do
  let (c, batch) := c.addMutationBatch m
  let c :=
    if c.mutationCallbacks.any (c.isRow batch.batchId) then c
    else { c with mutationCallbacks := c.mutationCallbacks ++ [batch] }
  c.fillWritePipeline

/-! ## `RemoteStore`: what the stream reports -/

/-- `Datastore::IsPermanentWriteError`. -/
def isPermanentWriteError : Error → Bool
  | .cancelled | .unknown | .deadlineExceeded | .resourceExhausted | .internal | .unavailable
  | .unauthenticated => false
  | .aborted => false
  | .invalidArgument | .notFound | .alreadyExists | .permissionDenied | .failedPrecondition
  | .outOfRange | .unimplemented | .dataLoss => true

def onWriteStreamOpen (c : Client U M) : Checked (Client U M) := c.writeHandshake

def onWriteStreamHandshakeComplete (c : Client U M) : Checked (Client U M) :=
  c.writePipeline.foldlM (fun c write => c.writeMutations write.mutations) c

def onWriteStreamMutationResult (c : Client U M) : Checked (Client U M) := do
  match c.writePipeline with
  | [] => throw "Got result for empty write pipeline"
  | batch :: rest =>
      let c ← { c with writePipeline := rest }.handleSuccessfulWrite batch
      c.fillWritePipeline

def handleWriteError (c : Client U M) (status : Error) : Checked (Client U M) := do
  if isPermanentWriteError status = false then return c
  else
    match c.writePipeline with
    | [] => return c
    | batch :: rest =>
        let c ← { c with writePipeline := rest }.inhibitBackoff
        let c ← c.handleRejectedWrite batch.batchId
        c.fillWritePipeline

/-- `none` is the status OK. An error before the handshake at most resets the
stream token. -/
def onWriteStreamClose (c : Client U M) (status : Option Error) : Checked (Client U M) := do
  let c ←
    match status with
    | none => do
        hardAssert (c.shouldStartWriteStream = false)
          "Write stream was stopped gracefully while still needed."
        pure c
    | some e =>
        if !c.writePipeline.isEmpty && c.handshakeComplete then c.handleWriteError e else pure c
  if c.shouldStartWriteStream then c.startWriteStream else return c

/-! ## `Stream` and `WriteStream`: opening, reading and closing -/

def close (c : Client U M) (status : Option Error) : Checked (Client U M) := do
  if status = none ∧ c.isStarted = false then return c
  else
    hardAssert c.isStarted "Trying to close a non-started stream"
    let c ← {
      c with
      idlenessTimer := false
      closeCount := c.closeCount + 1
      grpcStream := none
      state := if status = none then .initial else .error }.onWriteStreamClose status
    return { c with handshakeComplete := false }

def stop (c : Client U M) : Checked (Client U M) := c.close none

def onStreamStart (c : Client U M) : Checked (Client U M) :=
  { c with state := .opened }.onWriteStreamOpen

def resumeStartWithCredentials (c : Client U M) (maybeToken : Except Error U) :
    Checked (Client U M) := do
  hardAssert (c.state = .starting) "State should still be 'Starting'"
  match maybeToken with
  | .error e => c.close (some e)
  | .ok user => onStreamStart { c with grpcStream := some ⟨user, [], 0⟩ }

/-- The first response is the handshake response. -/
def onStreamRead (c : Client U M) : Checked (Client U M) := do
  hardAssert c.isStarted "OnStreamRead called for a stopped stream."
  if c.handshakeComplete = false then
    onWriteStreamHandshakeComplete { c with handshakeComplete := true }
  else c.onWriteStreamMutationResult

/-! ## The network, and a change of the user -/

def disableNetworkInternal (c : Client U M) : Checked (Client U M) := do
  let c ← c.stop
  return { c with writePipeline := [] }

def enableNetwork (c : Client U M) : Checked (Client U M) :=
  { c with isNetworkEnabled := true }.fillWritePipeline

def disableNetwork (c : Client U M) : Checked (Client U M) :=
  { c with isNetworkEnabled := false }.disableNetworkInternal

/-- `SyncEngine::HandleCredentialChange`, which starts the mutation queue of
another user, and then that of `RemoteStore`. -/
def handleCredentialChange (c : Client U M) (user : U) : Checked (Client U M) := do
  let c' := { c with currentUser := user }
  let c' := if c.currentUser ≠ user then { c' with nextBatchId := c'.loadNextBatchId } else c'
  if c'.isNetworkEnabled then
    let c' ← { c' with isNetworkEnabled := false }.disableNetworkInternal
    c'.enableNetwork
  else return c'

/-- `FirestoreClient::Initialize`, over the batches an earlier process left. -/
def initialized (batches : List (MutationBatch U M)) (user : U) (applied : List M) :
    Checked (Client U M) :=
  let c : Client U M := { user, currentUser := user, batches, applied }
  { c with nextBatchId := c.loadNextBatchId }.enableNetwork

/-! ## Steps -/

def perform (c : Client U M) : Task U M → Checked (Client U M)
  | .writeMutations m => c.handleWriteMutations m
  | .handleCredentialChange user => c.handleCredentialChange user
  | .enableNetwork => c.enableNetwork
  | .disableNetwork => c.disableNetwork
  | .resumeStart initialCloseCount maybeToken =>
      if c.closeCount ≠ initialCloseCount then .ok c
      else c.resumeStartWithCredentials maybeToken

inductive Event (U M : Type) where
  /-- `FirestoreClient::WriteMutations`. -/
  | write (m : M)
  /-- Auth announces its user, who may be the same with another token. -/
  | announce (user : U)
  | setNetwork (enabled : Bool)
  /-- Auth answers the token request at this place with a token or an error. -/
  | token (i : Nat) (failure : Option Error)
  /-- The worker queue runs its next task. -/
  | work
  | backoffElapsed
  | idle
  /-- The backend takes the next message of the stream. -/
  | take
  /-- The next response of the backend is read. -/
  | read
  /-- gRPC reports the end of the stream. -/
  | finish (status : Option Error)

/-- What a token request is answered with: it fails when the user was announced
anew since it was made. -/
def tokenFor (c : Client U M) (request : TokenRequest) (failure : Option Error) :
    Except Error U :=
  if request.initialTokenCounter ≠ c.tokenCounter then .error .aborted
  else match failure with
    | some e => .error e
    | none => .ok c.user

def enqueue (c : Client U M) (task : Task U M) : Client U M :=
  { c with tasks := c.tasks ++ [task] }

/-- One event; `none` when it cannot happen here. -/
def step (c : Client U M) : Event U M → Option (Checked (Client U M))
  | .write m => some (.ok { c.enqueue (.writeMutations m) with issued := c.issued ++ [(c.user, m)] })
  | .announce user =>
      some (.ok { c.enqueue (.handleCredentialChange user) with
        user, tokenCounter := c.tokenCounter + 1 })
  | .setNetwork enabled =>
      some (.ok (c.enqueue (if enabled then .enableNetwork else .disableNetwork)))
  | .token i failure =>
      match c.tokenRequests[i]? with
      | none => none
      | some request =>
          some (.ok { c.enqueue (.resumeStart request.initialCloseCount (c.tokenFor request failure))
            with tokenRequests := c.tokenRequests.eraseIdx i })
  | .work =>
      match c.tasks with
      | [] => none
      | task :: tasks => some ({ c with tasks }.perform task)
  | .backoffElapsed => if c.state = .backoff then some c.backoffElapsed else none
  | .idle => if c.idlenessTimer then some { c with idlenessTimer := false }.stop else none
  | .take =>
      match c.grpcStream with
      | some ⟨user, .handshake :: outbox, unread⟩ =>
          some (.ok { c with grpcStream := some ⟨user, outbox, unread + 1⟩ })
      | some ⟨user, .mutations m :: outbox, unread⟩ =>
          some (.ok { c with
            applied := c.applied ++ [m]
            grpcStream := some ⟨user, outbox, unread + 1⟩ })
      | _ => none
  | .read =>
      match c.grpcStream with
      | some ⟨user, outbox, unread + 1⟩ =>
          some { c with grpcStream := some ⟨user, outbox, unread⟩ }.onStreamRead
      | _ => none
  | .finish status => if c.grpcStream.isSome then some (c.close status) else none

/-- The step of a client that lives. -/
def next (c : Client U M) (e : Event U M) : Option (Client U M) :=
  match c.step e with
  | some (.ok c') => some c'
  | _ => none

end Client

end Pompeius.Firestore
