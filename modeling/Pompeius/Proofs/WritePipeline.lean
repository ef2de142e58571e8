import Pompeius.Model.Firestore

/-!
# The write pipeline

What the operations of the SDK amount to, one equation each, and what holds
between any two tasks of the worker queue.
-/

namespace Pompeius.Firestore.Client

open Lib

variable {U M : Type} {c : Client U M}

@[simp] theorem ok_bind {α β : Type} {a : α} {f : α → Checked β} :
    ((Except.ok a : Checked α) >>= f) = f a := rfl

@[simp] theorem pure_eq_ok {α : Type} (a : α) : (pure a : Checked α) = .ok a := rfl

theorem hardAssert_of {p : Prop} [Decidable p] (h : p) (message : String) :
    hardAssert p message = .ok () := if_pos h

/-! ## What filling the pipeline is made of -/

/-- What goes out for batches. -/
def messages (bs : List (MutationBatch U M)) : List (Message M) :=
  bs.map fun b => .mutations b.mutations

theorem messages_append (bs bs' : List (MutationBatch U M)) :
    messages (bs ++ bs') = messages bs ++ messages bs' := List.map_append ..

/-- Does a new batch go out at once? -/
def sending (c : Client U M) : Bool := c.isOpen && c.handshakeComplete

/-- The client with writes of its pipeline sent. -/
def posted (c : Client U M) (bs : List (MutationBatch U M)) : Client U M :=
  { c with
    idlenessTimer := if bs = [] then c.idlenessTimer else false
    grpcStream := c.grpcStream.map fun g =>
      { g with outbox := g.outbox ++ messages bs } }

/-- The client with more batches in its pipeline. -/
def pushed (c : Client U M) (bs : List (MutationBatch U M)) : Client U M :=
  { c with
    writePipeline := c.writePipeline ++ bs
    idlenessTimer := if c.sending = true ∧ bs ≠ [] then false else c.idlenessTimer
    grpcStream :=
      if c.sending then c.grpcStream.map fun g =>
        { g with outbox := g.outbox ++ messages bs }
      else c.grpcStream }

/-- The client with the idle check a stream with nothing to send gets. -/
def idled (c : Client U M) : Client U M :=
  { c with idlenessTimer := c.idlenessTimer || (c.isOpen && c.writePipeline.isEmpty) }

/-- The client with the stream started if it has to be. -/
def kicked (c : Client U M) : Client U M :=
  { c with
    state :=
      if c.shouldStartWriteStream then if c.state = .error then .backoff else .starting
      else c.state
    tokenRequests :=
      if c.shouldStartWriteStream = true ∧ c.state ≠ .error then
        c.tokenRequests ++ [⟨c.closeCount, c.tokenCounter⟩]
      else c.tokenRequests }

theorem posted_nil (c : Client U M) : c.posted [] = c := by
  have hgrpc : c.grpcStream.map (fun g =>
      { g with outbox := g.outbox ++ messages ([] : List (MutationBatch U M)) }) = c.grpcStream := by
    cases c.grpcStream <;> simp [messages]
  rw [posted, hgrpc, if_pos rfl]

theorem posted_posted (c : Client U M) (bs bs' : List (MutationBatch U M)) :
    (c.posted bs).posted bs' = c.posted (bs ++ bs') := by
  cases hg : c.grpcStream <;> cases bs <;> simp [posted, messages, hg]

theorem pushed_nil (c : Client U M) : c.pushed [] = c := by
  have hgrpc : (if c.sending then c.grpcStream.map fun g =>
      { g with outbox := g.outbox ++ messages ([] : List (MutationBatch U M)) }
      else c.grpcStream) = c.grpcStream := by
    cases c.grpcStream <;> simp [messages]
  rw [pushed, hgrpc]
  simp

theorem idled_of_ne (h : c.writePipeline ≠ []) : c.idled = c := by
  rw [idled, List.isEmpty_eq_false_iff.mpr h, Bool.and_false, Bool.or_false]

theorem markIdle_eq_idled (c : Client U M) :
    (if c.writePipeline.isEmpty then c.markIdle else c) = c.idled := by
  cases hp : c.writePipeline with
  | cons b bs =>
      rw [idled_of_ne (by rw [hp]; exact List.cons_ne_nil b bs)]
      rfl
  | nil =>
      have hidled : c.idled = { c with idlenessTimer := c.idlenessTimer || c.isOpen } := by
        rw [idled, hp, List.isEmpty_nil, Bool.and_true]
      rw [hidled, List.isEmpty_nil, if_pos rfl, markIdle]
      cases ho : c.isOpen with
      | false =>
          rw [Bool.or_false]
          exact if_neg (by simp)
      | true =>
          cases ht : c.idlenessTimer with
          | false => rfl
          | true =>
              rw [Bool.true_or, if_neg (by decide), ← ht]

theorem pushed_pushed (c : Client U M) (bs bs' : List (MutationBatch U M)) :
    (c.pushed bs).pushed bs' = c.pushed (bs ++ bs') := by
  have hsending : (c.pushed bs).sending = c.sending := rfl
  rw [pushed, hsending]
  cases hs : c.sending with
  | false => simp [pushed, hs]
  | true => cases hg : c.grpcStream <;> cases bs <;> simp [pushed, messages, hs, hg]

theorem writeMutations_eq (h : c.sending = true) (b : MutationBatch U M) :
    c.writeMutations b.mutations = .ok (c.posted [b]) := by
  obtain ⟨hopen, hhandshake⟩ := (Bool.and_eq_true ..).mp h
  rw [writeMutations, hardAssert_of hopen, ok_bind, hardAssert_of hhandshake, ok_bind, write,
    hardAssert_of hopen]
  rfl

theorem foldlM_writeMutations (h : c.sending = true) (bs : List (MutationBatch U M)) :
    bs.foldlM (fun c write => c.writeMutations write.mutations) c = .ok (c.posted bs) := by
  induction bs generalizing c with
  | nil => rw [posted_nil]; rfl
  | cons b bs ih =>
      rw [List.foldlM_cons, writeMutations_eq h, ok_bind, ih (c := c.posted [b]) h, posted_posted]
      rfl

theorem addToWritePipeline_eq (h : c.canAddToWritePipeline = true) (b : MutationBatch U M) :
    c.addToWritePipeline b = .ok (c.pushed [b]) := by
  rw [addToWritePipeline, hardAssert_of h, ok_bind]
  cases hs : c.sending with
  | false =>
      have hcond : (c.isOpen && c.handshakeComplete) = false := hs
      show (if (c.isOpen && c.handshakeComplete) = true then _ else _) = _
      rw [hcond, pushed, hs]
      simp
  | true =>
      have hcond : (c.isOpen && c.handshakeComplete) = true := hs
      have hsending : ({ c with writePipeline := c.writePipeline ++ [b] } : Client U M).sending =
          true := hs
      show (if (c.isOpen && c.handshakeComplete) = true then _ else _) = _
      rw [hcond, if_pos rfl, writeMutations_eq hsending, pushed, hs]
      simp [posted, messages]

theorem startWriteStream_eq (h : c.shouldStartWriteStream = true) :
    c.startWriteStream = .ok c.kicked := by
  have hstarted : c.isStarted = false := by
    simp only [shouldStartWriteStream, Bool.and_eq_true, Bool.not_eq_true'] at h
    exact h.1.2
  rw [startWriteStream, hardAssert_of h, ok_bind, start, kicked, h]
  cases hs : c.state with
  | initial => rfl
  | error => simp [backoffAndTryRestarting, hs, hardAssert_of]
  | starting => simp [isStarted, hs] at hstarted
  | opened => simp [isStarted, isOpen, hs] at hstarted
  | backoff => simp [isStarted, hs] at hstarted

theorem kick_eq (c : Client U M) :
    (if c.shouldStartWriteStream then c.startWriteStream else return c) = .ok c.kicked := by
  cases h : c.shouldStartWriteStream with
  | true => exact startWriteStream_eq h
  | false =>
      rw [kicked, h]
      simp

/-! ## Filling the pipeline -/

variable [DecidableEq U]

/-- The batches of the current user, in order. -/
def queue (c : Client U M) : List (MutationBatch U M) :=
  c.batches.filter fun b => b.user = c.currentUser

def Ordered (c : Client U M) : Prop := c.batches.Pairwise fun a b => a.batchId < b.batchId

/-- The next batch after a prefix of the queue. -/
theorem getNextMutationBatch_eq (hc : c.Ordered) {taken rest : List (MutationBatch U M)}
    (hqueue : c.queue = taken ++ rest) :
    c.getNextMutationBatch (taken.getLast?.map (·.batchId)) = rest.head? := by
  have hordered : (taken ++ rest).Pairwise fun a b => a.batchId < b.batchId := by
    rw [← hqueue]
    exact hc.filter _
  obtain ⟨htaken, hrest, hacross⟩ := List.pairwise_append.mp hordered
  have hfind : c.getNextMutationBatch (taken.getLast?.map (·.batchId)) =
      (taken ++ rest).find? fun b => ∀ last ∈ taken.getLast?.map (·.batchId), last < b.batchId := by
    rw [← hqueue, queue, List.find?_filter, getNextMutationBatch]
    congr 1
    funext b
    simp
  rw [hfind, List.find?_append]
  -- nothing taken comes after the last one taken, and everything else does
  have hnone : taken.find? (fun b => ∀ last ∈ taken.getLast?.map (·.batchId),
      last < b.batchId) = none := by
    refine List.find?_eq_none.mpr fun b hb => ?_
    obtain ⟨last, hlast⟩ : ∃ last, taken.getLast? = some last :=
      ⟨_, List.getLast?_eq_some_getLast (List.ne_nil_of_mem hb)⟩
    obtain ⟨init, rfl⟩ := List.getLast?_eq_some_iff.mp hlast
    rw [hlast]
    have hle : b.batchId ≤ last.batchId := by
      rcases List.mem_append.mp hb with hinit | hself
      · exact Nat.le_of_lt ((List.pairwise_append.mp htaken).2.2 b hinit last List.mem_cons_self)
      · exact Nat.le_of_eq (congrArg _ (List.mem_singleton.mp hself))
    simpa using hle
  rw [hnone, Option.none_or]
  cases rest with
  | nil => rfl
  | cons b rest =>
      refine List.find?_cons_of_pos ?_
      have hall : ∀ last ∈ taken.getLast?.map (·.batchId), last < b.batchId := by
        intro last hlast
        obtain ⟨a, ha, rfl⟩ := Option.map_eq_some_iff.mp hlast
        exact hacross a (List.mem_of_getLast? ha) b List.mem_cons_self
      exact decide_eq_true hall

/-- The loop takes what the pipeline has room for. -/
theorem fillLoop_eq (hc : c.Ordered) (hnetwork : c.isNetworkEnabled = true)
    {rest : List (MutationBatch U M)} (hqueue : c.queue = c.writePipeline ++ rest) {rounds : Nat}
    (hrounds : rounds + c.writePipeline.length = kMaxPendingWrites) :
    fillLoop rounds (c.writePipeline.getLast?.map (·.batchId)) c =
      .ok (c.pushed (rest.take rounds)).idled := by
  induction rounds generalizing c rest with
  | zero =>
      have hne : c.writePipeline ≠ [] := by
        intro hnil
        rw [hnil] at hrounds
        cases hrounds
      rw [fillLoop, List.take_zero, pushed_nil, idled_of_ne hne]
      rfl
  | succ rounds ih =>
      have hcan : c.canAddToWritePipeline = true := by
        simp only [canAddToWritePipeline, hnetwork, Bool.true_and, decide_eq_true_eq]
        omega
      rw [fillLoop, if_pos hcan, getNextMutationBatch_eq hc hqueue]
      cases rest with
      | nil =>
          rw [List.take_nil, pushed_nil]
          exact congrArg Except.ok (markIdle_eq_idled c)
      | cons b rest =>
          show (c.addToWritePipeline b >>= fun c => fillLoop rounds (some b.batchId) c) = _
          rw [addToWritePipeline_eq hcan, ok_bind]
          have hlast : (c.pushed [b]).writePipeline.getLast?.map (·.batchId) = some b.batchId := by
            show (c.writePipeline ++ [b]).getLast?.map (·.batchId) = some b.batchId
            rw [List.getLast?_concat]
            rfl
          have hqueue' : (c.pushed [b]).queue = (c.pushed [b]).writePipeline ++ rest := by
            show c.queue = (c.writePipeline ++ [b]) ++ rest
            rw [hqueue, List.append_assoc]
            rfl
          have hrounds' : rounds + (c.pushed [b]).writePipeline.length = kMaxPendingWrites := by
            show rounds + (c.writePipeline ++ [b]).length = kMaxPendingWrites
            rw [List.length_append, List.length_singleton]
            omega
          have hind := ih (c := c.pushed [b]) hc hnetwork hqueue' hrounds'
          rw [hlast] at hind
          rw [hind, pushed_pushed]
          rfl

/-- The batches the pipeline has room for. -/
def upcoming (c : Client U M) : List (MutationBatch U M) :=
  if c.isNetworkEnabled then (c.queue.take kMaxPendingWrites).drop c.writePipeline.length else []

/-- The client with its pipeline filled. -/
def filled (c : Client U M) : Client U M := (c.pushed c.upcoming).idled.kicked

theorem fillWritePipeline_eq (hc : c.Ordered) (hnetwork : c.isNetworkEnabled = true)
    (hpre : c.writePipeline <+: c.queue) (hlength : c.writePipeline.length ≤ kMaxPendingWrites) :
    c.fillWritePipeline = .ok c.filled := by
  obtain ⟨rest, hrest⟩ := hpre
  have htake : rest.take (kMaxPendingWrites - c.writePipeline.length) = c.upcoming := by
    rw [upcoming, if_pos hnetwork, ← hrest, List.take_append, List.take_of_length_le hlength,
      List.drop_left]
  rw [fillWritePipeline,
    fillLoop_eq hc hnetwork hrest.symm (Nat.sub_add_cancel hlength), htake, ok_bind]
  exact kick_eq _

/-- Without a network nothing is filled. -/
theorem fillWritePipeline_offline (hnetwork : c.isNetworkEnabled = false)
    (hopen : c.isOpen = false) : c.fillWritePipeline = .ok c.filled := by
  have hloop : ∀ rounds last, fillLoop rounds last c = .ok c := by
    intro rounds last
    cases rounds with
    | zero => rfl
    | succ rounds =>
        rw [fillLoop, if_neg (by simp [canAddToWritePipeline, hnetwork])]
        rfl
  have hidled : c.idled = c := by rw [idled, hopen, Bool.false_and, Bool.or_false]
  have hupcoming : c.upcoming = [] := if_neg (by simp [hnetwork])
  rw [fillWritePipeline, hloop, ok_bind, kick_eq, filled, hupcoming, pushed_nil, hidled]

omit [DecidableEq U] in
/-- A stream that was started is not started again. -/
theorem kicked_kicked (c : Client U M) : c.kicked.kicked = c.kicked := by
  have hstarted : c.kicked.shouldStartWriteStream = false := by
    cases h : c.shouldStartWriteStream with
    | false =>
        rw [kicked, h]
        exact h
    | true =>
        rw [kicked, h]
        by_cases hs : c.state = .error <;> simp [shouldStartWriteStream, isStarted, hs]
  rw [kicked, hstarted]
  simp

/-! ## The fate of a write -/

/-- The client with a batch of its user dropped, and its caller told. -/
def settled (c : Client U M) (b : MutationBatch U M) (ok : Bool) : Client U M :=
  { c with
    batches := c.batches.filter fun b' => !c.isRow b.batchId b'
    mutationCallbacks := c.mutationCallbacks.eraseP (c.isRow b.batchId)
    told := c.told ++
      ((c.mutationCallbacks.find? (c.isRow b.batchId)).map fun callback =>
        (callback.user, callback.mutations, ok)).toList
    resolved := c.resolved ++ [(c.currentUser, b.mutations, ok)] }

theorem isRow_self {b : MutationBatch U M} (hb : b ∈ c.queue) : c.isRow b.batchId b = true := by
  have huser := (List.mem_filter.mp hb).2
  simpa [isRow] using huser

theorem any_isRow {b : MutationBatch U M} (hb : b ∈ c.queue) :
    c.batches.any (c.isRow b.batchId) = true :=
  List.any_eq_true.mpr ⟨b, (List.mem_filter.mp hb).1, isRow_self hb⟩

/-- The id of a batch finds it. -/
theorem lookupMutationBatch_eq (hc : c.Ordered) {b : MutationBatch U M} (hb : b ∈ c.queue) :
    c.lookupMutationBatch b.batchId = some b := by
  obtain ⟨pre, post, hbatches⟩ := List.append_of_mem (List.mem_filter.mp hb).1
  rw [lookupMutationBatch, hbatches, List.find?_append]
  have hnone : pre.find? (c.isRow b.batchId) = none := by
    refine List.find?_eq_none.mpr fun a ha hrow => ?_
    have hlt : a.batchId < b.batchId := by
      have hordered : (pre ++ b :: post).Pairwise fun a b => a.batchId < b.batchId := by
        rw [← hbatches]
        exact hc
      exact (List.pairwise_append.mp hordered).2.2 a ha b List.mem_cons_self
    have heq : a.batchId = b.batchId := by
      simp only [isRow, decide_eq_true_eq] at hrow
      exact hrow.2
    omega
  rw [hnone, Option.none_or]
  exact List.find?_cons_of_pos (isRow_self hb)

theorem notifyUser_eq (c : Client U M) (batchId : Nat) (ok : Bool) :
    c.notifyUser batchId ok =
      { c with
        mutationCallbacks := c.mutationCallbacks.eraseP (c.isRow batchId)
        told := c.told ++
          ((c.mutationCallbacks.find? (c.isRow batchId)).map fun callback =>
            (callback.user, callback.mutations, ok)).toList } := by
  rw [notifyUser]
  cases h : c.mutationCallbacks.find? (c.isRow batchId) with
  | some callback => rfl
  | none =>
      have herase : c.mutationCallbacks.eraseP (c.isRow batchId) = c.mutationCallbacks :=
        List.eraseP_of_forall_not fun a ha => List.find?_eq_none.mp h a ha
      rw [herase]
      simp

theorem handleSuccessfulWrite_eq {b : MutationBatch U M} (hb : b ∈ c.queue) :
    c.handleSuccessfulWrite b = .ok (c.settled b true) := by
  have hany : (c.notifyUser b.batchId true).batches.any
      ((c.notifyUser b.batchId true).isRow b.batchId) = true := by
    rw [notifyUser_eq]
    exact any_isRow hb
  rw [handleSuccessfulWrite, removeMutationBatch, hardAssert_of hany, notifyUser_eq]
  rfl

theorem handleRejectedWrite_eq (hc : c.Ordered) {b : MutationBatch U M} (hb : b ∈ c.queue) :
    c.handleRejectedWrite b.batchId = .ok (c.settled b false) := by
  rw [handleRejectedWrite, rejectBatch, lookupMutationBatch_eq hc hb]
  simp only [removeMutationBatch, hardAssert_of (any_isRow hb), ok_bind, pure_eq_ok, notifyUser_eq]
  rfl

theorem ordered_settled (hc : c.Ordered) (b : MutationBatch U M) (ok : Bool) :
    (c.settled b ok).Ordered := List.Pairwise.filter _ hc

/-- The rest of the queue stays. -/
theorem queue_settled (hc : c.Ordered) {b : MutationBatch U M} {bs : List (MutationBatch U M)}
    (hqueue : c.queue = b :: bs) (ok : Bool) : (c.settled b ok).queue = bs := by
  have hordered : (b :: bs).Pairwise fun a b => a.batchId < b.batchId := by
    rw [← hqueue]
    exact List.Pairwise.filter _ hc
  have hcomm : (c.settled b ok).queue = c.queue.filter fun b' => !c.isRow b.batchId b' :=
    List.filter_comm ..
  have hself : c.isRow b.batchId b = true := isRow_self (hqueue ▸ List.mem_cons_self)
  rw [hcomm, hqueue, List.filter_cons_of_neg (by simp [hself])]
  refine List.filter_eq_self.mpr fun a ha => ?_
  have hlt : b.batchId < a.batchId := List.rel_of_pairwise_cons hordered ha
  have hne : a.batchId ≠ b.batchId := by omega
  simp [isRow, hne]

/-- The slot of the first write is filled again. -/
theorem fillWritePipeline_settled (hc : c.Ordered) (hnetwork : c.isNetworkEnabled = true)
    {b : MutationBatch U M} {more : List (MutationBatch U M)}
    (hqueue : c.queue = b :: (c.writePipeline ++ more))
    (hlength : c.writePipeline.length ≤ kMaxPendingWrites) (ok : Bool) :
    (c.settled b ok).fillWritePipeline = .ok (c.settled b ok).filled := by
  refine fillWritePipeline_eq (ordered_settled hc b ok) hnetwork ?_ hlength
  rw [queue_settled hc hqueue]
  exact List.prefix_append ..

theorem onWriteStreamMutationResult_eq (hc : c.Ordered) (hnetwork : c.isNetworkEnabled = true)
    {b : MutationBatch U M} {rest more : List (MutationBatch U M)}
    (hpipeline : c.writePipeline = b :: rest) (hqueue : c.queue = b :: (rest ++ more))
    (hlength : c.writePipeline.length ≤ kMaxPendingWrites) :
    c.onWriteStreamMutationResult = .ok ({ c with writePipeline := rest }.settled b true).filled := by
  have hmem : b ∈ ({ c with writePipeline := rest } : Client U M).queue := by
    show b ∈ c.queue
    rw [hqueue]
    exact List.mem_cons_self
  rw [onWriteStreamMutationResult, hpipeline]
  show (handleSuccessfulWrite { c with writePipeline := rest } b >>= fillWritePipeline) = _
  rw [handleSuccessfulWrite_eq hmem, ok_bind]
  refine fillWritePipeline_settled (c := { c with writePipeline := rest }) hc hnetwork hqueue ?_ true
  rw [hpipeline] at hlength
  exact Nat.le_of_succ_le hlength

/-! ## The end of a stream -/

/-- The client that has let go of its stream. -/
def dropped (c : Client U M) (s : State) : Client U M :=
  { c with
    idlenessTimer := false
    closeCount := c.closeCount + 1
    grpcStream := none
    state := s }

/-- The client whose stream is closed. -/
def cut (c : Client U M) (s : State) : Client U M :=
  { c.dropped s with handshakeComplete := false }

/-- The client whose stream is not started. -/
def stopped (c : Client U M) : Client U M :=
  { c with
    idlenessTimer := if c.isStarted then false else c.idlenessTimer
    closeCount := if c.isStarted then c.closeCount + 1 else c.closeCount
    grpcStream := if c.isStarted then none else c.grpcStream
    handshakeComplete := if c.isStarted then false else c.handshakeComplete
    state := if c.isStarted then .initial else c.state }

omit [DecidableEq U] in
theorem stopped_of_started (h : c.isStarted = true) : c.stopped = c.cut .initial := by
  rw [stopped, h]
  rfl

omit [DecidableEq U] in
theorem stopped_of_not_started (h : c.isStarted = false) : c.stopped = c := by
  rw [stopped, h]
  rfl

theorem close_eq (h : c.isStarted = true) (status : Option Error) :
    c.close status =
      (c.dropped (if status = none then .initial else .error)).onWriteStreamClose status >>=
        fun c => .ok { c with handshakeComplete := false } := by
  rw [close, if_neg (by simp [h]), hardAssert_of h]
  rfl

theorem close_graceful (hstarted : c.isStarted = true)
    (h : c.isNetworkEnabled = false ∨ c.writePipeline = []) :
    c.close none = .ok (c.cut .initial) := by
  have hshould : (c.dropped .initial).shouldStartWriteStream = false := by
    rcases h with hnetwork | hpipeline
    · simp [shouldStartWriteStream, dropped, hnetwork]
    · simp [shouldStartWriteStream, dropped, hpipeline]
  rw [close_eq hstarted, if_pos rfl, onWriteStreamClose]
  simp only [ok_bind, pure_eq_ok, hshould]
  rfl

/-- The one way for the SDK to die. -/
theorem close_fails (hstarted : c.isStarted = true) (hnetwork : c.isNetworkEnabled = true)
    (hpipeline : c.writePipeline ≠ []) :
    c.close none = .error "Write stream was stopped gracefully while still needed." := by
  have hshould : (c.dropped .initial).shouldStartWriteStream = true := by
    simp [shouldStartWriteStream, dropped, isStarted, isOpen, hnetwork, hpipeline]
  have hassert : hardAssert ((c.dropped .initial).shouldStartWriteStream = false)
      "Write stream was stopped gracefully while still needed." =
        .error "Write stream was stopped gracefully while still needed." :=
    if_neg (by simp [hshould])
  rw [close_eq hstarted, if_pos rfl, onWriteStreamClose]
  simp only [hassert]
  rfl

theorem stop_eq (h : c.isNetworkEnabled = false ∨ c.writePipeline = []) :
    c.stop = .ok c.stopped := by
  cases hs : c.isStarted with
  | true => rw [stop, close_graceful hs h, stopped_of_started hs]
  | false =>
      rw [stop, close, if_pos ⟨rfl, hs⟩, stopped_of_not_started hs]
      rfl

theorem disableNetworkInternal_eq (h : c.isNetworkEnabled = false) :
    c.disableNetworkInternal = .ok { c.stopped with writePipeline := [] } := by
  rw [disableNetworkInternal, stop_eq (.inl h)]
  rfl

theorem onWriteStreamClose_error (c : Client U M) (e : Error) :
    c.onWriteStreamClose (some e) =
      (if !c.writePipeline.isEmpty && c.handshakeComplete then c.handleWriteError e else .ok c) >>=
        fun c => .ok c.kicked := by
  simp only [onWriteStreamClose, kick_eq]
  split <;> rfl

/-- An error that says nothing about a write. -/
theorem close_retry (hstarted : c.isStarted = true) {e : Error}
    (h : isPermanentWriteError e = false ∨ c.handshakeComplete = false ∨ c.writePipeline = []) :
    c.close (some e) = .ok (c.cut .error).kicked := by
  have hkeep : (if !c.writePipeline.isEmpty && c.handshakeComplete then
      (c.dropped .error).handleWriteError e else .ok (c.dropped .error)) =
        .ok (c.dropped .error) := by
    rcases h with hpermanent | hhandshake | hpipeline
    · rw [handleWriteError, if_pos hpermanent]
      exact ite_self _
    · rw [hhandshake, Bool.and_false]
      rfl
    · rw [hpipeline]
      rfl
  rw [close_eq hstarted, if_neg (by simp), onWriteStreamClose_error]
  show ((if !c.writePipeline.isEmpty && c.handshakeComplete then
    (c.dropped .error).handleWriteError e else .ok (c.dropped .error)) >>= _) >>= _ = _
  rw [hkeep]
  rfl

/-- An error that rejects the first write of the pipeline. -/
theorem close_reject (hc : c.Ordered) (hstarted : c.isStarted = true)
    (hnetwork : c.isNetworkEnabled = true) (hhandshake : c.handshakeComplete = true) {e : Error}
    (he : isPermanentWriteError e = true) {b : MutationBatch U M}
    {rest more : List (MutationBatch U M)} (hpipeline : c.writePipeline = b :: rest)
    (hqueue : c.queue = b :: (rest ++ more)) (hlength : c.writePipeline.length ≤ kMaxPendingWrites) :
    c.close (some e) = .ok ({ c.cut .initial with writePipeline := rest }.settled b false).filled := by
  have hfill := fillWritePipeline_settled (c := { c.dropped .initial with writePipeline := rest })
    hc hnetwork hqueue (by
      rw [hpipeline] at hlength
      exact Nat.le_of_succ_le hlength) false
  have hwrite : (c.dropped .error).handleWriteError e =
      .ok ({ c.dropped .initial with writePipeline := rest }.settled b false).filled := by
    rw [handleWriteError, if_neg (by simp [he])]
    have hp : (c.dropped .error).writePipeline = b :: rest := hpipeline
    rw [hp]
    have hmem : b ∈ ({ c.dropped .initial with writePipeline := rest } : Client U M).queue := by
      show b ∈ c.queue
      rw [hqueue]
      exact List.mem_cons_self
    show (handleRejectedWrite { c.dropped .initial with writePipeline := rest } b.batchId >>= _) = _
    rw [handleRejectedWrite_eq (c := { c.dropped .initial with writePipeline := rest }) hc hmem,
      ok_bind]
    exact hfill
  rw [close_eq hstarted, if_neg (by simp), onWriteStreamClose_error]
  have hcond : (!(c.dropped .error).writePipeline.isEmpty &&
      (c.dropped .error).handshakeComplete) = true := by
    simp [dropped, hpipeline, hhandshake]
  rw [if_pos hcond, hwrite, ok_bind, filled, kicked_kicked]
  rfl

/-! ## The life of a stream -/

omit [DecidableEq U] in
theorem onStreamStart_eq (hhandshake : c.handshakeComplete = false) (user : U) :
    onStreamStart { c with grpcStream := some ⟨user, [], 0⟩ } =
      .ok { c with
        state := .opened
        idlenessTimer := false
        grpcStream := some ⟨user, [.handshake], 0⟩ } := by
  have hopen : ({ c with
      grpcStream := some ⟨user, [], 0⟩
      state := .opened } : Client U M).isOpen = true := rfl
  rw [onStreamStart, onWriteStreamOpen, writeHandshake, hardAssert_of hopen, ok_bind,
    hardAssert_of hhandshake, ok_bind, write, hardAssert_of hopen]
  rfl

omit [DecidableEq U] in
theorem backoffElapsed_eq (h : c.state = .backoff) :
    c.backoffElapsed = .ok { c with state := .starting }.requestCredentials := by
  have hstart : ({ c with state := .initial } : Client U M).start =
      .ok { c with state := .starting }.requestCredentials := rfl
  have hstarted : ({ c with state := .starting }.requestCredentials : Client U M).isStarted = true :=
    rfl
  rw [backoffElapsed, hardAssert_of h, ok_bind, hstart, ok_bind, hardAssert_of hstarted]
  rfl

end Pompeius.Firestore.Client
