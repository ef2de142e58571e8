import Mathlib.Data.List.Perm.Basic
import Pompeius.Proofs.WritePipeline

/-!
# Between two tasks of the worker queue

The state of the write stream has four shapes. A stream that is not started has
nothing to send; one that waits for its backoff or its token has something; one
that is open has said its handshake and sent nothing else until that is
answered; after that what it has sent and not heard of is the pipeline, in its
order.

`Base` and `Core` are what the moves of the SDK keep. `Shape` says how the
stream looks while the pipeline may have room, which is where the tasks that
fill it start, and `Inv` is what they leave: the pipeline is the first ten
writes of the queue of the user, or nothing without a network.
-/

namespace Pompeius.Firestore.Client

open Lib

variable {U M : Type}

/-! ## Tasks -/

/-- The count a task that resumes the start of a stream was made with. -/
def closeCount? : Task U M → Option Nat
  | .resumeStart initialCloseCount _ => some initialCloseCount
  | _ => none

def isChange : Task U M → Bool
  | .handleCredentialChange _ => true
  | _ => false

/-- The user once the tasks are done. -/
def userAfter (user : U) (tasks : List (Task U M)) : U :=
  tasks.foldl (fun user task =>
    match task with
    | .handleCredentialChange user' => user'
    | _ => user) user

/-- The tokens on their way, by the close count they were asked for at. -/
def closeCounts (c : Client U M) : List Nat :=
  c.tokenRequests.map (·.initialCloseCount) ++ c.tasks.filterMap closeCount?

/-! ## The invariant -/

/-- What no move of the SDK breaks, the end of a stream included. -/
structure Base (c : Client U M) : Prop where
  ordered : c.Ordered
  below : ∀ b ∈ c.batches, b.batchId < c.nextBatchId
  /-- The batches with a completion handler are the newest. -/
  callbacks : ∃ restored, c.batches = restored ++ c.mutationCallbacks
  counts : ∀ n ∈ c.closeCounts, n ≤ c.closeCount
  user : userAfter c.currentUser c.tasks = c.user

structure Core (c : Client U M) : Prop extends Base c where
  shaken : c.handshakeComplete = true → c.state = .opened
  /-- One token is on its way exactly while the stream is starting. -/
  live : c.closeCounts.count c.closeCount = if c.state = .starting then 1 else 0
  /-- It is a token of the user, unless a change of the user is done first. -/
  token : ∀ u, Task.resumeStart c.closeCount (.ok u) ∈ c.tasks.takeWhile (!isChange ·) →
    u = c.currentUser

/-- The shape of the stream while the pipeline may have room. -/
inductive Shape (c : Client U M) : Prop where
  | stopped (hstate : c.state = .initial ∨ c.state = .error) (hidle : c.idlenessTimer = false)
      (hstream : c.grpcStream = none)
  | waiting (hstate : c.state = .backoff ∨ c.state = .starting) (hidle : c.idlenessTimer = false)
      (hstream : c.grpcStream = none) (hpipeline : c.writePipeline ≠ [])
  | greeting (hstate : c.state = .opened) (hhandshake : c.handshakeComplete = false)
      (hidle : c.idlenessTimer = false)
      (hstream : c.grpcStream = some ⟨c.currentUser, [.handshake], 0⟩ ∨
        c.grpcStream = some ⟨c.currentUser, [], 1⟩)
      (hpipeline : c.writePipeline ≠ [])
  | streaming (answered rest : List (MutationBatch U M)) (hstate : c.state = .opened)
      (hhandshake : c.handshakeComplete = true)
      (hidle : c.idlenessTimer = true → c.writePipeline = [])
      (hpipeline : c.writePipeline = answered ++ rest)
      (hstream : c.grpcStream =
        some ⟨c.currentUser, messages rest, answered.length⟩)

variable {c : Client U M}

theorem eraseP_eq_filter {α : Type} {p : α → Bool} {l : List α}
    (h : l.Pairwise fun a b => p a = true → p b = true → False) :
    l.eraseP p = l.filter fun a => !p a := by
  induction l with
  | nil => rfl
  | cons a l ih =>
      obtain ⟨ha, hl⟩ := List.pairwise_cons.mp h
      cases hp : p a with
      | false => rw [List.eraseP_cons_of_neg (by simp [hp]), List.filter_cons_of_pos (by simp [hp]), ih hl]
      | true =>
          rw [List.eraseP_cons_of_pos hp, List.filter_cons_of_neg (by simp [hp])]
          refine (List.filter_eq_self.mpr fun b hb => ?_).symm
          simpa using ha b hb hp

theorem Core.unshaken (h : c.Core) (hstate : c.state ≠ .opened) : c.handshakeComplete = false := by
  cases hshaken : c.handshakeComplete with
  | false => rfl
  | true => exact absurd (h.shaken hshaken) hstate

/-! ## Filling the pipeline leaves the invariant -/

/-- What starting the stream can come to. -/
theorem kicked_cases (c : Client U M) :
    (c.shouldStartWriteStream = false ∧ c.kicked = c) ∨
    (c.shouldStartWriteStream = true ∧ c.state = .error ∧ c.kicked = { c with state := .backoff }) ∨
    (c.shouldStartWriteStream = true ∧ c.state = .initial ∧
      c.kicked = { c with state := .starting }.requestCredentials) := by
  cases h : c.shouldStartWriteStream with
  | false =>
      refine .inl ⟨rfl, ?_⟩
      rw [kicked, h]
      simp
  | true =>
      have hstarted : c.isStarted = false := by
        simp only [shouldStartWriteStream, Bool.and_eq_true, Bool.not_eq_true'] at h
        exact h.1.2
      refine .inr ?_
      rw [kicked, h]
      cases hs : c.state with
      | initial => exact .inr ⟨rfl, rfl, rfl⟩
      | error => exact .inl ⟨rfl, rfl, rfl⟩
      | starting => simp [isStarted, hs] at hstarted
      | opened => simp [isStarted, isOpen, hs] at hstarted
      | backoff => simp [isStarted, hs] at hstarted

theorem pipeline_of_shouldStart (h : c.shouldStartWriteStream = true) : c.writePipeline ≠ [] := by
  simp only [shouldStartWriteStream, Bool.and_eq_true, Bool.not_eq_true'] at h
  exact List.isEmpty_eq_false_iff.mp h.2

theorem isNetworkEnabled_of_shouldStart (h : c.shouldStartWriteStream = true) :
    c.isNetworkEnabled = true := by
  simp only [shouldStartWriteStream, Bool.and_eq_true] at h
  exact h.1.1

theorem isOpen_kicked (c : Client U M) : c.kicked.isOpen = c.isOpen := by
  rcases kicked_cases c with ⟨-, heq⟩ | ⟨-, hstate, heq⟩ | ⟨-, hstate, heq⟩
  · rw [heq]
  · rw [heq]
    simp [isOpen, hstate]
  · rw [heq]
    simp [isOpen, requestCredentials, hstate]

theorem count_requestCredentials (c : Client U M) (n : Nat) :
    c.requestCredentials.closeCounts.count n =
      c.closeCounts.count n + if n = c.closeCount then 1 else 0 := by
  simp only [closeCounts, requestCredentials, List.map_append, List.count_append, List.map_cons,
    List.map_nil, List.count_singleton, beq_iff_eq, eq_comm (a := n)]
  omega

/-- A stream that starts asks for a token. -/
theorem Core.requested (h : c.Core) (hstate : c.state ≠ .starting)
    (hhandshake : c.handshakeComplete ≠ true) :
    { c with state := .starting }.requestCredentials.Core := by
  refine { h with counts := fun n hn => ?_, shaken := fun hh => absurd hh hhandshake, live := ?_ }
  · have hpos := List.count_pos_iff.mpr hn
    rw [count_requestCredentials] at hpos
    by_cases hcount : n = c.closeCount
    · exact Nat.le_of_eq hcount
    · rw [if_neg hcount] at hpos
      exact h.counts n (List.count_pos_iff.mp hpos)
  · have hlive := h.live
    rw [if_neg hstate] at hlive
    have hcount := count_requestCredentials { c with state := .starting } c.closeCount
    rw [if_pos rfl] at hcount
    exact hcount.trans (congrArg (· + 1) hlive)

theorem Core.kicked (h : c.Core) : c.kicked.Core := by
  rcases kicked_cases c with ⟨-, heq⟩ | ⟨-, hstate, heq⟩ | ⟨-, hstate, heq⟩
  · rw [heq]
    exact h
  · rw [heq]
    refine { h with shaken := fun hhandshake => ?_, live := ?_ }
    · exact absurd (hstate.symm.trans (h.shaken hhandshake)) (by decide)
    · have hlive := h.live
      rw [hstate] at hlive
      exact hlive
  · rw [heq]
    exact h.requested (by rw [hstate]; decide) fun hhandshake => by
      cases hstate.symm.trans (h.shaken hhandshake)

theorem Shape.kicked (h : Shape c) : Shape c.kicked := by
  have hstopped : c.state = .initial ∨ c.state = .error →
      c.idlenessTimer = false ∧ c.grpcStream = none := by
    intro hstate
    cases h with
    | stopped _ hidle hstream => exact ⟨hidle, hstream⟩
    | waiting _ hidle hstream _ => exact ⟨hidle, hstream⟩
    | greeting hopen => rcases hstate with hs | hs <;> cases hs.symm.trans hopen
    | streaming _ _ hopen => rcases hstate with hs | hs <;> cases hs.symm.trans hopen
  rcases kicked_cases c with ⟨-, heq⟩ | ⟨hshould, hstate, heq⟩ | ⟨hshould, hstate, heq⟩
  · rw [heq]
    exact h
  · obtain ⟨hidle, hstream⟩ := hstopped (.inr hstate)
    rw [heq]
    exact .waiting (.inl rfl) hidle hstream (pipeline_of_shouldStart (c := c) hshould)
  · obtain ⟨hidle, hstream⟩ := hstopped (.inl hstate)
    rw [heq]
    exact .waiting (.inr rfl) hidle hstream (pipeline_of_shouldStart (c := c) hshould)

/-- A stream with nothing to send gets its idle check, and no other. -/
theorem idle_pushed (h : Shape c) (bs : List (MutationBatch U M)) :
    (c.pushed bs).idled.idlenessTimer = (c.isOpen && (c.writePipeline ++ bs).isEmpty) := by
  show ((if c.sending = true ∧ bs ≠ [] then false else c.idlenessTimer) ||
    (c.isOpen && (c.writePipeline ++ bs).isEmpty)) = _
  by_cases hsent : c.sending = true ∧ bs ≠ []
  · rw [if_pos hsent, Bool.false_or]
  · rw [if_neg hsent]
    cases htimer : c.idlenessTimer with
    | false => rw [Bool.false_or]
    | true =>
        cases h with
        | stopped _ hidle => cases hidle.symm.trans htimer
        | waiting _ hidle => cases hidle.symm.trans htimer
        | greeting _ _ hidle => cases hidle.symm.trans htimer
        | streaming _ _ hstate hhandshake hidle =>
            have hsending : c.sending = true := by simp [sending, isOpen, hstate, hhandshake]
            have hbs : bs = [] := by simpa [hsending] using hsent
            simp [hidle htimer, hbs, isOpen, hstate]

theorem Shape.pushed (h : Shape c) (bs : List (MutationBatch U M)) :
    Shape (c.pushed bs).idled := by
  have hidle := idle_pushed h bs
  cases h with
  | stopped hstate _ hstream =>
      have hopen : c.isOpen = false := by rcases hstate with hs | hs <;> simp [isOpen, hs]
      refine .stopped hstate ?_ ?_
      · rw [hidle, hopen, Bool.false_and]
      · show (if c.sending then c.grpcStream.map _ else c.grpcStream) = none
        rw [hstream]
        exact ite_self none
  | waiting hstate _ hstream hpipeline =>
      have hopen : c.isOpen = false := by rcases hstate with hs | hs <;> simp [isOpen, hs]
      refine .waiting hstate ?_ ?_ (List.append_ne_nil_of_left_ne_nil hpipeline bs)
      · rw [hidle, hopen, Bool.false_and]
      · show (if c.sending then c.grpcStream.map _ else c.grpcStream) = none
        rw [hstream]
        exact ite_self none
  | greeting hstate hhandshake _ hstream hpipeline =>
      have hsending : c.sending = false := by rw [sending, hhandshake, Bool.and_false]
      refine .greeting hstate hhandshake ?_ ?_ (List.append_ne_nil_of_left_ne_nil hpipeline bs)
      · rw [hidle, List.isEmpty_eq_false_iff.mpr
          (List.append_ne_nil_of_left_ne_nil hpipeline bs), Bool.and_false]
      · show (if c.sending then c.grpcStream.map _ else c.grpcStream) = _ ∨
          (if c.sending then c.grpcStream.map _ else c.grpcStream) = _
        rw [hsending]
        exact hstream
  | streaming answered rest hstate hhandshake _ hpipeline hstream =>
      have hsending : c.sending = true := by simp [sending, isOpen, hstate, hhandshake]
      refine .streaming answered (rest ++ bs) hstate hhandshake (fun htimer => ?_) ?_ ?_
      · rw [hidle] at htimer
        exact List.isEmpty_iff.mp (Bool.and_eq_true_iff.mp htimer).2
      · show c.writePipeline ++ bs = _
        rw [hpipeline, List.append_assoc]
      · show (if c.sending then c.grpcStream.map _ else c.grpcStream) = _
        rw [hsending, hstream, messages_append]
        rfl

/-! ## What the moves keep -/

/-- A stream that is not starting waits for no token. -/
theorem Base.core (h : c.Base) (hshaken : c.handshakeComplete = true → c.state = .opened)
    (hlive : c.closeCounts.count c.closeCount = 0) (hstate : c.state ≠ .starting) : c.Core where
  toBase := h
  shaken := hshaken
  live := by rw [hlive, if_neg hstate]
  token u hmem := by
    have hcount : c.closeCount ∈ c.closeCounts :=
      List.mem_append_right _ (List.mem_filterMap.mpr
        ⟨_, (List.takeWhile_sublist _).subset hmem, rfl⟩)
    exact absurd hcount (List.count_eq_zero.mp hlive)

/-- The tokens of a closed stream are stale. -/
theorem Base.cut (h : c.Base) {s : State} (hs : s ≠ .starting) : (c.cut s).Core := by
  refine Base.core { h with counts := fun n hn => Nat.le_succ_of_le (h.counts n hn) }
    (fun hhandshake => Bool.noConfusion hhandshake) (List.count_eq_zero.mpr fun hmem => ?_) hs
  exact absurd (h.counts _ hmem) (Nat.not_succ_le_self c.closeCount)

/-- The client with one more write of its user. -/
def stored (c : Client U M) (m : M) : Client U M :=
  { c with
    batches := c.batches ++ [⟨c.currentUser, c.nextBatchId, m⟩]
    nextBatchId := c.nextBatchId + 1
    mutationCallbacks := c.mutationCallbacks ++ [⟨c.currentUser, c.nextBatchId, m⟩] }

theorem Base.stored (h : c.Base) (m : M) : (c.stored m).Base where
  ordered := by
    refine List.pairwise_append.mpr ⟨h.ordered, List.pairwise_singleton _ _, fun a ha b hb => ?_⟩
    rw [List.mem_singleton.mp hb]
    exact h.below a ha
  below a ha := by
    rcases List.mem_append.mp ha with hold | hnew
    · exact Nat.lt_succ_of_lt (h.below a hold)
    · rw [List.mem_singleton.mp hnew]
      exact Nat.lt_succ_self _
  callbacks := by
    obtain ⟨restored, hbatches⟩ := h.callbacks
    exact ⟨restored, by rw [Client.stored, hbatches, List.append_assoc]⟩
  counts := h.counts
  user := h.user

theorem lt_loadNextBatchId {b : MutationBatch U M} (hb : b ∈ c.batches) :
    b.batchId < c.loadNextBatchId := by
  have hfold : ∀ (bs : List (MutationBatch U M)) (n : Nat),
      n ≤ bs.foldl (fun maxBatchId b => max maxBatchId b.batchId) n ∧
        ∀ b ∈ bs, b.batchId ≤ bs.foldl (fun maxBatchId b => max maxBatchId b.batchId) n := by
    intro bs
    induction bs with
    | nil => exact fun n => ⟨Nat.le_refl n, fun b hb => by cases hb⟩
    | cons a bs ih =>
        intro n
        obtain ⟨hn, hbs⟩ := ih (max n a.batchId)
        refine ⟨Nat.le_trans (Nat.le_max_left ..) hn, fun b hb => ?_⟩
        rcases List.mem_cons.mp hb with rfl | hmem
        · exact Nat.le_trans (Nat.le_max_right ..) hn
        · exact hbs b hmem
  exact Nat.lt_succ_of_le ((hfold c.batches 0).2 b hb)

/-! ## The worker queue -/

theorem Shape.congr {c' : Client U M} (h : Shape c) (huser : c'.currentUser = c.currentUser)
    (hstate : c'.state = c.state) (hhandshake : c'.handshakeComplete = c.handshakeComplete)
    (hidle : c'.idlenessTimer = c.idlenessTimer) (hstream : c'.grpcStream = c.grpcStream)
    (hpipeline : c'.writePipeline = c.writePipeline) : Shape c' := by
  cases h with
  | stopped hs hi hg => exact .stopped (by rwa [hstate]) (by rwa [hidle]) (by rwa [hstream])
  | waiting hs hi hg hp =>
      exact .waiting (by rwa [hstate]) (by rwa [hidle]) (by rwa [hstream]) (by rwa [hpipeline])
  | greeting hs hh hi hg hp =>
      exact .greeting (by rwa [hstate]) (by rwa [hhandshake]) (by rwa [hidle])
        (by rwa [hstream, huser]) (by rwa [hpipeline])
  | streaming answered rest hs hh hi hp hg =>
      exact .streaming answered rest (by rwa [hstate]) (by rwa [hhandshake])
        (by rwa [hidle, hpipeline]) (by rwa [hpipeline]) (by rwa [hstream, huser])

theorem mem_closeCounts_cons {task : Task U M} {tasks : List (Task U M)}
    (htasks : c.tasks = task :: tasks) {n : Nat} (hn : n ∈ { c with tasks }.closeCounts) :
    n ∈ c.closeCounts := by
  rw [closeCounts, htasks]
  rcases List.mem_append.mp hn with hrequest | htask
  · exact List.mem_append_left _ hrequest
  · exact List.mem_append_right _ (((List.sublist_cons_self task tasks).filterMap _).subset htask)

theorem count_closeCounts_cons {task : Task U M} {tasks : List (Task U M)}
    (htasks : c.tasks = task :: tasks) (n : Nat) :
    c.closeCounts.count n =
      { c with tasks }.closeCounts.count n + if closeCount? task = some n then 1 else 0 := by
  rw [closeCounts, closeCounts, htasks, List.count_append, List.count_append, Nat.add_assoc]
  congr 1
  cases h : closeCount? task with
  | none => rw [List.filterMap_cons_none h]; simp
  | some k =>
      rw [List.filterMap_cons_some h, List.count_cons]
      simp

theorem userAfter_cons {task : Task U M} (h : isChange task = false) (user : U)
    (tasks : List (Task U M)) : userAfter user (task :: tasks) = userAfter user tasks := by
  cases task with
  | handleCredentialChange => cases h
  | _ => rfl

theorem userAfter_of_forall {tasks : List (Task U M)} (h : ∀ task ∈ tasks, isChange task = false)
    (user : U) : userAfter user tasks = user := by
  induction tasks with
  | nil => rfl
  | cons task tasks ih =>
      obtain ⟨htask, htasks⟩ := List.forall_mem_cons.mp h
      rw [userAfter_cons htask, ih htasks]

theorem mem_takeWhile_concat {α : Type} {p : α → Bool} {l : List α} {a b : α}
    (h : a ∈ (l ++ [b]).takeWhile p) : a ∈ l.takeWhile p ∨ a = b ∧ ∀ x ∈ l, p x = true := by
  induction l with
  | nil =>
      rw [List.nil_append] at h
      exact .inr ⟨List.mem_singleton.mp ((List.takeWhile_sublist p).subset h), fun x hx => by cases hx⟩
  | cons x l ih =>
      cases hp : p x with
      | false =>
          rw [List.cons_append, List.takeWhile_cons_of_neg (by simp [hp])] at h
          cases h
      | true =>
          rw [List.cons_append, List.takeWhile_cons_of_pos hp] at h
          rw [List.takeWhile_cons_of_pos hp]
          rcases List.mem_cons.mp h with rfl | htail
          · exact .inl List.mem_cons_self
          · rcases ih htail with hmem | ⟨hb, hall⟩
            · exact .inl (List.mem_cons_of_mem _ hmem)
            · exact .inr ⟨hb, List.forall_mem_cons.mpr ⟨hp, hall⟩⟩

/-- The next task is taken, and it is not about the user. -/
theorem Base.tail (h : c.Base) {task : Task U M} {tasks : List (Task U M)}
    (htasks : c.tasks = task :: tasks) (hchange : isChange task = false) :
    { c with tasks }.Base :=
  { h with
    counts := fun n hn => h.counts n (mem_closeCounts_cons htasks hn)
    user := by
      have huser := h.user
      rw [htasks, userAfter_cons hchange] at huser
      exact huser }

/-- The next task is taken, and no stream waits for it. -/
theorem Core.tail (h : c.Core) {task : Task U M} {tasks : List (Task U M)}
    (htasks : c.tasks = task :: tasks) (hchange : isChange task = false)
    (hquiet : closeCount? task ≠ some c.closeCount) : { c with tasks }.Core where
  toBase := h.toBase.tail htasks hchange
  shaken := h.shaken
  live := by
    have hlive := h.live
    rw [count_closeCounts_cons htasks, if_neg hquiet] at hlive
    exact hlive
  token u hmem := by
    refine h.token u ?_
    rw [htasks, List.takeWhile_cons_of_pos (by simp [hchange])]
    exact List.mem_cons_of_mem _ hmem

/-- A new task, which no stream waits for. -/
theorem Core.enqueued (h : c.Core) {task : Task U M} (hquiet : closeCount? task = none) :
    { c with tasks := c.tasks ++ [task], user := userAfter c.user [task] }.Core := by
  have hcounts : ({ c with tasks := c.tasks ++ [task], user := userAfter c.user [task] } :
      Client U M).closeCounts = c.closeCounts := by
    simp [closeCounts, hquiet]
  refine { h with counts := ?_, user := ?_, live := ?_, token := fun u hmem => ?_ }
  · rw [hcounts]
    exact h.counts
  · show userAfter c.currentUser (c.tasks ++ [task]) = _
    rw [userAfter, List.foldl_append]
    show userAfter (userAfter c.currentUser c.tasks) [task] = _
    rw [h.user]
  · rw [hcounts]
    exact h.live
  · rcases mem_takeWhile_concat hmem with hold | ⟨hnew, -⟩
    · exact h.token u hold
    · rw [← hnew] at hquiet
      cases hquiet

/-- A token on its way comes closer. -/
theorem Core.answered (h : c.Core) {i : Nat} {request : TokenRequest}
    (hrequest : c.tokenRequests[i]? = some request) (failure : Option Error) :
    { c.enqueue (.resumeStart request.initialCloseCount (c.tokenFor request failure)) with
      tokenRequests := c.tokenRequests.eraseIdx i }.Core := by
  obtain ⟨hi, rfl⟩ := List.getElem?_eq_some_iff.mp hrequest
  have hperm : ({ c.enqueue (.resumeStart c.tokenRequests[i].initialCloseCount
      (c.tokenFor c.tokenRequests[i] failure)) with
        tokenRequests := c.tokenRequests.eraseIdx i } : Client U M).closeCounts.Perm c.closeCounts := by
    have herase := (List.getElem_cons_eraseIdx_perm hi).map (·.initialCloseCount)
    have hcounts : (c.tokenRequests.eraseIdx i).map (·.initialCloseCount) ++
        (c.tasks.filterMap closeCount? ++ [c.tokenRequests[i].initialCloseCount]) |>.Perm
          (c.tokenRequests[i].initialCloseCount ::
            (c.tokenRequests.eraseIdx i).map (·.initialCloseCount) ++
              c.tasks.filterMap closeCount?) := by
      rw [← List.append_assoc]
      exact List.perm_append_singleton _ _
    have happend : ({ c.enqueue (.resumeStart c.tokenRequests[i].initialCloseCount
        (c.tokenFor c.tokenRequests[i] failure)) with
          tokenRequests := c.tokenRequests.eraseIdx i } : Client U M).closeCounts =
        (c.tokenRequests.eraseIdx i).map (·.initialCloseCount) ++
          (c.tasks.filterMap closeCount? ++ [c.tokenRequests[i].initialCloseCount]) := by
      simp [closeCounts, enqueue, closeCount?]
    rw [happend]
    exact hcounts.trans (herase.append_right _)
  refine { h with counts := fun n hn => ?_, user := ?_, live := ?_, token := fun u hmem => ?_ }
  · exact h.counts n (hperm.mem_iff.mp hn)
  · show userAfter c.currentUser (c.tasks ++ [_]) = _
    rw [userAfter, List.foldl_append]
    exact h.user
  · rw [hperm.count_eq]
    exact h.live
  · rcases mem_takeWhile_concat hmem with hold | ⟨hnew, hall⟩
    · exact h.token u hold
    · -- no change of the user is pending, so the token is that of the current one
      injection hnew with hcount htoken
      have hsame : userAfter c.currentUser c.tasks = c.currentUser :=
        userAfter_of_forall (fun task htask => by simpa using hall task htask) _
      rw [h.user] at hsame
      unfold tokenFor at htoken
      split at htoken
      · cases htoken
      · cases failure with
        | some e => cases htoken
        | none =>
            injection htoken with huser
            exact huser.trans hsame

/-! ## A stream that is not started -/

theorem Shape.quiet (h : Shape c) (hstarted : c.isStarted = false) :
    (c.state = .initial ∨ c.state = .error) ∧ c.idlenessTimer = false ∧ c.grpcStream = none := by
  cases h with
  | stopped hs hi hg => exact ⟨hs, hi, hg⟩
  | waiting hs => rcases hs with hs | hs <;> simp [isStarted, hs] at hstarted
  | greeting hs => simp [isStarted, isOpen, hs] at hstarted
  | streaming _ _ hs => simp [isStarted, isOpen, hs] at hstarted

theorem isOpen_of_not_started (h : c.isStarted = false) : c.isOpen = false := by
  rw [isStarted, Bool.or_eq_false_iff] at h
  exact h.2

/-- A stream on its way has something to send. -/
theorem Shape.expecting (h : Shape c) (hstate : c.state = .backoff ∨ c.state = .starting) :
    c.idlenessTimer = false ∧ c.grpcStream = none ∧ c.writePipeline ≠ [] := by
  cases h with
  | stopped hs => rcases hs with hs | hs <;> simp [hs] at hstate
  | waiting _ hi hg hp => exact ⟨hi, hg, hp⟩
  | greeting hs => simp [hs] at hstate
  | streaming _ _ hs => simp [hs] at hstate

/-- So has an open stream that was not greeted. -/
theorem Shape.ungreeted (h : Shape c) (hhandshake : c.handshakeComplete = false)
    (hstream : c.grpcStream ≠ none) :
    c.state = .opened ∧ c.idlenessTimer = false ∧ c.writePipeline ≠ [] := by
  cases h with
  | stopped _ _ hg => exact absurd hg hstream
  | waiting _ _ hg => exact absurd hg hstream
  | greeting hs _ hi _ hp => exact ⟨hs, hi, hp⟩
  | streaming _ _ _ hh => cases hhandshake.symm.trans hh

theorem isStarted_stopped (c : Client U M) : c.stopped.isStarted = false := by
  cases hstarted : c.isStarted with
  | true => rw [stopped_of_started hstarted]; rfl
  | false => rw [stopped_of_not_started hstarted]; exact hstarted

theorem Shape.stop (h : Shape c) : Shape c.stopped := by
  cases hstarted : c.isStarted with
  | true =>
      rw [stopped_of_started hstarted]
      exact .stopped (.inl rfl) rfl rfl
  | false =>
      rw [stopped_of_not_started hstarted]
      exact h

theorem Base.stop (h : c.Base) (hshaken : c.handshakeComplete = true → c.state = .opened)
    (hlive : c.isStarted = false → c.closeCounts.count c.closeCount = 0) : c.stopped.Core := by
  cases hstarted : c.isStarted with
  | true =>
      rw [stopped_of_started hstarted]
      exact h.cut (by decide)
  | false =>
      rw [stopped_of_not_started hstarted]
      refine h.core hshaken (hlive hstarted) fun hstate => ?_
      simp [isStarted, hstate] at hstarted

/-- Without a stream that starts, a token that comes off the queue is stale. -/
theorem Core.live_tail (h : c.Core) {task : Task U M} {tasks : List (Task U M)}
    (htasks : c.tasks = task :: tasks) (hstarted : c.isStarted = false) :
    { c with tasks }.closeCounts.count c.closeCount = 0 := by
  have hlive := h.live
  have hstate : c.state ≠ .starting := fun hs => by simp [isStarted, hs] at hstarted
  rw [count_closeCounts_cons htasks, if_neg hstate] at hlive
  omega

variable [DecidableEq U]

/-- What the pipeline is full with. -/
def window (c : Client U M) : List (MutationBatch U M) :=
  if c.isNetworkEnabled then c.queue.take kMaxPendingWrites else []

structure Inv (c : Client U M) : Prop extends Core c where
  shape : Shape c
  offline : c.isNetworkEnabled = false → c.isStarted = false
  pipeline : c.writePipeline = c.window
  started : c.isStarted = false → c.writePipeline = []
  idle : c.idlenessTimer = (c.isOpen && c.writePipeline.isEmpty)

theorem Core.filled (h : c.Core) : c.filled.Core :=
  Core.kicked (c := (c.pushed c.upcoming).idled) { h with }

theorem pipeline_upcoming (h : c.writePipeline <+: c.window) :
    c.writePipeline ++ c.upcoming = c.window := by
  have hupcoming : c.upcoming = c.window.drop c.writePipeline.length := by
    rw [upcoming, window]
    split
    · rfl
    · exact List.drop_nil.symm
  rw [hupcoming]
  exact List.prefix_iff_eq_append.mp h

theorem inv_filled (h : c.Core) (hshape : Shape c)
    (hoffline : c.isNetworkEnabled = false → c.isStarted = false)
    (hpre : c.writePipeline <+: c.window) : Inv c.filled where
  toCore := h.filled
  shape := (hshape.pushed c.upcoming).kicked
  offline hnetwork := by
    have hoff : (c.pushed c.upcoming).idled.isNetworkEnabled = false := hnetwork
    rcases kicked_cases (c.pushed c.upcoming).idled with ⟨-, heq⟩ | ⟨hshould, -, -⟩ | ⟨hshould, -, -⟩
    · rw [filled, heq]
      exact hoffline hnetwork
    · cases hoff.symm.trans (isNetworkEnabled_of_shouldStart hshould)
    · cases hoff.symm.trans (isNetworkEnabled_of_shouldStart hshould)
  pipeline := pipeline_upcoming hpre
  started hstarted := by
    rcases kicked_cases (c.pushed c.upcoming).idled with ⟨hshould, heq⟩ | ⟨-, -, heq⟩ | ⟨-, -, heq⟩
    · rw [filled, heq] at hstarted ⊢
      rw [shouldStartWriteStream, hstarted] at hshould
      cases hnetwork : c.isNetworkEnabled with
      | false =>
          show c.writePipeline ++ c.upcoming = []
          rw [pipeline_upcoming hpre, window, hnetwork]
          rfl
      | true =>
          have hon : (c.pushed c.upcoming).idled.isNetworkEnabled = true := hnetwork
          simpa [hon] using hshould
    · rw [filled, heq] at hstarted
      cases hstarted
    · rw [filled, heq] at hstarted
      cases hstarted
  idle := by
    rw [filled, isOpen_kicked]
    exact idle_pushed hshape c.upcoming

theorem Base.eraseP_callbacks (h : c.Base) (n : Nat) :
    c.mutationCallbacks.eraseP (c.isRow n) = c.mutationCallbacks.filter fun b => !c.isRow n b := by
  obtain ⟨restored, hbatches⟩ := h.callbacks
  have hordered : (restored ++ c.mutationCallbacks).Pairwise fun a b => a.batchId < b.batchId := by
    rw [← hbatches]
    exact h.ordered
  refine eraseP_eq_filter ((List.pairwise_append.mp hordered).2.1.imp fun {a a'} hlt ha ha' => ?_)
  simp only [isRow, decide_eq_true_eq] at ha ha'
  omega

theorem Base.settled (h : c.Base) (b : MutationBatch U M) (ok : Bool) : (c.settled b ok).Base where
  ordered := ordered_settled h.ordered b ok
  below a ha := h.below a (List.mem_filter.mp ha).1
  callbacks := by
    obtain ⟨restored, hbatches⟩ := h.callbacks
    refine ⟨restored.filter fun b' => !c.isRow b.batchId b', ?_⟩
    show c.batches.filter _ = _ ++ c.mutationCallbacks.eraseP _
    rw [h.eraseP_callbacks, hbatches, List.filter_append]
  counts := h.counts
  user := h.user

/-- The client of another user. -/
def switched (c : Client U M) (user : U) : Client U M :=
  { c with
    currentUser := user
    nextBatchId := if c.currentUser ≠ user then c.loadNextBatchId else c.nextBatchId }

end Pompeius.Firestore.Client
