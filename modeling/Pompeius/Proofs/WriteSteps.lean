import Mathlib.Data.List.Infix
import Pompeius.Proofs.WriteStream

/-!
# What a step of the SDK can be

`Step` lists what an event does to a client that satisfies the invariant, one
constructor for each branch the SDK can really take. `step_spec` is the
inversion, and it is also the safety result: of all the assertions on the way
of a write one alone can fail, when the backend ends the stream in good order
although writes are waiting.
-/

namespace Pompeius.Firestore.Client

open Lib

variable {U M : Type} [DecidableEq U] {c : Client U M}

inductive Step (c : Client U M) : Event U M → Client U M → Prop where
  | write (m : M) :
      Step c (.write m)
        { c.enqueue (.writeMutations m) with issued := c.issued ++ [(c.user, m)] }
  | announce (user : U) :
      Step c (.announce user)
        { c.enqueue (.handleCredentialChange user) with
          user, tokenCounter := c.tokenCounter + 1 }
  | setNetwork (enabled : Bool) :
      Step c (.setNetwork enabled)
        (c.enqueue (if enabled then .enableNetwork else .disableNetwork))
  | token {i : Nat} {request : TokenRequest} (hrequest : c.tokenRequests[i]? = some request)
      (failure : Option Error) :
      Step c (.token i failure)
        { c.enqueue (.resumeStart request.initialCloseCount (c.tokenFor request failure)) with
          tokenRequests := c.tokenRequests.eraseIdx i }
  | stored {m : M} {tasks : List (Task U M)} (htasks : c.tasks = .writeMutations m :: tasks) :
      Step c .work ({ c with tasks }.stored m).filled
  | switched {user : U} {tasks : List (Task U M)}
      (htasks : c.tasks = .handleCredentialChange user :: tasks)
      (hnetwork : c.isNetworkEnabled = true) :
      Step c .work { ({ c with tasks }.switched user).stopped with writePipeline := [] }.filled
  | switchedOffline {user : U} {tasks : List (Task U M)}
      (htasks : c.tasks = .handleCredentialChange user :: tasks)
      (hnetwork : c.isNetworkEnabled = false) : Step c .work ({ c with tasks }.switched user)
  | enabled {tasks : List (Task U M)} (htasks : c.tasks = .enableNetwork :: tasks) :
      Step c .work { c with tasks, isNetworkEnabled := true }.filled
  | disabled {tasks : List (Task U M)} (htasks : c.tasks = .disableNetwork :: tasks) :
      Step c .work
        { { c with tasks, isNetworkEnabled := false }.stopped with writePipeline := [] }
  | stale {n : Nat} {maybeToken : Except Error U} {tasks : List (Task U M)}
      (htasks : c.tasks = .resumeStart n maybeToken :: tasks) (hn : c.closeCount ≠ n) :
      Step c .work { c with tasks }
  | opened {tasks : List (Task U M)}
      (htasks : c.tasks = .resumeStart c.closeCount (.ok c.currentUser) :: tasks)
      (hstate : c.state = .starting) :
      Step c .work
        { c with
          tasks
          state := .opened
          idlenessTimer := false
          grpcStream := some ⟨c.currentUser, [.handshake], 0⟩ }
  | unauthorized {e : Error} {tasks : List (Task U M)}
      (htasks : c.tasks = .resumeStart c.closeCount (.error e) :: tasks)
      (hstate : c.state = .starting) : Step c .work ({ c with tasks }.cut .error).kicked
  | restarted (hstate : c.state = .backoff) :
      Step c .backoffElapsed { c with state := .starting }.requestCredentials
  | idled (hidle : c.idlenessTimer = true) : Step c .idle (c.cut .initial)
  | greeting (hhandshake : c.handshakeComplete = false)
      (hstream : c.grpcStream = some ⟨c.currentUser, [.handshake], 0⟩) :
      Step c .take { c with grpcStream := some ⟨c.currentUser, [], 1⟩ }
  | taken {b : MutationBatch U M} {answered rest : List (MutationBatch U M)}
      (hhandshake : c.handshakeComplete = true)
      (hpipeline : c.writePipeline = answered ++ b :: rest)
      (hstream : c.grpcStream = some ⟨c.currentUser,
        messages (b :: rest), answered.length⟩) :
      Step c .take
        { c with
          applied := c.applied ++ [b.mutations]
          grpcStream := some ⟨c.currentUser,
            messages rest, answered.length + 1⟩ }
  | greeted (hhandshake : c.handshakeComplete = false)
      (hstream : c.grpcStream = some ⟨c.currentUser, [], 1⟩) :
      Step c .read
        ({ c with
          handshakeComplete := true
          grpcStream := some ⟨c.currentUser, [], 0⟩ }.posted c.writePipeline)
  | acknowledged {b : MutationBatch U M} {answered rest : List (MutationBatch U M)}
      (hhandshake : c.handshakeComplete = true)
      (hpipeline : c.writePipeline = b :: (answered ++ rest))
      (hstream : c.grpcStream = some ⟨c.currentUser,
        messages rest, answered.length + 1⟩) :
      Step c .read
        ({ c with
          writePipeline := answered ++ rest
          grpcStream := some ⟨c.currentUser,
            messages rest, answered.length⟩ }.settled b true).filled
  | finished (hstream : c.grpcStream.isSome = true) (hpipeline : c.writePipeline = []) :
      Step c (.finish none) (c.cut .initial)
  | failed {e : Error} (hstream : c.grpcStream.isSome = true)
      (h : isPermanentWriteError e = false ∨ c.handshakeComplete = false ∨ c.writePipeline = []) :
      Step c (.finish (some e)) (c.cut .error).kicked
  | rejected {e : Error} {b : MutationBatch U M} {rest : List (MutationBatch U M)}
      (he : isPermanentWriteError e = true) (hhandshake : c.handshakeComplete = true)
      (hpipeline : c.writePipeline = b :: rest) :
      Step c (.finish (some e))
        ({ c.cut .initial with writePipeline := rest }.settled b false).filled

/-! ## The steps of a client that satisfies the invariant -/

theorem Inv.prefix_queue (h : c.Inv) : c.writePipeline <+: c.queue := by
  rw [h.pipeline, window]
  split
  · exact List.take_prefix ..
  · exact List.nil_prefix

theorem Inv.length_le (h : c.Inv) : c.writePipeline.length ≤ kMaxPendingWrites := by
  rw [h.pipeline, window]
  split
  · exact List.length_take_le ..
  · exact Nat.zero_le _

theorem Inv.network_of_pipeline (h : c.Inv) (hpipeline : c.writePipeline ≠ []) :
    c.isNetworkEnabled = true := by
  rw [h.pipeline, window] at hpipeline
  cases hnetwork : c.isNetworkEnabled with
  | true => rfl
  | false => exact absurd (if_neg (by simp [hnetwork])) hpipeline

theorem Inv.isStarted_of_isSome (h : c.Inv) (hstream : c.grpcStream.isSome = true) :
    c.isStarted = true := by
  have hnone : c.grpcStream ≠ none := Option.isSome_iff_ne_none.mp hstream
  cases h.shape with
  | stopped _ _ hg => exact absurd hg hnone
  | waiting _ _ hg => exact absurd hg hnone
  | greeting hs => simp [isStarted, isOpen, hs]
  | streaming _ _ hs => simp [isStarted, isOpen, hs]

theorem queue_stored (c : Client U M) (m : M) :
    (c.stored m).queue = c.queue ++ [⟨c.currentUser, c.nextBatchId, m⟩] := by
  have hself : ([⟨c.currentUser, c.nextBatchId, m⟩] : List (MutationBatch U M)).filter
      (fun b => b.user = c.currentUser) = [⟨c.currentUser, c.nextBatchId, m⟩] := by simp
  rw [queue, stored, List.filter_append, hself]
  rfl

theorem handleWriteMutations_eq (h : c.Base) (hpre : c.writePipeline <+: c.queue)
    (hlength : c.writePipeline.length ≤ kMaxPendingWrites)
    (hoffline : c.isNetworkEnabled = false → c.isStarted = false) (m : M) :
    c.handleWriteMutations m = .ok (c.stored m).filled := by
  have hfresh : c.mutationCallbacks.any (c.isRow c.nextBatchId) = false := by
    obtain ⟨restored, hbatches⟩ := h.callbacks
    refine List.any_eq_false.mpr fun b hb hrow => ?_
    have hlt := h.below b (by rw [hbatches]; exact List.mem_append_right _ hb)
    simp only [isRow, decide_eq_true_eq] at hrow
    omega
  have hstored : c.handleWriteMutations m = (c.stored m).fillWritePipeline := by
    show fillWritePipeline (if c.mutationCallbacks.any (c.isRow c.nextBatchId) = true then _ else _) = _
    rw [hfresh]
    rfl
  rw [hstored]
  cases hnetwork : c.isNetworkEnabled with
  | true =>
      refine fillWritePipeline_eq (h.stored m).ordered hnetwork ?_ hlength
      rw [queue_stored]
      exact hpre.trans (List.prefix_append ..)
  | false =>
      exact fillWritePipeline_offline hnetwork (isOpen_of_not_started (hoffline hnetwork))

theorem handleCredentialChange_switched (c : Client U M) (user : U) :
    c.handleCredentialChange user =
      if c.isNetworkEnabled then
        { c.switched user with isNetworkEnabled := false }.disableNetworkInternal >>= enableNetwork
      else .ok (c.switched user) := by
  rw [handleCredentialChange, switched]
  by_cases huser : c.currentUser = user
  · simp only [huser, ne_eq, not_true_eq_false, if_false]
    rfl
  · simp only [huser, ne_eq, not_false_eq_true, if_true]
    rfl

/-- The streams are torn down and built up again for the user. -/
theorem handleCredentialChange_eq (h : c.Ordered) (hnetwork : c.isNetworkEnabled = true) (user : U) :
    c.handleCredentialChange user =
      .ok { (c.switched user).stopped with writePipeline := [] }.filled := by
  rw [handleCredentialChange_switched, if_pos hnetwork, disableNetworkInternal_eq rfl, ok_bind]
  have hstopped : ({ { c.switched user with isNetworkEnabled := false }.stopped with
      writePipeline := []
      isNetworkEnabled := true } : Client U M) =
        { (c.switched user).stopped with writePipeline := [] } := by
    rw [← hnetwork]
    rfl
  have hordered : ({ (c.switched user).stopped with writePipeline := [] } : Client U M).Ordered := h
  rw [enableNetwork, hstopped]
  exact fillWritePipeline_eq hordered hnetwork List.nil_prefix (Nat.zero_le _)

theorem enableNetwork_eq (h : c.Ordered) (hpre : c.writePipeline <+: c.queue)
    (hlength : c.writePipeline.length ≤ kMaxPendingWrites) :
    c.enableNetwork = .ok { c with isNetworkEnabled := true }.filled := by
  have hordered : ({ c with isNetworkEnabled := true } : Client U M).Ordered := h
  exact fillWritePipeline_eq hordered rfl hpre hlength

/-- A token that is not stale finds the stream starting, and is the user's. -/
theorem Inv.starting (h : c.Inv) {maybeToken : Except Error U} {tasks : List (Task U M)}
    (htasks : c.tasks = .resumeStart c.closeCount maybeToken :: tasks) :
    c.state = .starting ∧ ∀ user, maybeToken = .ok user → user = c.currentUser := by
  constructor
  · by_contra hstate
    have hlive := h.live
    rw [if_neg hstate] at hlive
    have hmem : c.closeCount ∈ c.closeCounts := by
      rw [closeCounts, htasks]
      exact List.mem_append_right _ List.mem_cons_self
    exact absurd hmem (List.count_eq_zero.mp hlive)
  · intro user htoken
    refine h.token user ?_
    rw [htasks, htoken]
    exact List.mem_cons_self

theorem perform_spec (h : c.Inv) {task : Task U M} {tasks : List (Task U M)}
    (htasks : c.tasks = task :: tasks) :
    ∃ c', { c with tasks }.perform task = .ok c' ∧ Step c .work c' := by
  cases task with
  | writeMutations m =>
      have hbase : ({ c with tasks } : Client U M).Base := h.toBase.tail htasks rfl
      exact ⟨_, handleWriteMutations_eq hbase h.prefix_queue h.length_le h.offline m, .stored htasks⟩
  | handleCredentialChange user =>
      rcases Bool.eq_false_or_eq_true c.isNetworkEnabled with hnetwork | hnetwork
      · have hordered : ({ c with tasks } : Client U M).Ordered := h.ordered
        exact ⟨_, handleCredentialChange_eq hordered hnetwork user, .switched htasks hnetwork⟩
      · refine ⟨_, ?_, .switchedOffline htasks hnetwork⟩
        show handleCredentialChange { c with tasks } user = _
        rw [handleCredentialChange_switched]
        exact if_neg (by simp [hnetwork])
  | enableNetwork =>
      have hordered : ({ c with tasks } : Client U M).Ordered := h.ordered
      exact ⟨_, enableNetwork_eq hordered h.prefix_queue h.length_le, .enabled htasks⟩
  | disableNetwork =>
      have hoff : ({ c with tasks, isNetworkEnabled := false } : Client U M).isNetworkEnabled =
          false := rfl
      exact ⟨_, disableNetworkInternal_eq hoff, .disabled htasks⟩
  | resumeStart n maybeToken =>
      by_cases hn : c.closeCount = n
      · subst hn
        obtain ⟨hstate, htoken⟩ := h.starting htasks
        have hhandshake := h.unshaken (by rw [hstate]; decide)
        have hperform : ({ c with tasks } : Client U M).perform (.resumeStart c.closeCount maybeToken) =
            match maybeToken with
            | .error e => ({ c with tasks } : Client U M).close (some e)
            | .ok user => onStreamStart { c with tasks, grpcStream := some ⟨user, [], 0⟩ } := by
          have hstarting : ({ c with tasks } : Client U M).state = .starting := hstate
          show (if c.closeCount ≠ c.closeCount then .ok ({ c with tasks } : Client U M)
            else ({ c with tasks } : Client U M).resumeStartWithCredentials maybeToken) = _
          rw [if_neg (not_not_intro rfl), resumeStartWithCredentials.eq_def, hardAssert_of hstarting]
          cases maybeToken <;> rfl
        rw [hperform]
        cases maybeToken with
        | error e =>
            have hstarted : ({ c with tasks } : Client U M).isStarted = true := by
              simp [isStarted, hstate]
            exact ⟨_, close_retry hstarted (.inr (.inl hhandshake)), .unauthorized htasks hstate⟩
        | ok user =>
            have huser : user = c.currentUser := htoken user rfl
            subst huser
            exact ⟨_, onStreamStart_eq (c := { c with tasks }) hhandshake c.currentUser,
              .opened htasks hstate⟩
      · exact ⟨_, if_pos hn, .stale htasks hn⟩

/-- The write that is answered is the first of the queue. -/
theorem Inv.queue_eq (h : c.Inv) {b : MutationBatch U M} {rest : List (MutationBatch U M)}
    (hpipeline : c.writePipeline = b :: rest) : ∃ more, c.queue = b :: (rest ++ more) := by
  obtain ⟨more, hmore⟩ := h.prefix_queue
  rw [hpipeline] at hmore
  exact ⟨more, hmore.symm⟩

theorem read_spec (h : c.Inv) {user : U} {outbox : List (Message M)} {unread : Nat}
    (hstream : c.grpcStream = some ⟨user, outbox, unread + 1⟩) :
    ∃ c', { c with grpcStream := some ⟨user, outbox, unread⟩ }.onStreamRead = .ok c' ∧
      Step c .read c' := by
  have hstarted : ({ c with grpcStream := some ⟨user, outbox, unread⟩ } : Client U M).isStarted =
      true := h.isStarted_of_isSome (by rw [hstream]; rfl)
  rw [onStreamRead, hardAssert_of hstarted]
  cases h.shape with
  | stopped _ _ hg => cases hstream.symm.trans hg
  | waiting _ _ hg => cases hstream.symm.trans hg
  | greeting hstate hhandshake _ hg _ =>
      rcases hg with hg | hg
      · cases hstream.symm.trans hg
      · obtain ⟨rfl, rfl, rfl⟩ : user = c.currentUser ∧ outbox = [] ∧ unread = 0 := by
          simpa [hstream] using hg
        have hsending : ({ c with
            handshakeComplete := true
            grpcStream := some ⟨c.currentUser, [], 0⟩ } : Client U M).sending = true := by
          simp [sending, isOpen, hstate]
        refine ⟨_, ?_, .greeted hhandshake hg⟩
        show (if c.handshakeComplete = false then _ else _) = _
        rw [if_pos hhandshake]
        exact foldlM_writeMutations hsending c.writePipeline
  | streaming answered rest hstate hhandshake _ hpipeline hg =>
      obtain ⟨rfl, rfl, hlength⟩ : user = c.currentUser ∧ outbox = messages rest ∧
          unread + 1 = answered.length := by
        simpa [hstream] using hg
      cases answered with
      | nil => cases hlength
      | cons b answered =>
          obtain rfl : unread = answered.length := by simpa using hlength
          obtain ⟨more, hqueue⟩ := h.queue_eq hpipeline
          refine ⟨_, ?_, .acknowledged hhandshake hpipeline hstream⟩
          show (if c.handshakeComplete = false then _ else _) = _
          rw [if_neg (by simp [hhandshake])]
          exact onWriteStreamMutationResult_eq
            (c := { c with grpcStream := some ⟨c.currentUser, messages rest, answered.length⟩ })
            h.ordered (h.network_of_pipeline (by simp [hpipeline])) hpipeline hqueue h.length_le

/-- The idle check only fires on an open stream with nothing to send. -/
theorem idle_eq (h : c.Inv) (hidle : c.idlenessTimer = true) :
    ({ c with idlenessTimer := false } : Client U M).stop = .ok (c.cut .initial) := by
  obtain ⟨hopen, hempty⟩ := Bool.and_eq_true_iff.mp (h.idle.symm.trans hidle)
  have hstarted : ({ c with idlenessTimer := false } : Client U M).isStarted = true := by
    rw [isStarted]
    exact Bool.or_eq_true_iff.mpr (.inr hopen)
  rw [stop_eq (c := { c with idlenessTimer := false }) (.inr (List.isEmpty_iff.mp hempty)),
    stopped_of_started hstarted]
  rfl

/-- What the backend takes next is the first write it was sent and has not
taken. -/
theorem take_spec (h : c.Inv) {r : Checked (Client U M)} (hr : c.step .take = some r) :
    ∃ c', r = .ok c' ∧ Step c .take c' := by
  rw [step] at hr
  cases h.shape with
  | stopped _ _ hg =>
      rw [hg] at hr
      cases hr
  | waiting _ _ hg =>
      rw [hg] at hr
      cases hr
  | greeting _ hhandshake _ hg _ =>
      rcases hg with hg | hg
      · rw [hg] at hr
        cases hr
        exact ⟨_, rfl, .greeting hhandshake hg⟩
      · rw [hg] at hr
        cases hr
  | streaming answered rest _ hhandshake _ hpipeline hg =>
      cases rest with
      | nil =>
          rw [hg] at hr
          cases hr
      | cons b rest =>
          have htaken := Step.taken hhandshake hpipeline hg
          rw [hg] at hr
          cases hr
          exact ⟨_, rfl, htaken⟩

/-- The end of the stream. -/
theorem finish_spec (h : c.Inv) (hstream : c.grpcStream.isSome = true) (status : Option Error) :
    (∃ c', c.close status = .ok c' ∧ Step c (.finish status) c') ∨
    (status = none ∧ c.writePipeline ≠ [] ∧
      c.close status = .error "Write stream was stopped gracefully while still needed.") := by
  have hstarted := h.isStarted_of_isSome hstream
  cases status with
  | none =>
      by_cases hpipeline : c.writePipeline = []
      · exact .inl ⟨_, close_graceful hstarted (.inr hpipeline), .finished hstream hpipeline⟩
      · exact .inr ⟨rfl, hpipeline,
          close_fails hstarted (h.network_of_pipeline hpipeline) hpipeline⟩
  | some e =>
      refine .inl ?_
      by_cases hkeep : isPermanentWriteError e = false ∨ c.handshakeComplete = false ∨
          c.writePipeline = []
      · exact ⟨_, close_retry hstarted hkeep, .failed hstream hkeep⟩
      · simp only [not_or, Bool.not_eq_false] at hkeep
        obtain ⟨he, hhandshake, hne⟩ := hkeep
        obtain ⟨b, rest, hpipeline⟩ := List.exists_cons_of_ne_nil hne
        obtain ⟨more, hqueue⟩ := h.queue_eq hpipeline
        exact ⟨_, close_reject h.ordered hstarted (h.network_of_pipeline hne) hhandshake he hpipeline
          hqueue h.length_le, .rejected he hhandshake hpipeline⟩

/-- Of a client that satisfies the invariant, an event makes what `Step` says,
or it ends a stream in good order that is still needed. -/
theorem step_spec (h : c.Inv) {e : Event U M} {r : Checked (Client U M)}
    (hr : c.step e = some r) :
    (∃ c', r = .ok c' ∧ Step c e c') ∨
    (e = .finish none ∧ c.writePipeline ≠ [] ∧
      r = .error "Write stream was stopped gracefully while still needed.") := by
  cases e with
  | write m =>
      cases hr
      exact .inl ⟨_, rfl, .write m⟩
  | announce user =>
      cases hr
      exact .inl ⟨_, rfl, .announce user⟩
  | setNetwork enabled =>
      cases hr
      exact .inl ⟨_, rfl, .setNetwork enabled⟩
  | token i failure =>
      rw [step] at hr
      cases hrequest : c.tokenRequests[i]? with
      | none =>
          rw [hrequest] at hr
          cases hr
      | some request =>
          rw [hrequest] at hr
          cases hr
          exact .inl ⟨_, rfl, .token hrequest failure⟩
  | work =>
      rw [step] at hr
      cases htasks : c.tasks with
      | nil =>
          rw [htasks] at hr
          cases hr
      | cons task tasks =>
          rw [htasks] at hr
          cases hr
          exact .inl (perform_spec h htasks)
  | backoffElapsed =>
      rw [step] at hr
      split at hr
      · rename_i hstate
        cases hr
        exact .inl ⟨_, backoffElapsed_eq hstate, .restarted hstate⟩
      · cases hr
  | idle =>
      rw [step] at hr
      split at hr
      · rename_i hidle
        cases hr
        exact .inl ⟨_, idle_eq h hidle, .idled hidle⟩
      · cases hr
  | take => exact .inl (take_spec h hr)
  | read =>
      rw [step] at hr
      split at hr
      · rename_i hstream
        cases hr
        exact .inl (read_spec h hstream)
      · cases hr
  | finish status =>
      rw [step] at hr
      split at hr
      · rename_i hstream
        cases hr
        rcases finish_spec h hstream status with hstep | ⟨rfl, hpipeline, hclose⟩
        · exact .inl hstep
        · exact .inr ⟨rfl, hpipeline, hclose⟩
      · cases hr

/-! ## Every step keeps the invariant -/

def wire (c : Client U M) :=
  (c.currentUser, c.batches, c.isNetworkEnabled, c.writePipeline, c.state, c.handshakeComplete,
    c.idlenessTimer, c.grpcStream)

theorem Inv.congr (h : c.Inv) {c' : Client U M} (hcore : c'.Core) (hwire : c'.wire = c.wire) :
    c'.Inv := by
  simp only [wire, Prod.mk.injEq] at hwire
  obtain ⟨huser, hbatches, hnetwork, hpipeline, hstate, hhandshake, hidle, hstream⟩ := hwire
  have hqueue : c'.queue = c.queue := by rw [queue, hbatches, huser]; rfl
  have hwindow : c'.window = c.window := by rw [window, hnetwork, hqueue]; rfl
  have hstarted : c'.isStarted = c.isStarted := by simp only [isStarted, isOpen, hstate]
  have hopen : c'.isOpen = c.isOpen := by rw [isOpen, hstate]; rfl
  exact {
    hcore with
    shape := h.shape.congr huser hstate hhandshake hidle hstream hpipeline
    offline := by rw [hnetwork, hstarted]; exact h.offline
    pipeline := by rw [hpipeline, hwindow]; exact h.pipeline
    started := by rw [hpipeline, hstarted]; exact h.started
    idle := by rw [hidle, hopen, hpipeline]; exact h.idle }

/-- A full pipeline is not filled. -/
theorem filled_of_full (hpipeline : c.writePipeline = c.window) (hopen : c.isOpen = false) :
    c.filled = c.kicked := by
  have hupcoming : c.upcoming = [] := by
    have hpre : c.writePipeline <+: c.window := by rw [hpipeline]
    have happend := pipeline_upcoming hpre
    rw [← hpipeline] at happend
    exact List.append_right_eq_self.mp happend
  have hidled : c.idled = c := by rw [idled, hopen, Bool.false_and, Bool.or_false]
  rw [filled, hupcoming, pushed_nil, hidled]

theorem Base.switched (h : c.Base) {user : U} {tasks : List (Task U M)}
    (htasks : c.tasks = .handleCredentialChange user :: tasks) :
    ({ c with tasks }.switched user).Base where
  ordered := h.ordered
  below b hb := by
    show b.batchId < if c.currentUser ≠ user then c.loadNextBatchId else c.nextBatchId
    split
    · exact lt_loadNextBatchId hb
    · exact h.below b hb
  callbacks := h.callbacks
  counts n hn := h.counts n (mem_closeCounts_cons htasks hn)
  user := by
    have huser := h.user
    rw [htasks] at huser
    exact huser

theorem Inv.enqueued (h : c.Inv) {task : Task U M} (hquiet : closeCount? task = none) :
    ({ c with tasks := c.tasks ++ [task], user := userAfter c.user [task] } : Client U M).Inv :=
  h.congr (h.toCore.enqueued hquiet) rfl

/-- A stream that is cut loose is started again if writes are waiting. -/
theorem inv_kicked (h : c.Core) (hshape : Shape c) (hopen : c.isOpen = false)
    (hoffline : c.isNetworkEnabled = false → c.isStarted = false)
    (hpipeline : c.writePipeline = c.window) : c.kicked.Inv := by
  rw [← filled_of_full hpipeline hopen]
  exact inv_filled h hshape hoffline (by rw [hpipeline])

/-- A stream that is cut loose while it has nothing to send. -/
theorem inv_cut (h : c.Inv) (hpipeline : c.writePipeline = []) : (c.cut .initial).Inv :=
  { h.toBase.cut (s := .initial) (by decide) with
    shape := .stopped (.inl rfl) rfl rfl
    offline := fun _ => rfl
    pipeline := h.pipeline
    started := fun _ => hpipeline
    idle := rfl }

/-- The first write of the pipeline has met its fate. -/
theorem inv_settled (h : c.Core) (hshape : Shape c) (hnetwork : c.isNetworkEnabled = true)
    {b : MutationBatch U M} {more : List (MutationBatch U M)}
    (hqueue : c.queue = b :: (c.writePipeline ++ more))
    (hlength : c.writePipeline.length ≤ kMaxPendingWrites) (ok : Bool) :
    (c.settled b ok).filled.Inv := by
  have hcore : (c.settled b ok).Core := { h with toBase := h.toBase.settled b ok }
  refine inv_filled hcore (hshape.congr rfl rfl rfl rfl rfl rfl) ?_ ?_
  · intro hoff
    cases hnetwork.symm.trans hoff
  · rw [window, queue_settled h.ordered hqueue]
    show c.writePipeline <+: if c.isNetworkEnabled then _ else _
    rw [hnetwork, if_pos rfl]
    exact List.prefix_take_iff.mpr ⟨List.prefix_append .., hlength⟩

theorem inv_stored (h : c.Inv) (m : M) : (c.stored m).filled.Inv := by
  have hcore : (c.stored m).Core := { h.toCore with toBase := h.toBase.stored m }
  refine inv_filled hcore (h.shape.congr rfl rfl rfl rfl rfl rfl) h.offline ?_
  have hpipeline : (c.stored m).writePipeline = c.window := h.pipeline
  rw [hpipeline, window, window, queue_stored]
  show (if c.isNetworkEnabled then _ else _) <+: if c.isNetworkEnabled then _ else _
  cases c.isNetworkEnabled with
  | true => exact List.IsPrefix.take (List.prefix_append ..) _
  | false => exact List.prefix_refl []

/-- The stream is torn down, and nothing is in the pipeline. -/
theorem inv_emptied (h : c.Core) (hshape : Shape c) (hstarted : c.isStarted = false) :
    { c with writePipeline := [] }.filled.Inv := by
  have hcore : ({ c with writePipeline := [] } : Client U M).Core := { h with }
  obtain ⟨hs, hi, hg⟩ := hshape.quiet hstarted
  exact inv_filled hcore (.stopped hs hi hg) (fun _ => hstarted) List.nil_prefix

/-- The stream once the answer to its first write is read. -/
theorem Inv.shape_acknowledged (h : c.Inv) {b : MutationBatch U M}
    {answered rest : List (MutationBatch U M)} (hhandshake : c.handshakeComplete = true)
    (hpipeline : c.writePipeline = b :: (answered ++ rest)) :
    Shape { c with
      writePipeline := answered ++ rest
      grpcStream := some ⟨c.currentUser, messages rest, answered.length⟩ } := by
  refine .streaming answered rest (h.shaken hhandshake) hhandshake (fun hi => ?_) rfl rfl
  have hempty := (Bool.and_eq_true_iff.mp (h.idle.symm.trans hi)).2
  rw [hpipeline] at hempty
  cases hempty

/-- The invariant survives every step. -/
theorem Inv.step {e : Event U M} {c' : Client U M} (h : c.Inv) (hs : Step c e c') : c'.Inv := by
  cases hs with
  | write m =>
      have henqueued := h.enqueued (show closeCount? (.writeMutations m : Task U M) = none from rfl)
      exact henqueued.congr { henqueued.toCore with } rfl
  | announce user =>
      have henqueued := h.enqueued
        (show closeCount? (.handleCredentialChange user : Task U M) = none from rfl)
      exact henqueued.congr { henqueued.toCore with } rfl
  | setNetwork enabled =>
      cases enabled with
      | true => exact h.enqueued (show closeCount? (.enableNetwork : Task U M) = none from rfl)
      | false => exact h.enqueued (show closeCount? (.disableNetwork : Task U M) = none from rfl)
  | token hrequest failure => exact h.congr (h.toCore.answered hrequest failure) rfl
  | stored htasks =>
      have htail := h.congr (h.toCore.tail htasks rfl (by simp [closeCount?])) rfl
      exact inv_stored htail _
  | @switched user tasks htasks hnetwork =>
      obtain ⟨hs, hi, hg⟩ := h.shape.stop.quiet (isStarted_stopped c)
      have hshape : Shape ({ c with tasks }.switched user).stopped := .stopped hs hi hg
      have hcore : ({ c with tasks }.switched user).stopped.Core :=
        (h.toBase.switched htasks).stop h.shaken (h.toCore.live_tail htasks)
      exact inv_emptied hcore hshape (isStarted_stopped _)
  | @switchedOffline user tasks htasks hnetwork =>
      have hstarted := h.offline hnetwork
      obtain ⟨hs, hi, hg⟩ := h.shape.quiet hstarted
      have hempty := h.started hstarted
      have hbase := h.toBase.switched htasks
      have hcore : ({ c with tasks }.switched user).Core :=
        hbase.core h.shaken (h.toCore.live_tail htasks hstarted)
          (fun hstate => by rcases hs with hs | hs <;> cases hs.symm.trans hstate)
      exact {
        hcore with
        shape := .stopped hs hi hg
        offline := h.offline
        pipeline := by
          have hwindow : ({ c with tasks }.switched user).window = [] :=
            if_neg (by simp [switched, hnetwork])
          rw [hwindow]
          exact hempty
        started := h.started
        idle := h.idle }
  | enabled htasks =>
      have htail := h.toCore.tail htasks rfl (by simp [closeCount?])
      refine inv_filled { htail with } (h.shape.congr rfl rfl rfl rfl rfl rfl)
        (fun hoff => by cases hoff) ?_
      exact List.prefix_take_iff.mpr ⟨h.prefix_queue, h.length_le⟩
  | @disabled tasks htasks =>
      have hbase : ({ c with tasks, isNetworkEnabled := false } : Client U M).Base :=
        { h.toBase.tail htasks rfl with }
      have hcore := hbase.stop h.shaken (h.toCore.live_tail htasks)
      have hstarted := isStarted_stopped ({ c with tasks, isNetworkEnabled := false } : Client U M)
      obtain ⟨hs, hi, hg⟩ := h.shape.stop.quiet (isStarted_stopped c)
      exact {
        hcore with
        shape := .stopped hs hi hg
        offline := fun _ => hstarted
        pipeline := rfl
        started := fun _ => rfl
        idle := by
          have hopen := isOpen_of_not_started hstarted
          rw [isOpen] at hopen ⊢
          rw [hopen]
          exact hi }
  | stale htasks hn =>
      exact h.congr (h.toCore.tail htasks rfl (by simpa [closeCount?] using Ne.symm hn)) rfl
  | @opened tasks htasks hstate =>
      obtain ⟨-, -, hne⟩ := h.shape.expecting (.inr hstate)
      have hlive : { c with tasks }.closeCounts.count c.closeCount = 0 := by
        have hself : closeCount? (.resumeStart c.closeCount (.ok c.currentUser) : Task U M) =
            some c.closeCount := rfl
        have hlive := h.live
        rw [count_closeCounts_cons htasks, if_pos hself, if_pos hstate] at hlive
        exact Nat.succ.inj hlive
      have hbase := h.toBase.tail htasks rfl
      have hcore := Base.core
        (c := { c with
          tasks
          state := .opened
          idlenessTimer := false
          grpcStream := some ⟨c.currentUser, [.handshake], 0⟩ })
        { hbase with } (fun _ => rfl) hlive (fun hs => by cases hs)
      have hhandshake := h.unshaken (by rw [hstate]; decide)
      exact {
        hcore with
        shape := .greeting rfl hhandshake rfl (.inl rfl) hne
        offline := fun hoff => by
          have hstarted := h.offline hoff
          simp [isStarted, hstate] at hstarted
        pipeline := h.pipeline
        started := fun hstarted => by cases hstarted
        idle := by
          show false = (true && c.writePipeline.isEmpty)
          rw [List.isEmpty_eq_false_iff.mpr hne, Bool.and_false] }
  | unauthorized htasks hstate =>
      have hbase := h.toBase.tail htasks rfl
      exact inv_kicked (hbase.cut (by decide)) (.stopped (.inr rfl) rfl rfl) rfl (fun _ => rfl)
        h.pipeline
  | restarted hstate =>
      obtain ⟨hi, hg, hne⟩ := h.shape.expecting (.inl hstate)
      have hcore := h.toCore.requested (by rw [hstate]; decide) fun hhandshake => by
        cases hstate.symm.trans (h.shaken hhandshake)
      exact {
        hcore with
        shape := .waiting (.inr rfl) hi hg hne
        offline := fun hoff => by
          have hstarted := h.offline hoff
          simp [isStarted, hstate] at hstarted
        pipeline := h.pipeline
        started := fun hstarted => by cases hstarted
        idle := hi }
  | idled hidle =>
      exact inv_cut h (List.isEmpty_iff.mp (Bool.and_eq_true_iff.mp (h.idle.symm.trans hidle)).2)
  | greeting hhandshake hstream =>
      obtain ⟨hs, hi, hne⟩ := h.shape.ungreeted hhandshake (by simp [hstream])
      exact {
        h with
        shape := .greeting hs hhandshake hi (.inr rfl) hne }
  | @taken b answered rest hhandshake hpipeline hstream =>
      exact {
        h with
        shape := by
          refine .streaming (answered ++ [b]) rest (h.shaken hhandshake) hhandshake (fun hi => ?_) ?_ ?_
          · exact List.isEmpty_iff.mp (Bool.and_eq_true_iff.mp (h.idle.symm.trans hi)).2
          · rw [List.append_assoc]
            exact hpipeline
          · rw [List.length_append]
            rfl }
  | greeted hhandshake hstream =>
      obtain ⟨hs, hi, hne⟩ := h.shape.ungreeted hhandshake (by simp [hstream])
      exact {
        h with
        shaken := fun _ => hs
        shape := .streaming [] c.writePipeline hs rfl
          (fun hidle => absurd (hidle.symm.trans (if_neg hne)) (by decide)) rfl rfl
        idle := by
          show (if c.writePipeline = [] then c.idlenessTimer else false) = _
          rw [if_neg hne]
          show false = (c.isOpen && c.writePipeline.isEmpty)
          rw [List.isEmpty_eq_false_iff.mpr hne, Bool.and_false] }
  | @acknowledged b answered rest hhandshake hpipeline hstream =>
      obtain ⟨more, hqueue⟩ := h.queue_eq hpipeline
      have hlength := h.length_le
      rw [hpipeline] at hlength
      exact inv_settled (c := { c with
          writePipeline := answered ++ rest
          grpcStream := some ⟨c.currentUser, messages rest, answered.length⟩ })
        { h.toCore with } (h.shape_acknowledged hhandshake hpipeline)
        (h.network_of_pipeline (by simp [hpipeline])) hqueue (Nat.le_of_succ_le hlength) true
  | finished hstream hpipeline => exact inv_cut h hpipeline
  | failed hstream hkeep =>
      exact inv_kicked (h.toBase.cut (by decide)) (.stopped (.inr rfl) rfl rfl) rfl (fun _ => rfl)
        h.pipeline
  | @rejected e b rest he hhandshake hpipeline =>
      obtain ⟨more, hqueue⟩ := h.queue_eq hpipeline
      have hlength := h.length_le
      rw [hpipeline] at hlength
      exact inv_settled (c := { c.cut .initial with writePipeline := rest })
        { h.toBase.cut (s := .initial) (by decide) with } (.stopped (.inl rfl) rfl rfl)
        (h.network_of_pipeline (by simp [hpipeline])) hqueue (Nat.le_of_succ_le hlength) false

/-! ## Runs -/

theorem step_of_next (h : c.Inv) {e : Event U M} {c' : Client U M} (hn : c.next e = some c') :
    Step c e c' := by
  rw [next] at hn
  split at hn
  · rename_i hr
    cases hn
    rcases step_spec h hr with ⟨c'', hok, hs⟩ | ⟨-, -, herror⟩
    · cases hok
      exact hs
    · cases herror
  · cases hn

/-- The client of a process that finds the rows of an earlier one. -/
def found (batches : List (MutationBatch U M)) (user : U) (log : List M) : Client U M :=
  { user, currentUser := user, batches, applied := log }

def launched (batches : List (MutationBatch U M)) (user : U) (log : List M) : Client U M :=
  { found batches user log with
    nextBatchId := (found batches user log).loadNextBatchId
    isNetworkEnabled := true }.filled

section

variable {batches : List (MutationBatch U M)}
  (hbatches : batches.Pairwise fun a b => a.batchId < b.batchId) {user : U} {log : List M}

include hbatches

theorem initialized_eq : initialized batches user log = .ok (launched batches user log) :=
  enableNetwork_eq
    (c := { found batches user log with nextBatchId := (found batches user log).loadNextBatchId })
    hbatches List.nil_prefix (Nat.zero_le _)

theorem inv_launched : (launched batches user log).Inv := by
  refine inv_filled
    (c := { found batches user log with
      nextBatchId := (found batches user log).loadNextBatchId
      isNetworkEnabled := true })
    ?_ (.stopped (.inl rfl) rfl rfl) (fun hoff => by cases hoff) List.nil_prefix
  refine Base.core ⟨hbatches, ?_, ⟨batches, (List.append_nil _).symm⟩, ?_, rfl⟩ ?_ rfl ?_
  · exact fun b hb => lt_loadNextBatchId (c := found batches user log) hb
  · exact fun n hn => by cases hn
  · exact fun hhandshake => by cases hhandshake
  · exact fun hstate => by cases hstate

variable {c₀ : Client U M} (h₀ : initialized batches user log = .ok c₀) {evs : List (Event U M)}
  (h : run next c₀ evs = some c)

include h₀ h

theorem inv_of_run : c.Inv := by
  rw [initialized_eq hbatches] at h₀
  cases h₀
  exact run_invariant (fun hinv hn => hinv.step (step_of_next hinv hn)) (inv_launched hbatches) h

/-- One assertion of the SDK can fail, and only when the backend ends a stream
in good order while writes are waiting. The backend is taken to answer each message
with one response that parses and has a result for each mutation sent, which is
what `MutationBatchResult` asserts. -/
theorem dies_iff (e : Event U M) :
    (∃ message, c.step e = some (.error message)) ↔
      e = .finish none ∧ c.grpcStream.isSome = true ∧ c.writePipeline ≠ [] := by
  have hinv := inv_of_run hbatches h₀ h
  constructor
  · rintro ⟨message, hr⟩
    rcases step_spec hinv hr with ⟨c', hok, -⟩ | ⟨rfl, hpipeline, -⟩
    · cases hok
    · refine ⟨rfl, ?_, hpipeline⟩
      rw [step] at hr
      split at hr
      · assumption
      · cases hr
  · rintro ⟨rfl, hstream, hpipeline⟩
    refine ⟨"Write stream was stopped gracefully while still needed.", ?_⟩
    rw [step, if_pos hstream]
    exact congrArg some (close_fails (hinv.isStarted_of_isSome hstream)
      (hinv.network_of_pipeline hpipeline) hpipeline)

end

theorem dies_iff_unanswered :
    ∃ c : Client Bool Nat,
      run next (launched [] true []) [.write 7, .work, .token 0 none, .work] = some c ∧
        ∃ message, c.step (.finish none) = some (.error message) := by
  have hview : (run next (launched [] true [] : Client Bool Nat)
      [.write 7, .work, .token 0 none, .work]).map
        (fun c => (c.grpcStream.isSome, c.writePipeline.length)) = some (true, 1) := rfl
  obtain ⟨c, hrun, hc⟩ := Option.map_eq_some_iff.mp hview
  obtain ⟨hstream, hlength⟩ := Prod.mk.inj hc
  have hne : c.writePipeline ≠ [] := List.ne_nil_of_length_pos (by rw [hlength]; decide)
  exact ⟨c, hrun, (dies_iff .nil rfl hrun (.finish none)).mpr ⟨rfl, hstream, hne⟩⟩

/-- The stream is open under a token of the user whose writes it carries. After
its handshake it has sent the pipeline, the first ten writes of that user's
queue, in order, and nothing besides; before, nothing but the handshake. -/
theorem Inv.stream (h : c.Inv) {g : GrpcStream U M} (hg : c.grpcStream = some g) :
    g.user = c.currentUser ∧ c.writePipeline = c.queue.take kMaxPendingWrites ∧
      if c.handshakeComplete then
        ∃ answered rest, c.writePipeline = answered ++ rest ∧ g.unread = answered.length ∧
          g.outbox = messages rest
      else g = ⟨c.currentUser, [.handshake], 0⟩ ∨ g = ⟨c.currentUser, [], 1⟩ := by
  have hnetwork : c.isNetworkEnabled = true := by
    cases hnetwork : c.isNetworkEnabled with
    | true => rfl
    | false =>
        have hstarted := h.isStarted_of_isSome (by rw [hg]; rfl)
        cases hstarted.symm.trans (h.offline hnetwork)
  have hwindow : c.writePipeline = c.queue.take kMaxPendingWrites := by
    rw [h.pipeline, window, if_pos hnetwork]
  cases h.shape with
  | stopped _ _ hnone => cases hg.symm.trans hnone
  | waiting _ _ hnone => cases hg.symm.trans hnone
  | greeting _ hhandshake _ hstream _ =>
      rw [hhandshake]
      rcases hstream with hstream | hstream
      · obtain rfl := Option.some.inj (hg.symm.trans hstream)
        exact ⟨rfl, hwindow, .inl rfl⟩
      · obtain rfl := Option.some.inj (hg.symm.trans hstream)
        exact ⟨rfl, hwindow, .inr rfl⟩
  | streaming answered rest _ hhandshake _ hpipeline hstream =>
      rw [hhandshake]
      obtain rfl := Option.some.inj (hg.symm.trans hstream)
      exact ⟨rfl, hwindow, answered, rest, hpipeline, rfl, rfl⟩

end Pompeius.Firestore.Client
