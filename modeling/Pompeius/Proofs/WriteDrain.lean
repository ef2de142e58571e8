import Pompeius.Lib.Potential
import Pompeius.Proofs.Resends

/-!
# The pipeline never gets stuck

Whatever has happened to the client, its own machinery can finish: the worker
queue runs its tasks, Auth hands out tokens, the backoff elapses, and the
backend takes and answers what it is sent. `drains_of_run` says that from every
reachable state such events alone lead to one where no task waits and, with a
network, no write of the user who is signed in does, and that none is rejected
on the way.

The stages are those of the stream: the tasks that wait, then the backoff, the
token, the greeting, and one round for each write.
-/

namespace Pompeius.Firestore.Client

open Lib

variable {U M : Type} [DecidableEq U] {c c' : Client U M} {e : Event U M}

/-- The events of a system that nobody uses and nothing disturbs. -/
def isOwn : Event U M → Bool
  | .work | .backoffElapsed | .take | .read | .token _ none => true
  | _ => false

/-- What an undisturbed client keeps. -/
structure Kept (rejected : List M) (user : U) (c : Client U M) : Prop where
  inv : c.Inv
  rejected : c.rejected = rejected
  user : c.user = user

variable {rejected : List M} {user : U}

theorem Kept.step (h : Kept rejected user c) (he : isOwn e = true) (hs : Step c e c') :
    Kept rejected user c' := by
  refine ⟨h.inv.step hs, ?_, ?_⟩
  · rw [← h.rejected]
    cases hs with
    | acknowledged => exact rejected_accepted _ _
    | rejected => cases he
    | _ => rfl
  · rw [← h.user]
    cases hs with
    | announce => cases he
    | _ => rfl

/-- An event of the system that is enabled happens. -/
theorem Kept.next (h : Kept rejected user c) (he : isOwn e = true) (hsome : (c.step e).isSome = true) :
    ∃ c', c.next e = some c' ∧ Step c e c' ∧ Kept rejected user c' := by
  obtain ⟨r, hr⟩ := Option.isSome_iff_exists.mp hsome
  rcases step_spec h.inv hr with ⟨c', rfl, hs⟩ | ⟨rfl, -⟩
  · refine ⟨c', ?_, hs, h.step he hs⟩
    rw [Client.next, hr]
  · cases he

theorem tasks_of_work (hs : Step c .work c') : c'.tasks = c.tasks.tail := by
  cases hs with
  | stored htasks => rw [htasks]; rfl
  | switched htasks => rw [htasks]; rfl
  | switchedOffline htasks => rw [htasks]; rfl
  | enabled htasks => rw [htasks]; rfl
  | disabled htasks => rw [htasks]; rfl
  | stale htasks => rw [htasks]; rfl
  | opened htasks => rw [htasks]; rfl
  | unauthorized htasks => rw [htasks]; rfl

/-- A client whose worker queue is empty. -/
def Calm (rejected : List M) (user : U) (c : Client U M) : Prop :=
  Kept rejected user c ∧ c.tasks = []

/-- The worker queue runs dry. -/
theorem reaches_calm (h : Kept rejected user c) :
    Reaches Client.next (isOwn · = true) (Calm rejected user) c := by
  refine Reaches.of_measure (fun c : Client U M => c.tasks.length) ?_ h
  intro c h
  cases htasks : c.tasks with
  | nil => exact .inl ⟨h, htasks⟩
  | cons task tasks =>
      have hwork : (c.step .work).isSome = true := by
        rw [Client.step, htasks]
        rfl
      obtain ⟨c', hn, hs, hkept⟩ := h.next rfl hwork
      refine .inr (.head rfl hn (.refl ⟨hkept, ?_⟩))
      rw [tasks_of_work hs, htasks]
      exact Nat.lt_succ_self _

/-! ## One round for each write -/

theorem Inv.streaming (h : c.Inv) (hhandshake : c.handshakeComplete = true) :
    ∃ answered rest, c.writePipeline = answered ++ rest ∧
      c.grpcStream = some ⟨c.currentUser, messages rest, answered.length⟩ := by
  have hopen := h.shaken hhandshake
  cases h.shape with
  | stopped hs => rcases hs with hs | hs <;> cases hs.symm.trans hopen
  | waiting hs => rcases hs with hs | hs <;> cases hs.symm.trans hopen
  | greeting _ hh => cases hh.symm.trans hhandshake
  | streaming answered rest _ _ _ hpipeline hstream => exact ⟨answered, rest, hpipeline, hstream⟩

/-- A calm client whose stream was greeted. -/
def Flowing (rejected : List M) (user : U) (c : Client U M) : Prop :=
  Calm rejected user c ∧ c.handshakeComplete = true

/-- An answer is read, and the queue is shorter. -/
theorem flowing_read (h : Flowing rejected user c) (hunheard : c.unheard ≠ []) :
    Reaches Client.next (isOwn · = true)
      (fun t => Flowing rejected user t ∧ t.queue.length < c.queue.length) c := by
  obtain ⟨⟨hkept, htasks⟩, hhandshake⟩ := h
  obtain ⟨answered, rest, hpipeline, hstream⟩ := hkept.inv.streaming hhandshake
  rw [unheard_eq hhandshake hpipeline hstream] at hunheard
  obtain ⟨b, answered, rfl⟩ := List.exists_cons_of_ne_nil hunheard
  have hread : (c.step .read).isSome = true := by
    rw [Client.step, hstream]
    rfl
  obtain ⟨c', hn, hs, hkept'⟩ := hkept.next rfl hread
  refine .head rfl hn (.refl ?_)
  cases hs with
  | greeted hh => cases hh.symm.trans hhandshake
  | @acknowledged b answered rest _ hpipeline _ =>
      obtain ⟨more, hqueue⟩ := hkept.inv.queue_eq hpipeline
      refine ⟨⟨⟨hkept', htasks⟩, hhandshake⟩, ?_⟩
      have hrest : (c.settled b true).queue.length < c.queue.length := by
        rw [queue_settled hkept.inv.ordered hqueue, hqueue]
        exact Nat.lt_succ_self _
      exact hrest

/-- A write is taken, if none is answered, and then its answer is read. -/
theorem flowing_round (h : Flowing rejected user c) (hpipeline : c.writePipeline ≠ []) :
    Reaches Client.next (isOwn · = true)
      (fun t => Flowing rejected user t ∧ t.queue.length < c.queue.length) c := by
  by_cases hunheard : c.unheard = []
  · obtain ⟨⟨hkept, htasks⟩, hhandshake⟩ := h
    obtain ⟨answered, rest, hsplit, hstream⟩ := hkept.inv.streaming hhandshake
    rw [unheard_eq hhandshake hsplit hstream] at hunheard
    subst hunheard
    have hne : rest ≠ [] := by
      intro hnil
      rw [hsplit, hnil] at hpipeline
      exact hpipeline rfl
    obtain ⟨b, rest, rfl⟩ := List.exists_cons_of_ne_nil hne
    have htake : (c.step .take).isSome = true := by
      rw [Client.step, hstream]
      rfl
    obtain ⟨c', hn, hs, hkept'⟩ := hkept.next rfl htake
    refine .head rfl hn ?_
    cases hs with
    | greeting hh => cases hh.symm.trans hhandshake
    | taken =>
        have hflowing : Flowing rejected user _ := ⟨⟨hkept', htasks⟩, hhandshake⟩
        refine flowing_read hflowing ?_
        obtain ⟨answered, rest, hpipeline', hstream'⟩ := hkept'.inv.streaming hhandshake
        rw [unheard_eq hflowing.2 hpipeline' hstream']
        rintro rfl
        simp at hstream'
  · exact flowing_read h hunheard

theorem reaches_drained (h : Flowing rejected user c) :
    Reaches Client.next (isOwn · = true)
      (fun t => Calm rejected user t ∧ t.writePipeline = []) c := by
  refine Reaches.of_measure (fun c : Client U M => c.queue.length) ?_ h
  intro c h
  by_cases hpipeline : c.writePipeline = []
  · exact .inl ⟨h.1, hpipeline⟩
  · exact .inr (flowing_round h hpipeline)

/-! ## The stages before -/

/-- The handshake is taken, if it was not, and its answer is read. -/
theorem reaches_flowing (h : Calm rejected user c) (hstream : c.grpcStream ≠ none)
    (hhandshake : c.handshakeComplete = false) :
    Reaches Client.next (isOwn · = true) (Flowing rejected user) c := by
  have hread : ∀ {c : Client U M}, Calm rejected user c → c.handshakeComplete = false →
      c.grpcStream = some ⟨c.currentUser, [], 1⟩ →
        Reaches Client.next (isOwn · = true) (Flowing rejected user) c := by
    rintro c ⟨hkept, htasks⟩ hhandshake hg
    have hread : (c.step .read).isSome = true := by
      rw [Client.step, hg]
      rfl
    obtain ⟨c', hn, hs, hkept'⟩ := hkept.next rfl hread
    refine .head rfl hn (.refl ?_)
    cases hs with
    | greeted => exact ⟨⟨hkept', htasks⟩, rfl⟩
    | acknowledged hh => cases hh.symm.trans hhandshake
  obtain ⟨hkept, htasks⟩ := h
  cases hkept.inv.shape with
  | stopped _ _ hg => exact absurd hg hstream
  | waiting _ _ hg => exact absurd hg hstream
  | streaming _ _ _ hh => cases hhandshake.symm.trans hh
  | greeting _ _ _ hg _ =>
      rcases hg with hg | hg
      · have htake : (c.step .take).isSome = true := by
          rw [Client.step, hg]
          rfl
        obtain ⟨c', hn, hs, hkept'⟩ := hkept.next rfl htake
        refine .head rfl hn ?_
        cases hs with
        | greeting => exact hread ⟨hkept', htasks⟩ hhandshake rfl
        | taken hh => cases hh.symm.trans hhandshake
      · exact hread ⟨hkept, htasks⟩ hhandshake hg

/-- The token a stream waits for comes. It opens the stream, unless the user was
announced anew since it was asked for. -/
theorem reaches_token (h : Calm rejected user c) {i : Nat} {request : TokenRequest}
    (hrequest : c.tokenRequests[i]? = some request)
    (hcount : request.initialCloseCount = c.closeCount) :
    Reaches Client.next (isOwn · = true)
      (fun t => Calm rejected user t ∧
        (t.grpcStream ≠ none ∧ t.handshakeComplete = false ∨
          t.state = .backoff ∧ request.initialTokenCounter ≠ c.tokenCounter)) c := by
  obtain ⟨hkept, htasks⟩ := h
  have htoken : (c.step (.token i none)).isSome = true := by
    rw [Client.step, hrequest]
    rfl
  obtain ⟨c₁, hn₁, hs₁, hkept₁⟩ := hkept.next rfl htoken
  refine .head rfl hn₁ ?_
  cases hs₁ with
  | @token _ request' hrequest' _ =>
      obtain rfl : request' = request := Option.some.inj (hrequest'.symm.trans hrequest)
      obtain ⟨c₁, hc₁⟩ : ∃ c₁ : Client U M, c₁ =
          { c.enqueue (.resumeStart request'.initialCloseCount (c.tokenFor request' none)) with
            tokenRequests := c.tokenRequests.eraseIdx i } := ⟨_, rfl⟩
      rw [← hc₁] at hkept₁ ⊢
      have htasks₁ : c₁.tasks = [.resumeStart c.closeCount (c.tokenFor request' none)] := by
        rw [hc₁, ← hcount]
        show c.tasks ++ _ = _
        rw [htasks]
        rfl
      have hcount₁ : c₁.closeCount = c.closeCount := by rw [hc₁]; rfl
      have hwork : (c₁.step .work).isSome = true := by
        rw [Client.step, htasks₁]
        rfl
      obtain ⟨c₂, hn₂, hs₂, hkept₂⟩ := hkept₁.next rfl hwork
      have htasks₂ : c₂.tasks = [] := by rw [tasks_of_work hs₂, htasks₁]; rfl
      refine .head rfl hn₂ (.refl ⟨⟨hkept₂, htasks₂⟩, ?_⟩)
      cases hs₂ with
      | stored h => cases htasks₁.symm.trans h
      | switched h => cases htasks₁.symm.trans h
      | switchedOffline h => cases htasks₁.symm.trans h
      | enabled h => cases htasks₁.symm.trans h
      | disabled h => cases htasks₁.symm.trans h
      | stale h hn =>
          injection htasks₁.symm.trans h with hhead
          injection hhead with hcount₂
          exact absurd (hcount₁.trans hcount₂) hn
      | opened h hstarting =>
          exact .inl ⟨by simp, hkept₁.inv.unshaken (by rw [hstarting]; decide)⟩
      | @unauthorized e tasks h hstarting =>
          obtain ⟨-, -, hne⟩ := hkept₁.inv.shape.expecting (.inr hstarting)
          have hnetwork := hkept₁.inv.network_of_pipeline hne
          have hshould : ({ c₁ with tasks }.cut .error : Client U M).shouldStartWriteStream = true := by
            simp [shouldStartWriteStream, cut, dropped, isStarted, isOpen, hnetwork, hne]
          refine .inr ⟨?_, ?_⟩
          · rcases kicked_cases ({ c₁ with tasks }.cut .error) with ⟨hno, -⟩ | ⟨-, -, heq⟩ | ⟨-, hs, -⟩
            · cases hno.symm.trans hshould
            · rw [heq]
            · cases hs
          · -- the token of the user who was announced last is not refused
            intro hfresh
            have htoken : c.tokenFor request' none = .ok c.user := if_neg (not_not_intro hfresh)
            rw [htoken] at htasks₁
            injection htasks₁.symm.trans h with hhead
            injection hhead with _ hok
            cases hok

/-- The backoff ends in a token that is asked for anew. -/
theorem reaches_restart (h : Calm rejected user c) (hstate : c.state = .backoff) :
    Reaches Client.next (isOwn · = true)
      (fun t => Calm rejected user t ∧ t.grpcStream ≠ none ∧ t.handshakeComplete = false) c := by
  obtain ⟨hkept, htasks⟩ := h
  have helapsed : (c.step .backoffElapsed).isSome = true := by
    rw [Client.step, if_pos hstate]
    rfl
  obtain ⟨c', hn, hs, hkept'⟩ := hkept.next rfl helapsed
  refine .head rfl hn ?_
  cases hs with
  | restarted =>
      have hrequest : ({ c with state := .starting }.requestCredentials : Client U M).tokenRequests[
          c.tokenRequests.length]? = some ⟨c.closeCount, c.tokenCounter⟩ := by
        simp [requestCredentials]
      refine (reaches_token ⟨hkept', htasks⟩ hrequest rfl).bind fun t ht => .refl ?_
      rcases ht with ⟨hcalm, hopen | ⟨-, hstale⟩⟩
      · exact ⟨hcalm, hopen⟩
      · exact absurd rfl hstale

theorem reaches_idle (h : Calm rejected user c) :
    Reaches Client.next (isOwn · = true)
      (fun t => Calm rejected user t ∧ t.writePipeline = []) c := by
  have hgreeting : ∀ {t : Client U M},
      Calm rejected user t ∧ t.grpcStream ≠ none ∧ t.handshakeComplete = false →
        Reaches Client.next (isOwn · = true)
          (fun t => Calm rejected user t ∧ t.writePipeline = []) t :=
    fun ht => (reaches_flowing ht.1 ht.2.1 ht.2.2).bind fun _ => reaches_drained
  have hinv := h.1.inv
  cases hinv.shape with
  | stopped hs _ _ =>
      have hstarted : c.isStarted = false := by
        rcases hs with hs | hs <;> simp [isStarted, isOpen, hs]
      exact .refl ⟨h, hinv.started hstarted⟩
  | waiting hs _ _ _ =>
      rcases hs with hbackoff | hstarting
      · exact (reaches_restart h hbackoff).bind fun _ => hgreeting
      · -- a token is on its way, and it is not in a task
        have hlive := hinv.live
        rw [if_pos hstarting] at hlive
        have hmem : c.closeCount ∈ c.closeCounts := List.count_pos_iff.mp (by rw [hlive]; decide)
        rw [closeCounts, h.2, List.filterMap_nil, List.append_nil] at hmem
        obtain ⟨request, hin, hcount⟩ := List.mem_map.mp hmem
        obtain ⟨i, hi⟩ := List.getElem?_of_mem hin
        refine (reaches_token h hi hcount).bind fun t ht => ?_
        rcases ht with ⟨hcalm, hopen | ⟨hbackoff, -⟩⟩
        · exact hgreeting ⟨hcalm, hopen⟩
        · exact (reaches_restart hcalm hbackoff).bind fun _ => hgreeting
  | greeting _ hh _ hg _ =>
      refine hgreeting ⟨h, ?_, hh⟩
      rcases hg with hg | hg <;> simp [hg]
  | streaming _ _ _ hh _ _ _ => exact reaches_drained ⟨h, hh⟩

/-- From every reachable state the system left to itself can do what there is
to do. No task waits then, and with a network no write of the user who is
signed in, and no write was rejected on the way. -/
theorem drains_of_run {batches : List (MutationBatch U M)}
    (hbatches : batches.Pairwise fun a b => a.batchId < b.batchId) {user : U} {log : List M}
    {c₀ : Client U M} (h₀ : initialized batches user log = .ok c₀) {evs : List (Event U M)}
    (h : run Client.next c₀ evs = some c) :
    ∃ evs' c', (∀ e ∈ evs', isOwn e = true) ∧ run Client.next c evs' = some c' ∧ c'.tasks = [] ∧
      c'.currentUser = c.user ∧ (c'.isNetworkEnabled = true → c'.queue = []) ∧
      c'.rejected = c.rejected := by
  have hkept : Kept c.rejected c.user c := ⟨inv_of_run hbatches h₀ h, rfl, rfl⟩
  obtain ⟨evs', c', hall, hrun, ⟨hkept', htasks⟩, hpipeline⟩ :=
    (reaches_calm hkept).bind fun _ => reaches_idle
  refine ⟨evs', c', hall, hrun, htasks, ?_, fun hnetwork => ?_, hkept'.rejected⟩
  · have huser := hkept'.inv.user
    rw [htasks] at huser
    exact huser.trans hkept'.user
  · have hwindow := hkept'.inv.pipeline
    rw [hpipeline, window, if_pos hnetwork] at hwindow
    rcases List.take_eq_nil_iff.mp hwindow.symm with hzero | hnil
    · cases hzero
    · exact hnil

theorem drains_of_run_switched :
    ∃ c : Client Bool Nat,
      run Client.next (launched [⟨true, 1, 3⟩] true []) [.write 7, .announce false, .work] = some c ∧
        ∃ evs' c', (∀ e ∈ evs', isOwn e = true) ∧ run Client.next c evs' = some c' ∧
          c'.tasks = [] ∧ c'.currentUser = c.user ∧
            (c'.isNetworkEnabled = true → c'.queue = []) ∧ c'.rejected = c.rejected := by
  have hsome : (run Client.next (launched [⟨true, 1, 3⟩] true [] : Client Bool Nat)
      [.write 7, .announce false, .work]).isSome = true := rfl
  have h₀ : initialized [⟨true, 1, 3⟩] true [] =
      .ok (launched [⟨true, 1, 3⟩] true [] : Client Bool Nat) := rfl
  obtain ⟨c, hrun⟩ := Option.isSome_iff_exists.mp hsome
  exact ⟨c, hrun, drains_of_run (List.pairwise_singleton _ _) h₀ hrun⟩

end Pompeius.Firestore.Client
